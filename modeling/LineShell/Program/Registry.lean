/-
Module: LineShell.Program.Registry
Purpose: The kinds of programs, the table of programs that a shell knows, and
  what a builtin program does to the shell.
Main exports: Program, Programs, standardPrograms, Environment,
  BuiltinScript.play
-/
import LineShell.Program.Builtin
import LineShell.Program.Curl

namespace LineShell

/-- A program by its kind.  A builtin program runs while the line is submitted and
sees the variables; an internal program takes structured arguments and signals
its completion; an external program takes plain texts and returns its status.
Builtin and internal programs are made anew by the host whenever one is run, and
making one may fail. -/
inductive Program where
  | builtin (make : Except Fault (Variables → List Argument → BuiltinScript))
  | internal (make : Except Fault (List Argument → Start))
  | external (run : List Text → Start)
deriving Inhabited

/-- The programs that a shell knows, by name. -/
abbrev Programs := Table Program

/-- The programs that every shell starts with; `curl` only where the host can
fetch. -/
def standardPrograms (fetch : Option Fetch) : Programs :=
  let builtins : List (Text × Program) :=
    [("clear", .builtin (.ok fun _ _ => Builtin.clear)),
     ("echo", .builtin (.ok fun _ arguments => Builtin.echo arguments)),
     ("export", .builtin (.ok Builtin.exportVariables)),
     ("true", .builtin (.ok fun _ _ => Builtin.succeed)),
     ("false", .builtin (.ok fun _ _ => Builtin.failing))]
  let fetching : List (Text × Program) :=
    match fetch with
    | none => []
    | some fetch => [("curl", .internal (.ok (Curl.start fetch)))]
  Table.empty.insertAll (builtins ++ fetching)

/-- What a builtin program reaches. -/
structure Environment where
  console : Console
  store : Variables := {}
  programs : Programs := {}
  calls : List HostCall := []
deriving Inhabited

namespace Environment

/-- The effect of one act.  Giving a second name to a program that is not there
fails; removing what is not there does nothing. -/
def perform (environment : Environment) : BuiltinAct → Except Fault Environment
  | .write text => .ok { environment with console := environment.console.write text }
  | .clear => .ok { environment with console := environment.console.clear }
  | .completeLine => .ok { environment with console := environment.console.complete }
  | .setVariable name value =>
      .ok { environment with store := environment.store.insert name value }
  | .unsetVariable name =>
      .ok { environment with store := environment.store.erase name }
  | .aliasProgram name target =>
      match environment.programs.get? target with
      | some program =>
          .ok { environment with programs := environment.programs.insert name program }
      | none => .error (.host "KeyError" (some (Quoted.text target)))
  | .removeProgram name =>
      .ok { environment with programs := environment.programs.erase name }
  | .call call => .ok { environment with calls := environment.calls ++ [call] }

/-- The effects of acts in order, up to the first that fails. -/
def performAll (environment : Environment) : List BuiltinAct → Option Fault × Environment
  | [] => (none, environment)
  | act :: others =>
      match environment.perform act with
      | .ok next => next.performAll others
      | .error fault => (some fault, environment)

end Environment

/-- Runs a builtin program: its status or the failure that ended it, and what it
left behind. -/
def BuiltinScript.play (script : BuiltinScript) (environment : Environment) :
    Except Fault Int × Environment :=
  match environment.performAll script.acts with
  | (some fault, after) => (.error fault, after)
  | (none, after) => (script.ending, after)

end LineShell
