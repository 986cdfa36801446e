/-
Module: LineShell.Shell.Submit
Purpose: What happens to a line that is submitted.
Main exports: Launch, Reaction, Shell.runBuiltin, Shell.dispatch, Shell.execute,
  Shell.submit
-/
import LineShell.Shell.Basic

namespace LineShell

/-- The two kinds of programs that run beside the shell. -/
inductive ProgramKind where
  | internal
  | external
deriving DecidableEq, Repr, Inhabited

/-- A program that is to be run beside the shell. -/
structure Launch where
  kind : ProgramKind
  name : Text
  start : Start
deriving DecidableEq, Repr, Inhabited

/-- What dispatching a command leads to: a status at once, a program to run, or a
failure to make the program, which nobody catches. -/
inductive Dispatch where
  | finished (status : Int)
  | launched (launch : Launch)
  | raised (fault : Fault)

/-- What an input event tells the host: nothing, a program that is to be run beside the
shell, or a failure. -/
inductive Reaction where
  | done
  | launched (launch : Launch)
  | raised (fault : Fault)
deriving DecidableEq, Repr, Inhabited

/-- The failure that was raised, if one was. -/
def Reaction.fault? : Reaction → Option Fault
  | .raised fault => some fault
  | .done | .launched _ => none

namespace Shell

/-- Runs a builtin program and yields its status. -/
def runBuiltin (shell : Shell) (name : Text) (script : BuiltinScript) : Int × Shell :=
  let environment : Environment :=
    { console := shell.console
      store := shell.store
      programs := shell.programs
      calls := shell.journal.calls }
  let (result, after) := script.play environment
  let left : Shell :=
    { shell with
      console := after.console
      store := after.store
      programs := after.programs
      journal := { shell.journal with calls := after.calls } }
  match result with
  | .ok status => (status, left)
  | .error fault =>
      (statusFailure,
        (left.warn ("builtin " ++ name ++ " failed")).report (.program name fault.summary))

/-- Refuses to run a program beside the shell, since nothing would run it. -/
def refuse (shell : Shell) (name : Text) : Dispatch × Shell :=
  (.finished statusFailure,
    (shell.warn ("cannot start " ++ name ++ " without a running event loop")).report
      (.program name "no running event loop"))

/-- Looks up the program of a command and runs it, or says what is to be run.
Programs other than builtin ones need a scheduler. -/
def dispatch (shell : Shell) (scheduled : Bool) (command : Command) : Dispatch × Shell :=
  let name := command.name
  match shell.programs.get? name with
  | none =>
      (.finished statusNotFound,
        shell.withConsole (·.println (ownMessage ("command not found: " ++ name))))
  | some (.builtin (.error fault)) => (.raised fault, shell)
  | some (.builtin (.ok run)) =>
      let (status, after) :=
        shell.runBuiltin name (run shell.store (command.arguments shell.store))
      (.finished status, after)
  | some (.internal make) =>
      if scheduled then
        match make with
        | .error fault => (.raised fault, shell)
        | .ok run =>
            let arguments := command.arguments shell.store
            (.launched { kind := .internal, name := name, start := run arguments }, shell)
      else shell.refuse name
  | some (.external run) =>
      if scheduled then
        let texts := command.texts shell.store
        (.launched { kind := .external, name := name, start := run texts }, shell)
      else shell.refuse name

/-- Carries out a command. -/
def execute (shell : Shell) (scheduled : Bool) (command : Command) : Reaction × Shell :=
  match shell.dispatch scheduled command with
  | (.finished status, after) => (.done, after.setStatus status)
  | (.launched launch, after) => (.launched launch, { after with activity := .running })
  | (.raised fault, after) => (.raised fault, after)

/-- Ends the line being typed: shows it once more without a suggestion, and empties
the buffer. -/
def endLine (shell : Shell) : Shell :=
  let shown := (shell.withConsole fun console => console.reset.showPrompt).writeLine
  { shown.withConsole (·.println) with buffer := Buffer.empty, suggestion := none }

/-- Submits the line being typed.  A blank line is ended and nothing else. -/
def submit (shell : Shell) (scheduled : Bool) : Reaction × Shell :=
  let line := shell.buffer.text
  let ended := shell.endLine
  if line.isBlank then (.done, ended)
  else
    let committed := { ended with history := ended.history.commit line }
    match parseStrict line with
    | .ok command => committed.execute scheduled command
    | .error fault =>
        (.done,
          (committed.withConsole (·.println (ownMessage fault.message))).setStatus
            statusSyntaxError)

end Shell

end LineShell
