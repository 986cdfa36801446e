/-
Module: LineShell.Program.Script
Purpose: What a program does, as data: its effects in order, the points where it
  waits, and how it ends.
Main exports: HostCall, BuiltinAct, BuiltinScript, Act, Wait, Result, Ending, Script,
  Start, Stage, Script.play, Start.play
-/
import LineShell.Program.Argument
import LineShell.Program.Completion
import LineShell.Terminal.Console

namespace LineShell

/-- A call of a function of the host: of a program that knows switches, of one
that takes plain texts, or of the function that fetches a URL. -/
inductive HostCall where
  | structured (name : Text) (arguments : List Argument)
  | flat (name : Text) (arguments : List Text)
  | fetch (url : Text)
deriving DecidableEq, Repr, Inhabited

/-! ### Builtin programs -/

/-- One effect of a builtin program.  Builtin programs reach the terminal, the
variables and the table of programs. -/
inductive BuiltinAct where
  | write (text : Text)
  | clear
  | completeLine
  | setVariable (name value : Text)
  | unsetVariable (name : Text)
  | aliasProgram (name target : Text)
  | removeProgram (name : Text)
  | call (call : HostCall)
deriving DecidableEq, Repr, Inhabited

/-- What a builtin program does: its effects, and then the status that it returns
or the failure that ends it.  It never waits. -/
structure BuiltinScript where
  acts : List BuiltinAct
  ending : Except Fault Int

/-! ### Other programs -/

/-- One effect of an internal or external program. -/
inductive Act where
  | write (text : Text)
  | clear
  | completeLine
  | call (call : HostCall)
  /-- Sends the completion signal. -/
  | send (status : Int)
  /-- Sends the completion signal, and writes whether it was in time. -/
  | sendReporting (status : Int)
  /-- Writes whether the completion signal is decided. -/
  | reportDecided
  /-- Lets go of the completion signal. -/
  | release
deriving DecidableEq, Repr, Inhabited

/-- What a program can wait for. -/
inductive Wait where
  | gate (name : Text)
  | sleep (seconds : Rat)
deriving DecidableEq, Repr, Inhabited

/-- What a program returns: a whole number, a truth value, which is a whole number of
a special kind, or anything else. -/
inductive Result where
  | number (value : Int)
  | truth (value : Bool)
  | other
deriving DecidableEq, Repr, Inhabited

namespace Result

/-- The whole number that a result is, if it is one. -/
def number? : Result → Option Int
  | number value => some value
  | truth value => some (if value then 1 else 0)
  | other => none

/-- Whether a result is a truth value. -/
def isTruth : Result → Bool
  | truth _ => true
  | number _ | other => false

/-- The status that a result stands for.  A truth value is no status, though it is a
number. -/
def status (result : Result) : Int :=
  match result.number? with
  | some value => if result.isTruth then statusSuccess else value
  | none => statusSuccess

end Result

/-- How a program ends.  A cancelled program neither returned nor failed. -/
inductive Ending where
  | returned (result : Result)
  | failed (fault : Fault)
  | cancelled
deriving DecidableEq, Repr, Inhabited

/-- What a program does from some point on. -/
inductive Script where
  | stop (ending : Ending)
  | perform (act : Act) (next : Script)
  /-- Starts another strand of the program, which may hold the completion signal, too. -/
  | spawn (shares : Bool) (body next : Script)
  /-- Waits.  A strand that is cancelled while it waits goes on in another way. -/
  | await (wait : Wait) (next interrupted : Script)
deriving DecidableEq, Repr, Inhabited

/-- What is done inside the call of a program.  Nothing is waited for there, but the
call can return something that is still to be awaited. -/
inductive Start where
  | stop (ending : Ending)
  | perform (act : Act) (next : Start)
  | spawn (shares : Bool) (body : Script) (next : Start)
  /-- Returns a script that is to be awaited and may hold the completion signal. -/
  | defer (shares : Bool) (body : Script)
deriving DecidableEq, Repr, Inhabited

/-! ### Playing a script -/

/-- What a strand of a program leaves behind for the scheduler. -/
inductive Stir where
  /-- The completion signal was decided. -/
  | decided
  /-- A strand was started. -/
  | spawned (holds : Bool) (body : Script)
deriving DecidableEq, Repr, Inhabited

/-- What internal and external programs reach while they run, and what they have
stirred up so far. -/
structure Stage where
  console : Console
  completion : Completion := .pending
  /-- Whether the completion signal is held here. -/
  holds : Bool := false
  /-- Whether it is held elsewhere, too. -/
  shared : Bool := false
  calls : List HostCall := []
  stirs : List Stir := []
deriving DecidableEq, Repr, Inhabited

/-- The words for yes and no. -/
def truthText (value : Bool) : Text :=
  if value then "True" else "False"

namespace Stage

/-- Sends the completion signal.  Who does not hold it has nothing to send it with. -/
def send (stage : Stage) (status : Int) : Bool × Stage :=
  if stage.holds then
    let (timely, completion) := stage.completion.send status
    (timely, { stage with
               completion := completion
               stirs := if timely then stage.stirs ++ [.decided] else stage.stirs })
  else (false, stage)

/-- Lets go of the completion signal.  If nobody else holds it, nobody can send it
any more. -/
def release (stage : Stage) : Stage :=
  let last := stage.holds && !stage.shared
  { stage with
    holds := false
    completion := if last then stage.completion.abandon else stage.completion
    stirs :=
      if last && stage.completion = .pending then stage.stirs ++ [.decided] else stage.stirs }

/-- Writes to the terminal. -/
def write (stage : Stage) (text : Text) : Stage :=
  { stage with console := stage.console.write text }

/-- The effect of one act. -/
def perform (stage : Stage) : Act → Stage
  | .write text => stage.write text
  | .clear => { stage with console := stage.console.clear }
  | .completeLine => { stage with console := stage.console.complete }
  | .call call => { stage with calls := stage.calls ++ [call] }
  | .send status => (stage.send status).2
  | .sendReporting status =>
      let (timely, stage) := stage.send status
      stage.write (truthText timely)
  | .reportDecided => stage.write (truthText stage.completion.isDecided)
  | .release => stage.release

/-- A strand more.  It can only share what is held here. -/
def spawn (stage : Stage) (shares : Bool) (body : Script) : Stage :=
  let holds := shares && stage.holds
  { stage with
    shared := stage.shared || holds
    stirs := stage.stirs ++ [.spawned holds body] }

end Stage

/-- Where playing a script stops. -/
inductive Pause where
  | ended (ending : Ending)
  | waiting (wait : Wait) (next interrupted : Script)
deriving DecidableEq, Repr, Inhabited

/-- What a call comes to: its end, or something to be awaited. -/
inductive Called where
  | ended (ending : Ending)
  | deferred (shares : Bool) (body : Script)
deriving DecidableEq, Repr, Inhabited

namespace Script

/-- Plays a script up to its end or to where it has to wait.  It does not wait for
a gate that is open. -/
def play (isOpen : Text → Bool) : Script → Stage → Pause × Stage
  | .stop ending, stage => (.ended ending, stage)
  | .perform act next, stage => play isOpen next (stage.perform act)
  | .spawn shares body next, stage => play isOpen next (stage.spawn shares body)
  | .await (.gate name) next interrupted, stage =>
      if isOpen name then play isOpen next stage
      else (.waiting (.gate name) next interrupted, stage)
  | .await (.sleep seconds) next interrupted, stage =>
      (.waiting (.sleep seconds) next interrupted, stage)

/-- Acts in order, and then the rest of a script. -/
def acts (acts : List Act) (next : Script) : Script :=
  acts.foldr .perform next

/-- Waits in order, and then the rest of a script.  Who is cancelled meanwhile does
nothing more. -/
def awaits (waits : List Wait) (next : Script) : Script :=
  waits.foldr (fun wait next => .await wait next (.stop .cancelled)) next

end Script

namespace Start

/-- Plays what is done inside a call. -/
def play : Start → Stage → Called × Stage
  | .stop ending, stage => (.ended ending, stage)
  | .perform act next, stage => play next (stage.perform act)
  | .spawn shares body next, stage => play next (stage.spawn shares body)
  | .defer shares body, stage => (.deferred shares body, stage)

end Start

end LineShell
