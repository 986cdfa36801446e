/-
Module: LineShell.Program.Completion
Purpose: The signal by which a program says that it is done, and with what
  status.  It is decided once and for all.
Main exports: Completion, Completion.send, Completion.isDecided,
  Completion.abandon, Completion.revoke
-/
import LineShell.Program.Fault

namespace LineShell

/-- The state of a completion signal. -/
inductive Completion where
  /-- The program may still send. -/
  | pending
  /-- The program sent a status. -/
  | sent (status : Int)
  /-- Nobody is left who could send. -/
  | abandoned
  /-- Nobody is left who would listen. -/
  | revoked
deriving DecidableEq, Repr, Inhabited

namespace Completion

/-- Whether a later send comes too late. -/
def isDecided : Completion → Bool
  | .pending => false
  | _ => true

/-- Sends a status; tells whether it was in time. -/
def send (completion : Completion) (status : Int) : Bool × Completion :=
  match completion with
  | .pending => (true, .sent status)
  | decided => (false, decided)

/-- The last one who could send is gone. -/
def abandon : Completion → Completion
  | .pending => .abandoned
  | decided => decided

/-- The one who listened is gone. -/
def revoke : Completion → Completion
  | .pending => .revoked
  | decided => decided

/-- What the listener of a program finds: a status, a failure, or nothing yet. -/
def outcome (program : Text) : Completion → Option (Except Fault Int)
  | .pending => none
  | .sent status => some (.ok status)
  | .abandoned => some (.error (.completion program))
  | .revoked => none

end Completion

end LineShell
