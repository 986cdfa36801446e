/-
Module: LineShell.Program.Fault
Purpose: How a program can fail, and the words for it.
Main exports: Fault, Fault.message, Fault.summary, Fault.display, status values
-/
import LineShell.Number.Numeral
import LineShell.Text.Quoted

namespace LineShell

/-! ### Exit status -/

/-- A command that did what it was asked. -/
def statusSuccess : Int := 0

/-- A program that failed. -/
def statusFailure : Int := 1

/-- A line that is no command. -/
def statusSyntaxError : Int := 2

/-- A program that took too long. -/
def statusTimeout : Int := 124

/-- A program that does not exist. -/
def statusNotFound : Int := 127

/-! ### Faults -/

/-- A failure that ends a program.  The host has errors of its own, each of a
named kind and with a text or without one; the other three are the failures
that the shell itself knows, and they name the program that failed. -/
inductive Fault where
  | host (kind : Text) (text : Option Text)
  | program (name message : Text)
  | completion (name : Text)
  | timedOut (name : Text) (seconds : Numeral)
deriving DecidableEq, Repr, Inhabited

namespace Fault

/-- The name of the kind of failure. -/
def kind : Fault → Text
  | .host kind _ => kind
  | .program _ _ => "ProgramError"
  | .completion _ => "CompletionError"
  | .timedOut _ _ => "ProgramTimeoutError"

/-- What went wrong, where the failure says so. -/
def message : Fault → Text
  | .host _ text => text.getD []
  | .program name message => name ++ ": " ++ message
  | .completion name => name ++ ": " ++ "program exited without signalling completion"
  | .timedOut name seconds => name ++ ": " ++ "timed out after " ++ seconds.general ++ "s"

/-- What went wrong, or at least the kind of failure. -/
def summary (fault : Fault) : Text :=
  if fault.message.isEmpty then fault.kind else fault.message

/-- The kind of failure with its text in quotes, for the log. -/
def display : Fault → Text
  | .host kind none => kind ++ "()"
  | fault => fault.kind ++ "(" ++ Quoted.text fault.message ++ ")"

end Fault

end LineShell
