/-
Module: LineShell.Terminal.Recording
Purpose: What has been sent to a terminal.
Main exports: Sink, Terminal, Terminal.write, Terminal.clear, Terminal.recorded
-/
import LineShell.Terminal.Escape

namespace LineShell

/-- The two kinds of terminal: one kept in memory, which can forget, and a stream,
which can only be told to erase. -/
inductive Sink where
  | memory
  | stream
deriving DecidableEq, Repr, Inhabited

/-- A terminal as the record of what was written to it, newest piece first, and
how often its memory was wiped. -/
structure Terminal where
  sink : Sink := .memory
  pieces : List Text := []
  wipes : Nat := 0
deriving DecidableEq, Repr, Inhabited

namespace Terminal

/-- Sends text as it is. -/
def write (terminal : Terminal) (text : Text) : Terminal :=
  { terminal with pieces := text :: terminal.pieces }

/-- Wipes the terminal. -/
def clear (terminal : Terminal) : Terminal :=
  match terminal.sink with
  | .memory => { terminal with pieces := [], wipes := terminal.wipes + 1 }
  | .stream => terminal.write eraseScreen

/-- Everything written since the last wipe of the memory. -/
def recorded (terminal : Terminal) : Text :=
  terminal.pieces.reverse.flatten

/-- What was written since an earlier state of the same terminal; after a wipe,
everything that the memory holds. -/
def recordedSince (terminal earlier : Terminal) : Text :=
  if terminal.wipes = earlier.wipes then
    (terminal.pieces.take (terminal.pieces.length - earlier.pieces.length)).reverse.flatten
  else
    terminal.recorded

@[simp] theorem recorded_write (terminal : Terminal) (text : Text) :
    (terminal.write text).recorded = terminal.recorded ++ text := by
  simp [recorded, write]

end Terminal

end LineShell
