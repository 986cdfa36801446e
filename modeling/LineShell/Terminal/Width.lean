/-
Module: LineShell.Terminal.Width
Purpose: How many columns a text with control sequences takes.
Main exports: visibleWidth
-/
import LineShell.Terminal.Escape

namespace LineShell

mutual

/-- The number of characters outside control sequences.  An escape character
without a bracket behind it counts as one. -/
def visibleWidth : Text → Nat
  | [] => 0
  | '\x1b' :: '[' :: rest => widthAfterOpening rest
  | _ :: rest => visibleWidth rest + 1

/-- The same inside a control sequence, which lasts up to its final character or
to the end of the text. -/
def widthAfterOpening : Text → Nat
  | [] => 0
  | c :: rest => if isFinal c then visibleWidth rest else widthAfterOpening rest

end

end LineShell
