/-
Module: LineShell.Terminal.Console
Purpose: Printing to a terminal line by line.  A console knows whether the last
  thing written ended a line, so that it can finish one that was left dangling.
Main exports: Prompt, Console, Console.write, Console.println, Console.clear,
  Console.reset, Console.showPrompt, Console.complete
-/
import LineShell.Terminal.Recording
import LineShell.Terminal.Width

namespace LineShell

/-- What is shown in front of the line being typed. -/
inductive Prompt where
  | text (content : Text)
  /-- An empty list in the place of a text.  Its brackets are shown, and yet no columns
  are counted for it. -/
  | emptyList
deriving DecidableEq, Repr, Inhabited

namespace Prompt

/-- What is written for a prompt. -/
def shown : Prompt → Text
  | text content => content
  | emptyList => "[]"

/-- The columns that are counted for a prompt. -/
def width : Prompt → Nat
  | text content => visibleWidth content
  | emptyList => 0

end Prompt

/-- A terminal, the prompt that is shown on it, and whether the cursor stands
where a line starts. -/
structure Console where
  terminal : Terminal := {}
  prompt : Prompt := .text "❯ "
  atLineStart : Bool := true
deriving DecidableEq, Repr, Inhabited

namespace Console

/-- The columns that the prompt takes. -/
def promptWidth (console : Console) : Nat :=
  console.prompt.width

/-- Sends text to the terminal.  Text that shows nothing leaves it open whether a
line starts here. -/
def write (console : Console) (text : Text) : Console :=
  if text.isEmpty then console
  else
    { console with
      terminal := console.terminal.write text
      atLineStart :=
        if visibleWidth text = 0 then console.atLineStart
        else text.getLast? == some '\n' }

/-- Writes a text and ends the line. -/
def println (console : Console) (text : Text := []) : Console :=
  (console.write text).write lineEnd

/-- Wipes the terminal. -/
def clear (console : Console) : Console :=
  { console with terminal := console.terminal.clear, atLineStart := true }

/-- Goes to the left edge and erases the line. -/
def reset (console : Console) : Console :=
  { console with
    terminal := (console.terminal.write cursorLeftEdge).write eraseLine
    atLineStart := true }

/-- Writes the prompt. -/
def showPrompt (console : Console) : Console :=
  console.write (paint console.prompt.shown .purple)

/-- Ends a line that was left dangling. -/
def complete (console : Console) : Console :=
  if console.atLineStart then console else console.println

end Console

end LineShell
