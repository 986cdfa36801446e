/-
Module: LineShell.Editor.History
Purpose: The submitted lines and the place of browsing among them.
Main exports: History, History.commit, History.up, History.down, History.current,
  History.find
-/
import LineShell.Text.Basic

namespace LineShell

/-- The submitted lines, oldest first, and the index of the one that is shown.
Behind the newest line nothing is shown. -/
structure History where
  entries : List Text := []
  cursor : Nat := 0
deriving DecidableEq, Repr, Inhabited

namespace History

/-- The line at the cursor. -/
def current (history : History) : Option Text :=
  history.entries[history.cursor]?

/-- Adds a line; browsing starts anew behind it. -/
def commit (history : History) (line : Text) : History :=
  { entries := history.entries ++ [line], cursor := history.entries.length + 1 }

/-- One line back, as far as there is one. -/
def up (history : History) : History :=
  { history with cursor := history.cursor - 1 }

/-- One line forward, at most to the place behind the newest. -/
def down (history : History) : History :=
  if history.cursor < history.entries.length then
    { history with cursor := history.cursor + 1 }
  else history

/-- The newest line that starts with a given text. -/
def find (history : History) (beginning : Text) : Option Text :=
  history.entries.reverse.find? (beginning.isPrefixOf ·)

end History

end LineShell
