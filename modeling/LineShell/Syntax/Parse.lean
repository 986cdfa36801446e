/-
Module: LineShell.Syntax.Parse
Purpose: The two ways of reading a command line: as far as it goes, while the
  line is being typed, and as a whole, when it is submitted.
Main exports: leadingCommand, wholeCommand, parse, parseStrict
-/
import LineShell.Syntax.Grammar

namespace LineShell

/-- A command and a comment behind it, if there is one. -/
def leadingCommand : Rule Command := do
  discard skipBlanks
  let command ← command
  discard (attempt comment)
  return command

/-- A command with nothing but a comment and white space behind it.  When text
is left over, the error met furthest into the text says why, unless no error was
met behind the cursor. -/
def wholeCommand : Rule Command := do
  let command ← leadingCommand
  discard skipBlanks
  let reader ← get
  match reader.rest with
  | [] => return command
  | found :: _ =>
      let plain : SyntaxError :=
        { position := reader.position, found := some found, expected := none }
      match reader.furthest with
      | none => throw (.malformed plain)
      | some furthest =>
          if reader.position.index < furthest.position.index then
            throw (.malformed furthest)
          else
            throw (.malformed plain)

/-- Reads as much of a text as forms a command, and returns the command with the
text behind it. -/
def parse (text : Text) : Except ReadFault (Command × Text) :=
  match leadingCommand.run (Reader.start text) with
  | .ok command reader => .ok (command, reader.rest)
  | .error fault _ => .error fault

/-- Reads a text that is one command. -/
def parseStrict (text : Text) : Except ReadFault Command :=
  match wholeCommand.run (Reader.start text) with
  | .ok command _ => .ok command
  | .error fault _ => .error fault

end LineShell
