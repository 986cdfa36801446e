/-
Module: LineShell.Program.Builtin
Purpose: The builtin programs: echo, export, clear, true and false.
Main exports: Builtin.echo, Builtin.exportVariables, Builtin.clear, Builtin.succeed,
  Builtin.failing
-/
import LineShell.Program.Script
import LineShell.Syntax.Grammar

namespace LineShell.Builtin

/-- Writes its arguments with single spaces between them, and ends the line. -/
def echo (arguments : List Argument) : BuiltinScript :=
  { acts := [.write (Text.joined [' '] (arguments.map Argument.flat)), .write lineEnd]
    ending := .ok statusSuccess }

/-- Wipes the terminal. -/
def clear : BuiltinScript :=
  { acts := [.clear], ending := .ok statusSuccess }

/-- Does nothing, with success. -/
def succeed : BuiltinScript :=
  { acts := [], ending := .ok statusSuccess }

/-- Does nothing, without success. -/
def failing : BuiltinScript :=
  { acts := [], ending := .ok statusFailure }

/-! ### Setting variables -/

/-- A line in the colour of warnings. -/
def warning (message : Text) : BuiltinAct :=
  .write (paint message .yellow ++ lineEnd)

/-- A text up to its first equals sign, and what is behind that sign if there is
one. -/
def splitAssignment (text : Text) : Text × Option Text :=
  match text.dropWhile (· ≠ '=') with
  | [] => (text, none)
  | _ :: value => (text.takeWhile (· ≠ '='), some value)

/-- What is wrong with an argument that should set a variable, or the name and
value it gives. -/
def assignment (argument : Argument) : Except Text (Text × Text) :=
  match argument with
  | .switch name _ _ => .error ("Invalid argument: " ++ name)
  | .text text =>
      match splitAssignment text with
      | ([], _) => .error "Variable name isn't provided."
      | (_, none) => .error "Missing variable value."
      | (_, some []) => .error "Missing variable value."
      | (name, some value) =>
          if name.all isNameChar then .ok (name, value)
          else .error ('\x27' :: name ++ "': not a valid identifier")

/-- Sets the variable that an argument gives, or warns about the argument. -/
def assign (argument : Argument) : BuiltinAct :=
  match assignment argument with
  | .ok (name, value) => .setVariable name value
  | .error message => warning message

/-- Whether an argument sets a variable. -/
def isAssignment (argument : Argument) : Bool :=
  (assignment argument).isOk

/-- The lines that list all variables by name, without the last status. -/
def listing (store : Variables) : List BuiltinAct :=
  ((Text.sorted store.keys).filter (· ≠ ['?'])).map fun name =>
    .write (name ++ '=' :: store.lookup name ++ lineEnd)

/-- Sets the variables that its arguments give, each argument on its own, and
fails if one of them was wrong.  Without arguments it lists the variables. -/
def exportVariables (store : Variables) (arguments : List Argument) : BuiltinScript :=
  if arguments.isEmpty then
    { acts := listing store, ending := .ok statusSuccess }
  else
    { acts := arguments.map assign
      ending := .ok (if arguments.all isAssignment then statusSuccess else statusFailure) }

end LineShell.Builtin
