/-
Module: LineShell.Program.Argument
Purpose: The arguments that a program is given, and how the parameters of a
  command become arguments.
Main exports: Argument, Argument.flat, Template.expand, Param.argument,
  Command.arguments, Command.texts
-/
import LineShell.Syntax.Tree
import LineShell.Table

namespace LineShell

/-- An argument as a program sees it. -/
inductive Argument where
  /-- Plain text. -/
  | text (content : Text)
  /-- A switch, with one dash or two, and its value if it has one. -/
  | switch (name : Text) (value : Option Text) (long : Bool)
deriving DecidableEq, Repr, Inhabited

namespace Argument

/-- The argument as one text, written as a switch is written on the command line. -/
def flat : Argument → Text
  | .text content => content
  | .switch name value long =>
      (if long then ['-', '-'] else ['-']) ++ name ++
        match value with
        | none => []
        | some value => '=' :: value

end Argument

/-! ### Expansion -/

/-- A part of a template, with the value of the variable in place of a reference.
The value is not looked at for further references. -/
def Part.expand (store : Variables) : Part → Text
  | .literal run => run.value
  | .reference mention => store.lookup mention.id.name

/-- A body with all references replaced. -/
def Body.expand (store : Variables) (body : Body) : Text :=
  body.parts.flatMap (Part.expand store)

/-- The text that a template stands for.  Raw text stands for itself. -/
def Template.expand (store : Variables) : Template → Text
  | .singleQuoted raw => raw.text
  | .doubleQuoted body => body.expand store
  | .unquoted body => body.expand store

/-- A switch as an argument. -/
def Switch.argument (store : Variables) (long : Bool) (switch : Switch) : Argument :=
  .switch switch.name.name (switch.value.map (Template.expand store)) long

/-- A parameter as an argument. -/
def Param.argument (store : Variables) : Param → Argument
  | .literal template _ => .text (template.expand store)
  | .shortSwitch switch => switch.argument store false
  | .longSwitch switch => switch.argument store true

/-- A parameter as a plain text argument, for programs that know no switches. -/
def Param.textArgument (store : Variables) : Param → Argument
  | .literal template _ => .text (template.expand store)
  | .shortSwitch switch => .text (switch.argument store false).flat
  | .longSwitch switch => .text (switch.argument store true).flat

namespace Command

/-- The structured arguments of a command. -/
def arguments (store : Variables) (command : Command) : List Argument :=
  command.params.map fun parameter => parameter.param.argument store

/-- The arguments of a command, every one of them plain text. -/
def textArguments (store : Variables) (command : Command) : List Argument :=
  command.params.map fun parameter => parameter.param.textArgument store

/-- The arguments of a command as texts. -/
def texts (store : Variables) (command : Command) : List Text :=
  (command.textArguments store).map Argument.flat

end Command

end LineShell
