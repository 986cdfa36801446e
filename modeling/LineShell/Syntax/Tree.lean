/-
Module: LineShell.Syntax.Tree
Purpose: The syntax tree of a command line.  Every node that was read from a
  stretch of text records that stretch.
Main exports: Identifier, Reference, Literal, Part, Body, RawText, Template,
  Switch, Param, Parameter, Parameters, ProgramName, Command, Comment
-/
import LineShell.Syntax.Position

namespace LineShell

/-- A name, of a variable, a switch or a program. -/
structure Identifier where
  name : Text
  span : Span
deriving DecidableEq, Repr, Inhabited

/-- A reference to a variable; its span includes the dollar sign. -/
structure Reference where
  id : Identifier
  span : Span
deriving DecidableEq, Repr, Inhabited

/-- Text of a template body that stands for itself. -/
structure Literal where
  value : Text
  span : Span
deriving DecidableEq, Repr, Inhabited

/-- One part of a template body. -/
inductive Part where
  | literal (run : Literal)
  | reference (mention : Reference)
deriving DecidableEq, Repr, Inhabited

/-- A sequence of parts that is expanded part by part. -/
structure Body where
  parts : List Part
  span : Span
deriving DecidableEq, Repr, Inhabited

/-- What stands between single quotes.  It is never expanded. -/
structure RawText where
  text : Text
  span : Span
deriving DecidableEq, Repr, Inhabited

/-- A value as it can be written: bare, or in one of the two kinds of quotes. -/
inductive Template where
  | unquoted (body : Body)
  | singleQuoted (raw : RawText)
  | doubleQuoted (body : Body)
deriving DecidableEq, Repr, Inhabited

/-- The name of a switch and its value, if an equals sign gives it one.  The
dashes belong to the parameter. -/
structure Switch where
  name : Identifier
  value : Option Template
  span : Span
deriving DecidableEq, Repr, Inhabited

/-- The three kinds of parameters. -/
inductive Param where
  | literal (template : Template) (span : Span)
  | shortSwitch (switch : Switch)
  | longSwitch (switch : Switch)
deriving DecidableEq, Repr, Inhabited

/-- One parameter of a command, with its dashes or quotes. -/
structure Parameter where
  param : Param
  span : Span
deriving DecidableEq, Repr, Inhabited

/-- All parameters of a command.  The span runs from the first of them to where
reading stopped, which may be behind white space after the last. -/
structure Parameters where
  params : List Parameter
  span : Span
deriving DecidableEq, Repr, Inhabited

/-- The word that names the program to run. -/
structure ProgramName where
  id : Identifier
  span : Span
deriving DecidableEq, Repr, Inhabited

/-- A whole command. -/
structure Command where
  program : ProgramName
  parameters : Option Parameters
  span : Span
deriving DecidableEq, Repr, Inhabited

/-- A remark at the end of a line, without its number sign. -/
structure Comment where
  content : Text
  span : Span
deriving DecidableEq, Repr, Inhabited

namespace Command

/-- The name of the program that the command asks for. -/
def name (command : Command) : Text :=
  command.program.id.name

/-- The parameters in the order in which they are written. -/
def params (command : Command) : List Parameter :=
  match command.parameters with
  | some parameters => parameters.params
  | none => []

end Command

end LineShell
