/-
Module: LineShell.Editor.Highlight
Purpose: A command in colours, laid out as it was typed.
Main exports: Highlight.command, Highlight.stop
-/
import LineShell.Syntax.Tree
import LineShell.Terminal.Escape

namespace LineShell.Highlight

/-!
A program name is green if the program is known and red if not.  Quoted text is
yellow, a reference has the colour of references also inside double quotes, and
the dashes, name and equals sign of a switch have the colour of switches.  A
bare dash at the start of an unquoted value is coloured like a switch too, since
it is likely to become one.
-/

/-- Blank columns. -/
def gap (columns : Nat) : Text :=
  List.replicate columns ' '

/-- A reference with its dollar sign. -/
def reference (reference : Reference) : Text :=
  paint ('$' :: reference.id.name) .reference

/-- A part of a template in double quotes. -/
def quotedPart : Part → Text
  | .literal literal => paint literal.value .yellow
  | .reference r => reference r

/-- A part of an unquoted template. -/
def barePart : Part → Text
  | .literal literal => literal.value
  | .reference r => reference r

/-- The first part of an unquoted template. -/
def firstBarePart : Part → Text
  | .literal literal =>
      if literal.value = ['-'] then paint ['-'] .switch else literal.value
  | .reference r => reference r

/-- The parts of an unquoted template. -/
def bareParts : List Part → Text
  | [] => []
  | first :: others => firstBarePart first ++ others.flatMap barePart

/-- A template with its quotes. -/
def template : Template → Text
  | .singleQuoted raw => paint ('\x27' :: raw.text ++ ['\x27']) .yellow
  | .doubleQuoted body =>
      paint ['"'] .yellow ++ body.parts.flatMap quotedPart ++ paint ['"'] .yellow
  | .unquoted body => bareParts body.parts

/-- A switch behind its dashes. -/
def switch (switch : Switch) : Text :=
  paint switch.name.name .switch ++
    match switch.value with
    | none => []
    | some value => paint ['='] .switch ++ template value

/-- A parameter of any kind. -/
def param : Param → Text
  | .literal value _ => template value
  | .shortSwitch s => paint ['-'] .switch ++ switch s
  | .longSwitch s => paint ['-', '-'] .switch ++ switch s

/-- Parameters, each behind as many blanks as there are columns between it and
the index where the one before it ends. -/
def params (index : Nat) : List Parameter → Text
  | [] => []
  | parameter :: others =>
      gap (parameter.span.start.index - index) ++ param parameter.param ++
        params parameter.span.stop.index others

/-- A command up to the end of its last parameter. -/
def command (known : Text → Bool) (command : Command) : Text :=
  gap command.span.start.index ++
    paint command.name (if known command.name then .green else .red) ++
    params command.program.span.stop.index command.params

/-- The index behind what `command` shows. -/
def stop (command : Command) : Nat :=
  match command.params.getLast? with
  | some parameter => parameter.span.stop.index
  | none => command.program.span.stop.index

end LineShell.Highlight
