/-
Module: LineShell.Syntax.Error
Purpose: Why a text could not be read, as data, and its wording.
Main exports: Expectation, SyntaxError, SyntaxError.detail, SyntaxError.message,
  ReadFault
-/
import LineShell.Syntax.Position
import LineShell.Text.Quoted

namespace LineShell

/-- What a grammar rule was looking for where it gave up. -/
inductive Expectation where
  | char (c : Char)
  | identifier
  | name
  | text
  | templatePart
  | template
  | switchName
  | parameter
deriving DecidableEq, Repr, Inhabited

/-- The words for what was expected. -/
def Expectation.words : Expectation → Text
  | .char c => Quoted.char c
  | .identifier => "identifier"
  | .name => "name"
  | .text => "text"
  | .templatePart => "template text or variable"
  | .template => "template"
  | .switchName => "switch name"
  | .parameter => "parameter"

/-- A place where a text stops being a command: the character found there, none
at the end of the text, and what a rule expected instead, if one did. -/
structure SyntaxError where
  position : Position
  found : Option Char
  expected : Option Expectation
deriving DecidableEq, Repr, Inhabited

namespace SyntaxError

/-- The words for what was found. -/
def describe : Option Char → Text
  | none => "unexpected end of input"
  | some c => "unexpected character " ++ Quoted.char c

/-- What was found, and what was expected if anything was. -/
def detail (error : SyntaxError) : Text :=
  match error.expected with
  | none => describe error.found
  | some expectation => describe error.found ++ ", expected " ++ expectation.words

/-- The full report of a trouble at a place. -/
def report (position : Position) (detail : Text) : Text :=
  "syntax error at " ++ position.label ++ ", " ++ detail

/-- The full report of a syntax error. -/
def message (error : SyntaxError) : Text :=
  report error.position error.detail

end SyntaxError

/-- How reading can end without a result.  Only a syntax error speaks about the
text; taking a character behind the end is a mistake of the reading rule, and no
alternative is tried after it. -/
inductive ReadFault where
  | malformed (error : SyntaxError)
  | pastEnd
deriving DecidableEq, Repr, Inhabited

/-- The report of a fault of either kind. -/
def ReadFault.message : ReadFault → Text
  | .malformed error => error.message
  | .pastEnd => "string index out of range"

end LineShell
