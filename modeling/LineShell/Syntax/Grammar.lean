/-
Module: LineShell.Syntax.Grammar
Purpose: The grammar of command lines as reading rules.
Main exports: identifier, looseIdentifier, reference, templateLiteral,
  singleDollar, templatePart, templateBody, rawText, singleQuoted,
  doubleQuoted, unquoted, template, switch, shortSwitch, longSwitch, literal,
  parameter, parameters, programName, command, comment
-/
import LineShell.Syntax.Reader
import LineShell.Syntax.Tree

namespace LineShell

/-!
```
command    := name (blank+ parameters)?
parameters := parameter (blank+ parameter)* blank*
parameter  := switch | literal
switch     := ("--" | "-") name ("=" template)?
literal    := template
template   := "'" raw "'" | '"' body '"' | body
body       := (run | "$" identifier | "$")*
comment    := "#" character*
```

Alternatives are tried in the order given here, and the first that matches
decides.  The blank between two parameters is required; the one behind the
program name is not.
-/

/-! ### Classes of characters -/

/-- Characters of variable names: the Latin letters and digits without accents,
and three marks. -/
def isNameChar (c : Char) : Bool :=
  c.isAlphanum || c = '_' || c = '?' || c = '!'

/-- Characters of program and switch names. -/
def isLooseNameChar (c : Char) : Bool :=
  isNameChar c || c = '-' || c = '.'

/-- Characters that end a run of literal text inside double quotes. -/
def endsQuotedRun (c : Char) : Bool :=
  c = '$' || c = '\n' || c = '"'

/-- Characters that end a run of literal text outside quotes. -/
def endsBareRun (c : Char) : Bool :=
  endsQuotedRun c || c = '\x27' || c = '#' || isBlank c

/-- Whether a character goes on a run of literal text. -/
def continuesRun (quoted : Bool) (c : Char) : Bool :=
  if quoted then !endsQuotedRun c else !endsBareRun c

/-! ### Names -/

/-- A name made of characters that pass a test. -/
def nameOf (test : Char → Bool) (expectation : Expectation) : Rule Identifier := do
  let start ← here
  let name ← takeWhile test
  if name.isEmpty then
    fail expectation
  else
    return { name := name, span := ← spanFrom start }

/-- The name of a variable. -/
def identifier : Rule Identifier :=
  nameOf isNameChar .identifier

/-- The name of a program or a switch, which may also hold dashes and dots. -/
def looseIdentifier : Rule Identifier :=
  nameOf isLooseNameChar .name

/-! ### Template bodies -/

/-- A dollar sign and the name of a variable. -/
def reference : Rule Reference := restoring do
  let start ← here
  expect '$'
  let id ← identifier
  return { id := id, span := ← spanFrom start }

/-- A run of text that stands for itself. -/
def templateLiteral (quoted : Bool) : Rule Literal := do
  let start ← here
  let value ← takeWhile (continuesRun quoted)
  if value.isEmpty then
    fail .text
  else
    return { value := value, span := ← spanFrom start }

/-- A dollar sign that stands for itself. -/
def singleDollar : Rule Literal := do
  let start ← here
  expect '$'
  return { value := ['$'], span := ← spanFrom start }

/-- One part of a body. -/
def templatePart (quoted : Bool) : Rule Part :=
  firstOf .templatePart
    [.literal <$> templateLiteral quoted, .reference <$> reference, .literal <$> singleDollar]

/-- As many parts as there are, at most `limit`. -/
def templateParts (quoted : Bool) : (limit : Nat) → Rule (List Part)
  | 0 => return []
  | limit + 1 => do
      match ← attempt (templatePart quoted) with
      | none => return []
      | some part => return part :: (← templateParts quoted limit)

/-- A body.  Every part takes at least one character, so there are no more parts
than characters left.  Inside quotes a body may be empty, outside it may not. -/
def templateBody (quoted : Bool) : Rule Body := do
  let start ← here
  let parts ← templateParts quoted ((← get).rest.length + 1)
  if parts.isEmpty && !quoted then
    fail .template
  else
    return { parts := parts, span := ← spanFrom start }

/-! ### Templates -/

/-- Everything up to a single quote. -/
def rawText : Rule RawText := do
  let start ← here
  let text ← takeWhile (· ≠ '\x27')
  return { text := text, span := ← spanFrom start }

/-- Raw text in single quotes. -/
def singleQuoted : Rule Template := restoring do
  expect '\x27'
  let raw ← rawText
  expect '\x27'
  return .singleQuoted raw

/-- A body in double quotes. -/
def doubleQuoted : Rule Template := restoring do
  expect '"'
  let body ← templateBody true
  expect '"'
  return .doubleQuoted body

/-- A body without quotes. -/
def unquoted : Rule Template :=
  .unquoted <$> templateBody false

/-- A template of any kind. -/
def template : Rule Template :=
  firstOf .template [singleQuoted, doubleQuoted, unquoted]

/-! ### Parameters -/

/-- The name of a switch and, behind an equals sign, its value. -/
def switch : Rule Switch := do
  let start ← here
  let name ← looseIdentifier
  if (← peek) = some '=' then
    discard advance
    let value ← template
    return { name := name, value := some value, span := ← spanFrom start }
  else
    return { name := name, value := none, span := ← spanFrom start }

/-- A switch behind one dash.  Two dashes always start a long switch. -/
def shortSwitch : Rule Param := restoring do
  expect '-'
  if (← peek) = some '-' then
    fail .switchName
  else
    return .shortSwitch (← switch)

/-- A switch behind two dashes. -/
def longSwitch : Rule Param := restoring do
  expect '-'
  expect '-'
  return .longSwitch (← switch)

/-- A template as a parameter. -/
def literal : Rule Param := do
  let start ← here
  let template ← template
  return .literal template (← spanFrom start)

/-- One parameter. -/
def parameter : Rule Parameter := do
  let start ← here
  let param ← firstOf .parameter [shortSwitch, longSwitch, literal]
  return { param := param, span := ← spanFrom start }

/-- Further parameters, each behind white space, at most `limit` of them.  White
space without a parameter behind it is consumed all the same. -/
def moreParameters : (limit : Nat) → Rule (List Parameter)
  | 0 => return []
  | limit + 1 => do
      if (← skipBlanks) = 0 then
        return []
      else
        match ← attempt parameter with
        | none => return []
        | some first => return first :: (← moreParameters limit)

/-- One parameter or more. -/
def parameters : Rule Parameters := do
  let start ← here
  let first ← parameter
  let others ← moreParameters ((← get).rest.length + 1)
  return { params := first :: others, span := ← spanFrom start }

/-! ### Commands -/

/-- The word that names the program. -/
def programName : Rule ProgramName := do
  let start ← here
  let id ← looseIdentifier
  return { id := id, span := ← spanFrom start }

/-- A program name and its parameters. -/
def command : Rule Command := do
  let start ← here
  let program ← programName
  discard skipBlanks
  let parameters ← attempt parameters
  return { program := program, parameters := parameters, span := ← spanFrom start }

/-- A remark up to the end of the line. -/
def comment : Rule Comment := do
  expect '#'
  let start ← here
  let content ← takeWhile (· ≠ '\n')
  return { content := content, span := ← spanFrom start }

end LineShell
