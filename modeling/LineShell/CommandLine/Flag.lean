/-
Module: LineShell.CommandLine.Flag
Purpose: The options of the command line, and how its words are told apart.
Main exports: Flag, Flag.spellings, Word, classify, classifyAll
-/
import LineShell.Number.Digit

namespace LineShell

/-- The options that the command line knows. -/
inductive Flag where
  | help
  | prompt
  | timeout
  | noGreeting
  | noSuggestions
  | logLevel
  | logFile
deriving DecidableEq, Repr, Inhabited

namespace Flag

/-- All options, in the order in which they are documented. -/
def all : List Flag :=
  [help, prompt, timeout, noGreeting, noSuggestions, logLevel, logFile]

/-- How an option can be written in full. -/
def spellings : Flag → List Text
  | help => ["-h", "--help"]
  | prompt => ["--prompt"]
  | timeout => ["--timeout"]
  | noGreeting => ["--no-greeting"]
  | noSuggestions => ["--no-suggestions"]
  | logLevel => ["--log-level"]
  | logFile => ["--log-file"]

/-- Whether an option is followed by a value. -/
def takesValue : Flag → Bool
  | help | noGreeting | noSuggestions => false
  | prompt | timeout | logLevel | logFile => true

/-- An option as messages name it. -/
def label (flag : Flag) : Text :=
  Text.joined ['/'] flag.spellings

/-- Every spelling with its option. -/
def dictionary : List (Text × Flag) :=
  all.flatMap fun flag => flag.spellings.map fun spelling => (spelling, flag)

end Flag

/-- What a word of the command line is. -/
inductive Word where
  /-- A value, or a word out of place. -/
  | operand (text : Text)
  /-- Two dashes, behind which every word is an operand. -/
  | separator
  /-- An option in one of its spellings, and the text that is attached to it in the same
  word, behind an equals sign or directly behind its letter. -/
  | option (flag : Flag) (spelling : Text) (attached : Option Text)
  /-- A word that looks like an option and is none. -/
  | unknown (text : Text)
deriving DecidableEq, Repr, Inhabited

/-- Whether a word is a negative number without an exponent.  A line feed may stand
at its end. -/
def looksNegative (word : Text) : Bool :=
  let body := if word.getLast? = some '\n' then word.dropLast else word
  match body with
  | '-' :: digits =>
      let behind := digits.dropWhile isDigit
      match behind with
      | [] => !digits.isEmpty
      | '.' :: part => !part.isEmpty && part.all isDigit
      | _ => false
  | _ => false

/-- The text up to the first equals sign, and the text behind it if there is one. -/
def cutAtEquals (word : Text) : Text × Option Text :=
  match word.dropWhile (· ≠ '=') with
  | [] => (word, none)
  | _ :: value => (word.takeWhile (· ≠ '='), some value)

/-- The options that a word may stand for when no spelling is met exactly.  Behind
two dashes the beginning of a spelling is enough; behind one dash the first letter
can be an option, with the rest of the word attached to it. -/
def candidates (word : Text) : List (Flag × Text × Option Text) :=
  match word with
  | '-' :: '-' :: _ =>
      let (beginning, attached) := cutAtEquals word
      (Flag.dictionary.filter fun entry => beginning.isPrefixOf entry.1).map fun entry =>
        (entry.2, entry.1, attached)
  | '-' :: letter :: rest =>
      Flag.dictionary.filterMap fun entry =>
        if entry.1 = ['-', letter] then some (entry.2, entry.1, some rest)
        else if word.isPrefixOf entry.1 then some (entry.2, entry.1, none)
        else none
  | _ => []

/-- Tells what a word is, or why it cannot be told. -/
def classify (word : Text) : Except Text Word :=
  match word with
  | '-' :: _ :: _ =>
      match Flag.dictionary.lookup word with
      | some flag => .ok (.option flag word none)
      | none =>
          let (spelling, attached) := cutAtEquals word
          match attached, Flag.dictionary.lookup spelling with
          | some value, some flag => .ok (.option flag spelling (some value))
          | _, _ =>
              match candidates word with
              | [(flag, spelling, attached)] => .ok (.option flag spelling attached)
              | [] =>
                  if looksNegative word || word.contains ' ' then .ok (.operand word)
                  else .ok (.unknown word)
              | several =>
                  .error ("ambiguous option: " ++ word ++ " could match " ++
                    Text.joined ", " (several.map fun candidate => candidate.2.1))
  | _ => .ok (.operand word)

/-- Tells what each word is. -/
def classifyAll : List Text → Except Text (List Word)
  | [] => .ok []
  | word :: rest =>
      if word = "--" then .ok (.separator :: rest.map .operand)
      else
        match classify word, classifyAll rest with
        | .error message, _ => .error message
        | .ok _, .error message => .error message
        | .ok first, .ok others => .ok (first :: others)

end LineShell
