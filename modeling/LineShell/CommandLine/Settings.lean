/-
Module: LineShell.CommandLine.Settings
Purpose: What the words of the command line ask for, and how that sets up a shell.
Main exports: Given, Settings, Refusal, SetupFault, usage, helpText, Settings.read,
  Settings.logNotice, Settings.options
-/
import LineShell.CommandLine.Flag
import LineShell.Shell.Basic

namespace LineShell

/-- What an option of one value has been given.  Two dashes attached to the option are
no value: they leave it with an empty list of values. -/
inductive Given (α : Type) where
  | single (value : α)
  | emptyList
deriving DecidableEq, Repr, Inhabited

/-- What the command line asks for. -/
structure Settings where
  prompt : Prompt := ({} : Options).prompt
  timeout : Option (Given Numeral) := none
  noGreeting : Bool := false
  noSuggestions : Bool := false
  logLevel : Given Text := .single "WARNING"
  /-- An empty list of files is no file. -/
  logFile : Option Text := none
deriving DecidableEq, Repr, Inhabited

/-- Why the command line does not lead to a shell. -/
inductive Refusal where
  | helpWanted
  | mistake (message : Text)
deriving DecidableEq, Repr, Inhabited

/-- Why no shell can be set up although every word could be carried out: an empty list
stands where one value is needed. -/
inductive SetupFault where
  | logLevelList
  | timeoutList
deriving DecidableEq, Repr, Inhabited

/-- What is said about a fault in the settings. -/
def SetupFault.message : SetupFault → Text
  | logLevelList => "Level not an integer or a valid string: []"
  | timeoutList => "'<=' not supported between instances of 'list' and 'int'"

/-- The levels of the log. -/
def logLevels : List Text :=
  ["DEBUG", "INFO", "WARNING", "ERROR"]

/-! ### Texts for people -/

/-- How the program is called. -/
def usage : Text :=
  "usage: " ++ shellName ++ " [-h] [--prompt PROMPT] [--timeout TIMEOUT] [--no-greeting]\n" ++
  "           [--no-suggestions] [--log-level \x7bDEBUG,INFO,WARNING,ERROR\x7d]\n" ++
  "           [--log-file LOG_FILE]\n"

/-- What the options do. -/
def helpText : Text :=
  usage ++
  "\nInteractive shell\n\noptions:\n" ++
  "  -h, --help            show this help message and exit\n" ++
  "  --prompt PROMPT       prompt text\n" ++
  "  --timeout TIMEOUT     seconds before an asynchronous program is cancelled\n" ++
  "  --no-greeting         skip the welcome line\n" ++
  "  --no-suggestions      disable history suggestions\n" ++
  "  --log-level \x7bDEBUG,INFO,WARNING,ERROR\x7d\n" ++
  "  --log-file LOG_FILE   write logs to this file\n"

namespace Settings

/-- A mistake in the use of an option. -/
def mistake {α : Type} (flag : Flag) (message : Text) : Except Refusal α :=
  .error (.mistake ("argument " ++ flag.label ++ ": " ++ message))

/-- Text attached to an option that takes none. -/
def ignored {α : Type} (flag : Flag) (attached : Text) : Except Refusal α :=
  mistake flag ("ignored explicit argument " ++ Quoted.text attached)

/-- Leaves an option that takes a value with an empty list of values. -/
def withEmptyList (settings : Settings) : Flag → Settings
  | .prompt => { settings with prompt := .emptyList }
  | .timeout => { settings with timeout := some .emptyList }
  | .logLevel => { settings with logLevel := .emptyList }
  | .logFile => { settings with logFile := none }
  | _ => settings

/-- Carries out an option that takes a value.  An empty list of values is not checked. -/
def withValue (settings : Settings) (flag : Flag) (value : Text) : Except Refusal Settings :=
  if value = ['-', '-'] then .ok (settings.withEmptyList flag)
  else
    match flag with
    | .prompt => .ok { settings with prompt := .text value }
    | .timeout =>
        match Numeral.read? value with
        | some seconds => .ok { settings with timeout := some (.single seconds) }
        | none => mistake flag ("invalid float value: " ++ Quoted.text value)
    | .logLevel =>
        if logLevels.contains value then .ok { settings with logLevel := .single value }
        else
          mistake flag ("invalid choice: " ++ Quoted.text value ++ " (choose from " ++
            Text.joined ", " (logLevels.map Quoted.text) ++ ")")
    | .logFile => .ok { settings with logFile := some value }
    | _ => .ok settings

/-- Carries out an option that takes no value. -/
def withoutValue (settings : Settings) (flag : Flag) : Except Refusal Settings :=
  match flag with
  | .help => .error .helpWanted
  | .noGreeting => .ok { settings with noGreeting := true }
  | .noSuggestions => .ok { settings with noSuggestions := true }
  | _ => .ok settings

/-- Looks through text attached to an option of one letter that takes no value: every
letter of it has to be an option too. -/
def checkLetters (flag : Flag) : Text → Except Refusal Unit
  | [] => .ok ()
  | letter :: rest =>
      match Flag.dictionary.lookup ['-', letter] with
      | some next => checkLetters next rest
      | none => ignored flag (letter :: rest)

/-- Carries out an option that takes no value although text is attached to it, which
only an option of one letter allows. -/
def withAttached (settings : Settings) (flag : Flag) (spelling attached : Text) :
    Except Refusal Settings :=
  match spelling, attached with
  | '-' :: '-' :: _, _ => ignored flag attached
  | _, [] => ignored flag []
  | _, letters =>
      match checkLetters flag letters with
      | .error refusal => .error refusal
      | .ok () => settings.withoutValue flag

/-- How far the words have been carried out. -/
structure Progress where
  settings : Settings := {}
  /-- Words out of place. -/
  extra : List Text := []
  /-- An option whose value has to be the next word. -/
  awaiting : Option Flag := none
deriving DecidableEq, Repr, Inhabited

/-- Carries out an option, or leaves it until its value has come. -/
def takeOption (progress : Progress) (flag : Flag) (spelling : Text) :
    Option Text → Except Refusal Progress
  | some attached =>
      (if flag.takesValue then progress.settings.withValue flag attached
        else progress.settings.withAttached flag spelling attached).map
        fun settings => { progress with settings := settings }
  | none =>
      if flag.takesValue then .ok { progress with awaiting := some flag }
      else
        (progress.settings.withoutValue flag).map fun settings =>
          { progress with settings := settings }

/-- Carries out a word. -/
def takeWord (progress : Progress) (word : Word) : Except Refusal Progress :=
  match progress.awaiting, word with
  | some flag, .operand value =>
      (progress.settings.withValue flag value).map fun settings =>
        { progress with settings := settings, awaiting := none }
  | some flag, _ => mistake flag "expected one argument"
  | none, .operand text => .ok { progress with extra := progress.extra ++ [text] }
  | none, .unknown text => .ok { progress with extra := progress.extra ++ [text] }
  | none, .separator => .ok { progress with extra := progress.extra ++ [['-', '-']] }
  | none, .option flag spelling attached => takeOption progress flag spelling attached

/-- What has been asked for when all words are carried out. -/
def conclude (progress : Progress) : Except Refusal Settings :=
  match progress.awaiting, progress.extra with
  | some flag, _ => mistake flag "expected one argument"
  | none, [] => .ok progress.settings
  | none, extra => .error (.mistake ("unrecognized arguments: " ++ Text.joined [' '] extra))

/-- Reads the command line. -/
def read (words : List Text) : Except Refusal Settings :=
  match classifyAll words with
  | .error message => .error (.mistake message)
  | .ok classified =>
      match classified.foldlM takeWord {} with
      | .error refusal => .error refusal
      | .ok progress => conclude progress

/-- Sets up the log, and says into which file it goes, if into any. -/
def logNotice (settings : Settings) : Except SetupFault Text :=
  match settings.logLevel, settings.logFile with
  | .emptyList, _ => .error .logLevelList
  | .single _, some (c :: file) =>
      .ok (markedInfo (Shell.ownMessage ("logging to " ++ c :: file)) ++ ['\n'])
  | .single _, _ => .ok []

/-- The shell that is asked for, and the warning to be printed: a timeout that would
pass at once is not used. -/
def options (settings : Settings) : Except SetupFault (Options × Text) :=
  let plain : Options :=
    { prompt := settings.prompt
      greeting := if settings.noGreeting then none else ({} : Options).greeting
      suggestions := !settings.noSuggestions }
  match settings.timeout with
  | none => .ok (plain, [])
  | some .emptyList => .error .timeoutList
  | some (.single seconds) =>
      if seconds.isNotPositive then
        .ok (plain, markedWarning (Shell.ownMessage ("ignoring --timeout " ++
          seconds.general ++ ", programs run to completion")) ++ ['\n'])
      else .ok ({ plain with timeout := some seconds }, [])

end Settings

end LineShell
