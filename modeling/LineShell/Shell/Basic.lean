/-
Module: LineShell.Shell.Basic
Purpose: The state of a shell, and how it is shown.
Main exports: Options, Shell, Journal, Shell.writeLine, Shell.repaint,
  Shell.setStatus, Shell.report, Shell.start
-/
import LineShell.Editor.Buffer
import LineShell.Editor.Highlight
import LineShell.Editor.History
import LineShell.Program.Registry
import LineShell.Syntax.Parse

namespace LineShell

/-- What the name of the shell is on its terminal. -/
def shellName : Text := "bsh"

/-- How a shell is set up. -/
structure Options where
  /-- What is shown in front of the line being typed. -/
  prompt : Prompt := .text "❯ "
  /-- The first line written, if there is to be one. -/
  greeting : Option Text := some ("Welcome to " ++ shellName ++ "!")
  /-- Whether the rest of an earlier line is suggested while typing. -/
  suggestions : Bool := true
  /-- How long a program may take before it is cancelled. -/
  timeout : Option Numeral := none
deriving DecidableEq, Repr, Inhabited

/-- Whether a program is in flight.  Input is ignored while one is. -/
inductive Activity where
  | idle
  | running
deriving DecidableEq, Repr, Inhabited

/-- What a shell hands to the host besides its output: the calls of host functions
and the warnings for the log, oldest first. -/
structure Journal where
  calls : List HostCall := []
  warnings : List Text := []
deriving DecidableEq, Repr, Inhabited

/-- The state of a shell between two input events. -/
structure Shell where
  options : Options
  console : Console
  buffer : Buffer := {}
  history : History := {}
  suggestion : Option Text := none
  programs : Programs := {}
  store : Variables := {}
  status : Int := statusSuccess
  activity : Activity := .idle
  journal : Journal := {}
deriving Inhabited

namespace Shell

/-- Changes what is on the terminal. -/
def withConsole (shell : Shell) (change : Console → Console) : Shell :=
  { shell with console := change shell.console }

/-- Adds a warning for the log. -/
def warn (shell : Shell) (warning : Text) : Shell :=
  { shell with journal := { shell.journal with warnings := shell.journal.warnings ++ [warning] } }

/-- Records the status of a command, also as the variable `?`. -/
def setStatus (shell : Shell) (status : Int) : Shell :=
  { shell with
    status := status
    store := shell.store.insert ['?'] (Text.ofInt status) }

/-- A message of the shell itself. -/
def ownMessage (message : Text) : Text :=
  shellName ++ ": " ++ message

/-- Reports the failure of a program on a line of its own. -/
def report (shell : Shell) (fault : Fault) : Shell :=
  shell.withConsole fun console => console.complete.println (ownMessage fault.message)

/-! ### Showing the line -/

/-- The text of a line in colours, as far as it can be read. -/
def lineSegments (programs : Programs) (line : Text) : List Text :=
  match parse line with
  | .ok (command, _) =>
      [Highlight.command programs.contains command, line.drop (Highlight.stop command)]
  | .error _ => [line]

/-- Writes the line being typed. -/
def writeLine (shell : Shell) : Shell :=
  shell.withConsole fun console =>
    (lineSegments shell.programs shell.buffer.text).foldl Console.write console

/-- The rest of the newest earlier line that goes on what has been typed. -/
def suggestionFor (options : Options) (history : History) (text : Text) : Option Text :=
  if text.isEmpty || !options.suggestions then none
  else
    match history.find text with
    | none => none
    | some entry =>
        if text.length < entry.length then some (entry.drop text.length) else none

/-- Shows prompt, line and suggestion anew, and puts the cursor in its place. -/
def repaint (shell : Shell) : Shell :=
  let shown := (shell.withConsole fun console => console.reset.showPrompt).writeLine
  let suggestion := suggestionFor shell.options shell.history shell.buffer.text
  let suggested :=
    { shown.withConsole fun console =>
        match suggestion with
        | none => console
        | some rest => console.write (paint rest .grey) with
      suggestion := suggestion }
  suggested.withConsole fun console =>
    (console.write cursorLeftEdge).write
      (cursorRight (console.promptWidth + shell.buffer.cursor : Nat))

/-! ### Starting -/

/-- A new shell: it greets and shows the prompt.  The variables given to it may
set the first value of `?`. -/
def start (options : Options) (sink : Sink) (store : Variables) (programs : Programs) :
    Shell :=
  let console : Console := { terminal := { sink := sink }, prompt := options.prompt }
  let greeted :=
    match options.greeting with
    | none => console
    | some greeting => console.println (paint greeting .greeting)
  { options := options
    console := greeted.showPrompt
    programs := programs
    store :=
      if store.contains ['?'] then store
      else store.insert ['?'] (Text.ofInt statusSuccess) }

end Shell

end LineShell
