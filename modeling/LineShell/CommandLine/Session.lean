/-
Module: LineShell.CommandLine.Session
Purpose: A whole session at a terminal: what is printed, and with what status the
  program ends.
Main exports: chunkEvents, sessionEvents, Report, Session.setUp, Session.run
-/
import LineShell.CommandLine.Settings
import LineShell.Shell.Input
import LineShell.Text.Utf8

namespace LineShell

/-- Whether an event ends the session: the keys for interrupt and for end of input. -/
def endsSession (event : Text) : Bool :=
  event = ['\x03'] || event = ['\x04']

/-- The input events in one stretch of bytes.  Every stretch is decoded and cut by
itself.  An empty one says that the input has ended. -/
def chunkEvents (chunk : Bytes) : List Text :=
  match splitKeys (Utf8.decode chunk) with
  | [] => [['\x04']]
  | events => events

/-- The events that are given to the shell, from all stretches of input in order: those
before the first one that ends the session. -/
def sessionEvents (chunks : List Bytes) : List Text :=
  (chunks.flatMap chunkEvents).takeWhile (!endsSession ·)

/-- Gives events to a shell one after the other. -/
def Shell.inputAll (shell : Shell) (scheduled : Bool) (events : List Text) : Shell :=
  events.foldl (fun shell event => (shell.input scheduled event).2) shell

/-- What a run of the program leaves behind. -/
structure Report where
  status : Int
  output : Text := []
  errors : Text := []
  /-- Whether the terminal was taken over, and given back at the end. -/
  tookTerminal : Bool := false
deriving DecidableEq, Repr, Inhabited

namespace Session

/-- What is said about a command line that leads to no shell. -/
def refuse : Refusal → Report
  | .helpWanted => { status := 0, output := helpText }
  | .mistake message =>
      { status := 2
        errors := usage ++ Shell.ownMessage ("error: " ++ message) ++ ['\n'] }

/-- The shell that the settings ask for, and what is printed about them before anything
else.  The log is set up first. -/
def setUp (settings : Settings) : Except SetupFault (Options × Text) :=
  match settings.logNotice with
  | .error fault => .error fault
  | .ok notice =>
      settings.options.map fun (options, warning) => (options, notice ++ warning)

/-- The shell at the start of a session. -/
def shell (options : Options) : Shell :=
  Shell.start options .stream {} (standardPrograms none)

/-- A run of the program from its words and from what the terminal sends, if there is
a terminal. -/
def run (words : List Text) (terminal : Option (List Bytes)) : Except SetupFault Report :=
  match Settings.read words with
  | .error refusal => .ok (refuse refusal)
  | .ok settings =>
      match setUp settings, terminal with
      | .error fault, _ => .error fault
      | .ok (_, notices), none =>
          .ok
            { status := 1
              errors := notices ++
                markedError (Shell.ownMessage "stdin is not a terminal") ++ ['\n'] }
      | .ok (options, notices), some chunks =>
          let last := (shell options).inputAll true (sessionEvents chunks)
          .ok
            { status := 0
              output := last.console.terminal.recorded ++ lineEnd
              errors := notices
              tookTerminal := true }

end Session

end LineShell
