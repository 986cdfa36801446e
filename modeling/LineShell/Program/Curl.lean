/-
Module: LineShell.Program.Curl
Purpose: The program that prints what is found under a URL.  The host fetches.
Main exports: FetchOutcome, Fetching, Fetch, Curl.withLineEnds, Curl.start
-/
import LineShell.Program.Script
import LineShell.Text.Utf8

namespace LineShell

/-- What a fetch brings. -/
inductive FetchOutcome where
  | text (body : Text)
  | bytes (body : Bytes)
  | failed (fault : Fault)
  | cancelled
deriving DecidableEq, Repr, Inhabited

/-- What the host does to fetch a URL: it waits for some things, and then has an
outcome. -/
structure Fetching where
  waits : List Wait
  outcome : FetchOutcome
deriving DecidableEq, Repr, Inhabited

/-- The function of the host that fetches a URL. -/
abbrev Fetch := Text → Fetching

namespace Curl

/-- Every carriage return with a line feed behind it becomes the line feed. -/
def unixLines : Text → Text
  | [] => []
  | '\r' :: '\n' :: rest => '\n' :: unixLines rest
  | c :: rest => c :: unixLines rest

/-- Every line feed gets a carriage return in front of it. -/
def terminalLines (text : Text) : Text :=
  text.flatMap fun c => if c = '\n' then lineEnd else [c]

/-- A body with the line ends that a terminal needs. -/
def withLineEnds (body : Text) : Text :=
  terminalLines (unixLines body)

/-- Ends the program with a completion signal. -/
def finish (status : Int) : Script :=
  .perform (.send status) (.stop (.returned .other))

/-- Writes a body, and ends its last line if the body does not. -/
def deliver (body : Text) : Script :=
  let text := withLineEnds body
  .perform (.write text)
    (if text.endsWith lineEnd then finish statusSuccess
     else .perform (.write lineEnd) (finish statusSuccess))

/-- What is done with the outcome of a fetch. -/
def conclude : FetchOutcome → Script
  | .text body => deliver body
  | .bytes body => deliver (Utf8.decode body)
  | .failed fault =>
      let message := if fault.message.isEmpty then ("connection failed" : Text) else fault.message
      .perform (.write (message ++ lineEnd)) (finish statusFailure)
  | .cancelled => .stop .cancelled

/-- Fetches the first argument, if that is a text, and prints what comes. -/
def script (fetch : Fetch) : List Argument → Script
  | .text url :: _ =>
      .perform (.call (.fetch url)) (.awaits (fetch url).waits (conclude (fetch url).outcome))
  | _ => .perform (.write "No URL is provided.\r\n") (finish statusFailure)

/-- The program as the shell starts it. -/
def start (fetch : Fetch) (arguments : List Argument) : Start :=
  .defer true (script fetch arguments)

end Curl

end LineShell
