/-
Module: LineShell.Main
Purpose: The program on a terminal that delivers every key as it is pressed.
Main exports: main
-/
import LineShell.CommandLine.Session

namespace LineShell

/-- Prints what a shell has written since an earlier state. -/
def printSince (earlier later : Shell) : IO Unit := do
  let output ← IO.getStdout
  output.putStr (String.ofList (later.console.terminal.recordedSince earlier.console.terminal))
  output.flush

/-- Reads input until the session ends, and shows what the shell answers. -/
partial def converse (shell : Shell) : IO Unit := do
  let bytes ← (← IO.getStdin).read 1024
  let events := chunkEvents bytes.toList
  let after := shell.inputAll true (events.takeWhile (!endsSession ·))
  printSince shell after
  if !events.any endsSession then converse after

end LineShell

open LineShell

/-- Takes the command line, and holds a session if there is a terminal. -/
def main (words : List String) : IO UInt32 := do
  let words := words.map String.toList
  let isTerminal ← (← IO.getStdin).isTty
  match Settings.read words, isTerminal with
  | .ok settings, true =>
      match Session.setUp settings with
      | .error fault => do
          IO.eprintln (String.ofList fault.message)
          return 1
      | .ok (options, notices) => do
          IO.eprint (String.ofList notices)
          let shell := Session.shell options
          IO.print (String.ofList shell.console.terminal.recorded)
          converse shell
          IO.print (String.ofList lineEnd)
          return 0
  | _, _ =>
      match Session.run words none with
      | .error fault => do
          IO.eprintln (String.ofList fault.message)
          return 1
      | .ok report => do
          IO.print (String.ofList report.output)
          IO.eprint (String.ofList report.errors)
          return report.status.toNat.toUInt32
