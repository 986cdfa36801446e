/-
Module: LineShell.Scheduler.Drive
Purpose: Letting a machine run: until nothing is ready, for some time, or until a
  line has finished.
Main exports: Machine.settle, Machine.advance, Machine.runLine,
  Machine.runLineAlone
-/
import LineShell.Scheduler.Step

namespace LineShell.Machine

/-- How many steps are made at most before a machine is taken as it is.  A machine
whose scripts are shorter than this comes to rest before. -/
def stepLimit : Nat := 10000000

/-- Makes steps as long as a condition holds, at most `limit`. -/
def tickWhile (goesOn : Machine → Bool) : (limit : Nat) → Machine → Machine
  | 0, machine => machine
  | limit + 1, machine =>
      if goesOn machine then tickWhile goesOn limit machine.tick else machine

/-- Runs what can run without the time moving. -/
def settle (machine : Machine) : Machine :=
  machine.tickWhile (!·.isQuiet) stepLimit

/-- When the first timer is due. -/
def nextDue (machine : Machine) : Option Rat :=
  machine.timers.head?.map (·.due)

/-- Lets the time pass up to a moment, and runs each timer when it is due. -/
def passUntil (moment : Rat) : (limit : Nat) → Machine → Machine
  | 0, machine => machine
  | limit + 1, machine =>
      match machine.nextDue with
      | some due =>
          if due ≤ moment then
            passUntil moment limit { machine with now := max machine.now due }.settle
          else { machine with now := moment }.settle
      | none => { machine with now := moment }.settle

/-- Lets some seconds pass. -/
def advance (machine : Machine) (seconds : Rat) : Machine :=
  passUntil (machine.now + seconds) stepLimit machine.settle

/-! ### Whole lines -/

/-- What a caller got: the status that it was told, or the failure that its line
raised. -/
def answerOf (machine : Machine) (caller : Nat) : Option (Except Fault Int) :=
  machine.finished.lookup caller

/-- A step, or a jump to the time of the first timer if nothing is ready. -/
def tickOrJump (machine : Machine) : Machine :=
  if machine.isQuiet && machine.turn = 0 then
    match machine.nextDue with
    | some due => { machine with now := due }
    | none => machine
  else machine.tick

/-- Makes steps, and jumps in time, until a caller has its answer. -/
def runUntilAnswered (caller : Nat) : (limit : Nat) → Machine → Machine
  | 0, machine => machine
  | limit + 1, machine =>
      if (machine.answerOf caller).isSome then machine
      else runUntilAnswered caller limit machine.tickOrJump

/-- Carries out a line while other things run beside it. -/
def runLine (machine : Machine) (line : Text) : Option (Except Fault Int) × Machine :=
  let caller := machine.callers.length
  let answered := runUntilAnswered caller stepLimit (machine.exec line)
  (answered.answerOf caller, answered)

/-- Makes the steps that are left of the current turn. -/
def completeTurn (machine : Machine) : Machine :=
  machine.tickWhile (0 < ·.turn) stepLimit

/-- Cancels all strands, and runs what is ready without the timers. -/
def shutDown (machine : Machine) : Machine :=
  let cancelled := (List.range machine.strands.length).foldl cancelStrand machine
  { cancelled with timers := [] }.settle

/-- Carries out a line in a machine of its own.  When the line has finished, the
current turn and one more are completed, and what still runs is cancelled. -/
def runLineAlone (shell : Shell) (line : Text) : Option (Except Fault Int) × Shell :=
  let (status, answered) := (start shell).runLine line
  (status, answered.completeTurn.beginTurn.completeTurn.shutDown.shell)

end LineShell.Machine
