/-
Module: LineShell.Proofs.Scheduler.Course
Purpose: The courses that a shell can take: what the host and the clock do in any
  order between the callbacks, and which programs are in flight meanwhile.
Main exports: Move, Machine.make, Flight, Flight.next, Reachable,
  Machine.exists_moves_settle, Machine.exists_moves_runLine
-/
import LineShell.Proofs.Shell.Activity
import LineShell.Scheduler.Drive
import Mathlib.Order.Defs.LinearOrder
import Mathlib.Algebra.Order.Ring.Rat

namespace LineShell

/-!
A course is a sequence of moves.  Between any two callbacks the host may give the
shell input or a line to carry out, what a program waits for may come, and time may
pass; a step of the machine runs the next callback.

Which programs are in flight is told by the history of a course alone: a run is in
flight from the move that launches it to the move in which its attendant puts the
shell back to work.
-/

/-! ### Moves -/

/-- One move of a course. -/
inductive Move where
  /-- The host passes on an input event. -/
  | input (event : Text)
  /-- The host has a line carried out by a caller of its own. -/
  | exec (line : Text)
  /-- The host carries out a line where it stands, up to where it has to wait. -/
  | carryOut (line : Text)
  /-- What programs wait for at a gate has come. -/
  | release (gate : Text)
  /-- It becomes `moment`, unless it is later already. -/
  | elapse (moment : Rat)
  /-- The next callback runs, or the next turn begins. -/
  | step
deriving DecidableEq, Repr, Inhabited

namespace Machine

/-- One caller more. -/
def enlist (machine : Machine) (line : Text) : Machine :=
  { machine with callers := machine.callers ++ [{ line := line }] }

/-- Lets time pass. -/
def elapse (machine : Machine) (moment : Rat) : Machine :=
  { machine with now := max machine.now moment }

/-- The machine after a move. -/
def make (machine : Machine) : Move → Machine
  | .input event => machine.input event
  | .exec line => machine.exec line
  | .carryOut line => (machine.enlist line).call machine.callers.length
  | .release gate => machine.release gate
  | .elapse moment => machine.elapse moment
  | .step => machine.tick

/-- The machine after moves in order. -/
def makeAll (machine : Machine) (moves : List Move) : Machine :=
  moves.foldl make machine

/-- The callback that the next step runs, if it runs one. -/
def next? (machine : Machine) : Option Job :=
  match machine.turn with
  | 0 => none
  | _ + 1 => machine.ready.head?

/-- The run with which the shell is put back to work when a callback runs: its
attendant finds that the supervisor is done. -/
def handedBackBy (machine : Machine) : Job → Option Nat
  | .attend run | .finish run =>
      if machine.runs[run]?.any Run.isOver then some run else none
  | _ => none

/-- The run with which a move puts the shell back to work. -/
def handedBack (machine : Machine) : Move → Option Nat
  | .step => machine.next?.bind machine.handedBackBy
  | _ => none

/-- The program that a caller starts when it looks whether the shell is free. -/
def startedByCall (machine : Machine) (caller : Nat) : Option (Text × Program) :=
  match machine.callers[caller]? with
  | none => none
  | some state =>
      if machine.task.isSome || state.submitted then none
      else { machine.shell with buffer := Buffer.ofText state.line }.started true ['\r']

/-- The name and the program that a move starts, if it starts one. -/
def started (machine : Machine) : Move → Option (Text × Program)
  | .input event => machine.shell.started true event
  | .carryOut line => (machine.enlist line).startedByCall machine.callers.length
  | .step =>
      match machine.next? with
      | some (.call caller) => machine.startedByCall caller
      | _ => none
  | _ => none

end Machine

/-! ### Flights -/

/-- A machine, and the runs in flight in the order in which they were launched. -/
structure Flight where
  machine : Machine
  inFlight : List Nat := []

namespace Flight

/-- A shell on a machine on which nothing has happened. -/
def start (shell : Shell) : Flight :=
  { machine := .start shell }

/-- The flight after a move: a run that the shell is put back to work with is no
longer in flight, and the runs that the move has added are. -/
def next (flight : Flight) (move : Move) : Flight :=
  let after := flight.machine.make move
  let added := after.runs.length - flight.machine.runs.length
  { machine := after
    inFlight :=
      flight.inFlight.filter (fun run => flight.machine.handedBack move ≠ some run) ++
        List.range' flight.machine.runs.length added }

end Flight

/-- Whether nobody waits for anything on a machine: no program is in flight, and no
caller has yet to be answered. -/
structure Machine.Deserted (machine : Machine) : Prop where
  task : machine.task = none
  waiting : machine.waiting = []
  callers : ∀ caller, .freed caller ∉ machine.ready ∧ .call caller ∉ machine.ready

/-- The flights that a shell can come to.  A shell may live on several machines one
after the other: it leaves a machine when nobody waits there any more, and what
programs still do in the background is cancelled then.  Before the next machine, it
may be given input without a scheduler. -/
inductive Reachable : Flight → Prop where
  | start (options : Options) (sink : Sink) (store : Variables) (programs : Programs) :
      Reachable (.start (.start options sink store programs))
  | next {flight : Flight} (move : Move) :
      Reachable flight → Reachable (flight.next move)
  | leave {flight : Flight} (deserted : flight.machine.Deserted) :
      Reachable flight → Reachable (.start flight.machine.shutDown.shell)
  | unscheduled {shell : Shell} (event : Text) :
      Reachable (.start shell) → Reachable (.start (shell.input false event).2)

/-! ### Carrying out a line is made of moves -/

namespace Machine

variable (machine : Machine)

/-- A machine runs what can run by moves. -/
theorem exists_moves_settle : ∃ moves, machine.settle = machine.makeAll moves := by
  have ticking : ∀ (goesOn : Machine → Bool) (limit : Nat) (machine : Machine),
      ∃ moves, machine.tickWhile goesOn limit = machine.makeAll moves := by
    intro goesOn limit
    induction limit with
    | zero => exact fun machine => ⟨[], rfl⟩
    | succ limit ih =>
        intro machine
        rw [tickWhile]
        split
        · obtain ⟨moves, made⟩ := ih machine.tick
          exact ⟨.step :: moves, made⟩
        · exact ⟨[], rfl⟩
  exact ticking _ _ machine

/-- A step, or a jump to the first timer, is a move or none. -/
theorem exists_moves_tickOrJump : ∃ moves, machine.tickOrJump = machine.makeAll moves := by
  unfold tickOrJump
  split
  · next quiet =>
      split
      · next due first =>
          refine ⟨[.elapse due], ?_⟩
          obtain ⟨timer, others, timers, rfl⟩ : ∃ timer others,
              machine.timers = timer :: others ∧ timer.due = due := by
            cases timers : machine.timers with
            | nil => simp [nextDue, timers] at first
            | cons timer others =>
                exact ⟨timer, others, rfl, by simpa [nextDue, timers] using first⟩
          have later : machine.now < timer.due := by
            simp only [isQuiet, timers, List.all_cons, Bool.and_eq_true, decide_eq_true_eq]
              at quiet
            exact quiet.1.2.1
          change _ = machine.elapse timer.due
          rw [elapse, max_eq_right later.le]
      · exact ⟨[], rfl⟩
  · exact ⟨[.step], rfl⟩

/-- Carrying out a line beside other things is an `exec` and further moves. -/
theorem exists_moves_runLine (line : Text) :
    ∃ moves, (machine.runLine line).2 = machine.makeAll (.exec line :: moves) := by
  have answering : ∀ (caller limit : Nat) (machine : Machine),
      ∃ moves, runUntilAnswered caller limit machine = machine.makeAll moves := by
    intro caller limit
    induction limit with
    | zero => exact fun machine => ⟨[], rfl⟩
    | succ limit ih =>
        intro machine
        rw [runUntilAnswered]
        split
        · exact ⟨[], rfl⟩
        · obtain ⟨first, jumped⟩ := machine.exists_moves_tickOrJump
          obtain ⟨others, made⟩ := ih machine.tickOrJump
          refine ⟨first ++ others, ?_⟩
          rw [made, jumped]
          exact List.foldl_append.symm
  exact answering _ _ (machine.exec line)

end Machine

end LineShell
