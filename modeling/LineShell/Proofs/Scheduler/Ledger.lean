/-
Module: LineShell.Proofs.Scheduler.Ledger
Purpose: What became of the commands of callers, noted beside the machine, and the courses
  on which the host does not push in between the callbacks that wake a caller.
Main exports: Shell.exitAtOnce?, Shell.submit_cases, Machine.exitOf, Ledger, Ledger.next,
  Ledger.machine_next, Machine.Permits, Orderly
-/
import LineShell.Proofs.Scheduler.Flights

namespace LineShell

/-!
A caller is not told the status of its command by the command.  It is woken in two steps:
it is told that the shell is free, and then it looks at the shell and reads the status
there.  To compare what it reads with how its own command ended, a ledger notes the end
of each command at the moment when it ends: when the line of a caller ends at once, and
when the shell is put back to work with the run that a caller launched.
-/

/-! ### Lines that end at once -/

namespace Shell

variable {shell : Shell}

/-- The status that the line being typed ends with at once when it is submitted.  There
is none if the line is blank, launches a program, or raises a failure. -/
def exitAtOnce? (shell : Shell) : Option Int :=
  let line := shell.buffer.text
  if line.isBlank then none
  else
    match parseStrict line with
    | .error _ => some statusSyntaxError
    | .ok command =>
        let ended := shell.endLine
        match { ended with history := ended.history.commit line }.dispatch true command with
        | (.finished status, _) => some status
        | (.launched _, _) | (.raised _, _) => none

/-- A line that is submitted ends at once with a status, or nothing is done since it is
blank, or it launches a program, or it raises a failure. -/
theorem submit_cases (shell : Shell) :
    (shell.exitAtOnce? = some (shell.submit true).2.status ∧ (shell.submit true).1 = .done) ∨
    (shell.exitAtOnce? = none ∧ (shell.submit true).1 = .done ∧
      shell.buffer.text.isBlank = true) ∨
    (shell.exitAtOnce? = none ∧ ∃ program, (shell.submit true).1 = .launched program) ∨
    (shell.exitAtOnce? = none ∧ ∃ fault, (shell.submit true).1 = .raised fault) := by
  unfold exitAtOnce? submit
  dsimp only
  by_cases blank : shell.buffer.text.isBlank = true
  · rw [if_pos blank, if_pos blank]
    exact .inr (.inl ⟨rfl, rfl, blank⟩)
  · rw [if_neg blank, if_neg blank]
    cases parsed : parseStrict shell.buffer.text with
    | error fault => exact .inl ⟨rfl, rfl⟩
    | ok command =>
        dsimp only
        unfold execute
        generalize Shell.dispatch _ true command = result
        obtain ⟨outcome, after⟩ := result
        cases outcome with
        | finished status => exact .inl ⟨rfl, rfl⟩
        | launched program => exact .inr (.inr (.inl ⟨rfl, program, rfl⟩))
        | raised fault => exact .inr (.inr (.inr ⟨rfl, fault, rfl⟩))

/-- Showing the line anew does not touch the status. -/
theorem input_submit (idle : shell.activity = .idle) :
    (shell.input true ['\r']).1 = (shell.submit true).1 ∧
      (shell.input true ['\r']).2.status = (shell.submit true).2.status := by
  have typed : shell.typed true ['\r'] = shell.submit true := rfl
  rw [input_of_idle idle, typed]
  rcases showAnew_cases (shell.submit true) with same | same
  · rw [same]
    exact ⟨rfl, rfl⟩
  · rw [same]
    exact ⟨rfl, rfl⟩

end Shell

/-! ### Ledgers -/

namespace Machine

/-- The line that a caller submits when it looks whether the shell is free. -/
def submittedBy (machine : Machine) (caller : Nat) : Option Text :=
  match machine.callers[caller]? with
  | none => none
  | some state =>
      if machine.task.isSome || state.submitted then none else some state.line

/-- What submitting a line comes to, by what the shell makes of it. -/
theorem submitLine_eq (machine : Machine) (caller : Nat) {line : Text}
    {reaction : Reaction} {shell : Shell}
    (result : { machine.shell with buffer := Buffer.ofText line }.input true ['\r'] =
      (reaction, shell)) :
    machine.submitLine caller line =
      (machine.takeOver reaction shell).modifyCaller caller
        fun state => { state with submitted := true } := by
  have entered : (machine.withLine line).input ['\r'] =
      (machine.withLine line).takeOver reaction shell := by
    rw [input, show (machine.withLine line).shell.input true ['\r'] = _ from result]
  rw [submitLine, entered]
  cases reaction <;> rfl

/-- Whether a line raises a failure is told by what the shell makes of it. -/
theorem failure?_withLine (machine : Machine) {line : Text} {reaction : Reaction} {shell : Shell}
    (result : { machine.shell with buffer := Buffer.ofText line }.input true ['\r'] =
      (reaction, shell)) :
    (machine.withLine line).failure? ['\r'] = reaction.fault? := by
  rw [failure?, show (machine.withLine line).shell.input true ['\r'] = _ from result]

/-- The status that a run ended with. -/
def exitOf (machine : Machine) (run : Nat) : Int :=
  match machine.runs[run]?.map Run.phase with
  | some (.closed (some status)) => status
  | _ => statusFailure

end Machine

/-- A machine, and what became of the commands that callers submitted. -/
structure Ledger where
  machine : Machine
  /-- The caller that submitted the command in flight, if a caller did. -/
  submitter : Option Nat := none
  /-- The callers whose commands have ended, with the status that each ended with. -/
  ended : List (Nat × Int) := []

namespace Ledger

/-- A shell on a machine on which nothing has happened. -/
def start (shell : Shell) : Ledger :=
  { machine := .start shell }

/-- A caller submits its line, which may end at once. -/
def submit (ledger : Ledger) (caller : Nat) (line : Text) : Ledger :=
  let after := ledger.machine.submitLine caller line
  match { ledger.machine.shell with buffer := Buffer.ofText line }.exitAtOnce? with
  | some status =>
      { ledger with machine := after, ended := ledger.ended ++ [(caller, status)] }
  | none =>
      { ledger with
        machine := after
        submitter := if after.task.isSome then some caller else none }

/-- A caller looks whether the shell is free. -/
def call (ledger : Ledger) (caller : Nat) : Ledger :=
  let after := ledger.machine.call caller
  match ledger.machine.submittedBy caller with
  | none => { ledger with machine := after }
  | some line => { ledger.submit caller line with machine := after }

/-- What a callback does.  The one that puts the shell back to work ends the command in
flight. -/
def perform (ledger : Ledger) (job : Job) : Ledger :=
  match job with
  | .call caller => ledger.call caller
  | _ =>
      let after := ledger.machine.perform job
      match ledger.machine.handedBackBy job with
      | none => { ledger with machine := after }
      | some run =>
          { machine := after
            submitter := none
            ended := ledger.ended ++
              ledger.submitter.toList.map (·, ledger.machine.exitOf run) }

/-- The ledger when a callback has been taken from the queue. -/
def pop (ledger : Ledger) (ready : List Job) (turn : Nat) : Ledger :=
  { ledger with machine := ledger.machine.pop ready turn }

/-- One step of the machine. -/
def tick (ledger : Ledger) : Ledger :=
  match ledger.machine.turn, ledger.machine.ready with
  | turn + 1, job :: ready => (ledger.pop ready turn).perform job
  | _, _ => { ledger with machine := ledger.machine.beginTurn }

/-- The ledger after a move. -/
def next (ledger : Ledger) (move : Move) : Ledger :=
  match move with
  | .carryOut line =>
      { ledger with machine := ledger.machine.enlist line }.call ledger.machine.callers.length
  | .step => ledger.tick
  | _ => { ledger with machine := ledger.machine.make move }

/-- The ledger after moves in order. -/
def nextAll (ledger : Ledger) (moves : List Move) : Ledger :=
  moves.foldl next ledger

theorem machine_submit (ledger : Ledger) (caller : Nat) (line : Text) :
    (ledger.submit caller line).machine = ledger.machine.submitLine caller line := by
  unfold submit
  dsimp only
  split <;> rfl

theorem machine_call (ledger : Ledger) (caller : Nat) :
    (ledger.call caller).machine = ledger.machine.call caller := by
  unfold call
  dsimp only
  split <;> rfl

theorem machine_perform (ledger : Ledger) (job : Job) :
    (ledger.perform job).machine = ledger.machine.perform job := by
  unfold perform
  split
  · exact ledger.machine_call _
  · dsimp only
    split <;> rfl

/-- A ledger keeps to the moves of its machine. -/
theorem machine_next (ledger : Ledger) (move : Move) :
    (ledger.next move).machine = ledger.machine.make move := by
  cases move with
  | input | exec | release | elapse => rfl
  | carryOut line => exact machine_call _ _
  | step =>
      change ledger.tick.machine = ledger.machine.tick
      unfold tick Machine.tick
      cases ledger.machine.turn with
      | zero => rfl
      | succ turn =>
          cases ledger.machine.ready with
          | nil => rfl
          | cons job ready => exact machine_perform _ _

end Ledger

/-! ### Orderly courses -/

/-- What the host may do to a machine without pushing in before a caller that is being
woken: input only while no callback that is ready concerns the front, and a line for a new
caller only while those that do are looks of other callers. -/
def Machine.Permits (machine : Machine) : Move → Prop
  | .input _ | .carryOut _ => machine.front.jobs = []
  | .exec _ => ∀ job ∈ machine.front.jobs, ∃ caller, job = .call caller
  | .release _ | .elapse _ | .step => True

/-- The ledgers of orderly courses. -/
inductive Orderly : Ledger → Prop where
  | start {shell : Shell} (reachable : Reachable (.start shell)) : Orderly (.start shell)
  | next {ledger : Ledger} (move : Move) (permits : ledger.machine.Permits move) :
      Orderly ledger → Orderly (ledger.next move)

end LineShell
