/-
Module: LineShell.Proofs.Scheduler.Repaints
Purpose: On every course, whenever the line being typed is shown anew, it lines up with
  the buffer, and the cursor is put where it stands there.
Main exports: Reachable.within, Shell.Shown, Reachable.shown
-/
import LineShell.Proofs.Scheduler.Desk

namespace LineShell

/-!
The line is shown anew at the end of an input event that leaves the shell idle, be it the
host's or that of a caller which submits its line, and when the shell is put back to work.
An event that raises a failure does not come to its end.  What is shown depends on the shell
alone; a course matters only in that it keeps the cursor in the line.
-/

/-! ### The cursor on a course -/

namespace Machine

variable {machine : Machine}

theorem Treats.within {move : Move} {after : Shell} (treats : machine.Treats move after)
    (within : machine.shell.buffer.Within) : after.buffer.Within := by
  cases treats with
  | aside bare =>
      have same : after.buffer = machine.shell.buffer := congrArg (·.buffer) bare
      rwa [same]
  | typed event => exact Shell.within_input within true event
  | submitted caller line =>
      have whole : { machine.shell with buffer := Buffer.ofText line }.buffer.Within :=
        Buffer.within_ofText line
      exact Shell.within_input whole true ['\r']
  | putBack run => exact within

end Machine

/-- On every course the cursor stands in the line. -/
theorem Reachable.within {flight : Flight} (reachable : Reachable flight) :
    flight.machine.shell.buffer.Within := by
  induction reachable with
  | start options sink store programs => exact Nat.le_refl _
  | next move _ within => exact (Machine.treats_make _ move).within within
  | @leave flight deserted reached within =>
      have same : flight.machine.shutDown.shell.buffer = flight.machine.shell.buffer :=
        congrArg (·.shell.buffer) (Machine.front_shutDown reached.sound.machine deserted)
      change flight.machine.shutDown.shell.buffer.Within
      rwa [same]
  | unscheduled event _ within => exact Shell.within_input within false event

/-! ### Showing the line -/

/-- What holds when the line of a shell `before` is shown anew. -/
structure Shell.Shown (before after : Shell) : Prop where
  repainted : after = before.repaint
  cursor : before.buffer.cursor ≤ before.buffer.text.length
  linesUp : Plain before.buffer.text → before.LinesUp

theorem Shell.shown_repaint {shell : Shell} (within : shell.buffer.Within) :
    shell.Shown shell.repaint :=
  ⟨rfl, within, Shell.linesUp within⟩

/-- An input event that comes to its end and leaves the shell idle shows the line that it
leads to. -/
theorem Shell.shown_input {shell : Shell} (within : shell.buffer.Within)
    (idle : shell.activity = .idle) {scheduled : Bool} {event : Text}
    (quiet : (shell.input scheduled event).1.fault? = none)
    (still : (shell.input scheduled event).2.activity = .idle) :
    (shell.typed scheduled event).2.Shown (shell.input scheduled event).2 := by
  have outcome := shell.outcome_typed scheduled idle event
  have typed := within_typed within scheduled event
  rw [Shell.input_of_idle idle, outcome.showAnew_eq] at quiet still ⊢
  generalize shell.typed scheduled event = result at *
  cases outcome with
  | done => exact shown_repaint typed
  | launched present running => exact absurd (running.symm.trans still) (by simp)
  | raised => cases quiet

/-- Whenever the line being typed is shown anew, it lines up with the buffer: at the end of
an input event that leaves the shell idle and raises no failure, when a caller's line has been
carried out at once in this way, and when the shell is put back to work; and so it is with
every other shell whose cursor stands in the line. -/
theorem Reachable.shown {flight : Flight} (reachable : Reachable flight) :
    (∀ scheduled event, flight.machine.shell.activity = .idle →
      (flight.machine.shell.input scheduled event).1.fault? = none →
      (flight.machine.shell.input scheduled event).2.activity = .idle →
        (flight.machine.shell.typed scheduled event).2.Shown
          (flight.machine.shell.input scheduled event).2) ∧
    (∀ move caller line, flight.machine.submission move = some (caller, line) →
      (flight.machine.withLine line).failure? ['\r'] = none →
      (flight.next move).machine.shell.activity = .idle →
        ({ flight.machine.shell with buffer := Buffer.ofText line }.typed true ['\r']).2.Shown
          (flight.next move).machine.shell) ∧
    (∀ move run, flight.machine.handedBack move = some run →
      (flight.machine.shell.relieved (flight.machine.exitOf run)).Shown
        (flight.next move).machine.shell) ∧
    ∀ shell : Shell, shell.buffer.cursor ≤ shell.buffer.text.length →
      shell.Shown shell.repaint := by
  refine ⟨fun scheduled event idle quiet still =>
    Shell.shown_input reachable.within idle quiet still, ?_, ?_,
    fun shell within => Shell.shown_repaint within⟩
  · intro move caller line given quiet still
    let typed : Shell := { flight.machine.shell with buffer := Buffer.ofText line }
    have within : typed.buffer.Within := Buffer.within_ofText line
    have idle : typed.activity = .idle :=
      Machine.idle_of_free reachable.sound.machine (Machine.submission_eq_some given).1
    have same : (flight.next move).machine.shell = (typed.input true ['\r']).2 :=
      (Machine.treats_make _ move).of_submission given
    rw [same] at still ⊢
    exact Shell.shown_input within idle quiet still
  · intro move run handed
    have same : (flight.next move).machine.shell =
        flight.machine.shell.putBack (flight.machine.exitOf run) :=
      (Machine.treats_make _ move).of_handedBack handed
    rw [same]
    exact Shell.shown_repaint reachable.within

/-- A line with a wide gap and a quote that is still open. -/
theorem shown_halfTyped :
    let shell := Shell.start {} .memory {} {}
    (shell.typed true "echo  'a b").2.buffer.text = "echo  'a b" ∧
      (shell.typed true "echo  'a b").2.LinesUp := by
  intro shell
  have text : (shell.typed true "echo  'a b").2.buffer.text = "echo  'a b" := by decide +kernel
  have still : (shell.input true "echo  'a b").2.activity = .idle := by decide +kernel
  have plain : Plain (shell.typed true "echo  'a b").2.buffer.text := by
    rw [text, Plain]
    decide +kernel
  have reachable : Reachable (.start shell) := .start {} .memory {} {}
  refine ⟨text, ?_⟩
  exact (reachable.shown.1 true "echo  'a b" rfl (by decide +kernel) still).linesUp plain

end LineShell
