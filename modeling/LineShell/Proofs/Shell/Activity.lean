/-
Module: LineShell.Proofs.Shell.Activity
Purpose: When an input event starts a program, and what it does to the activity and
  the buffer of a shell.
Main exports: Shell.started, Shell.Outcome, Shell.input_of_running, Shell.input_of_idle,
  Shell.outcome_input, Shell.options_input, Shell.input_of_started_none
-/
import LineShell.Shell.Input

namespace LineShell.Shell

/-! ### Starting a program -/

/-- Whether a program of a kind can be started: those that run beside the shell need
a scheduler. -/
def canStart (scheduled : Bool) : Program → Bool
  | .builtin _ => true
  | .internal _ | .external _ => scheduled

/-- The name and the program that an input event starts, if it starts one: the event
submits the line being typed, and the line is a command for a known program. -/
def started (shell : Shell) (scheduled : Bool) (event : Text) : Option (Text × Program) :=
  match shell.activity, Key.ofText? event with
  | .idle, some .submit =>
      if shell.buffer.text.isBlank then none
      else
        match parseStrict shell.buffer.text with
        | .error _ => none
        | .ok command =>
            ((shell.programs.get? command.name).filter (canStart scheduled)).map
              (command.name, ·)
  | _, _ => none

variable (shell : Shell) (scheduled : Bool)

/-! ### What dispatching leaves alone -/

/-- Whether a shell is set up as before, with the same line being typed and suggested, and as
active. -/
structure Leaves (after : Shell) : Prop where
  options : after.options = shell.options
  buffer : after.buffer = shell.buffer
  suggestion : after.suggestion = shell.suggestion
  activity : after.activity = shell.activity

theorem leaves_runBuiltin (name : Text) (script : BuiltinScript) :
    shell.Leaves (shell.runBuiltin name script).2 := by
  rw [runBuiltin]
  dsimp only
  split <;> exact ⟨rfl, rfl, rfl, rfl⟩

@[simp] theorem activity_runBuiltin (name : Text) (script : BuiltinScript) :
    (shell.runBuiltin name script).2.activity = shell.activity :=
  (shell.leaves_runBuiltin name script).activity

/-- Looking up a command, and running it if it is finished at once. -/
theorem leaves_dispatch (command : Command) :
    shell.Leaves (shell.dispatch scheduled command).2 := by
  unfold dispatch
  dsimp only
  split
  · exact ⟨rfl, rfl, rfl, rfl⟩
  · exact ⟨rfl, rfl, rfl, rfl⟩
  · exact shell.leaves_runBuiltin _ _
  · split
    · split <;> exact ⟨rfl, rfl, rfl, rfl⟩
    · exact ⟨rfl, rfl, rfl, rfl⟩
  · split <;> exact ⟨rfl, rfl, rfl, rfl⟩

/-- Carrying out a command can make a shell run. -/
theorem leaves_execute (command : Command) :
    (shell.execute scheduled command).2.options = shell.options ∧
      (shell.execute scheduled command).2.buffer = shell.buffer := by
  obtain ⟨options, buffer, -, -⟩ := shell.leaves_dispatch scheduled command
  unfold execute
  split
  all_goals
    next dispatched =>
      rw [dispatched] at options buffer
      exact ⟨options, buffer⟩

/-- A program is launched from the shell as it is, and only with a scheduler. -/
theorem dispatch_launched {command : Command} {launch : Launch} {after : Shell}
    (launched : shell.dispatch scheduled command = (.launched launch, after)) :
    after = shell ∧ scheduled = true := by
  unfold dispatch at launched
  dsimp only at launched
  split at launched
  · cases launched
  · cases launched
  · cases launched
  · split at launched
    · next present =>
        split at launched
        · cases launched
        · exact ⟨((Prod.mk.inj launched).2).symm, present⟩
    · cases launched
  · split at launched
    · next present => exact ⟨((Prod.mk.inj launched).2).symm, present⟩
    · cases launched

/-- What can come out of an event in an idle shell: an idle shell, a program that is to be
launched from a running shell, or a failure raised in an idle one; the line has been taken
from the buffer in the last two cases, and nothing is suggested. -/
inductive Outcome (scheduled : Bool) : Reaction × Shell → Prop where
  | done {after : Shell} (idle : after.activity = .idle) : Outcome scheduled (.done, after)
  | launched {after : Shell} {launch : Launch} (present : scheduled = true)
      (running : after.activity = .running) (empty : after.buffer = Buffer.empty) :
      Outcome scheduled (.launched launch, after)
  | raised {after : Shell} {fault : Fault} (idle : after.activity = .idle)
      (empty : after.buffer = Buffer.empty) (bare : after.suggestion = none) :
      Outcome scheduled (.raised fault, after)

theorem outcome_execute (idle : shell.activity = .idle) (empty : shell.buffer = Buffer.empty)
    (bare : shell.suggestion = none) (command : Command) :
    Outcome scheduled (shell.execute scheduled command) := by
  obtain ⟨-, buffer, suggestion, activity⟩ := shell.leaves_dispatch scheduled command
  unfold execute
  split
  · next status after dispatched =>
      rw [dispatched] at activity
      exact .done (activity.trans idle)
  · next launch after dispatched =>
      obtain ⟨rfl, present⟩ := shell.dispatch_launched scheduled dispatched
      exact .launched present rfl empty
  · next fault after dispatched =>
      rw [dispatched] at activity buffer suggestion
      exact .raised (activity.trans idle) (buffer.trans empty) (suggestion.trans bare)

theorem outcome_submit (idle : shell.activity = .idle) :
    Outcome scheduled (shell.submit scheduled) := by
  unfold submit
  dsimp only
  split
  · exact .done idle
  · split
    · refine outcome_execute _ scheduled ?_ ?_ ?_ _
      · exact idle
      · rfl
      · rfl
    · exact .done idle

/-! ### Input events -/

theorem outcome_press (idle : shell.activity = .idle) (key : Key) :
    Outcome scheduled (shell.press scheduled key) := by
  cases key with
  | submit => exact shell.outcome_submit scheduled idle
  | right =>
      refine .done ?_
      unfold moveRightOrAccept
      split
      · exact idle
      · split <;> exact idle
  | escape | backspace | left | up | down | delete | home | last | doubleQuote
  | singleQuote => exact .done idle

theorem outcome_typed (idle : shell.activity = .idle) (event : Text) :
    Outcome scheduled (shell.typed scheduled event) := by
  unfold typed
  split
  · exact shell.outcome_press scheduled idle _
  · refine .done ?_
    split <;> exact idle

/-- While a program runs, input is ignored. -/
theorem input_of_running (running : shell.activity = .running) (event : Text) :
    shell.input scheduled event = (.done, shell) := by
  rw [input, running]

/-- An input event in an idle shell. -/
theorem input_of_idle {shell : Shell} (idle : shell.activity = .idle) (scheduled : Bool)
    (event : Text) : shell.input scheduled event = showAnew (shell.typed scheduled event) := by
  rw [input, idle]

/-- The line is shown anew, or not. -/
theorem showAnew_cases (result : Reaction × Shell) :
    showAnew result = result ∨ showAnew result = (result.1, result.2.repaint) := by
  unfold showAnew
  split
  · exact .inl rfl
  · exact .inl rfl
  · exact .inr rfl

/-- Where an event has neither launched a program nor raised a failure, the line is shown
anew; otherwise nothing more happens. -/
theorem Outcome.showAnew_eq {scheduled : Bool} {result : Reaction × Shell}
    (outcome : Outcome scheduled result) :
    showAnew result = match result.1 with
      | .done => (.done, result.2.repaint)
      | .launched _ | .raised _ => result := by
  cases outcome with
  | done idle => rw [showAnew, idle]
  | launched present running empty => rw [showAnew, running]
  | raised idle empty bare => rfl

theorem Outcome.showAnew {scheduled : Bool} {result : Reaction × Shell}
    (outcome : Outcome scheduled result) : Outcome scheduled (showAnew result) := by
  rw [outcome.showAnew_eq]
  cases outcome with
  | done idle => exact .done idle
  | launched present running empty => exact .launched present running empty
  | raised idle empty bare => exact .raised idle empty bare

/-- An input event leaves an idle shell idle, or it launches a program; then the shell
runs and its buffer is empty. -/
theorem outcome_input (idle : shell.activity = .idle) (event : Text) :
    Outcome scheduled (shell.input scheduled event) := by
  rw [input_of_idle idle]
  exact (shell.outcome_typed scheduled idle event).showAnew

/-- No input event changes how a shell is set up. -/
theorem options_input (event : Text) : (shell.input scheduled event).2.options = shell.options := by
  have submitted : (shell.submit scheduled).2.options = shell.options := by
    unfold submit
    dsimp only
    split
    · rfl
    · split
      · exact (leaves_execute _ scheduled _).1
      · rfl
  have pressed : ∀ key, (shell.press scheduled key).2.options = shell.options := by
    intro key
    cases key with
    | submit => exact submitted
    | right =>
        change shell.moveRightOrAccept.options = _
        unfold moveRightOrAccept
        split
        · rfl
        · split <;> rfl
    | escape | backspace | left | up | down | delete | home | last | doubleQuote
    | singleQuote => rfl
  have typed : (shell.typed scheduled event).2.options = shell.options := by
    unfold typed
    split
    · exact pressed _
    · dsimp only
      split <;> rfl
  cases active : shell.activity with
  | running => rw [shell.input_of_running scheduled active]
  | idle =>
      rw [input_of_idle active]
      rcases showAnew_cases (shell.typed scheduled event) with same | same
      · rwa [same]
      · rw [same]
        exact typed

/-! ### Events that start nothing -/

/-- A result of an event that reached no program: nothing is launched, no function of
the host was called, and the table of programs is as it was. -/
def Untouched (result : Reaction × Shell) : Prop :=
  result.1 = .done ∧ result.2.programs = shell.programs ∧
    result.2.journal.calls = shell.journal.calls

theorem untouched_execute {command : Command}
    (absent : (shell.programs.get? command.name).filter (canStart scheduled) = none) :
    shell.Untouched (shell.execute scheduled command) := by
  cases found : shell.programs.get? command.name with
  | none =>
      simp only [execute, dispatch, found]
      exact ⟨rfl, rfl, rfl⟩
  | some program =>
      rw [found, Option.filter_some] at absent
      cases program with
      | builtin run => cases absent
      | internal run | external run =>
          cases scheduled with
          | true => cases absent
          | false =>
              simp only [execute, dispatch, found]
              exact ⟨rfl, rfl, rfl⟩

theorem untouched_submit (idle : shell.activity = .idle) {event : Text}
    (submits : Key.ofText? event = some .submit)
    (none : shell.started scheduled event = none) :
    shell.Untouched (shell.submit scheduled) := by
  rw [started, idle, submits] at none
  unfold submit
  dsimp only at none ⊢
  split
  · exact ⟨rfl, rfl, rfl⟩
  · next visible =>
      rw [if_neg visible] at none
      split
      · next command parsed =>
          rw [parsed] at none
          exact untouched_execute
            { shell.endLine with history := shell.endLine.history.commit shell.buffer.text }
            scheduled (Option.map_eq_none_iff.mp none)
      · exact ⟨rfl, rfl, rfl⟩

/-- An event that starts no program reaches none. -/
theorem input_of_started_none {event : Text} (none : shell.started scheduled event = none) :
    shell.Untouched (shell.input scheduled event) := by
  cases active : shell.activity with
  | running => rw [shell.input_of_running scheduled active]; exact ⟨rfl, rfl, rfl⟩
  | idle =>
      have typed : shell.Untouched (shell.typed scheduled event) := by
        unfold typed
        split
        · next key pressed =>
            cases key with
            | submit => exact shell.untouched_submit scheduled active pressed none
            | right =>
                change shell.Untouched (.done, shell.moveRightOrAccept)
                unfold moveRightOrAccept
                split
                · exact ⟨rfl, rfl, rfl⟩
                · split <;> exact ⟨rfl, rfl, rfl⟩
            | escape | backspace | left | up | down | delete | home | last | doubleQuote
            | singleQuote => exact ⟨rfl, rfl, rfl⟩
        · split <;> exact ⟨rfl, rfl, rfl⟩
      rw [input_of_idle active]
      rcases showAnew_cases (shell.typed scheduled event) with same | same
      · rwa [same]
      · rw [same]
        exact typed

end LineShell.Shell
