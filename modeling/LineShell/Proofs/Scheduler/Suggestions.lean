/-
Module: LineShell.Proofs.Scheduler.Suggestions
Purpose: On every course the suggestion of an idle shell is the rest of the newest earlier
  line that goes on what has been typed, and taking it over gives that line.
Main exports: Shell.Suggests, Shell.Edits, Shell.CompletesLine, Reachable.suggests
-/
import LineShell.Proofs.Editor.Browsing
import LineShell.Proofs.Scheduler.Repaints

namespace LineShell

/-!
The suggestion is worked out when the line is shown anew, and kept until it is wanted.  The
buffer and the history change in many ways meanwhile, but none of them leaves an idle shell
without showing the line once more.  So the invariant compares the suggestion that is kept
with the one that would be worked out now.
-/

namespace Shell

variable {shell : Shell}

/-! ### The suggestion of a shell -/

/-- The suggestion is the rest of the newest earlier line that goes on the line being typed,
if that is not empty and a rest is left; otherwise there is none. -/
def Suggests (shell : Shell) : Prop :=
  ∀ rest, shell.suggestion = some rest ↔
    shell.options.suggestions = true ∧ shell.buffer.text ≠ [] ∧ rest ≠ [] ∧
      shell.history.Newest shell.buffer.text (shell.buffer.text ++ rest)

/-- Whether the suggestion that is kept is the one that would be worked out now. -/
def IsCurrent (shell : Shell) : Prop :=
  shell.suggestion = suggestionFor shell.options shell.history shell.buffer.text

theorem suggestionFor_eq_some_iff {options : Options} {history : History} {text rest : Text} :
    suggestionFor options history text = some rest ↔
      options.suggestions = true ∧ text ≠ [] ∧ rest ≠ [] ∧ history.Newest text (text ++ rest) := by
  unfold suggestionFor
  by_cases silent : (text.isEmpty || !options.suggestions) = true
  · rw [if_pos silent]
    simp only [Bool.or_eq_true, List.isEmpty_iff, Bool.not_eq_true'] at silent
    rcases silent with rfl | disabled
    · simp
    · simp [disabled]
  · rw [if_neg silent]
    simp only [Bool.or_eq_true, List.isEmpty_iff, Bool.not_eq_true', not_or,
      Bool.not_eq_false] at silent
    rw [← History.find_eq_some_iff]
    cases found : history.find text with
    | none => simp
    | some line =>
        obtain ⟨older, newer, -, ⟨more, rfl⟩, -⟩ := History.find_eq_some_iff.mp found
        dsimp only
        rw [List.drop_left, Option.some.injEq, List.append_cancel_left_eq]
        cases more with
        | nil =>
            rw [if_neg (by simp)]
            simp +contextual [eq_comm (a := [])]
        | cons c more =>
            rw [if_pos (by simp), Option.some.injEq]
            constructor
            · rintro rfl
              exact ⟨silent.2, silent.1, by simp, rfl⟩
            · exact fun goes => goes.2.2.2

theorem suggests_of_isCurrent (current : shell.IsCurrent) : shell.Suggests := fun rest => by
  rw [current]
  exact suggestionFor_eq_some_iff

theorem isCurrent_of_bare {after : Shell} (bare : after.bare = shell.bare) :
    after.IsCurrent ↔ shell.IsCurrent := by
  have same : after.bare.IsCurrent ↔ shell.bare.IsCurrent := by rw [bare]
  exact same

/-- Whenever the line is shown anew the suggestion is worked out. -/
theorem isCurrent_repaint (shell : Shell) : shell.repaint.IsCurrent :=
  rfl

/-- An event that leaves an idle shell idle shows the line anew, or it raises a failure when
the line has ended, and for an empty line nothing is suggested. -/
theorem isCurrent_input (idle : shell.activity = .idle) {scheduled : Bool} {event : Text}
    (still : (shell.input scheduled event).2.activity = .idle) :
    (shell.input scheduled event).2.IsCurrent := by
  have outcome := shell.outcome_typed scheduled idle event
  rw [input_of_idle idle, outcome.showAnew_eq] at still ⊢
  generalize shell.typed scheduled event = result at *
  cases outcome with
  | done => exact isCurrent_repaint _
  | launched present running => exact absurd (running.symm.trans still) (by simp)
  | raised idle empty bare =>
      rw [IsCurrent, bare, empty]
      rfl

/-! ### The key that takes it over -/

/-- The event of the key that goes to the right. -/
def rightArrow : Text :=
  controlSequence ['C']

/-- Whether an event changes the buffer and the suggestion of a shell as given, and besides
nothing but what is on the terminal. -/
def Edits (before : Shell) (buffer : Buffer) (suggestion : Option Text)
    (result : Reaction × Shell) : Prop :=
  ∃ console, result = (.done,
    { before with console := console, buffer := buffer, suggestion := suggestion })

/-- An event that leaves an idle shell as it is but for the buffer. -/
theorem edits_input {event : Text} {scheduled : Bool} (idle : shell.activity = .idle)
    {buffer : Buffer} {suggestion : Option Text}
    (typed : shell.typed scheduled event =
      (.done, { shell with buffer := buffer, suggestion := suggestion })) :
    shell.Edits buffer (suggestionFor shell.options shell.history buffer.text)
      (shell.input scheduled event) := by
  have still : { shell with buffer := buffer, suggestion := suggestion }.activity = .idle := idle
  have outcome : Outcome scheduled (.done, _) := .done still
  rw [input_of_idle idle, typed, outcome.showAnew_eq]
  exact ⟨_, rfl⟩

theorem moveRightOrAccept_of_lt (before : shell.buffer.cursor < shell.buffer.text.length) :
    shell.moveRightOrAccept =
      { shell with buffer := { shell.buffer with cursor := shell.buffer.cursor + 1 } } := by
  rw [moveRightOrAccept, Buffer.length, if_pos before, edit, Buffer.moveRight, if_pos before]

theorem moveRightOrAccept_of_none (last : shell.buffer.cursor = shell.buffer.text.length)
    (nothing : shell.suggestion = none) : shell.moveRightOrAccept = shell := by
  rw [moveRightOrAccept, Buffer.length, if_neg (by omega), nothing]

/-- Inserting the rest at the end of a line gives the whole. -/
theorem moveRightOrAccept_of_some (last : shell.buffer.cursor = shell.buffer.text.length)
    {rest : Text} (suggested : shell.suggestion = some rest) :
    shell.moveRightOrAccept =
      { shell with
        buffer := Buffer.ofText (shell.buffer.text ++ rest)
        suggestion := none } := by
  have whole : shell.buffer.insert rest = Buffer.ofText (shell.buffer.text ++ rest) := by
    simp [Buffer.insert, Buffer.insertBehind, Buffer.ofText, last]
  rw [moveRightOrAccept, Buffer.length, if_neg (by omega), suggested, ← whole]
  rfl

/-- Whether the key that goes to the right does with a shell what it should: in front of the
end of the line it moves the cursor by one place.  At the end it takes over the suggestion if
there is one, which gives a whole earlier line; then no suggestion is left, and the key does
nothing more. -/
structure CompletesLine (shell : Shell) (scheduled : Bool) : Prop where
  within : shell.buffer.cursor < shell.buffer.text.length →
    shell.Edits { shell.buffer with cursor := shell.buffer.cursor + 1 } shell.suggestion
      (shell.input scheduled rightArrow)
  silent : shell.buffer.cursor = shell.buffer.text.length → shell.suggestion = none →
    shell.Edits shell.buffer none (shell.input scheduled rightArrow)
  accepts : shell.buffer.cursor = shell.buffer.text.length → ∀ rest, shell.suggestion = some rest →
    ∃ line, shell.history.Newest shell.buffer.text line ∧ line = shell.buffer.text ++ rest ∧
      shell.Edits (Buffer.ofText line) none (shell.input scheduled rightArrow) ∧
      (shell.input scheduled rightArrow).2.Edits (Buffer.ofText line) none
        ((shell.input scheduled rightArrow).2.input scheduled rightArrow)

/-- Where nothing is suggested the key does nothing at the end of the line. -/
theorem edits_rightArrow_of_none (idle : shell.activity = .idle) (current : shell.IsCurrent)
    (last : shell.buffer.cursor = shell.buffer.text.length) (nothing : shell.suggestion = none)
    (scheduled : Bool) : shell.Edits shell.buffer none (shell.input scheduled rightArrow) := by
  have typed : shell.typed scheduled rightArrow =
      (.done, { shell with buffer := shell.buffer, suggestion := shell.suggestion }) :=
    congrArg (Prod.mk Reaction.done) (moveRightOrAccept_of_none last nothing)
  have edits := edits_input idle typed
  rwa [← current, nothing] at edits

theorem completesLine (idle : shell.activity = .idle) (current : shell.IsCurrent)
    (scheduled : Bool) : shell.CompletesLine scheduled := by
  refine ⟨fun before => ?_,
    fun last nothing => edits_rightArrow_of_none idle current last nothing scheduled,
    fun last rest suggested => ?_⟩
  · have typed : shell.typed scheduled rightArrow = (.done, _) :=
      congrArg (Prod.mk Reaction.done) (moveRightOrAccept_of_lt before)
    have edits := edits_input idle typed
    rwa [← current] at edits
  · obtain ⟨-, -, -, newest⟩ := (suggests_of_isCurrent current rest).mp suggested
    let line := shell.buffer.text ++ rest
    -- The line itself is the newest one that goes on it, so nothing is left to suggest.
    have exhausted : suggestionFor shell.options shell.history line = none := by
      refine Option.eq_none_iff_forall_ne_some.mpr fun more goes => ?_
      obtain ⟨-, -, some, longer⟩ := suggestionFor_eq_some_iff.mp goes
      have same := Option.some.inj ((History.find_eq_some_iff.mpr newest.self).symm.trans
        (History.find_eq_some_iff.mpr longer))
      exact some (List.self_eq_append_right.mp same)
    have typed : shell.typed scheduled rightArrow = (.done, _) :=
      congrArg (Prod.mk Reaction.done) (moveRightOrAccept_of_some last suggested)
    have edits : shell.Edits (Buffer.ofText line) none (shell.input scheduled rightArrow) :=
      exhausted ▸ edits_input idle typed
    refine ⟨line, newest, rfl, edits, ?_⟩
    obtain ⟨console, same⟩ := edits
    rw [same]
    let taken : Shell :=
      { shell with console := console, buffer := Buffer.ofText line, suggestion := none }
    have current : taken.IsCurrent := exhausted.symm
    exact edits_rightArrow_of_none (show taken.activity = .idle from idle) current rfl rfl scheduled

end Shell

/-! ### On all courses -/

/-- A move that leaves the shell idle leaves it with the suggestion that would be worked out
now. -/
theorem Machine.Treats.isCurrent {machine : Machine} {move : Move} {after : Shell}
    (treats : machine.Treats move after) (sound : machine.front.Sound none)
    (current : machine.shell.activity = .idle → machine.shell.IsCurrent)
    (still : after.activity = .idle) : after.IsCurrent := by
  cases treats with
  | aside bare =>
      have before : machine.shell.activity = .idle :=
        (congrArg Shell.activity bare).symm.trans still
      exact (Shell.isCurrent_of_bare bare).mpr (current before)
  | typed event =>
      cases active : machine.shell.activity with
      | idle => exact Shell.isCurrent_input active still
      | running =>
          rw [machine.shell.input_of_running true active] at still ⊢
          exact current still
  | submitted caller line given =>
      have idle : machine.shell.activity = .idle :=
        idle_of_free sound (submission_eq_some given).1
      have held : { machine.shell with buffer := Buffer.ofText line }.activity = .idle := idle
      exact Shell.isCurrent_input held still
  | putBack run => exact Shell.isCurrent_repaint _

/-- In every idle shell the suggestion is the one that would be worked out now. -/
theorem Reachable.isCurrent {flight : Flight} (reachable : Reachable flight)
    (idle : flight.machine.shell.activity = .idle) : flight.machine.shell.IsCurrent := by
  induction reachable with
  | start options sink store programs => rfl
  | next move reached current =>
      exact (Machine.treats_make _ move).isCurrent reached.sound.machine current idle
  | @leave flight deserted reached current =>
      have bare : flight.machine.shutDown.shell.bare = flight.machine.shell.bare :=
        congrArg Front.shell (Machine.front_shutDown reached.sound.machine deserted)
      have before := Machine.idle_of_free reached.sound.machine deserted.task
      exact (Shell.isCurrent_of_bare bare).mpr (current before)
  | @unscheduled shell event reached current =>
      have before : shell.activity = .idle := Machine.idle_of_free reached.sound.machine rfl
      exact Shell.isCurrent_input before idle

/-- The suggestion is always a true completion: in every idle shell it is the rest of the
newest earlier line that is longer than what has been typed and goes on it, and the key that
takes it over gives just that line. -/
theorem Reachable.suggests {flight : Flight} (reachable : Reachable flight)
    (idle : flight.machine.shell.activity = .idle) :
    flight.machine.shell.Suggests ∧
      flight.machine.shell.buffer.cursor ≤ flight.machine.shell.buffer.text.length ∧
      (∀ scheduled, flight.machine.shell.CompletesLine scheduled) ∧
      (flight.next (.input Shell.rightArrow)).machine.shell =
        (flight.machine.shell.input true Shell.rightArrow).2 := by
  have current := reachable.isCurrent idle
  exact ⟨Shell.suggests_of_isCurrent current, reachable.within,
    fun scheduled => Shell.completesLine idle current scheduled, Machine.shell_input _ _⟩

/-- A shell in which the beginning of an earlier line has been typed again. -/
def Flight.retyping : Flight :=
  (((Flight.start (.start {} .memory {} {})).next (.input "say hello")).next
    (.input "\r")).next (.input "say")

theorem suggests_retyping :
    let shell := Flight.retyping.machine.shell
    shell.suggestion = some " hello" ∧ shell.Suggests ∧ shell.CompletesLine true := by
  have reachable : Reachable Flight.retyping := .next _ (.next _ (.next _ (.start ..)))
  have idle : Flight.retyping.machine.shell.activity = .idle := by decide +kernel
  have suggests := reachable.suggests idle
  exact ⟨by decide +kernel, suggests.1, suggests.2.2.1 true⟩

end LineShell
