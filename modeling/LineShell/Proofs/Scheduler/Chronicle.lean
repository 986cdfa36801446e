/-
Module: LineShell.Proofs.Scheduler.Chronicle
Purpose: On every course the history holds the lines that were submitted, and the status and
  the variable `?` tell how the last one of them that has ended did.
Main exports: Chronicle, Shell.Verdict.exit?, Chronicle.next, Chronicled, Shell.Records,
  Chronicled.remembers
-/
import LineShell.Proofs.Scheduler.Leftovers
import LineShell.Proofs.Scheduler.Variables

namespace LineShell

/-!
A chronicle is kept beside a machine.  It notes a line when it is submitted, and a status
when a line ends: that of the verdict, if the line ends at once, and that of the run when the
shell is put back to work.  Nothing of it is read off the history, the recorded status or the
variables, which builtin programs can set as they like; the claim is that these agree with it.
-/

/-! ### Keeping a chronicle -/

/-- The lines that were submitted and were not blank, and the statuses with which they have
ended, oldest first.  A line that has raised a failure has ended without a status. -/
structure Chronicle where
  lines : List Text := []
  exits : List (Except Fault Int) := []
deriving DecidableEq, Repr, Inhabited

/-- The status of the last line that has ended with one. -/
def Chronicle.lastExit (chronicle : Chronicle) : Int :=
  (chronicle.exits.filterMap Except.toOption).getLast?.getD statusSuccess

/-- How a line ends at once, by the verdict on it. -/
def Shell.Verdict.exit? (shell : Shell) : Verdict → Option (Except Fault Int)
  | .blank | .launched _ => none
  | .rejected _ => some (.ok statusSyntaxError)
  | .unknown _ => some (.ok statusNotFound)
  | .refused _ => some (.ok statusFailure)
  | .unmade fault => some (.error fault)
  | .builtin _ script =>
      some (match (script.play shell.environment).1 with
        | .ok status => .ok status
        | .error _ => .ok statusFailure)

namespace Chronicle

variable (chronicle : Chronicle)

/-- The line being typed is submitted. -/
def submit (shell : Shell) (scheduled : Bool) : Chronicle :=
  if shell.buffer.text.isBlank then chronicle
  else
    { lines := chronicle.lines ++ [shell.buffer.text]
      exits := chronicle.exits ++ ((shell.verdict scheduled).exit? shell).toList }

/-- An input event, which submits the line being typed if it is the key for that and no
program is in flight. -/
def input (shell : Shell) (scheduled : Bool) (event : Text) : Chronicle :=
  if shell.activity = .idle ∧ (event = ['\r'] ∨ event = ['\n']) then
    chronicle.submit shell scheduled
  else chronicle

/-- A move: an input event, the submission of a caller's line, or the end of a run. -/
def next (machine : Machine) (move : Move) : Chronicle :=
  match move with
  | .input event => chronicle.input machine.shell true event
  | _ =>
      match machine.submission move with
      | some (_, line) => chronicle.submit { machine.shell with buffer := Buffer.ofText line } true
      | none =>
          { chronicle with
            exits := chronicle.exits ++
              ((machine.handedBack move).map fun run => .ok (machine.exitOf run)).toList }

end Chronicle

/-- The flights that a shell can come to which had no variable `?` of its own at first, with
their chronicles. -/
inductive Chronicled : Flight → Chronicle → Prop where
  | start (options : Options) (sink : Sink) (store : Variables) (programs : Programs)
      (unset : store.get? ['?'] = none) :
      Chronicled (.start (.start options sink store programs)) {}
  | next {flight : Flight} {chronicle : Chronicle} (move : Move) :
      Chronicled flight chronicle →
        Chronicled (flight.next move) (chronicle.next flight.machine move)
  | leave {flight : Flight} {chronicle : Chronicle} (deserted : flight.machine.Deserted) :
      Chronicled flight chronicle → Chronicled (.start flight.machine.shutDown.shell) chronicle
  | unscheduled {shell : Shell} {chronicle : Chronicle} (event : Text) :
      Chronicled (.start shell) chronicle →
        Chronicled (.start (shell.input false event).2) (chronicle.input shell false event)

/-- Whatever a chronicle tells of can be reached. -/
theorem Chronicled.reachable {flight : Flight} {chronicle : Chronicle}
    (chronicled : Chronicled flight chronicle) : Reachable flight := by
  induction chronicled with
  | start options sink store programs => exact .start options sink store programs
  | next move _ reached => exact .next move reached
  | leave deserted _ reached => exact .leave deserted reached
  | unscheduled event _ reached => exact .unscheduled event reached

/-! ### What a shell records -/

namespace Shell

/-- How many lines have been submitted and have not ended. -/
def pending (shell : Shell) : Nat :=
  match shell.activity with
  | .idle => 0
  | .running => 1

/-- Whether a shell remembers what a chronicle tells.  Since every line but one that is in
flight has ended, each ending belongs to the line in the same place. -/
structure Records (shell : Shell) (chronicle : Chronicle) : Prop where
  entries : shell.history.entries = chronicle.lines
  cursor : shell.history.cursor ≤ shell.history.entries.length
  status : shell.status = chronicle.lastExit
  statusVariable : shell.store.get? ['?'] = some (Text.ofInt shell.status)
  balance : chronicle.exits.length + shell.pending = chronicle.lines.length

variable {shell : Shell} {chronicle : Chronicle} {scheduled : Bool}

theorem Records.congr {after : Shell} (records : shell.Records chronicle)
    (history : after.history = shell.history) (status : after.status = shell.status)
    (store : after.store = shell.store) (activity : after.activity = shell.activity) :
    after.Records chronicle := by
  obtain ⟨entries, cursor, last, statusVariable, balance⟩ := records
  rw [← history] at entries cursor
  rw [← status] at last statusVariable
  rw [← store] at statusVariable
  rw [pending, ← activity] at balance
  exact ⟨entries, cursor, last, statusVariable, balance⟩

/-- What a shell remembers is no part of what it shows. -/
theorem Records.of_bare {after : Shell} (records : shell.Records chronicle)
    (bare : after.bare = shell.bare) : after.Records chronicle :=
  records.congr (congrArg (·.history) bare) (congrArg (·.status) bare) (congrArg (·.store) bare)
    (congrArg (·.activity) bare)

/-! ### Events that submit nothing -/

/-- Whether a shell differs from an earlier one at most in the line being typed, in the place
of browsing among earlier lines, and in what is shown. -/
def Browses (before after : Shell) : Prop :=
  ∃ console buffer suggestion cursor,
    (before.history.cursor ≤ before.history.entries.length →
      cursor ≤ before.history.entries.length) ∧
    after = { before with
      console := console
      buffer := buffer
      suggestion := suggestion
      history := { before.history with cursor := cursor } }

theorem browses_edit (change : Buffer → Buffer) : shell.Browses (shell.edit change) :=
  ⟨_, _, _, _, id, rfl⟩

theorem browses_moveRightOrAccept : shell.Browses shell.moveRightOrAccept := by
  unfold moveRightOrAccept
  split
  · exact browses_edit _
  · split <;> exact ⟨_, _, _, _, id, rfl⟩

theorem browses_historyUp : shell.Browses shell.historyUp :=
  ⟨_, _, _, _, fun within => (Nat.sub_le _ _).trans within, rfl⟩

theorem browses_historyDown : shell.Browses shell.historyDown := by
  unfold historyDown History.down
  split
  · next before => exact ⟨_, _, _, _, fun _ => before, rfl⟩
  · exact ⟨_, _, _, _, id, rfl⟩

/-- Every key but the one that submits edits the line or browses among earlier ones. -/
theorem browses_press {key : Key} (other : key ≠ .submit) :
    shell.Browses (shell.press scheduled key).2 := by
  cases key with
  | submit => exact absurd rfl other
  | right => exact browses_moveRightOrAccept
  | up => exact browses_historyUp
  | down => exact browses_historyDown
  | escape => exact ⟨_, _, _, _, id, rfl⟩
  | backspace | left | delete | home | last => exact browses_edit _
  | doubleQuote => exact browses_edit (·.insertPair ['"', '"'])
  | singleQuote => exact browses_edit (·.insertPair ['\x27', '\x27'])

theorem submits_of_ofText? {event : Text} (submits : Key.ofText? event = some .submit) :
    event = ['\r'] ∨ event = ['\n'] := by
  simpa only [Key.ofText?, ite_eq_iff, Option.some.injEq, reduceCtorEq, and_false, false_or,
    and_true, or_false] using submits

/-- An event that is no key is text, which is inserted. -/
theorem browses_typed {event : Text} (other : ¬ (event = ['\r'] ∨ event = ['\n'])) :
    shell.Browses (shell.typed scheduled event).2 := by
  unfold typed
  split
  · next key pressed =>
      refine browses_press ?_
      rintro rfl
      exact other (submits_of_ofText? pressed)
  · dsimp only
    split
    · exact ⟨_, _, _, _, id, rfl⟩
    · exact browses_edit _

theorem Browses.repaint {after : Shell} (browses : shell.Browses after) :
    shell.Browses after.repaint := by
  obtain ⟨console, buffer, suggestion, cursor, within, rfl⟩ := browses
  exact ⟨_, _, _, _, within, rfl⟩

/-- Browsing forgets nothing. -/
theorem Browses.records {after : Shell} (browses : shell.Browses after)
    (records : shell.Records chronicle) : after.Records chronicle := by
  obtain ⟨console, buffer, suggestion, cursor, within, rfl⟩ := browses
  exact { records with cursor := within records.cursor }

theorem browses_input (idle : shell.activity = .idle) {event : Text}
    (other : ¬ (event = ['\r'] ∨ event = ['\n'])) :
    shell.Browses (shell.input scheduled event).2 := by
  have browses : shell.Browses (shell.typed scheduled event).2 := browses_typed other
  rw [input_of_idle idle]
  rcases showAnew_cases (shell.typed scheduled event) with same | same
  · rwa [same]
  · rw [same]
    exact browses.repaint

/-! ### Submissions -/

theorem lastExit_concat (status : Int) (lines : List Text) :
    Chronicle.lastExit { lines := lines, exits := chronicle.exits ++ [.ok status] } = status := by
  simp [Chronicle.lastExit, Except.toOption]

theorem lastExit_concat_error (fault : Fault) (lines : List Text) :
    Chronicle.lastExit { lines := lines, exits := chronicle.exits ++ [.error fault] } =
      chronicle.lastExit := by
  simp [Chronicle.lastExit, Except.toOption]

/-- How a line ends that is not blank: at once, with a status that is recorded or with a
failure, or not yet. -/
def Ends (before after : Shell) : Option (Except Fault Int) → Prop
  | some (.ok status) =>
      after.activity = .idle ∧ after.status = status ∧
        after.store.get? ['?'] = some (Text.ofInt status)
  | some (.error _) =>
      after.activity = .idle ∧ after.status = before.status ∧ after.store = before.store
  | none => after.activity = .running ∧ after.status = before.status ∧ after.store = before.store

/-- What a line that is not blank leaves, by the way in which it ends at once. -/
theorem Records.commit {after : Shell} (records : shell.Records chronicle)
    (idle : shell.activity = .idle) {line : Text}
    (history : after.history.entries = shell.history.entries ++ [line] ∧
      after.history.cursor = after.history.entries.length) {exit : Option (Except Fault Int)}
    (ends : shell.Ends after exit) :
    after.Records
      { lines := chronicle.lines ++ [line], exits := chronicle.exits ++ exit.toList } := by
  have balance : chronicle.exits.length = chronicle.lines.length := by
    have before := records.balance
    rwa [pending, idle] at before
  rcases exit with _ | fault | status
  case some.ok =>
      obtain ⟨still, same, named⟩ := ends
      refine ⟨by rw [history.1, records.entries], history.2.le, ?_, same ▸ named, ?_⟩
      · rw [same]
        exact (lastExit_concat _ _).symm
      · simp [pending, still, balance]
  case some.error =>
      obtain ⟨still, same, store⟩ := ends
      refine ⟨by rw [history.1, records.entries], history.2.le, ?_, ?_, ?_⟩
      · rw [same, records.status]
        exact (lastExit_concat_error _ _).symm
      · rw [store, same]
        exact records.statusVariable
      · simp [pending, still, balance]
  case none =>
      obtain ⟨running, same, store⟩ := ends
      refine ⟨by rw [history.1, records.entries], history.2.le, ?_, ?_, ?_⟩
      · rw [same, records.status, Option.toList_none, List.append_nil]
        rfl
      · rw [store, same]
        exact records.statusVariable
      · simp [pending, running, balance]

/-- How a line ends that is not blank, whatever the verdict on it is. -/
theorem ends_of_holds {verdict : Verdict} {result : Reaction × Shell}
    (holds : verdict.Holds shell result) (visible : verdict ≠ .blank) :
    shell.Ends result.2 (verdict.exit? shell) := by
  cases verdict with
  | blank => exact absurd rfl visible
  | rejected fault => exact ⟨holds.2.activity, holds.2.status, holds.2.statusVariable⟩
  | unknown name => exact ⟨holds.activity, holds.status, holds.statusVariable⟩
  | refused name => exact ⟨holds.activity, holds.status, holds.statusVariable⟩
  | unmade fault => exact ⟨holds.activity, holds.status, holds.store⟩
  | builtin name script =>
      have named := holds.statusVariable
      have status := holds.status
      rw [status] at named
      rw [Verdict.exit?]
      cases played : (script.play shell.environment).1 with
      | ok status' =>
          rw [played] at status named
          exact ⟨holds.activity, status, named⟩
      | error fault =>
          rw [played] at status named
          exact ⟨holds.activity, status, named⟩
  | launched program => exact ⟨holds.activity, holds.status, holds.store⟩

/-- A line that is submitted is noted, and so is its status unless it is still in flight. -/
theorem Records.submit (records : shell.Records chronicle) (idle : shell.activity = .idle)
    {event : Text} (submits : event = ['\r'] ∨ event = ['\n']) :
    (shell.input scheduled event).2.Records (chronicle.submit shell scheduled) := by
  have submitted : shell.Submits scheduled (shell.input scheduled event) :=
    submits_input idle submits
  have holds := submitted.verdict
  rw [Chronicle.submit]
  by_cases blank : shell.buffer.text.isBlank = true
  · rw [if_pos blank]
    have verdict : shell.verdict scheduled = .blank := if_pos blank
    rw [verdict] at holds
    obtain ⟨-, still, history, -, -, store, status, -⟩ := holds
    exact records.congr history status store (still.trans idle.symm)
  · rw [if_neg blank]
    have visible : shell.buffer.text.isBlank = false := Bool.not_eq_true _ ▸ blank
    exact records.commit idle (submitted.history visible)
      (ends_of_holds holds (verdict_ne_blank visible))

/-- An input event, whether a program is in flight or not. -/
theorem Records.input (records : shell.Records chronicle) (scheduled : Bool) (event : Text) :
    (shell.input scheduled event).2.Records (chronicle.input shell scheduled event) := by
  rw [Chronicle.input]
  cases active : shell.activity with
  | running =>
      rw [if_neg (by simp), shell.input_of_running scheduled active]
      exact records
  | idle =>
      by_cases submits : event = ['\r'] ∨ event = ['\n']
      · rw [if_pos ⟨rfl, submits⟩]
        exact records.submit active submits
      · rw [if_neg fun both => submits both.2]
        exact (browses_input active submits).records records

/-- The end of the program that was in flight. -/
theorem Records.putBack (records : shell.Records chronicle) (running : shell.activity = .running)
    (status : Int) :
    (shell.putBack status).Records
      { chronicle with exits := chronicle.exits ++ [.ok status] } := by
  have before := records.balance
  rw [pending, running] at before
  refine ⟨records.entries, records.cursor, (lastExit_concat _ _).symm, ?_, ?_⟩
  · change (shell.store.insert ['?'] (Text.ofInt status)).get? ['?'] = _
    rw [Table.get?_insert, if_pos rfl]
    rfl
  · rw [List.length_append, List.length_singleton]
    exact before

/-- What a shell tells the programs of a line about the line before it: a status stands in the
place of the variable `?`. -/
structure Recalls (shell : Shell) (status : Int) : Prop where
  /-- This is so wherever a line refers to that variable. -/
  expands : ∀ mention : Reference, mention.id.name = ['?'] →
    Part.expand shell.store (.reference mention) = Text.ofInt status
  /-- So a builtin program that is called with the reference is given the status. -/
  called : ∀ program run value scheduled, IsProgramName program →
    shell.programs.get? program = some (.builtin (.ok run)) → value ∈ mentions ['?'] →
      shell.buffer.text = value.line program →
        shell.verdict scheduled = .builtin program (run shell.store [.text (Text.ofInt status)])

/-- What is remembered can be asked for. -/
theorem Records.recalls (records : shell.Records chronicle) :
    shell.Recalls chronicle.lastExit := by
  have found : shell.store.lookup ['?'] = Text.ofInt chronicle.lastExit := by
    rw [Table.lookup, records.statusVariable, records.status]
    rfl
  refine ⟨fun mention named => ?_, fun program run value scheduled named known among text => ?_⟩
  · rw [Part.expand, named, found]
  · have reserved : IsVariableName ['?'] := by decide
    obtain ⟨fits, stands, read⟩ := reads_mention shell.store reserved among
    rw [verdict_line named fits stands text known, read, found]

theorem records_start (options : Options) (sink : Sink) {store : Variables} (programs : Programs)
    (unset : store.get? ['?'] = none) : (Shell.start options sink store programs).Records {} := by
  refine ⟨rfl, Nat.le_refl _, rfl, ?_, rfl⟩
  have absent : store.contains ['?'] = false := by rw [Table.contains, unset]; rfl
  simp [Shell.start, absent]

end Shell

/-! ### Moves -/

namespace Machine

variable {machine : Machine} {chronicle : Chronicle}

/-- Every move keeps the shell and the chronicle in step. -/
theorem records_make (sound : machine.front.Sound none)
    (records : machine.shell.Records chronicle) (move : Move) :
    (machine.make move).shell.Records (chronicle.next machine move) := by
  have treats := machine.treats_make move
  by_cases typed : ∃ event, move = .input event
  · obtain ⟨event, rfl⟩ := typed
    change (machine.input event).shell.Records (chronicle.input machine.shell true event)
    rw [shell_input]
    exact records.input true event
  · have next : chronicle.next machine move =
        match machine.submission move with
        | some (_, line) =>
            chronicle.submit { machine.shell with buffer := Buffer.ofText line } true
        | none =>
            { chronicle with
              exits := chronicle.exits ++
                ((machine.handedBack move).map fun run => .ok (machine.exitOf run)).toList } := by
      cases move with
      | input event => exact absurd ⟨event, rfl⟩ typed
      | exec | carryOut | release | elapse | step => rfl
    rw [next]
    generalize (machine.make move).shell = after at treats
    cases treats with
    | aside bare silent handed =>
        rw [silent, handed, Option.map_none, Option.toList_none, List.append_nil]
        exact records.of_bare bare
    | typed event given => exact absurd ⟨event, given⟩ typed
    | submitted caller line given =>
        rw [given]
        have idle : machine.shell.activity = .idle :=
          idle_of_free sound (submission_eq_some given).1
        have held : { machine.shell with buffer := Buffer.ofText line }.Records chronicle :=
          records.congr rfl rfl rfl rfl
        exact held.submit idle (.inl rfl)
    | putBack run silent handed =>
        rw [silent, handed]
        exact records.putBack (running_of_handedBack sound handed) _

end Machine

/-! ### Nothing is taken back -/

namespace Chronicle

variable (chronicle : Chronicle)

theorem prefix_submit (shell : Shell) (scheduled : Bool) :
    chronicle.lines <+: (chronicle.submit shell scheduled).lines := by
  rw [submit]
  split
  · exact List.prefix_rfl
  · exact List.prefix_append _ _

theorem prefix_input (shell : Shell) (scheduled : Bool) (event : Text) :
    chronicle.lines <+: (chronicle.input shell scheduled event).lines := by
  rw [input]
  split
  · exact chronicle.prefix_submit _ _
  · exact List.prefix_rfl

theorem prefix_next (machine : Machine) (move : Move) :
    chronicle.lines <+: (chronicle.next machine move).lines := by
  unfold next
  split
  · exact chronicle.prefix_input _ _ _
  · split
    · exact chronicle.prefix_submit _ _
    · exact List.prefix_rfl

end Chronicle

namespace Chronicled

variable {flight : Flight} {chronicle : Chronicle}

theorem exists_nextAll (chronicled : Chronicled flight chronicle) (moves : List Move) :
    ∃ later, Chronicled (flight.nextAll moves) later ∧ chronicle.lines <+: later.lines := by
  induction moves generalizing flight chronicle with
  | nil => exact ⟨chronicle, chronicled, List.prefix_rfl⟩
  | cons move moves ih =>
      obtain ⟨later, reached, longer⟩ := ih (chronicled.next move)
      exact ⟨later, reached, (chronicle.prefix_next _ move).trans longer⟩

/-! ### On all courses -/

theorem shell_records (chronicled : Chronicled flight chronicle) :
    flight.machine.shell.Records chronicle := by
  induction chronicled with
  | start options sink store programs unset => exact Shell.records_start _ _ _ unset
  | next move reached records =>
      exact Machine.records_make reached.reachable.sound.machine records move
  | @leave flight chronicle deserted reached records =>
      have bare : flight.machine.shutDown.shell.bare = flight.machine.shell.bare :=
        congrArg Front.shell
          (Machine.front_shutDown reached.reachable.sound.machine deserted)
      exact records.of_bare bare
  | unscheduled event _ records => exact records.input false event

/-- The history and the last status are an exact record: a shell that started without a
variable `?` holds the lines that were submitted, in their order and each once, and no course
alters them later; its status and the variable `?` are those of the last line that has ended,
whatever values programs have given to that variable meanwhile. -/
theorem remembers (chronicled : Chronicled flight chronicle) :
    flight.machine.shell.Records chronicle ∧
      flight.machine.shell.Recalls chronicle.lastExit ∧
      (∀ moves, flight.machine.shell.history.entries <+:
        (flight.nextAll moves).machine.shell.history.entries) ∧
      (∀ event, flight.machine.shell.history.entries <+:
        (flight.machine.shell.input false event).2.history.entries) ∧
      (flight.machine.Deserted →
        flight.machine.shutDown.shell.history = flight.machine.shell.history) := by
  have records := chronicled.shell_records
  refine ⟨records, records.recalls, fun moves => ?_, fun event => ?_, fun deserted => ?_⟩
  · obtain ⟨later, reached, longer⟩ := chronicled.exists_nextAll moves
    rw [records.entries, reached.shell_records.entries]
    exact longer
  · rw [records.entries, (records.input false event).entries]
    exact chronicle.prefix_input _ _ _
  · exact congrArg (·.shell.history)
      (Machine.front_shutDown chronicled.reachable.sound.machine deserted)

end Chronicled

/-- A program that gives a value to the variable `?`, and one that prints. -/
def meddlers : Programs :=
  { entries :=
    [("meddle", .builtin (.ok fun _ _ => { acts := [.setVariable ['?'] "9"], ending := .ok 3 })),
      ("echo", .builtin (.ok fun _ arguments => Builtin.echo arguments))] }

/-- A session in which the first one has run, and the variable is to be printed. -/
def Flight.meddled : Flight :=
  (((Flight.start (.start {} .memory {} meddlers)).next (.input "meddle")).next
    (.input ['\r'])).next (.input "echo $?")

theorem remembers_meddled :
    Chronicled Flight.meddled { lines := ["meddle"], exits := [.ok 3] } ∧
      Flight.meddled.machine.shell.history.entries = ["meddle"] ∧
      Flight.meddled.machine.shell.Recalls 3 := by
  have step : ∀ {flight chronicle} (move : Move) {later : Chronicle},
      Chronicled flight chronicle → chronicle.next flight.machine move = later →
        Chronicled (flight.next move) later :=
    fun move _ reached same => by
      rw [← same]
      exact reached.next move
  have typed : Chronicled _ {} :=
    step (.input "meddle") (.start {} .memory {} meddlers rfl) (by decide +kernel)
  have ended : Chronicled _ { lines := ["meddle"], exits := [.ok 3] } :=
    step (.input ['\r']) typed (by decide +kernel)
  have chronicled : Chronicled Flight.meddled { lines := ["meddle"], exits := [.ok 3] } :=
    step (.input "echo $?") ended (by decide +kernel)
  obtain ⟨records, recalls, -⟩ := chronicled.remembers
  exact ⟨chronicled, records.entries, recalls⟩

end LineShell
