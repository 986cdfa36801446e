/-
Module: LineShell.Proofs.Scheduler.Annals
Purpose: How account is kept of the runs of one kind of programs: what is written of a run is
  found on the console, what holds of its docket is kept by every callback that decides
  nothing, and both are lifted to whole courses.
Main exports: Annals, Annals.Notes, Annals.Course, Annals.Minds, Annals.Accounts,
  Annals.Lawful, Annals.attests_make, Annals.attests_makeAll, Annals.Course.forall_mem
-/
import LineShell.Proofs.Scheduler.Regular

namespace LineShell

/-!
What the supervisor of a run writes about its program is not read off the state of the machine
but found on the console, behind what the program writes in the same callback.  Internal and
external programs differ in what is written, for which reasons, and in how a run may be over.
All the rest is the same for both, and so it is done here: whatever does not decide about a run
keeps to one invariant of its docket, and that is lifted to whole courses.  What is left are the
callbacks that decide, and `Annals.Lawful` names them.
-/

/-- The status of a command whose program has failed. -/
def Fault.status : Fault → Int
  | .timedOut _ _ => statusTimeout
  | .host _ _ | .program _ _ | .completion _ => statusFailure

/-- How a program ends inside its call if it neither returns from it nor leaves anything to be
awaited. -/
def Launch.breach? (launch : Launch) : Option Ending :=
  match launch.start.called with
  | .ended (.failed fault) => some (.failed fault)
  | .ended .cancelled => some .cancelled
  | .ended (.returned _) | .deferred _ _ => none

/-- A way to keep account of the runs of one kind of programs. -/
structure Annals (Note : Type) where
  kind : ProgramKind
  /-- The console to which a note is written, -/
  before : Note → Console
  /-- and the console after it. -/
  written : Note → Console
  /-- For what reason a callback that works for a run leads to a machine with a note. -/
  Reason : Machine → Nat → Run → Job → Machine → Note → Prop
  /-- With what status a run is over, if its timeout has passed as is said, and it has sent and
  was noted what is given. -/
  Verdict : Run → Prop → List Int → List Note → Option Int → Prop
  /-- A note shows on the console, -/
  shows : ∀ note, written note ≠ before note
  /-- and it can be told from the console. -/
  injective : ∀ one other, before one = before other → written one = written other → one = other
  /-- The reason is there before the callback is taken from the queue. -/
  reason_of_pop : ∀ {machine after : Machine} {run : Nat} {state : Run} {job : Job} {note : Note}
    (ready : List Job) (turn : Nat),
      Reason (machine.pop ready turn) run state job after note →
        Reason machine run state job after note
  /-- What happens later does not change how a run was over. -/
  mono : ∀ {before after : Run} {overdue later : Prop} {sends : List Int} {notes : List Note}
    {status : Option Int}, Verdict before overdue sends notes status →
      after.launch = before.launch → (before.ending.isSome = true → after.ending.isSome = true) →
        (before.completion = .abandoned → after.completion = .abandoned) → (overdue → later) →
          Verdict after later sends notes status

namespace Annals

variable {Note : Type}

/-! ### Notes -/

/-- What is noted of a run in a callback that works for it. -/
inductive Notes (annals : Annals Note) (machine : Machine) (run : Nat) (job : Job)
    (after : Machine) : Option Note → Prop where
  | foreign (kind : ∀ state, machine.runs[run]? = some state → state.launch.kind ≠ annals.kind) :
      Notes annals machine run job after none
  /-- Nothing is written but what the program writes. -/
  | nothing {state : Run} (found : machine.runs[run]? = some state)
      (kind : state.launch.kind = annals.kind)
      (same : after.shell.console = machine.actedOn state job) :
      Notes annals machine run job after none
  /-- Behind that the note is written, and the run was not over. -/
  | said {state : Run} (found : machine.runs[run]? = some state)
      (kind : state.launch.kind = annals.kind) (going : state.isOver = false) {note : Note}
      (before : annals.before note = machine.actedOn state job)
      (reason : annals.Reason machine run state job after note)
      (same : after.shell.console = annals.written note) :
      Notes annals machine run job after (some note)

/-- What is noted of a run in a move. -/
def Says (annals : Annals Note) (run : Nat) (machine : Machine) (move : Move)
    (note : Option Note) : Prop :=
  match machine.callback? run move with
  | some job => annals.Notes machine run job (machine.make move) note
  | none => note = none

/-- What is noted of a run on a course: the consoles that its callbacks lead to are those after
what its program does, with the notes and nothing else behind it. -/
inductive Course (annals : Annals Note) (run : Nat) : Machine → List Move → List Note → Prop where
  | nil (machine : Machine) : Course annals run machine [] []
  | cons {machine : Machine} {move : Move} {moves : List Move} {note : Option Note}
      {notes : List Note} (now : annals.Says run machine move note)
      (later : Course annals run (machine.make move) moves notes) :
      Course annals run machine (move :: moves) (note.toList ++ notes)

variable {annals : Annals Note} {machine before after : Machine} {move : Move}
  {moves : List Move} {called later : List (Nat × Rat)} {sends statuses : List Int}
  {notes : List Note} {run number : Nat} {state next : Run} {strand : Strand} {job : Job}
  {ready : List Job}

theorem Notes.unique {one other : Option Note} (left : annals.Notes machine run job after one)
    (right : annals.Notes machine run job after other) : one = other := by
  cases left with
  | foreign kind =>
      cases right with
      | foreign | nothing => rfl
      | said found own => exact absurd own (kind _ found)
  | nothing found own same =>
      cases right with
      | foreign | nothing => rfl
      | said here _ _ before _ written =>
          obtain rfl := Option.some.inj (found.symm.trans here)
          exact absurd (written.symm.trans (same.trans before.symm)) (annals.shows _)
  | said found own _ before _ written =>
      cases right with
      | foreign kind => exact absurd own (kind _ found)
      | nothing here _ same =>
          obtain rfl := Option.some.inj (found.symm.trans here)
          exact absurd (written.symm.trans (same.trans before.symm)) (annals.shows _)
      | said here _ _ rebefore _ rewritten =>
          obtain rfl := Option.some.inj (found.symm.trans here)
          exact congrArg some (annals.injective _ _ (before.trans rebefore.symm)
            (written.symm.trans rewritten))

theorem Says.unique {one other : Option Note} (left : annals.Says run machine move one)
    (right : annals.Says run machine move other) : one = other := by
  unfold Says at left right
  cases callback : machine.callback? run move with
  | some job =>
      rw [callback] at left right
      exact left.unique right
  | none =>
      rw [callback] at left right
      exact left.trans right.symm

/-- What is noted on a course is determined by it. -/
theorem Course.unique {one other : List Note} (left : annals.Course run machine moves one)
    (right : annals.Course run machine moves other) : one = other := by
  induction left generalizing other with
  | nil =>
      cases right
      rfl
  | cons now _ ih =>
      obtain - | ⟨also, later⟩ := right
      rw [now.unique also, ih later]

theorem Notes.of_pop {turn : Nat} {note : Option Note}
    (notes : annals.Notes (machine.pop ready turn) run job after note) :
    annals.Notes machine run job after note := by
  cases notes with
  | foreign kind => exact .foreign kind
  | nothing found kind same => exact .nothing found kind (same.trans (Machine.actedOn_pop turn))
  | said found kind going before reason same =>
      have here : machine.runs[run]? = some _ := found
      exact .said here kind going (before.trans (Machine.actedOn_pop turn))
        (annals.reason_of_pop ready turn reason) same

end Annals

/-! ### The invariant -/

/-- What holds of a run that has not been called. -/
structure Docket.Untouched (docket : Docket) (sends : List Int) : Prop where
  sends : sends = []
  held : docket.held = false
  told : docket.told = false
  state : ∀ state, docket.state = some state → state.completion = .pending ∧ state.ending = none

/-- Whether nobody holds the signal of an external program, which is given none. -/
def Docket.Mute (docket : Docket) (state : Run) : Prop :=
  state.launch.kind = .external →
    docket.held = false ∧ (state.isOver = false → state.completion = .pending)

namespace Annals

variable {Note : Type}

/-- What holds of the docket of a run, when the programs were called that are given with the
times of their calls, and the run has sent and was noted what is given. -/
structure Minds (annals : Annals Note) (docket : Docket) (called : List (Nat × Rat))
    (sends : List Int) (notes : List Note) : Prop where
  fair : docket.Fair called sends
  fresh : (∀ state, docket.state = some state → state.phase = .starting) → docket.Untouched sends
  /-- Nothing is noted as long as the run is not over. -/
  quiet : (∀ state, docket.state = some state → state.isOver = false) → notes = []
  /-- A supervisor that has not decided waits for a program whose call has returned. -/
  calm : ∀ state, docket.state = some state → state.phase ≠ .starting → state.isOver = false →
    state.launch.breach? = none
  mute : ∀ state, docket.state = some state → docket.Mute state
  closed : ∀ state status, docket.state = some state → state.phase = .closed status →
    annals.Verdict state (docket.Overdue called) sends notes status

section Dockets

variable {annals : Annals Note} {docket after : Docket} {called later : List (Nat × Rat)}
  {sends statuses : List Int} {notes : List Note} {state next : Run}

/-- Nothing new happens, and time may pass. -/
theorem Minds.lower (minds : annals.Minds docket called sends notes)
    (lowers : docket.Lowers later after) (more : called ⊆ later) :
    annals.Minds after later sends notes := by
  have gone : ∀ flag before : Bool, (flag = true → before = true) → before = false →
      flag = false := by decide
  refine ⟨minds.fair.lower lowers more, ?_, ?_, ?_, ?_, ?_⟩ <;> rw [lowers.state]
  · intro starting
    obtain ⟨nothing, held, told, old⟩ := minds.fresh starting
    exact ⟨nothing, gone _ _ lowers.held held, gone _ _ lowers.told told, lowers.state ▸ old⟩
  · exact minds.quiet
  · exact minds.calm
  · intro state found external
    obtain ⟨held, pending⟩ := minds.mute state found external
    exact ⟨gone _ _ lowers.held held, pending⟩
  · intro state status found closed
    exact annals.mono (minds.closed state status found closed) rfl id id fun overdue =>
      overdue.mono lowers.run lowers.limit lowers.now more

/-- A run stays with the same supervisor, which stays where it is. -/
theorem Minds.advance (minds : annals.Minds docket called sends notes)
    (fair : after.Fair called statuses) (found : docket.state = some state)
    (there : after.state = some next)
    (same : next.launch = state.launch ∧ next.phase = state.phase)
    (fresh : state.phase = .starting → after.Untouched statuses) (mute : after.Mute next)
    (still : state.isOver = true → statuses = sends)
    (ended : state.ending.isSome = true → next.ending.isSome = true)
    (given : state.completion = .abandoned → next.completion = .abandoned)
    (overdue : docket.Overdue called → after.Overdue called) :
    annals.Minds after called statuses notes := by
  have only : ∀ other, after.state = some other → other = next :=
    fun other here => Option.some.inj (here.symm.trans there)
  obtain ⟨launch, phase⟩ := same
  refine ⟨fair, fun starting => fresh (phase ▸ starting next there), fun going => ?_,
    fun other here begun going => ?_, fun other here => only other here ▸ mute,
    fun other status here closed => ?_⟩
  · refine minds.quiet fun other here => ?_
    obtain rfl := Option.some.inj (found.symm.trans here)
    have open' := going next there
    rwa [Run.isOver, phase] at open'
  · obtain rfl := only other here
    rw [Run.isOver, phase] at going
    exact launch ▸ minds.calm state found (phase ▸ begun) going
  · obtain rfl := only other here
    have done : state.phase = .closed status := phase.symm.trans closed
    rw [still (by rw [Run.isOver, done])]
    exact annals.mono (minds.closed state status found done) launch ended given overdue

/-- A run is under way. -/
theorem minds_of_underway (fair : docket.Fair called sends) (found : docket.state = some state)
    (begun : state.phase ≠ .starting) (going : state.isOver = false)
    (returned : state.launch.breach? = none) (mute : docket.Mute state) :
    annals.Minds docket called sends [] := by
  have only : ∀ other, docket.state = some other → other = state :=
    fun other here => Option.some.inj (here.symm.trans found)
  refine ⟨fair, fun starting => absurd (starting state found) begun, fun _ => rfl,
    fun other here _ _ => only other here ▸ returned, fun other here => only other here ▸ mute,
    fun other status here closed => ?_⟩
  obtain rfl := only other here
  rw [Run.isOver, closed] at going
  cases going

/-- A run is over. -/
theorem minds_close {status : Option Int} (fair : docket.Fair called sends)
    (found : docket.state = some state)
    (mute : state.launch.kind = .external → docket.held = false)
    (verdict : annals.Verdict (state.close status) (docket.Overdue called) sends notes status) :
    annals.Minds (docket.revise (·.close status)) called sends notes := by
  have there := Docket.revised found (·.close status)
  have only : ∀ other, (docket.revise (·.close status)).state = some other →
      other = state.close status := fun other here => Option.some.inj (here.symm.trans there)
  refine ⟨fair.close status, fun starting => ?_, fun going => ?_,
    fun other here _ going => ?_, fun other here external => ?_,
    fun other exit here closed => ?_⟩
  · cases starting _ there
  · cases going _ there
  · obtain rfl := only other here
    cases going
  · obtain rfl := only other here
    exact ⟨mute external, nofun⟩
  · obtain rfl := only other here
    cases closed
    exact verdict

/-- The program has ended. -/
theorem Minds.noteEnding (minds : annals.Minds docket called sends notes)
    (found : docket.state = some state) (begun : state.phase ≠ .starting) (ending : Ending) :
    annals.Minds (docket.revise fun state => { state with ending := some ending }).tell called
      sends notes := by
  have fair := minds.fair.noteEnding ending
  obtain ⟨told, same⟩ := Docket.exists_tell
    (docket.revise fun state => { state with ending := some ending })
  rw [same] at fair ⊢
  exact minds.advance fair found (Docket.revised found _) ⟨rfl, rfl⟩
    (fun starting => absurd starting begun) (minds.mute state found) (fun _ => rfl)
    (fun _ => rfl) id id

/-- A strand that has ended lets go of the signal, if it has held it. -/
theorem Minds.lose {shared holds : Bool} (minds : annals.Minds docket called sends notes)
    (found : docket.state = some state) (begun : state.phase ≠ .starting)
    (held : docket.held = (holds || shared)) :
    ∃ completion, (docket.lose shared holds).state =
        some { state with completion := completion } ∧
      annals.Minds (docket.lose shared holds) called sends notes := by
  have left : shared = true → docket.held = true := by
    rintro rfl
    rw [held, Bool.or_true]
  have lowered : annals.Minds { docket with held := shared } called sends notes :=
    minds.lower ⟨rfl, rfl, rfl, le_rfl, left, id, .inl, fun _ => id⟩ (List.Subset.refl _)
  have fair : (docket.lose shared holds).Fair called sends := minds.fair.lose left
  unfold Docket.lose at fair ⊢
  dsimp only at fair ⊢
  split at fair
  · next holder =>
      rw [if_pos holder]
      have internal : state.launch.kind ≠ .external := by
        intro external
        have nobody := (minds.mute state found external).1
        rw [held, holder] at nobody
        cases nobody
      unfold Docket.release at fair ⊢
      split at fair
      · next given =>
          rw [if_pos given]
          obtain ⟨told, same⟩ := Docket.exists_tell
            (Docket.revise { docket with held := shared } fun state =>
              { state with completion := state.completion.abandon })
          rw [same] at fair ⊢
          have there : docket.state.map _ = _ := congrArg (Option.map fun state : Run =>
            { state with completion := state.completion.abandon }) found
          refine ⟨state.completion.abandon, there, ?_⟩
          refine lowered.advance fair found there ⟨rfl, rfl⟩ (fun starting => absurd starting begun)
            (fun external => absurd external internal) (fun _ => rfl) id (fun before => ?_) id
          change state.completion.abandon = .abandoned
          rw [before]
          rfl
      · next kept =>
          rw [if_neg kept]
          exact ⟨state.completion, found, lowered⟩
  · next other =>
      rw [if_neg other]
      exact ⟨state.completion, found, lowered⟩

/-- A supervisor is woken for a reason. -/
theorem Minds.wake (minds : annals.Minds docket called sends notes)
    (found : docket.state = some state) (listening : state.phase = .listening false)
    (reason : state.HasNews ∨ docket.Overdue called) :
    annals.Minds (docket.revise fun state => { state with phase := .listening true }) called sends
      notes := by
  have only : ∀ other, docket.state = some other → state = other :=
    fun other here => Option.some.inj (found.symm.trans here)
  have going : state.isOver = false := by rw [Run.isOver, listening]
  have fair : (docket.revise fun state => { state with phase := .listening true }).Fair called
      sends := by
    refine minds.fair.revise (fun other here _ => ?_)
      (fun other here => minds.fair.given other here) (fun _ _ => id) fun other here _ => ?_
    · obtain rfl := only other here
      exact minds.fair.hears state found going
    · obtain rfl := only other here
      exact reason
  obtain rfl := minds.quiet fun other here => only other here ▸ going
  refine minds_of_underway fair (Docket.revised found _) (by simp) rfl
    (minds.calm state found (by simp [listening]) going) fun external => ?_
  obtain ⟨held, pending⟩ := minds.mute state found external
  exact ⟨held, fun _ => pending going⟩

/-- A run is launched. -/
theorem Minds.launch (minds : annals.Minds docket called sends notes)
    (absent : docket.state = none) (program : Launch) :
    annals.Minds { docket with state := some { launch := program } } called sends notes := by
  have nobody : ∀ state, docket.state ≠ some state := by simp [absent]
  obtain ⟨rfl, held, told, -⟩ := minds.fresh fun state found => absurd found (nobody state)
  have quiet := minds.quiet fun state found => absurd found (nobody state)
  have only : ∀ state, some ({ launch := program } : Run) = some state →
      state = { launch := program } := fun state same => (Option.some.inj same).symm
  refine ⟨minds.fair.launch told program, fun _ => ⟨rfl, held, told, fun state found => ?_⟩,
    fun _ => quiet, fun state found begun _ => ?_, fun state found external => ?_,
    fun state status found closed => ?_⟩ <;> obtain rfl := only state found
  · exact ⟨rfl, rfl⟩
  · exact absurd rfl begun
  · exact ⟨held, fun _ => rfl⟩
  · cases closed

/-- The attendant begins to wait. -/
theorem Minds.attend (minds : annals.Minds docket called sends notes) :
    annals.Minds (docket.revise fun state => { state with attended := true }) called sends
      notes := by
  cases found : docket.state with
  | none =>
      have same : docket.revise (fun state => { state with attended := true }) = docket := by
        rw [Docket.revise, found, Option.map_none, ← found]
      rwa [same]
  | some state =>
      have there := Docket.revised found fun state => { state with attended := true }
      refine minds.advance (minds.fair.revise_of_same fun _ => ⟨rfl, rfl, rfl⟩) found there
        ⟨rfl, rfl⟩ (fun starting => ?_) (minds.mute state found) (fun _ => rfl) id id id
      obtain ⟨nothing, held, told, old⟩ := minds.fresh fun other here => by
        obtain rfl := Option.some.inj (found.symm.trans here)
        exact starting
      refine ⟨nothing, held, told, fun other here => ?_⟩
      obtain rfl := Option.some.inj (there.symm.trans here)
      exact old state found

end Dockets

end Annals

namespace Machine

variable {machine : Machine} {run number : Nat} {strand : Strand}

/-- Only a strand that plays in its supervisor's place writes something when it ends. -/
theorem shell_leave (outside : strand.role ≠ .inline) {holds : Bool} {pause : Pause} :
    (machine.leave number strand holds pause).shell = machine.shell := by
  cases pause with
  | waiting wait rest interrupted => exact shell_park wait _
  | ended ending =>
      change (machine.endStrand number strand holds ending).shell = _
      unfold endStrand
      dsimp only
      split
      · split <;> split <;> simp
      · next inline _ => exact absurd inline outside
      · split <;> simp

theorem now_takeStage (machine : Machine) (run : Nat) (stage : Stage) :
    (machine.takeStage run stage).now = machine.now := by
  obtain ⟨held, told, docket, -⟩ := machine.exists_takeStage run stage
  exact congrArg Docket.now docket

theorem console_reap : (machine.reap run).shell.console = machine.shell.console := by
  unfold reap
  split
  · rfl
  · split <;> rfl

end Machine

namespace Annals

variable {Note : Type}

/-! ### Callbacks that decide nothing -/

/-- The invariant, if the run is of the kind of programs, as it is or may turn out to be. -/
def Attests (annals : Annals Note) (docket : Docket) (called : List (Nat × Rat))
    (sends : List Int) (notes : List Note) : Prop :=
  (∀ state, docket.state = some state → state.launch.kind = annals.kind) →
    annals.Minds docket called sends notes

/-- Whether a callback keeps account of a run. -/
def Accounts (annals : Annals Note) (machine : Machine) (called : List (Nat × Rat)) (run : Nat)
    (sends : List Int) (notes : List Note) (job : Job) : Prop :=
  ∃ note, annals.Notes machine run job (machine.perform job) note ∧
    annals.Attests ((machine.perform job).docket run) called (sends ++ machine.sent run job)
      (notes ++ note.toList)

section Callbacks

variable {annals : Annals Note} {machine : Machine} {called : List (Nat × Rat)}
  {sends : List Int} {notes : List Note} {run number : Nat} {state next : Run}
  {strand : Strand} {job : Job}

/-- Nothing is done and nothing is noted. -/
theorem accounts_of_idle (found : machine.runs[run]? = some state)
    (kind : state.launch.kind = annals.kind) (idle : machine.deedsOf job = [])
    (console : (machine.perform job).shell.console = machine.shell.console)
    (minds : annals.Minds ((machine.perform job).docket run) called sends notes) :
    annals.Accounts machine called run sends notes job := by
  refine ⟨none, .nothing found kind ?_, fun _ => ?_⟩
  · rw [console, Machine.actedOn, idle]
    exact (machine.console_sees state job).symm
  · rwa [Machine.sent_of_idle idle, List.append_nil, Option.toList_none, List.append_nil]

/-- A strand that goes on finds the signal held by somebody, unless it was given up. -/
theorem Minds.honest (minds : annals.Minds (machine.docket strand.run) called sends notes)
    (found : machine.runs[strand.run]? = some state)
    (here : machine.strands[number]? = some strand) (live : strand.ended = false) :
    (machine.strandStage number strand state).Honest := by
  intro given
  rw [Machine.isHeld_strandStage here live]
  exact minds.fair.given state found given

/-- A strand of an external program finds it held by nobody. -/
theorem Minds.idle (minds : annals.Minds (machine.docket strand.run) called sends notes)
    (found : machine.runs[strand.run]? = some state)
    (here : machine.strands[number]? = some strand) (live : strand.ended = false)
    (external : state.launch.kind = .external) :
    (machine.strandStage number strand state).isHeld = false := by
  rw [Machine.isHeld_strandStage here live]
  exact (minds.mute state found external).1

/-- A strand has been played, and it is noted who holds the signal now. -/
theorem Minds.play {docket : Docket} (minds : annals.Minds docket called sends notes)
    (found : docket.state = some state) (begun : state.phase ≠ .starting) {before : Stage}
    (same : before.completion = state.completion) (calm : before.stirs = [])
    (honest : before.Honest)
    (idle : state.launch.kind = .external → before.isHeld = false) (deeds : List Deed)
    {told : Bool}
    (told' : told = true → docket.told = true ∨ .decided ∈ (before.carryOutAll deeds).stirs) :
    annals.Minds { docket.revise fun state =>
        { state with completion := (before.carryOutAll deeds).completion } with
      held := (before.carryOutAll deeds).isHeld, told := told } called
      (if state.isOver then sends else sends ++ before.sends deeds) notes := by
  have fair := minds.fair.play found same calm honest deeds told' (honest.carryOutAll deeds)
  refine minds.advance fair found (Docket.revised found _) ⟨rfl, rfl⟩
    (fun starting => absurd starting begun) (fun external => ?_) (if_pos ·) id (fun given => ?_) id
  · obtain ⟨unheld, kept⟩ := Stage.idle_carryOutAll (idle external) deeds
    exact ⟨unheld, fun going =>
      (kept.trans same).trans ((minds.mute state found external).2 going)⟩
  · have decided : before.completion.isDecided = true := by
      rw [same, given]
      rfl
    exact (Stage.completion_carryOutAll decided deeds).trans (same.trans given)

/-- A strand that does not play in its supervisor's place is left where it has come to. -/
theorem Minds.leave {holds : Bool}
    (minds : annals.Minds
      { machine.docket strand.run with held := holds || machine.isShared strand.run number }
      called sends notes)
    (found : machine.runs[strand.run]? = some state) (begun : state.phase ≠ .starting)
    (here : machine.strands[number]? = some strand) (live : strand.ended = false)
    (outside : strand.role ≠ .inline) (pause : Pause) :
    annals.Minds ((machine.leave number strand holds pause).docket strand.run) called sends
      notes := by
  cases pause with
  | waiting wait rest interrupted =>
      rw [machine.docket_leave_waiting strand.run rfl here live, Bool.or_comm]
      exact minds
  | ended ending =>
      obtain ⟨completion, there, lost⟩ := minds.lose found begun rfl
      have ended := machine.docket_endStrand strand.run number rfl found outside holds ending
      dsimp only at ended
      rw [Machine.leave, ended]
      split
      · exact lost.noteEnding there begun ending
      · exact lost

/-- A strand goes on that does not play in its supervisor's place. -/
theorem accounts_resume (minds : annals.Minds (machine.docket strand.run) called sends notes)
    (found : machine.runs[strand.run]? = some state) (kind : state.launch.kind = annals.kind)
    (begun : state.phase ≠ .starting) (here : machine.strands[number]? = some strand)
    (outside : strand.ended = false → strand.role ≠ .inline) :
    annals.Accounts machine called strand.run sends notes (.resume number) := by
  cases live : strand.ended with
  | true =>
      have same : machine.perform (.resume number) = machine :=
        machine.resume_of_idle fun other there => .inl (by
          rwa [← Option.some.inj (here.symm.trans there)])
      refine accounts_of_idle found kind (by simp [Machine.deedsOf, here, live]) ?_ ?_
      · rw [same]
      · rwa [same]
  | false =>
      let seen := machine.strandStage number strand state
      let deeds := strand.ahead.deedsUntil (passesGates machine.isOpen)
      let taken := machine.takeStage strand.run (seen.carryOutAll deeds)
      have sees : machine.sees state (.resume number) = seen := by simp [Machine.sees, here, seen]
      have done : machine.deedsOf (.resume number) = deeds := by
        simp [Machine.deedsOf, here, live, deeds]
      have performed : machine.perform (.resume number) = taken.leave number strand
          (seen.carryOutAll deeds).holds (strand.ahead.pauseAt machine.isOpen) := by
        change machine.resume number = _
        rw [machine.resume_eq here live found, Script.play_eq]
      obtain ⟨held, told, docket, told', -⟩ := machine.exists_takeStage strand.run
        (seen.carryOutAll deeds)
      have played := minds.play found begun rfl rfl (minds.honest found here live)
        (minds.idle found here live) deeds told'
      have there := Machine.runs_takeStage found (seen.carryOutAll deeds)
      have shared : taken.isShared strand.run number = (seen.carryOutAll deeds).shared :=
        machine.isShared_takeStage here deeds
      refine ⟨none, .nothing found kind ?_, fun _ => ?_⟩
      · rw [performed, Machine.shell_leave (outside live), Machine.console_takeStage,
          Machine.actedOn, sees, done]
      · rw [performed, Option.toList_none, List.append_nil, machine.append_sent sends found, sees,
          done]
        refine Minds.leave ?_ there begun
          (Machine.getElem?_strands_takeStage strand.run _ here) live (outside live) _
        rw [shared, docket]
        exact played

/-- Something has happened that the supervisor waits for, or the timeout has passed. -/
theorem accounts_woken (minds : annals.Minds (machine.docket run) called sends notes)
    (found : machine.runs[run]? = some state) (kind : state.launch.kind = annals.kind)
    (woken : job = .signalled run ∨ job = .expire run)
    (reason : state.HasNews ∨ (machine.docket run).Overdue called) :
    annals.Accounts machine called run sends notes job := by
  have idle : machine.deedsOf job = [] ∧ (machine.perform job).shell = machine.shell := by
    rcases woken with rfl | rfl
    · exact ⟨rfl, Machine.shell_signalled⟩
    · exact ⟨rfl, Machine.shell_expire⟩
  refine accounts_of_idle found kind idle.1 (congrArg Shell.console idle.2) ?_
  rcases machine.docket_woken run woken with same | ⟨other, alarms, here, listening, left, same⟩
  · rwa [same]
  · obtain rfl := Option.some.inj (found.symm.trans here)
    rw [same]
    exact (minds.wake found listening reason).lower ⟨rfl, rfl, rfl, le_rfl, id, id, .inl, left⟩
      (List.Subset.refl _)

/-- A run is over, with a note or without one. -/
theorem accounts_close (before : Machine) {status : Option Int} {note : Option Note}
    (minds : annals.Minds (machine.docket run) called sends notes)
    (found : machine.runs[run]? = some state) (going : state.isOver = false)
    (performed : machine.perform job = before.closeRun run status)
    (noted : annals.Notes machine run job (before.closeRun run status) note)
    (fair : (before.docket run).Fair called (sends ++ machine.sent run job))
    (there : before.runs[run]? = some next) (launch : next.launch = state.launch)
    (mute : state.launch.kind = .external → (before.docket run).held = false)
    (verdict : annals.Verdict (next.close status) ((before.docket run).Overdue called)
      (sends ++ machine.sent run job) note.toList status) :
    annals.Accounts machine called run sends notes job := by
  obtain rfl := minds.quiet fun other here => by
    obtain rfl := Option.some.inj (found.symm.trans here)
    exact going
  refine ⟨note, performed ▸ noted, fun _ => ?_⟩
  rw [performed, Machine.docket_closeRun]
  exact minds_close fair there (launch ▸ mute) verdict

/-- A supervisor begins to wait for a program whose call has returned. -/
theorem minds_listen (fair : (machine.docket run).Fair called sends)
    (found : machine.runs[run]? = some state) (going : state.isOver = false)
    (returned : state.launch.breach? = none) (mute : (machine.docket run).Mute state)
    (now : (run, machine.now) ∈ called) :
    annals.Minds ((machine.listen run).docket run) called sends [] := by
  have listening := Docket.revised (show (machine.docket run).state = some state from found)
    fun state => { state with phase := .listening false }
  have still : (machine.docket run).Mute { state with phase := .listening false } :=
    fun external => ⟨(mute external).1, fun _ => (mute external).2 going⟩
  have heard := fair.listen found going now
  rw [machine.docket_listen run found]
  split
  · next decided =>
      have told := heard.tell fun other here => by
        obtain rfl := Option.some.inj (listening.symm.trans here)
        exact .inl decided
      obtain ⟨flag, same⟩ := Docket.exists_tell (machine.docket run).listen
      rw [same] at told ⊢
      exact minds_of_underway told listening (by simp) rfl returned still
  · exact minds_of_underway heard listening (by simp) rfl returned still

end Callbacks

/-! ### Callbacks that decide -/

/-- What is needed of annals so that account is kept on every course: the callbacks that may end
a run keep account of it. -/
structure Lawful (annals : Annals Note) : Prop where
  /-- The program is called. -/
  begins : ∀ {machine : Machine} {called : List (Nat × Rat)} {run : Nat} {state : Run}
    {sends : List Int} {notes : List Note}, machine.runs[run]? = some state →
      state.launch.kind = annals.kind → state.phase = .starting → (run, machine.now) ∈ called →
        annals.Minds (machine.docket run) called sends notes →
          annals.Accounts machine called run sends notes (.begin run)
  /-- The program goes on in its supervisor's place. -/
  plays : ∀ {machine : Machine} {called : List (Nat × Rat)} {number : Nat} {strand : Strand}
    {state : Run} {sends : List Int} {notes : List Note},
      machine.strands[number]? = some strand → strand.role = .inline → strand.ended = false →
        machine.runs[strand.run]? = some state → state.launch.kind = annals.kind →
          state.launch.kind = .external → state.phase = .inside → machine.Faithful →
            annals.Minds (machine.docket strand.run) called sends notes →
              annals.Accounts machine called strand.run sends notes (.resume number)
  /-- The supervisor decides. -/
  concludes : ∀ {machine : Machine} {called : List (Nat × Rat)} {run : Nat} {state : Run}
    {sends : List Int} {notes : List Note}, machine.runs[run]? = some state →
      state.launch.kind = annals.kind → state.phase = .listening true →
        (state.launch.kind = .external → state.launch.start.defers = true) → machine.Faithful →
          annals.Minds (machine.docket run) called sends notes →
            annals.Accounts machine called run sends notes (.conclude run)

variable {annals : Annals Note} {machine after : Machine} {docket : Docket} {move : Move}
  {moves : List Move} {called later : List (Nat × Rat)} {sends : List Int} {notes : List Note}
  {run : Nat} {state : Run} {job : Job} {ready : List Job}

/-- A callback that works for a run keeps account of it. -/
theorem accounts_perform (lawful : annals.Lawful) (faithful : machine.Faithful)
    (own : machine.ward job = some run) (found : machine.runs[run]? = some state)
    (kind : state.launch.kind = annals.kind)
    (grounded : machine.Grounded called run state job)
    (reason : job = .signalled run ∨ job = .expire run →
      state.HasNews ∨ (machine.docket run).Overdue called)
    (minds : annals.Minds (machine.docket run) called sends notes) :
    annals.Accounts machine called run sends notes job := by
  cases job with
  | begin other =>
      obtain rfl := Option.some.inj own
      obtain ⟨starting, now⟩ := grounded.begins rfl
      exact lawful.begins found kind starting now minds
  | resume number =>
      obtain ⟨strand, here, rfl⟩ := Option.map_eq_some_iff.mp own
      obtain ⟨begun, inside⟩ := grounded.plays number strand rfl here rfl
      by_cases inline : strand.ended = false ∧ strand.role = .inline
      · obtain ⟨live, role⟩ := inline
        obtain ⟨phase, external⟩ := inside role live
        exact lawful.plays here role live found kind external phase faithful minds
      · exact accounts_resume minds found kind begun here fun live role => inline ⟨live, role⟩
  | signalled other =>
      obtain rfl := Option.some.inj own
      exact accounts_woken minds found kind (.inl rfl) (reason (.inl rfl))
  | expire other =>
      obtain rfl := Option.some.inj own
      exact accounts_woken minds found kind (.inr rfl) (reason (.inr rfl))
  | conclude other =>
      obtain rfl := Option.some.inj own
      by_cases woken : state.phase = .listening true
      · exact lawful.concludes found kind woken (grounded.awaits true woken) faithful minds
      · have same : machine.perform (.conclude other) = machine := by
          simp only [Machine.perform, Machine.conclude, found, if_neg woken]
        refine accounts_of_idle found kind rfl (by rw [same]) ?_
        rwa [same]
  | reap other =>
      refine accounts_of_idle found kind rfl Machine.console_reap ?_
      rw [Machine.perform, Machine.docket_reap]
      exact minds
  | attend | finish | alarm | freed | call => cases own

/-! ### One move -/

theorem Attests.of_foreign (found : docket.state = some state)
    (foreign : state.launch.kind ≠ annals.kind) : annals.Attests docket called sends notes :=
  fun kind => absurd (kind state found) foreign

theorem Attests.lower (attests : annals.Attests docket called sends notes) {after : Docket}
    (lowers : docket.Lowers later after) (more : called ⊆ later) :
    annals.Attests after later sends notes :=
  fun kind => (attests (lowers.state ▸ kind)).lower lowers more

/-- A run is launched, or nothing happens. -/
theorem Attests.launched (attests : annals.Attests docket called sends notes) {after : Docket}
    (admits : docket.Admits after) : annals.Attests after called sends notes := by
  rcases admits with rfl | ⟨absent, program, rfl⟩
  · exact attests
  · intro _
    exact (attests fun state found => by simp [absent] at found).launch absent program

/-- A callback that works for another run, or for the shell. -/
theorem attests_aside (aside : machine.ward job ≠ some run)
    (attests : annals.Attests (machine.docket run) called sends notes) :
    annals.Attests ((machine.perform job).docket run) called sends notes := by
  rcases machine.docket_aside aside with admits | same
  · exact attests.launched admits
  · rw [same]
    refine fun kind => (attests fun state found => ?_).attend
    exact kind { state with attended := true } (by rw [Docket.state_revise, found]; rfl)

/-- The callback that is ready works for the run. -/
theorem accounts_of_ready (lawful : annals.Lawful) (regular : machine.Regular called)
    (next : machine.ready = job :: ready) (turn : Nat) (own : machine.ward job = some run)
    (attests : annals.Attests (machine.docket run) called sends notes) :
    annals.Accounts (machine.pop ready turn) (called ++ machine.calledBy job) run sends notes
      job := by
  have popped := attests.lower (machine.lowers_pop next turn)
    (List.subset_append_left called (machine.calledBy job))
  cases found : machine.runs[run]? with
  | none =>
      obtain ⟨same, idle⟩ := Machine.perform_of_absent regular.alert found own turn
      refine ⟨none, .foreign fun state here => (by cases found.symm.trans here), ?_⟩
      rwa [same, Machine.sent_pop, Machine.sent_of_idle idle, List.append_nil, Option.toList_none,
        List.append_nil]
  | some state =>
      have here : (machine.pop ready turn).runs[run]? = some state := found
      by_cases kind : state.launch.kind = annals.kind
      · have all : ∀ other, (machine.docket run).state = some other →
            other.launch.kind = annals.kind := fun other known => by
          obtain rfl := Option.some.inj (found.symm.trans known)
          exact kind
        refine accounts_perform lawful (regular.faithful.of_same rfl rfl) own here kind
          (regular.grounded next turn found) (fun woken => ?_) (popped all)
        exact (Machine.reason_of_ready (attests all).fair next found woken).imp_right
          fun overdue => overdue.mono rfl rfl le_rfl (List.subset_append_left _ _)
      · obtain ⟨after, there, launch⟩ := Machine.exists_launch
          ((machine.pop ready turn).launches_perform own) here
        refine ⟨none, .foreign fun other known => ?_, .of_foreign there (launch ▸ kind)⟩
        obtain rfl := Option.some.inj (here.symm.trans known)
        exact kind

/-- A move keeps account of a run. -/
theorem attests_make (lawful : annals.Lawful) (regular : machine.Regular called)
    (attests : annals.Attests (machine.docket run) called sends notes) (move : Move) :
    ∃ note, annals.Says run machine move note ∧
      annals.Attests ((machine.make move).docket run) (called ++ machine.callOf move)
        (sends ++ machine.sends run move) (notes ++ note.toList) := by
  have touches := machine.touches_make run move
  unfold Says Machine.sends
  generalize machine.callback? run move = callback at touches ⊢
  generalize machine.callOf move = calls at touches ⊢
  generalize machine.make move = after at touches ⊢
  cases touches with
  | admitted admits => exact ⟨none, rfl, by simpa using attests.launched admits⟩
  | elapsed moment =>
      have later := attests.lower (machine.lowers_elapse moment) (List.Subset.refl _)
      exact ⟨none, rfl, by simpa using later⟩
  | turned =>
      have later : annals.Attests (machine.beginTurn.docket run) called sends notes := fun kind =>
        have minds := attests kind
        minds.lower (Machine.lowers_beginTurn minds.fair) (List.Subset.refl _)
      exact ⟨none, rfl, by simpa using later⟩
  | @aside job ready turn next aside =>
      have popped := attests.lower (machine.lowers_pop next turn)
        (List.subset_append_left called (machine.calledBy job))
      have other : (machine.pop ready turn).ward job ≠ some run := aside
      exact ⟨none, rfl, by simpa using attests_aside other popped⟩
  | owned turn next own =>
      obtain ⟨note, noted, after⟩ := accounts_of_ready lawful regular next turn own attests
      rw [Machine.sent_pop] at after
      exact ⟨note, noted.of_pop, after⟩

/-! ### Whole courses -/

/-- At first there is no run of which anything could be said. -/
theorem attests_start (annals : Annals Note) (shell : Shell) (run : Nat) :
    annals.Attests ((Machine.start shell).docket run) [] [] [] := by
  intro _
  refine ⟨⟨?_, ?_, ?_, ?_, fun due => absurd due Bool.false_ne_true,
    fun timer set => absurd set.1 List.not_mem_nil⟩, fun _ => ⟨rfl, rfl, rfl, ?_⟩, fun _ => rfl,
    ?_, ?_, ?_⟩
  all_goals simp [Machine.docket, Machine.start]

/-- Account is kept on every course. -/
theorem attests_makeAll (lawful : annals.Lawful) (regular : machine.Regular called)
    (attests : annals.Attests (machine.docket run) called sends notes) (moves : List Move) :
    ∃ later, annals.Course run machine moves later ∧
      annals.Attests ((machine.makeAll moves).docket run) (called ++ machine.calls moves)
        (sends ++ machine.sendsAll run moves) (notes ++ later) := by
  induction moves generalizing machine called sends notes with
  | nil =>
      refine ⟨[], .nil machine, ?_⟩
      rw [Machine.calls, Machine.sendsAll, List.append_nil, List.append_nil, List.append_nil]
      exact attests
  | cons move moves ih =>
      obtain ⟨note, told, after⟩ := attests_make lawful regular attests move
      obtain ⟨later, course, attested⟩ := ih (Machine.regular_make regular move) after
      refine ⟨note.toList ++ later, .cons told course, ?_⟩
      rw [Machine.calls, Machine.sendsAll, ← List.append_assoc, ← List.append_assoc,
        ← List.append_assoc]
      exact attested

/-- Nothing is noted but of a program that is in flight, behind what it has written. -/
theorem Says.exists_actedOn (regular : machine.Regular called) {note : Note}
    (told : annals.Says run machine move (some note)) :
    machine.shell.activity = .running ∧ ∃ state job, machine.deeds move = machine.deedsOf job ∧
      annals.before note = machine.actedOn state job := by
  unfold Says at told
  split at told
  · next job callback =>
      cases told with
      | said found _ going before =>
          exact ⟨(Machine.running_of_open regular.sound found going).2, _, job,
            Machine.deeds_of_callback callback, before⟩
  · cases told

/-- What holds of all that is noted on a course, if it follows from what the moves keep. -/
theorem Course.forall_mem (kept : Machine → List Move → Prop) (good : Note → Prop)
    (keeps : ∀ machine called move moves, Machine.Regular machine called →
      kept machine (move :: moves) → kept (machine.make move) moves)
    (now : ∀ machine called move moves note, Machine.Regular machine called →
      kept machine (move :: moves) → annals.Says run machine move (some note) → good note)
    (course : annals.Course run machine moves notes) (regular : machine.Regular called)
    (start : kept machine moves) : ∀ note ∈ notes, good note := by
  induction course generalizing called with
  | nil => exact fun _ member => absurd member List.not_mem_nil
  | @cons machine move moves note notes told _ ih =>
      intro other member
      rcases List.mem_append.mp member with here | later
      · obtain rfl := Option.mem_toList.mp here
        exact now machine called move moves other regular start told
      · exact ih (Machine.regular_make regular move) (keeps machine called move moves regular start)
          other later

/-- What is noted is written below a dangling line, if no text ends inside a control
sequence. -/
theorem Course.lastLine_complete (course : annals.Course run machine moves notes)
    (regular : machine.Regular called) (poised : machine.Poised)
    (whole : ∀ deed ∈ machine.deedsAll moves, deed.Whole) :
    ∀ note ∈ notes, (annals.before note).complete.terminal.lastLine = [] := by
  refine course.forall_mem
    (fun machine moves => machine.Poised ∧ ∀ deed ∈ machine.deedsAll moves, deed.Whole)
    (fun note => (annals.before note).complete.terminal.lastLine = []) ?_ ?_ regular
    ⟨poised, whole⟩
  · rintro machine called move moves regular ⟨poised, whole⟩
    exact ⟨Machine.poised_make regular.sound poised fun deed member =>
      whole deed (List.mem_append_left _ member), fun deed member =>
        whole deed (List.mem_append_right _ member)⟩
  · rintro machine called move moves note regular ⟨poised, whole⟩ told
    obtain ⟨running, state, job, deeds, before⟩ := told.exists_actedOn regular
    have truthful : (machine.sees state job).console.Truthful := by
      rw [Machine.console_sees]
      exact poised running
    have acted : ∀ deed ∈ machine.deedsOf job, deed.Whole := fun deed member =>
      whole deed (List.mem_append_left _ (deeds ▸ member))
    rw [before]
    exact (truthful_carryOutAll truthful acted).lastLine_complete

end Annals

end LineShell
