/-
Module: LineShell.Proofs.Scheduler.Playing
Purpose: Strands keep the invariant that nothing is forgotten: playing them, parking, waking
  and cancelling them, and ending them.
Main exports: Stage.Becomes, Machine.Alert.takeStage, Machine.Alert.cancelStrand,
  Machine.Alert.endStrand, Machine.Alert.resume
-/
import LineShell.Proofs.Scheduler.Alert

namespace LineShell

/-!
What a strand does reaches its run in four ways: it decides the completion signal, it starts
other strands, it lets go of the signal, and it ends.  The supervisor is told when the signal
is decided and when the program ends.  Who lets go of the signal while nobody else holds it
decides it, so a signal that is undecided is held by somebody.
-/

/-! ### Playing a strand -/

namespace Stage

/-- Whether somebody holds the completion signal, here or elsewhere. -/
def isHeld (stage : Stage) : Bool :=
  stage.holds || stage.shared

/-- What playing makes of a stage: if the completion signal has been decided, that was stirred
up; as long as it is not, it is held if it was; and with whom it is shared now, it was shared
before, or it is a strand that was started. -/
structure Becomes (before after : Stage) : Prop where
  pending : after.completion = .pending → before.completion = .pending
  decided : after.completion.isDecided = true →
    before.completion.isDecided = true ∨ .decided ∈ after.stirs
  held : after.completion = .pending → before.isHeld = true → after.isHeld = true
  shared : after.shared = true →
    before.shared = true ∨ ∃ body, .spawned true body ∈ after.stirs

variable {before stage : Stage}

theorem Becomes.refl (stage : Stage) : stage.Becomes stage :=
  ⟨id, .inl, fun _ => id, .inl⟩

theorem Becomes.send (becomes : before.Becomes stage) (status : Int) :
    before.Becomes (stage.send status).2 := by
  rcases stage.send_cases status with same | ⟨-, -, same⟩
  · rw [same]
    exact becomes
  · rw [same]
    refine ⟨nofun, fun _ => .inr (List.mem_append_right _ List.mem_cons_self), nofun,
      fun shared => ?_⟩
    exact (becomes.shared shared).imp_right fun ⟨body, member⟩ =>
      ⟨body, List.mem_append_left _ member⟩

/-- Who lets go of the signal as the last one decides it. -/
theorem Becomes.release (becomes : before.Becomes stage) : before.Becomes stage.release := by
  rcases stage.release_cases with ⟨same, others⟩ | ⟨-, -, -, same⟩
  · rw [same]
    refine ⟨becomes.pending, becomes.decided, fun pending held => ?_, becomes.shared⟩
    rcases Bool.or_eq_true_iff.mp (becomes.held pending held) with here | there
    · exact Bool.or_eq_true_iff.mpr (.inr (others pending here))
    · exact Bool.or_eq_true_iff.mpr (.inr there)
  · rw [same]
    refine ⟨nofun, fun _ => .inr (List.mem_append_right _ List.mem_cons_self), nofun,
      fun shared => ?_⟩
    exact (becomes.shared shared).imp_right fun ⟨body, member⟩ =>
      ⟨body, List.mem_append_left _ member⟩

theorem Becomes.spawn (becomes : before.Becomes stage) (shares : Bool) (body : Script) :
    before.Becomes (stage.spawn shares body) := by
  refine ⟨becomes.pending,
    fun decided => (becomes.decided decided).imp_right (List.mem_append_left _),
    fun pending held => ?_, fun shared => ?_⟩
  · rcases Bool.or_eq_true_iff.mp (becomes.held pending held) with here | there
    · exact Bool.or_eq_true_iff.mpr (.inl here)
    · exact Bool.or_eq_true_iff.mpr (.inr (Bool.or_eq_true_iff.mpr (.inl there)))
  · rcases Bool.or_eq_true_iff.mp shared with before | new
    · exact (becomes.shared before).imp_right fun ⟨body, member⟩ =>
        ⟨body, List.mem_append_left _ member⟩
    · refine .inr ⟨body, List.mem_append_right _ (List.mem_singleton.mpr ?_)⟩
      rw [new]

theorem Becomes.carryOut (becomes : before.Becomes stage) (deed : Deed) :
    before.Becomes (stage.carryOut deed) := by
  cases deed with
  | spawn shares body => exact becomes.spawn shares body
  | act act =>
      cases act with
      | send status => exact becomes.send status
      | sendReporting status =>
          have sent := becomes.send status
          exact ⟨sent.pending, sent.decided, sent.held, sent.shared⟩
      | release => exact becomes.release
      | write | clear | completeLine | call | reportDecided =>
          exact ⟨becomes.pending, becomes.decided, becomes.held, becomes.shared⟩

/-- Playing makes of a stage what deeds make of it. -/
theorem becomes_carryOutAll (stage : Stage) (deeds : List Deed) :
    stage.Becomes (stage.carryOutAll deeds) := by
  have all : ∀ (deeds : List Deed) (after : Stage), stage.Becomes after →
      stage.Becomes (after.carryOutAll deeds) := by
    intro deeds
    induction deeds with
    | nil => exact fun after becomes => becomes
    | cons deed deeds ih => exact fun after becomes => ih _ (becomes.carryOut deed)
  exact all deeds stage (.refl stage)

end Stage

/-- A strand waits at a gate only if the gate is closed. -/
theorem Script.isOpen_of_waiting {isOpen : Text → Bool} {script next interrupted : Script}
    {stage left : Stage} {gate : Text}
    (waits : script.play isOpen stage = (.waiting (.gate gate) next interrupted, left)) :
    isOpen gate = false := by
  induction script generalizing stage with
  | stop ending => cases waits
  | perform act next ih => exact ih waits
  | spawn shares body next _ ih => exact ih waits
  | await wait next interrupted ih _ =>
      cases wait with
      | gate name =>
          rw [Script.play] at waits
          split at waits
          · exact ih waits
          · next closed =>
              cases waits
              simpa using closed
      | sleep seconds => cases waits

namespace Machine

section Playing

variable {machine after : Machine} {called : List (Nat × Rat)} {held : Option Job}
  {spared : Option Nat} {run number : Nat} {state : Run} {strand : Strand}

theorem runs_stir (machine : Machine) (run : Nat) (stir : Stir) :
    (machine.stir run stir).runs = machine.runs := by
  cases stir with
  | decided => exact (machine.runs_notify run).1
  | spawned holds body => rfl

theorem extends_stir (machine : Machine) (run : Nat) (stir : Stir) :
    machine.Extends (machine.stir run stir) := by
  cases stir with
  | decided => exact machine.extends_notify run
  | spawned holds body => exact machine.extends_addStrand _

/-- Passes on all that a strand has stirred up. -/
def stirAll (machine : Machine) (run : Nat) (stirs : List Stir) : Machine :=
  stirs.foldl (fun machine stir => machine.stir run stir) machine

theorem runs_stirAll (machine : Machine) (run : Nat) (stirs : List Stir) :
    (machine.stirAll run stirs).runs = machine.runs := by
  induction stirs generalizing machine with
  | nil => rfl
  | cons stir stirs ih => exact (ih (machine.stir run stir)).trans (machine.runs_stir run stir)

theorem extends_stirAll (machine : Machine) (run : Nat) (stirs : List Stir) :
    machine.Extends (machine.stirAll run stirs) := by
  induction stirs generalizing machine with
  | nil => exact .refl machine
  | cons stir stirs ih => exact (machine.extends_stir run stir).trans (ih (machine.stir run stir))

theorem mem_ready_stirAll (found : machine.runs[run]? = some state)
    (listening : state.phase = .listening false) {stirs : List Stir}
    (decided : .decided ∈ stirs) : .signalled run ∈ (machine.stirAll run stirs).ready := by
  induction stirs generalizing machine with
  | nil => cases decided
  | cons stir stirs ih =>
      rcases List.mem_cons.mp decided with rfl | later
      · exact (extends_stirAll (machine.notify run) run stirs).ready _
          (mem_ready_notify found listening)
      · refine ih ?_ later
        rwa [runs_stir]

theorem strands_stirAll (owned : machine.runs[run]? = some state) (begun : state.IsBegun held run)
    (stirs : List Stir) (number : Nat) (strand : Strand)
    (found : (machine.stirAll run stirs).strands[number]? = some strand) :
    machine.strands[number]? = some strand ∨
      (machine.stirAll run stirs).Follows held number strand := by
  induction stirs generalizing machine with
  | nil => exact .inl found
  | cons stir stirs ih =>
      have same : (machine.stir run stir).runs = machine.runs := machine.runs_stir run stir
      rcases ih (same ▸ owned) found with old | follows
      · cases stir with
        | decided =>
            left
            change (machine.notify run).strands[number]? = _ at old
            rwa [(machine.runs_notify run).2] at old
        | spawned holds body =>
            rcases getElem?_concat_cases old with before | ⟨rfl, rfl⟩
            · exact .inl before
            · right
              have ext := extends_stirAll (machine.stir run (.spawned holds body)) run stirs
              refine ⟨fun _ _ => .inl (ext.ready _ ?_), fun _ parked => (by cases parked),
                state, ?_, begun⟩
              · exact List.mem_append_right _ List.mem_cons_self
              · change (((machine.stir run (.spawned holds body)).stirAll run stirs).runs)[run]? = _
                rw [runs_stirAll, same]
                exact owned
      · exact .inr follows

/-- A machine takes over what a strand left on its stage. -/
theorem Alert.takeStage (alert : machine.Alert called held spared)
    (found : machine.runs[run]? = some state) (begun : state.IsBegun held run)
    {before stage : Stage} (becomes : before.Becomes stage)
    (same : before.completion = state.completion) :
    (machine.takeStage run stage).Alert called held spared ∧
      machine.Extends (machine.takeStage run stage) ∧
        (machine.takeStage run stage).runs =
          machine.runs.modify run fun state => { state with completion := stage.completion } := by
  let shown := machine.withShell fun shell =>
    { shell with
      console := stage.console
      journal := { shell.journal with calls := stage.calls } }
  let taken := shown.modifyRun run fun state => { state with completion := stage.completion }
  have first : machine.Extends taken :=
    (machine.extends_withShell _ rfl).trans (shown.extends_modifyRun run _ fun _ _ => id)
  have ext : machine.Extends (taken.stirAll run stage.stirs) :=
    first.trans (taken.extends_stirAll run stage.stirs)
  have runs := taken.runs_stirAll run stage.stirs
  have here : taken.runs[run]? = some { state with completion := stage.completion } := by
    simp [taken, shown, Machine.withShell, Machine.modifyRun, found]
  refine ⟨?_, ext, runs⟩
  refine alert.of_extends ext (strands_stirAll here begun stage.stirs) fun other next shown => ?_
  change (taken.stirAll run stage.stirs).runs[other]? = _ at shown
  rw [runs] at shown
  rcases getElem?_modify_cases shown with ⟨_, old⟩ | ⟨rfl, before, old, rfl⟩
  · exact .inl old
  · obtain rfl := Option.some.inj (found.symm.trans old)
    have watches := (alert.runs run state found).keep (ext.keepsRun run)
    refine .inr ⟨watches.told rfl rfl watches.new fun listening told => ?_, fun kept => ?_⟩
    · rcases told with decided | ended
      · rcases becomes.decided decided with before | stirred
        · exact watches.signalled listening (.inl (same ▸ before))
        · exact .inl (mem_ready_stirAll here listening stirred)
      · exact watches.signalled listening (.inr ended)
    · have manned := (alert.manned run state found kept).keep (ext.lives run)
      exact manned.congr rfl rfl (fun pending => same ▸ becomes.pending pending) id

theorem getElem?_strands_stirAll (run : Nat) (stirs : List Stir)
    (found : machine.strands[number]? = some strand) :
    (machine.stirAll run stirs).strands[number]? = some strand := by
  induction stirs generalizing machine with
  | nil => exact found
  | cons stir stirs ih =>
      refine ih ?_
      cases stir with
      | decided =>
          change (machine.notify run).strands[number]? = some strand
          rwa [(machine.runs_notify run).2]
      | spawned holds body =>
          have bound := (List.getElem?_eq_some_iff.mp found).1
          change (machine.strands ++ [_])[number]? = some strand
          rwa [List.getElem?_append_left bound]

/-- Playing leaves the strands that there are. -/
theorem getElem?_strands_takeStage (run : Nat) (stage : Stage)
    (found : machine.strands[number]? = some strand) :
    (machine.takeStage run stage).strands[number]? = some strand := by
  let shown := machine.withShell fun shell =>
    { shell with
      console := stage.console
      journal := { shell.journal with calls := stage.calls } }
  let taken := shown.modifyRun run fun state => { state with completion := stage.completion }
  have here : taken.strands[number]? = some strand := found
  exact getElem?_strands_stirAll run stage.stirs here

/-- A strand that was started is behind those that were there. -/
theorem exists_strands_stirAll (machine : Machine) (run : Nat) {stirs : List Stir} {holds : Bool}
    {body : Script} (spawned : .spawned holds body ∈ stirs) :
    ∃ number, machine.strands.length ≤ number ∧
      (machine.stirAll run stirs).strands[number]? =
        some { run := run, role := .spawned, rest := body, holds := holds } := by
  induction stirs generalizing machine with
  | nil => cases spawned
  | cons stir stirs ih =>
      rcases List.mem_cons.mp spawned with rfl | later
      · refine ⟨machine.strands.length, le_rfl, getElem?_strands_stirAll run stirs ?_⟩
        exact List.getElem?_concat_length
      · obtain ⟨number, behind, found⟩ := ih (machine.stir run stir) later
        refine ⟨number, le_trans ?_ behind, found⟩
        cases stir with
        | decided => exact (congrArg List.length (machine.runs_notify run).2).ge
        | spawned holds body => exact (List.length_append ..).ge.trans' (Nat.le_add_right _ _)

/-! ### Who holds the signal -/

/-- Whether another strand of a run than a given one holds the completion signal. -/
def HeldBeside (machine : Machine) (run number : Nat) : Prop :=
  ∃ (other : Nat) (strand : Strand), other ≠ number ∧ machine.strands[other]? = some strand ∧
    strand.run = run ∧ strand.ended = false ∧ strand.holds = true

theorem isHeld_iff : machine.isHeld run = true ↔ machine.Lives run (·.holds = true) := by
  rw [isHeld, List.any_eq_true]
  constructor
  · rintro ⟨strand, member, here⟩
    obtain ⟨number, found⟩ := List.mem_iff_getElem?.mp member
    simp only [Bool.and_eq_true, decide_eq_true_eq, Bool.not_eq_true'] at here
    exact ⟨number, strand, found, here.1.1, here.2, here.1.2⟩
  · rintro ⟨number, strand, found, owner, live, holds⟩
    exact ⟨strand, List.mem_of_getElem? found, by simp [owner, live, holds]⟩

theorem isShared_iff : machine.isShared run number = true ↔ machine.HeldBeside run number := by
  rw [isShared, isHeld_iff]
  constructor
  · rintro ⟨other, strand, found, owner, live, holds⟩
    rcases getElem?_modify_cases found with ⟨differs, old⟩ | ⟨_, before, _, rfl⟩
    · exact ⟨other, strand, Ne.symm differs, old, owner, live, holds⟩
    · cases holds
  · rintro ⟨other, strand, differs, found, owner, live, holds⟩
    exact ⟨other, strand, by simp [modifyStrand, Ne.symm differs, found], owner, live, holds⟩

/-- Who is left when a strand does not hold the signal any more on a stage that somebody
holds. -/
theorem heldBeside_takeStage {stage : Stage} (found : machine.strands[number]? = some strand)
    (becomes : (machine.strandStage number strand state).Becomes stage)
    (shared : stage.shared = true) :
    (machine.takeStage strand.run stage).HeldBeside strand.run number := by
  rcases becomes.shared shared with before | ⟨body, spawned⟩
  · obtain ⟨other, living, differs, there, rest⟩ := isShared_iff.mp before
    exact ⟨other, living, differs, getElem?_strands_takeStage _ _ there, rest⟩
  · obtain ⟨other, behind, there⟩ := exists_strands_stirAll
      ((machine.withShell fun shell =>
        { shell with
          console := stage.console
          journal := { shell.journal with calls := stage.calls } }).modifyRun strand.run
            fun state => { state with completion := stage.completion }) strand.run spawned
    have bound : number < machine.strands.length := (List.getElem?_eq_some_iff.mp found).1
    have differs : other ≠ number := by
      have behind : machine.strands.length ≤ other := behind
      omega
    exact ⟨other, _, differs, there, rfl, rfl, rfl⟩

/-- While a supervisor waits for a signal that is undecided, the signal is held behind a strand
that has gone on: by the strand, or by another. -/
theorem Alert.heldBeside (alert : machine.Alert called held none)
    (found : machine.strands[number]? = some strand)
    (owned : machine.runs[strand.run]? = some state)
    {stage : Stage} (becomes : (machine.strandStage number strand state).Becomes stage)
    (dropped : stage.holds = false) (after : Run)
    (known : (machine.takeStage strand.run stage).runs[strand.run]? = some after)
    (awaits : after.AwaitsSignal) :
    (machine.takeStage strand.run stage).HeldBeside strand.run number := by
  obtain ⟨before, old, rfl⟩ : ∃ before, machine.runs[strand.run]? = some before ∧
      after = { before with completion := stage.completion } := by
    have runs : (machine.takeStage strand.run stage).runs = machine.runs.modify strand.run
        fun state => { state with completion := stage.completion } := runs_stirAll _ _ _
    rw [runs] at known
    exact exists_of_getElem?_modify known
  obtain rfl := Option.some.inj (owned.symm.trans old)
  obtain ⟨listening, internal, pending⟩ := awaits
  have sender := (alert.manned strand.run state owned nofun).sender
    ⟨listening, internal, becomes.pending pending⟩
  have before : (machine.strandStage number strand state).isHeld = true := by
    obtain ⟨other, living, there, owner, live, holds⟩ := sender
    by_cases here : other = number
    · subst here
      obtain rfl := Option.some.inj (found.symm.trans there)
      exact Bool.or_eq_true_iff.mpr (.inl holds)
    · exact Bool.or_eq_true_iff.mpr (.inr (isShared_iff.mpr
        ⟨other, living, here, there, owner, live, holds⟩))
  have still := becomes.held pending before
  rw [Stage.isHeld, dropped, Bool.false_or] at still
  exact heldBeside_takeStage found becomes still

/-! ### Waiting -/

theorem Alert.follows_owned (alert : machine.Alert called held spared)
    (found : machine.strands[number]? = some strand) :
    ∃ state, machine.runs[strand.run]? = some state ∧ state.IsBegun held strand.run :=
  (alert.strands number strand found).owned

/-- A strand that is parked where something is going to wake it. -/
theorem Alert.parkAt (alert : machine.Alert called held spared) (number : Nat)
    {change : Strand → Strand} (stays : ∀ strand : Strand, strand.Stays (change strand))
    (ext : (machine.modifyStrand number fun state =>
      { change state with parked := true }).Extends after)
    (strands : after.strands = machine.strands.modify number fun state =>
      { change state with parked := true })
    (runs : after.runs = machine.runs)
    (waits : (∃ gate, (gate, number) ∈ after.atGates ∧ gate ∉ after.openGates) ∨
      after.IsSet held (.alarm number) ∨ ∃ timer ∈ after.timers, timer.job = .alarm number) :
    after.Alert called held spared := by
  have all := (machine.extends_modifyStrand number
    (fun state => { change state with parked := true }) fun strand =>
      ⟨(stays strand).run, (stays strand).role, (stays strand).ended, (stays strand).holds⟩).trans
        ext
  refine alert.of_extends all (fun other strand found => ?_) fun _ _ found => .inl (runs ▸ found)
  rw [strands] at found
  rcases getElem?_modify_cases found with ⟨_, old⟩ | ⟨rfl, before, old, rfl⟩
  · exact .inl old
  · have owned := alert.follows_owned old
    rw [← runs, ← (stays before).run] at owned
    exact .inr ⟨fun _ free => by simp at free, fun _ _ => waits, owned⟩

/-- A strand that waits is woken by a timer or waits at a closed gate, and one that waits for
no time goes on. -/
theorem Alert.park (alert : machine.Alert called held spared) (number : Nat) (wait : Wait)
    (change : Strand → Strand) (stays : ∀ strand : Strand, strand.Stays (change strand))
    (parked : ∀ strand, (change strand).parked = strand.parked)
    (closed : ∀ gate, wait = .gate gate → machine.isOpen gate = false) :
    (machine.park number wait change).Alert called held spared := by
  cases wait with
  | gate gate =>
      have shut : gate ∉ machine.openGates := by
        have closed := closed gate rfl
        rwa [isOpen, ← Bool.not_eq_true, List.contains_iff_mem] at closed
      refine alert.parkAt number stays ?_ rfl rfl (.inl ⟨gate, ?_, shut⟩)
      · exact ⟨fun _ => id, fun _ => id, fun _ member => List.mem_append_left _ member, rfl, rfl,
          rfl, fun _ state found => ⟨state, found, id⟩, .refl _⟩
      · exact List.mem_append_right _ List.mem_cons_self
  | sleep seconds =>
      rw [Machine.park]
      split
      · have ext := (machine.extends_modifyStrand number change stays).trans
          (extends_queue _ (.resume number))
        refine alert.of_extends ext (fun other strand found => ?_) fun _ _ => .inl
        rcases getElem?_modify_cases found with ⟨_, old⟩ | ⟨rfl, before, old, rfl⟩
        · exact .inl old
        · have follows := (alert.strands number before old).keep (ext.keepsStrand number) ext.runs
          refine .inr ⟨fun _ _ => .inl ?_, fun live waiting => ?_, ?_⟩
          · exact List.mem_append_right _ List.mem_cons_self
          · rw [(stays before).ended] at live
            rw [parked] at waiting
            exact follows.waits live waiting
          · rw [(stays before).run]
            exact follows.owned
      · exact alert.parkAt number stays (extends_after _ seconds (.alarm number)) rfl rfl
          (.inr (.inr ⟨_, mem_timers_after _ seconds _, rfl⟩))

/-- A strand that is woken goes on. -/
theorem extends_unpark (machine : Machine) (number : Nat) :
    machine.Extends (machine.unpark number) :=
  (machine.extends_modifyStrand number (fun state => { state with parked := false })
    fun _ => ⟨rfl, rfl, rfl, id⟩).trans (extends_queue _ _)

theorem Alert.unpark (alert : machine.Alert called held spared) (number : Nat) :
    (machine.unpark number).Alert called held spared := by
  refine alert.of_extends (machine.extends_unpark number) (fun other strand found => ?_)
    fun _ _ => .inl
  rcases getElem?_modify_cases found with ⟨_, old⟩ | ⟨rfl, before, old, rfl⟩
  · exact .inl old
  · have owned := alert.follows_owned old
    refine .inr ⟨fun _ _ => .inl ?_, fun _ parked => by simp at parked, owned⟩
    exact List.mem_append_right _ List.mem_cons_self

/-- A strand that waits is woken, and what would have woken it is forgotten. -/
theorem Alert.wake (alert : machine.Alert called held spared) (number : Nat) :
    Alert called held spared
      { (machine.cancelTimer (.alarm number)).unpark number with
        atGates := machine.atGates.filter (·.2 ≠ number) } := by
  have ready : ∀ job ∈ machine.ready, job ∈ machine.ready ++ [.resume number] :=
    fun _ member => List.mem_append_left _ member
  have timers : ∀ timer ∈ machine.timers, timer.job ≠ .alarm number →
      timer ∈ machine.timers.filter (·.job ≠ .alarm number) :=
    fun timer member other => List.mem_filter.mpr ⟨member, by simpa using other⟩
  refine alert.of_keeps (fun run state found => ⟨state, found, id⟩)
    (fun other strand found => ?_) (fun run state found => .inl ⟨found, ready, ?_, rfl⟩)
    fun run state found _ => .inl ⟨found, (machine.extends_unpark number).lives run⟩
  · rcases getElem?_modify_cases found with ⟨differs, old⟩ | ⟨rfl, before, old, rfl⟩
    · refine .inl ⟨old, ready, fun timer member alarm => timers timer member ?_,
        fun gate member closed => ⟨List.mem_filter.mpr ⟨member, ?_⟩, closed⟩⟩
      · rw [alarm]
        simpa using Ne.symm differs
      · simpa using Ne.symm differs
    · have owned := alert.follows_owned old
      refine .inr ⟨fun _ _ => .inl ?_, fun _ parked => by simp at parked, owned⟩
      exact List.mem_append_right _ List.mem_cons_self
  · intro timer member expire
    refine timers timer member ?_
    rw [expire]
    simp

/-- A strand that is cancelled while it waits goes on, to its end, and all others are left as
they are. -/
theorem Alert.cancelStrand (alert : machine.Alert called held spared) (number : Nat) :
    (machine.cancelStrand number).Alert called held spared := by
  have marked : (machine.modifyStrand number fun state =>
      { state with cancelled := true }).Alert called held spared := by
    have ext := machine.extends_modifyStrand number (fun state => { state with cancelled := true })
      fun _ => ⟨rfl, rfl, rfl, id⟩
    refine alert.modifyStrand (fun _ => ⟨rfl, rfl, rfl, id⟩) fun strand found => ?_
    have follows := (alert.strands number strand found).keep (ext.keepsStrand number) ext.runs
    exact ⟨follows.goes, follows.waits, follows.owned⟩
  unfold Machine.cancelStrand
  split
  · next state found =>
      split
      · exact marked.wake number
      · exact marked
  · exact marked

/-! ### Gates -/

/-- What waking strands does to them. -/
theorem strands_foldl_unpark (numbers : List Nat) {place : Nat} {after : Strand}
    (found : (numbers.foldl unpark machine).strands[place]? = some after) :
    ∃ before, machine.strands[place]? = some before ∧
      (after.run = before.run ∧ after.role = before.role ∧ after.ended = before.ended) ∧
        (place ∈ numbers → after.parked = false) ∧ (place ∉ numbers → after = before) := by
  induction numbers generalizing machine with
  | nil => exact ⟨after, found, ⟨rfl, rfl, rfl⟩, nofun, fun _ => rfl⟩
  | cons number numbers ih =>
      obtain ⟨middle, found, ⟨run, role, ended⟩, woken, kept⟩ := ih found
      rcases getElem?_modify_cases found with ⟨differs, old⟩ | ⟨rfl, before, old, rfl⟩
      · refine ⟨middle, old, ⟨run, role, ended⟩, fun member => ?_, fun absent => ?_⟩
        · exact woken ((List.mem_cons.mp member).resolve_left (Ne.symm differs))
        · exact kept fun member => absent (List.mem_cons_of_mem _ member)
      · refine ⟨before, old, ⟨run, role, ended⟩, fun _ => ?_, fun absent => ?_⟩
        · by_cases later : number ∈ numbers
          · exact woken later
          · rw [kept later]
        · exact absurd List.mem_cons_self absent

theorem extends_foldl_unpark (machine : Machine) (numbers : List Nat) :
    machine.Extends (numbers.foldl unpark machine) := by
  induction numbers generalizing machine with
  | nil => exact .refl machine
  | cons number numbers ih => exact (machine.extends_unpark number).trans (ih _)

/-- What waking strands leaves alone, and that their callbacks are queued. -/
theorem rest_foldl_unpark (machine : Machine) (numbers : List Nat) :
    (numbers.foldl unpark machine).runs = machine.runs ∧
      (numbers.foldl unpark machine).atGates = machine.atGates ∧
        ∀ number ∈ numbers, .resume number ∈ (numbers.foldl unpark machine).ready := by
  induction numbers generalizing machine with
  | nil => exact ⟨rfl, rfl, nofun⟩
  | cons number numbers ih =>
      obtain ⟨runs, gates, queued⟩ := ih (machine.unpark number)
      refine ⟨runs, gates, fun other member => ?_⟩
      rcases List.mem_cons.mp member with rfl | later
      · exact (extends_foldl_unpark _ numbers).ready _ (List.mem_append_right _ List.mem_cons_self)
      · exact queued other later

/-- When a gate is opened, the strands that wait at it go on. -/
theorem Alert.release (alert : machine.Alert called held spared) (gate : Text) :
    (machine.release gate).Alert called held spared := by
  let opened : Machine :=
    { machine with
      openGates := machine.openGates ++ [gate]
      atGates := machine.atGates.filter (·.1 ≠ gate) }
  let through := (machine.atGates.filter (·.1 = gate)).map (·.2)
  change (through.foldl Machine.unpark opened).Alert called held spared
  have ext := opened.extends_foldl_unpark through
  obtain ⟨runs, gates, queued⟩ := opened.rest_foldl_unpark through
  refine alert.of_keeps ext.runs (fun number strand found => ?_)
    (fun run state found => .inl ⟨runs ▸ found, ?_⟩)
    fun run state found _ => .inl ⟨runs ▸ found, ext.lives run⟩
  · obtain ⟨before, old, ⟨owner, _, _⟩, woken, kept⟩ := strands_foldl_unpark through found
    by_cases waited : number ∈ through
    · have owned := alert.follows_owned old
      rw [← owner] at owned
      refine .inr ⟨fun _ _ => .inl (queued number waited), fun _ parked => ?_, ?_⟩
      · rw [woken waited] at parked
        cases parked
      · rw [runs]
        exact owned
    · refine .inl ⟨kept waited ▸ old, ext.ready, fun timer member _ => ext.timers timer member,
        fun other member closed => ?_⟩
      have differs : other ≠ gate := by
        rintro rfl
        exact waited (List.mem_map.mpr ⟨_, List.mem_filter.mpr ⟨member, by simp⟩, rfl⟩)
      refine ⟨?_, ?_⟩
      · rw [gates]
        exact List.mem_filter.mpr ⟨member, by simpa using differs⟩
      · rw [ext.openGates]
        simp [opened, closed, differs]
  · exact ⟨ext.ready, fun timer member _ => ext.timers timer member, ext.options⟩

/-! ### Ends of runs -/

theorem strands_releaseCompletion (machine : Machine) (run : Nat) :
    (machine.releaseCompletion run).strands = machine.strands := by
  unfold releaseCompletion
  split
  · split
    · exact (runs_notify _ _).2
    · rfl
  · rfl

/-- When nobody is left who could send the signal, the supervisor is told. -/
theorem Alert.releaseCompletion (alert : machine.Alert called held spared) (run : Nat) :
    (machine.releaseCompletion run).Alert called held spared ∧
      machine.Extends (machine.releaseCompletion run) := by
  unfold Machine.releaseCompletion
  split
  · next state found =>
      split
      · have ext := machine.extends_modifyRun run
          (fun state => { state with completion := state.completion.abandon }) fun _ _ => id
        refine ⟨alert.modifyRun_notify run _ (fun _ => ⟨rfl, rfl⟩)
          (fun state found => (alert.runs run state found).new) fun state => ⟨?_, id⟩,
          ext.trans (extends_notify _ run)⟩
        cases completion : state.completion with
        | pending => exact fun _ => rfl
        | sent | abandoned | revoked => simp [Completion.abandon]
      · exact ⟨alert, .refl machine⟩
  · exact ⟨alert, .refl machine⟩

/-- What a run is when its signal has been given up, if it has. -/
theorem runs_releaseCompletion {after : Run}
    (found : (machine.releaseCompletion run).runs[run]? = some after) :
    ∃ state, machine.runs[run]? = some state ∧
      (after.phase = state.phase ∧ after.launch = state.launch ∧ after.ending = state.ending) ∧
        (after.completion = .pending →
          state.completion = .pending ∧ machine.Lives run (·.holds = true)) := by
  unfold releaseCompletion at found
  split at found
  · next state here =>
      split at found
      · next given =>
          rw [(runs_notify _ _).1] at found
          obtain ⟨before, old, rfl⟩ := exists_of_getElem?_modify found
          refine ⟨before, old, ⟨rfl, rfl, rfl⟩, fun pending => ?_⟩
          cases completion : before.completion <;> simp [completion, Completion.abandon] at pending
      · next kept =>
          obtain rfl := Option.some.inj (here.symm.trans found)
          refine ⟨state, here, ⟨rfl, rfl, rfl⟩, fun pending => ⟨pending, isHeld_iff.mp ?_⟩⟩
          simpa [pending] using kept
  · next none => exact absurd found (by simp [none])

/-- Whether a machine comes from another by ending a run, with something written to the
terminal. -/
def Closes (run : Nat) (machine after : Machine) : Prop :=
  ∃ (change : Shell → Shell) (status : Option Int),
    (change machine.shell).options = machine.shell.options ∧
      after = (machine.withShell change).closeRun run status

theorem closes_failRun (machine : Machine) (run : Nat) (fault : Fault) (status : Int) :
    Closes run machine (machine.failRun run fault status) :=
  ⟨(·.report fault), some status, rfl, rfl⟩

/-- Something is written first. -/
theorem Closes.withShell {change : Shell → Shell}
    (closes : Closes run (machine.withShell change) after)
    (options : (change machine.shell).options = machine.shell.options) :
    Closes run machine after := by
  obtain ⟨other, status, same, rfl⟩ := closes
  exact ⟨fun shell => other (change shell), status, same.trans options, rfl⟩

theorem closes_closeExternal (machine : Machine) (run : Nat) (status : Option Int) :
    Closes run machine (machine.closeExternal run status) :=
  ⟨fun shell => shell.withConsole (·.write showCursor), status, rfl, rfl⟩

theorem closes_endExternal (machine : Machine) (run : Nat) (name : Text) (ending : Ending) :
    Closes run machine (machine.endExternal run name ending) := by
  cases ending with
  | returned result => exact closes_closeExternal machine run _
  | cancelled => exact closes_closeExternal machine run none
  | failed fault =>
      cases fault <;> exact (closes_closeExternal _ run _).withShell rfl

theorem closes_failInternal (machine : Machine) (run : Nat) (name : Text) (fault : Fault) :
    Closes run machine (machine.failInternal run name fault) := by
  cases fault with
  | timedOut | program | completion => exact closes_failRun machine run _ _
  | host kind text => exact (closes_failRun _ run _ _).withShell rfl

/-- A run that ends asks for nothing more. -/
theorem Closes.alert (closes : Closes run machine after)
    (alert : machine.Alert called held (some run)) (noted : ∃ moment, (run, moment) ∈ called) :
    after.Alert called held none := by
  obtain ⟨change, status, options, rfl⟩ := closes
  exact (alert.withShell change options).closeRun noted status

theorem Closes.strands (closes : Closes run machine after) : after.strands = machine.strands := by
  obtain ⟨change, status, _, rfl⟩ := closes
  exact strands_closeRun _ _ _

theorem Closes.closed (closes : Closes run machine after) (found : after.runs[run]? = some state) :
    ∃ status, state.phase = .closed status := by
  obtain ⟨change, status, _, rfl⟩ := closes
  rw [runs_closeRun] at found
  obtain ⟨before, _, rfl⟩ := exists_of_getElem?_modify found
  exact ⟨status, rfl⟩

/-! ### Ends of strands -/

/-- A strand has changed so that it does not wait any more or less, and its run is spared what
the invariant says of it. -/
theorem Alert.changeStrand (alert : machine.Alert called held none)
    (found : machine.strands[number]? = some strand) {change : Strand → Strand}
    (follows : machine.Follows held number strand → machine.Follows held number (change strand)) :
    (machine.modifyStrand number change).Alert called held (some strand.run) := by
  refine (alert.spare strand.run).of_keeps (fun run state found => ⟨state, found, id⟩)
    (fun other after shown => ?_)
    (fun run state known => .inl ⟨known, fun _ => id, fun _ member _ => member, rfl⟩)
    fun run state known kept => .inl ⟨known, ?_⟩
  · rcases getElem?_modify_cases shown with ⟨_, old⟩ | ⟨rfl, before, old, rfl⟩
    · exact .inl ⟨old, fun _ => id, fun _ member _ => member,
        fun _ member closed => ⟨member, closed⟩⟩
    · obtain rfl := Option.some.inj (found.symm.trans old)
      have there := follows (alert.strands number strand found)
      exact .inr ⟨there.goes, there.waits, there.owned⟩
  · intro other living here owner _
    have differs : number ≠ other := by
      rintro rfl
      obtain rfl := Option.some.inj (found.symm.trans here)
      exact kept (congrArg some owner)
    exact ⟨living, by simp [Machine.modifyStrand, differs, here], rfl, rfl, rfl, id⟩

/-- The strands beside one that has changed. -/
theorem HeldBeside.lives (beside : machine.HeldBeside run number) (change : Strand → Strand) :
    (machine.modifyStrand number change).Lives run (·.holds = true) := by
  obtain ⟨other, living, differs, there, owner, live, holds⟩ := beside
  exact ⟨other, living, by simp [modifyStrand, Ne.symm differs, there], owner, live, holds⟩

/-- A strand notes whether it holds the completion signal still.  Who does not leaves it to
others, as long as it is undecided. -/
theorem Alert.noteHolds (alert : machine.Alert called held none)
    (found : machine.strands[number]? = some strand) (holds : Bool)
    (left : holds = false → ∀ state, machine.runs[strand.run]? = some state →
      state.AwaitsSignal → machine.HeldBeside strand.run number) :
    (machine.modifyStrand number fun state => { state with holds := holds }).Alert called held
      none := by
  have noted : (machine.modifyStrand number fun state => { state with holds := holds }).Alert
      called held (some strand.run) :=
    alert.changeStrand found fun follows => ⟨follows.goes, follows.waits, follows.owned⟩
  refine noted.unspare fun state known => ?_
  have manned := alert.manned strand.run state known nofun
  have here : (machine.modifyStrand number fun state =>
      { state with holds := holds }).strands[number]? = some { strand with holds := holds } := by
    simp [Machine.modifyStrand, found]
  refine ⟨fun woken listening defers going => ?_, fun awaits => ?_⟩
  · obtain ⟨other, living, there, owner, live, main⟩ := manned.main woken listening defers going
    by_cases same : number = other
    · subst same
      obtain rfl := Option.some.inj (found.symm.trans there)
      exact ⟨number, _, here, owner, live, main⟩
    · exact ⟨other, living, by simp [Machine.modifyStrand, same, there], owner, live, main⟩
  · cases holds with
    | false => exact (left rfl state known awaits).lives _
    | true =>
        obtain ⟨other, living, there, owner, live, holder⟩ := manned.sender awaits
        by_cases same : number = other
        · subst same
          obtain rfl := Option.some.inj (found.symm.trans there)
          exact ⟨number, _, here, owner, live, rfl⟩
        · exact ⟨other, living, by simp [Machine.modifyStrand, same, there], owner, live, holder⟩

/-- A machine on which a strand has ended, when it has let go of the completion signal. -/
def ended (machine : Machine) (number : Nat) (run : Nat) (holds : Bool) : Machine :=
  let marked := machine.modifyStrand number fun state => { state with ended := true }
  if holds then marked.releaseCompletion run else marked

/-- What the end of a strand means to its run, when it has let go of the signal. -/
theorem endStrand_eq (machine : Machine) (number : Nat) (state : Strand) (holds : Bool)
    (ending : Ending) :
    machine.endStrand number state holds ending =
      let released := machine.ended number state.run holds
      match state.role, released.runs[state.run]? with
      | .main, some run =>
          let told := (released.modifyRun state.run fun run =>
            { run with ending := some ending }).notify state.run
          if run.reaped then told.queue (.reap state.run) else told
      | .inline, some run => released.endExternal state.run run.name ending
      | _, _ => released := rfl

theorem strands_ended (machine : Machine) (number run : Nat) (holds : Bool) :
    (machine.ended number run holds).strands =
      machine.strands.modify number fun state => { state with ended := true } := by
  unfold ended
  split
  · exact strands_releaseCompletion _ _
  · rfl

theorem strands_endStrand (machine : Machine) (number : Nat) (state : Strand) (holds : Bool)
    (ending : Ending) : (machine.endStrand number state holds ending).strands =
      machine.strands.modify number fun state => { state with ended := true } := by
  rw [← machine.strands_ended number state.run holds, endStrand_eq]
  dsimp only
  split
  · split
    · exact (runs_notify _ _).2
    · exact (runs_notify _ _).2
  · exact (closes_endExternal _ _ _ _).strands
  · rfl

/-- The run of a strand that has ended is spared until its supervisor is told.  Its signal is
held by another strand if it is undecided. -/
theorem Alert.ended (alert : machine.Alert called held none)
    (found : machine.strands[number]? = some strand) (holds : Bool)
    (left : holds = false → ∀ state, machine.runs[strand.run]? = some state →
      state.AwaitsSignal → machine.HeldBeside strand.run number) :
    (machine.ended number strand.run holds).Alert called held (some strand.run) ∧
      ∀ after, (machine.ended number strand.run holds).runs[strand.run]? = some after →
        ∃ state, machine.runs[strand.run]? = some state ∧
          (after.phase = state.phase ∧ after.launch = state.launch ∧
            after.ending = state.ending) ∧
          (after.AwaitsSignal →
            (machine.ended number strand.run holds).Lives strand.run (·.holds = true)) := by
  have marked : (machine.modifyStrand number fun state => { state with ended := true }).Alert
      called held (some strand.run) :=
    alert.changeStrand found fun follows =>
      ⟨fun live => by simp at live, fun live => by simp at live, follows.owned⟩
  cases holds with
  | true =>
      obtain ⟨released, ext⟩ := marked.releaseCompletion strand.run
      refine ⟨released, fun after known => ?_⟩
      obtain ⟨state, old, same, held⟩ := runs_releaseCompletion known
      exact ⟨state, old, same, fun awaits =>
        (held awaits.2.2).2.keepHolder (ext.lives strand.run)⟩
  | false =>
      exact ⟨marked, fun after known =>
        ⟨after, known, ⟨rfl, rfl, rfl⟩, fun awaits => (left rfl after known awaits).lives _⟩⟩

/-- Unless the strand is the program itself, nobody has to be told of its end. -/
theorem Alert.manned_ended (alert : machine.Alert called held none)
    (found : machine.strands[number]? = some strand) (holds : Bool)
    (left : holds = false → ∀ state, machine.runs[strand.run]? = some state →
      state.AwaitsSignal → machine.HeldBeside strand.run number)
    (other : strand.role ≠ .main) {after : Run}
    (known : (machine.ended number strand.run holds).runs[strand.run]? = some after) :
    (machine.ended number strand.run holds).Manned strand.run after := by
  obtain ⟨state, old, ⟨phase, launch, ending⟩, sender⟩ :=
    (alert.ended found holds left).2 after known
  refine ⟨fun woken listening defers going => ?_, sender⟩
  obtain ⟨place, living, here, owner, live, main⟩ :=
    (alert.manned strand.run state old nofun).main woken (phase ▸ listening) (launch ▸ defers)
      (ending ▸ going)
  have differs : number ≠ place := by
    rintro rfl
    obtain rfl := Option.some.inj (found.symm.trans here)
    exact other main
  have strands := machine.strands_ended number strand.run holds
  exact ⟨place, living, by rw [strands]; simp [differs, here], owner, live, main⟩

/-- A strand ends: the supervisor is told, or the run is over with it. -/
theorem Alert.endStrand (alert : machine.Alert called held none)
    (found : machine.strands[number]? = some strand) (idle : held ≠ some (.begin strand.run))
    (holds : Bool)
    (left : holds = false → ∀ state, machine.runs[strand.run]? = some state →
      state.AwaitsSignal → machine.HeldBeside strand.run number) (ending : Ending) :
    (machine.endStrand number strand holds ending).Alert called held none := by
  obtain ⟨spared, facts⟩ := alert.ended found holds left
  have begun : ∀ after, (machine.ended number strand.run holds).runs[strand.run]? = some after →
      after.phase ≠ .starting := by
    intro after known starting
    obtain ⟨state, old, ⟨phase, -, -⟩, -⟩ := facts after known
    obtain ⟨state', old', begun⟩ := alert.follows_owned found
    obtain rfl := Option.some.inj (old.symm.trans old')
    exact idle (begun (phase ▸ starting))
  have manned : strand.role ≠ .main → ∀ after,
      (machine.ended number strand.run holds).runs[strand.run]? = some after →
        (machine.ended number strand.run holds).Manned strand.run after :=
    fun other _ known => alert.manned_ended found holds left other known
  rw [endStrand_eq]
  dsimp only
  generalize machine.ended number strand.run holds = released at *
  cases role : strand.role with
  | spawned => exact spared.unspare (manned (by simp [role]))
  | inline =>
      cases known : released.runs[strand.run]? with
      | none => exact spared.unspare fun state there => by simp [known] at there
      | some run =>
          have noted := (spared.runs strand.run run known).noted fun starting =>
            absurd starting (begun run known)
          exact (closes_endExternal released strand.run run.name ending).alert spared noted
  | main =>
      cases known : released.runs[strand.run]? with
      | none => exact spared.unspare fun state there => by simp [known] at there
      | some run =>
          dsimp only
          have told : ((released.modifyRun strand.run fun run =>
              { run with ending := some ending }).notify strand.run).Alert called held none := by
            have noted := spared.modifyRun_notify strand.run
              (fun run => { run with ending := some ending }) (fun _ => ⟨rfl, rfl⟩)
              (fun after there starting => absurd starting (begun after there))
              fun _ => ⟨id, fun going => by simp at going⟩
            refine noted.unspare fun after there => ?_
            rw [(runs_notify _ _).1] at there
            obtain ⟨before, old, rfl⟩ := exists_of_getElem?_modify there
            obtain ⟨-, -, -, sender⟩ := facts before old
            refine ⟨fun _ _ _ going => by simp at going, fun awaits => ?_⟩
            exact (sender awaits).keepHolder (keepsLives_append ⟨[], (List.append_nil _).symm⟩
              (runs_notify (released.modifyRun strand.run _) strand.run).2 _)
          split
          · exact told.queue _
          · exact told

/-! ### A strand goes on -/

/-- The callback of a strand is done when the strand is over, waits, or goes on later. -/
theorem done_resume (goes : ∀ strand, machine.strands[number]? = some strand →
      strand.ended = false → strand.parked = false → .resume number ∈ machine.ready) :
    machine.Done (.resume number) := by
  refine ⟨by simp, fun other strand same found live free => ?_, by simp, by simp, by simp⟩
  obtain rfl := Job.resume.inj same
  exact goes strand found live free

theorem done_endStrand (machine : Machine) (number : Nat) (state : Strand) (holds : Bool)
    (ending : Ending) : (machine.endStrand number state holds ending).Done (.resume number) := by
  refine done_resume fun strand found live => ?_
  rw [strands_endStrand] at found
  obtain ⟨before, _, rfl⟩ := exists_of_getElem?_modify found
  cases live

theorem done_park (machine : Machine) (number : Nat) (wait : Wait) (change : Strand → Strand) :
    (machine.park number wait change).Done (.resume number) := by
  refine done_resume fun strand found _ free => ?_
  have parked : ∀ strand, (machine.strands.modify number fun state =>
      { change state with parked := true })[number]? = some strand → strand.parked = true := by
    intro strand found
    obtain ⟨before, _, rfl⟩ := exists_of_getElem?_modify found
    rfl
  cases wait with
  | gate gate =>
      rw [parked strand found] at free
      cases free
  | sleep seconds =>
      rw [park] at found ⊢
      split at found
      · next short =>
          rw [if_pos short]
          exact List.mem_append_right _ List.mem_cons_self
      · rw [parked strand found] at free
        cases free

/-- Changing a strand twice where it waits. -/
theorem park_modifyStrand (machine : Machine) (number : Nat) (wait : Wait)
    (first second : Strand → Strand) :
    (machine.modifyStrand number first).park number wait second =
      machine.park number wait fun state => second (first state) := by
  have twice : ∀ change : Strand → Strand,
      (machine.strands.modify number first).modify number change =
        machine.strands.modify number fun state => change (first state) :=
    fun change => List.modify_modify_eq first change number machine.strands
  cases wait with
  | gate gate => simp only [park, modifyStrand, twice]
  | sleep seconds => simp only [park, modifyStrand, twice, after, queue]

/-- A strand is left where it has come to, and nothing is forgotten. -/
theorem Alert.leave (alert : machine.Alert called held none)
    (found : machine.strands[number]? = some strand) (idle : held ≠ some (.begin strand.run))
    (holds : Bool)
    (left : holds = false → ∀ state, machine.runs[strand.run]? = some state →
      state.AwaitsSignal → machine.HeldBeside strand.run number) (pause : Pause)
    (closed : ∀ gate rest interrupted, pause = .waiting (.gate gate) rest interrupted →
      machine.isOpen gate = false) :
    (machine.leave number strand holds pause).Alert called held none ∧
      (machine.leave number strand holds pause).Done (.resume number) := by
  cases pause with
  | ended ending => exact ⟨alert.endStrand found idle holds left ending, done_endStrand ..⟩
  | waiting wait rest interrupted =>
      refine ⟨?_, done_park ..⟩
      have parked := (alert.noteHolds found holds left).park number wait
        (fun state =>
          { state with rest := rest, interrupted := interrupted, cancelled := false })
        (fun _ => ⟨rfl, rfl, rfl, id⟩) (fun _ => rfl) fun gate same => by
          subst same
          exact closed gate rest interrupted rfl
      rwa [park_modifyStrand] at parked

/-- A strand goes on up to where it waits or ends, and nothing is forgotten. -/
theorem Alert.resume (alert : machine.Alert called (some (.resume number)) none) :
    (machine.resume number).Alert called none none := by
  cases found : machine.strands[number]? with
  | none =>
      rw [Machine.resume, found]
      exact alert.drop (done_resume fun strand here => by simp [found] at here)
  | some strand =>
      cases ended : strand.ended with
      | true =>
          rw [machine.resume_of_idle fun going here =>
            .inl (Option.some.inj (found.symm.trans here) ▸ ended)]
          refine alert.drop (done_resume fun other here live => ?_)
          obtain rfl := Option.some.inj (found.symm.trans here)
          rw [ended] at live
          cases live
      | false =>
          obtain ⟨run, owned, begun⟩ := alert.follows_owned found
          rw [machine.resume_eq found ended owned]
          have stage := Script.stage_play machine.isOpen strand.ahead
            (machine.strandStage number strand run)
          have becomes := Stage.becomes_carryOutAll (machine.strandStage number strand run)
            (strand.ahead.deedsUntil (passesGates machine.isOpen))
          rw [← stage] at becomes
          rcases play : strand.ahead.play machine.isOpen (machine.strandStage number strand run)
            with ⟨pause, stage⟩
          rw [play] at becomes
          obtain ⟨taken, ext, _⟩ := alert.takeStage owned begun becomes rfl
          have left := alert.heldBeside found owned becomes
          have here := getElem?_strands_takeStage strand.run stage found
          obtain ⟨kept, done⟩ := taken.leave here (by simp) stage.holds left pause
            fun gate rest interrupted same => by
              subst same
              rw [isOpen, ext.openGates]
              exact Script.isOpen_of_waiting play
          exact kept.drop done

end Playing

end Machine

end LineShell
