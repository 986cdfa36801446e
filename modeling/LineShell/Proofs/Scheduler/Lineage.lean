/-
Module: LineShell.Proofs.Scheduler.Lineage
Purpose: A strand ends as the program does for which it was started, however often it waits,
  and none is cancelled as long as its run is not over.
Main exports: Run.prospect, Strand.Leads, Machine.Faithful, Machine.Faithful.perform,
  Machine.faithful_make
-/
import LineShell.Proofs.Scheduler.Docket

namespace LineShell

/-!
How a program ends is written in its script, but a supervisor learns of it from a strand,
which has played the script in pieces.  `Machine.Faithful` says that what a strand has left to
do leads to the same end, and that a supervisor that has not decided yet was told nothing else.
A strand that is cancelled goes on in another way and ends otherwise, and so it matters that a
supervisor cancels no strand but that of its own run, and has decided then.
-/

/-! ### The invariant -/

/-- How the program of a run ends if nobody cancels it. -/
def Run.prospect (state : Run) : Ending :=
  state.launch.start.called.ending

/-- Whether a strand is going to end as the program of a run does. -/
structure Strand.Leads (strand : Strand) (state : Run) : Prop where
  uncancelled : strand.cancelled = false
  ending : strand.rest.ending = state.prospect

/-- A run that launches the same program ends in the same way. -/
theorem Strand.Leads.of_launch {strand : Strand} {state after : Run} (leads : strand.Leads state)
    (launch : after.launch = state.launch) : strand.Leads after :=
  ⟨leads.uncancelled, by rw [leads.ending, Run.prospect, Run.prospect, launch]⟩

namespace Machine

/-- What holds of the strands of all runs. -/
structure Faithful (machine : Machine) : Prop where
  /-- The strand of the program itself leads to its end, as long as the run is not over. -/
  plays : ∀ (number : Nat) (strand : Strand), machine.strands[number]? = some strand →
    strand.role ≠ .spawned →
      ∃ state, machine.runs[strand.run]? = some state ∧ (state.isOver = false → strand.Leads state)
  /-- The main strand of a run belongs to it. -/
  named : ∀ (run : Nat) (state : Run) (number : Nat), machine.runs[run]? = some state →
    state.main = some number → ∃ strand, machine.strands[number]? = some strand ∧ strand.run = run
  /-- A supervisor that has not decided was told how the program ends. -/
  ended : ∀ (run : Nat) (state : Run) (ending : Ending), machine.runs[run]? = some state →
    state.isOver = false → state.ending = some ending → ending = state.prospect

variable {machine after : Machine} {run number : Nat} {state : Run} {strand : Strand} {job : Job}

theorem faithful_start (shell : Shell) : (Machine.start shell).Faithful := by
  refine ⟨?_, ?_, ?_⟩ <;> simp [Machine.start]

/-! ### Changes of strands and runs -/

theorem Faithful.of_same (faithful : machine.Faithful) (strands : after.strands = machine.strands)
    (runs : after.runs = machine.runs) : after.Faithful := by
  obtain ⟨plays, named, ended⟩ := faithful
  rw [← strands, ← runs] at plays
  rw [← strands, ← runs] at named
  rw [← runs] at ended
  exact ⟨plays, named, ended⟩

/-- A run may change if it launches the same program and stays over, and if what is said of it
holds afterwards. -/
theorem Faithful.modifyRun (faithful : machine.Faithful) (run : Nat) (change : Run → Run)
    (same : ∀ state, (change state).launch = state.launch)
    (closes : ∀ state, machine.runs[run]? = some state → state.isOver = true →
      (change state).isOver = true)
    (named : ∀ state number, machine.runs[run]? = some state →
      (change state).main = some number → state.main = some number ∨
        ∃ strand, machine.strands[number]? = some strand ∧ strand.run = run)
    (ended : ∀ state ending, machine.runs[run]? = some state → (change state).isOver = false →
      (change state).ending = some ending → ending = state.prospect) :
    (machine.modifyRun run change).Faithful := by
  have stays : ∀ {other : Nat} {state : Run}, machine.runs[other]? = some state →
      ∃ later : Run, (machine.modifyRun run change).runs[other]? = some later ∧
        later.launch = state.launch ∧ (state.isOver = true → later.isOver = true) := by
    intro other state found
    by_cases here : run = other
    · subst here
      exact ⟨change state, by simp [Machine.modifyRun, found], same state, closes state found⟩
    · exact ⟨state, by simp [Machine.modifyRun, here, found], rfl, id⟩
  refine ⟨fun number strand found plays => ?_, fun other state number found main => ?_,
    fun other state ending found going told => ?_⟩
  · obtain ⟨state, there, leads⟩ := faithful.plays number strand found plays
    obtain ⟨later, now, launch, closes⟩ := stays there
    refine ⟨later, now, fun going => (leads ?_).of_launch launch⟩
    exact Bool.eq_false_iff.mpr fun done => by simp [closes done] at going
  · rcases getElem?_modify_cases found with ⟨-, old⟩ | ⟨rfl, before, old, rfl⟩
    · exact faithful.named other state number old main
    · rcases named before number old main with kept | new
      · exact faithful.named run before number old kept
      · exact new
  · rcases getElem?_modify_cases found with ⟨-, old⟩ | ⟨rfl, before, old, rfl⟩
    · exact faithful.ended other state ending old going told
    · rw [ended before ending old going told, Run.prospect, Run.prospect, same]

/-- A change of a run that leaves its main strand and its end alone. -/
theorem Faithful.modifyRun_of_same (faithful : machine.Faithful) (run : Nat)
    (change : Run → Run)
    (same : ∀ state, (change state).launch = state.launch ∧ (change state).main = state.main ∧
      (change state).ending = state.ending)
    (closes : ∀ state, machine.runs[run]? = some state → state.isOver = true →
      (change state).isOver = true) : (machine.modifyRun run change).Faithful := by
  refine faithful.modifyRun run change (fun state => (same state).1) closes
    (fun state number found main => ?_) fun state ending found going told => ?_
  · exact .inl ((same state).2.1 ▸ main)
  · have before : state.isOver = false := by
      rw [Bool.eq_false_iff]
      exact fun done => by simp [closes state found done] at going
    exact faithful.ended run state ending found before ((same state).2.2 ▸ told)

/-- A strand may change, but for its run and its role, if it leads to the same end as before. -/
theorem Faithful.modifyStrand (faithful : machine.Faithful) (number : Nat)
    (change : Strand → Strand)
    (same : ∀ strand, (change strand).run = strand.run ∧ (change strand).role = strand.role)
    (leads : ∀ strand state, machine.strands[number]? = some strand →
      machine.runs[strand.run]? = some state → state.isOver = false → strand.Leads state →
        (change strand).Leads state) : (machine.modifyStrand number change).Faithful := by
  refine ⟨fun place strand found plays => ?_, fun run state place found main => ?_,
    faithful.ended⟩
  · rcases getElem?_modify_cases found with ⟨-, old⟩ | ⟨rfl, before, old, rfl⟩
    · exact faithful.plays place strand old plays
    · obtain ⟨state, there, led⟩ := faithful.plays number before old ((same before).2 ▸ plays)
      rw [(same before).1]
      exact ⟨state, there, fun going => leads before state old there going (led going)⟩
  · obtain ⟨strand, there, owner⟩ := faithful.named run state place found main
    by_cases here : number = place
    · subst here
      exact ⟨change strand, by simp [Machine.modifyStrand, there], (same strand).1.trans owner⟩
    · exact ⟨strand, by simp [Machine.modifyStrand, here, there], owner⟩

/-- A change of a strand that leaves alone what it leads to. -/
theorem Faithful.modifyStrand_of_same (faithful : machine.Faithful) (number : Nat)
    (change : Strand → Strand)
    (same : ∀ strand, (change strand).run = strand.run ∧ (change strand).role = strand.role ∧
      (change strand).rest = strand.rest ∧ (change strand).cancelled = strand.cancelled) :
    (machine.modifyStrand number change).Faithful := by
  refine faithful.modifyStrand number change (fun strand => ⟨(same strand).1, (same strand).2.1⟩)
    fun strand state _ _ _ leads => ?_
  obtain ⟨-, -, rest, cancelled⟩ := same strand
  exact ⟨cancelled.trans leads.uncancelled, by rw [rest, leads.ending]⟩

/-- A strand more. -/
theorem Faithful.append (faithful : machine.Faithful) {strand : Strand}
    (strands : after.strands = machine.strands ++ [strand]) (runs : after.runs = machine.runs)
    (plays : strand.role ≠ .spawned → ∃ state, machine.runs[strand.run]? = some state ∧
      (state.isOver = false → strand.Leads state)) : after.Faithful := by
  refine ⟨fun number other found role => ?_, fun run state number found main => ?_,
    by rw [runs]; exact faithful.ended⟩
  · rw [strands] at found
    rw [runs]
    rcases getElem?_concat_cases found with old | ⟨-, rfl⟩
    · exact faithful.plays number other old role
    · exact plays role
  · rw [runs] at found
    obtain ⟨other, there, owner⟩ := faithful.named run state number found main
    have bound := (List.getElem?_eq_some_iff.mp there).1
    exact ⟨other, by rwa [strands, List.getElem?_append_left bound], owner⟩

/-! ### Single operations -/

theorem Faithful.notify (faithful : machine.Faithful) (run : Nat) :
    (machine.notify run).Faithful :=
  faithful.of_same (machine.runs_notify run).2 (machine.runs_notify run).1

theorem Faithful.unpark (faithful : machine.Faithful) (number : Nat) :
    (machine.unpark number).Faithful :=
  (faithful.modifyStrand_of_same number (fun state => { state with parked := false })
    fun _ => ⟨rfl, rfl, rfl, rfl⟩).of_same rfl rfl

theorem Faithful.park (faithful : machine.Faithful) (number : Nat) (wait : Wait) :
    (machine.park number wait id).Faithful := by
  have parked := faithful.modifyStrand_of_same number (fun state => { state with parked := true })
    fun _ => ⟨rfl, rfl, rfl, rfl⟩
  have same := faithful.modifyStrand_of_same number id fun _ => ⟨rfl, rfl, rfl, rfl⟩
  unfold Machine.park
  split
  · exact parked.of_same rfl rfl
  · split
    · exact same.of_same rfl rfl
    · exact parked.of_same rfl rfl

theorem Faithful.releaseCompletion (faithful : machine.Faithful) (run : Nat) :
    (machine.releaseCompletion run).Faithful := by
  unfold Machine.releaseCompletion
  split
  · split
    · exact (faithful.modifyRun_of_same run
        (fun state => { state with completion := state.completion.abandon })
        (fun _ => ⟨rfl, rfl, rfl⟩) fun _ _ => id).notify run
    · exact faithful
  · exact faithful

theorem Faithful.takeStage (faithful : machine.Faithful) (run : Nat) (stage : Stage) :
    (machine.takeStage run stage).Faithful := by
  have stirred : ∀ (stirs : List Stir) (machine : Machine), machine.Faithful →
      (machine.stirAll run stirs).Faithful := by
    intro stirs
    induction stirs with
    | nil => exact fun _ => id
    | cons stir stirs ih =>
        intro machine faithful
        refine ih (machine.stir run stir) ?_
        cases stir with
        | decided => exact faithful.notify run
        | spawned holds body =>
            exact faithful.append rfl rfl fun outside => absurd rfl outside
  have shown : (machine.withShell fun shell =>
      { shell with
        console := stage.console
        journal := { shell.journal with calls := stage.calls } }).Faithful :=
    faithful.of_same rfl rfl
  exact stirred stage.stirs _
    (shown.modifyRun_of_same run _ (fun _ => ⟨rfl, rfl, rfl⟩) fun _ _ => id)

theorem Faithful.closeRun (faithful : machine.Faithful) (run : Nat) (status : Option Int) :
    (machine.closeRun run status).Faithful := by
  have closed : (machine.modifyRun run fun state =>
      { state with phase := .closed status, completion := state.completion.revoke }).Faithful :=
    faithful.modifyRun_of_same run _ (fun _ => ⟨rfl, rfl, rfl⟩) fun _ _ _ => rfl
  exact closed.of_same (machine.strands_closeRun run status) (machine.runs_closeRun run status)

/-- However a run ends. -/
theorem Faithful.close (faithful : machine.Faithful) (closes : Closes run machine after) :
    after.Faithful := by
  obtain ⟨change, status, -, rfl⟩ := closes
  have shown : (machine.withShell change).Faithful := faithful.of_same rfl rfl
  exact shown.closeRun run status

/-! ### Strands go on and end -/

theorem Faithful.letGo (faithful : machine.Faithful) (number run : Nat) (holds : Bool) :
    (machine.ended number run holds).Faithful := by
  have marked := faithful.modifyStrand_of_same number (fun state => { state with ended := true })
    fun _ => ⟨rfl, rfl, rfl, rfl⟩
  unfold Machine.ended
  dsimp only
  split
  · exact marked.releaseCompletion run
  · exact marked

/-- A strand that was not cancelled ends as its program does. -/
theorem Faithful.endStrand (faithful : machine.Faithful)
    (found : machine.strands[number]? = some strand) (holds : Bool) (ending : Ending)
    (ends : strand.cancelled = false → ending = strand.rest.ending) :
    (machine.endStrand number strand holds ending).Faithful := by
  have released := faithful.letGo number strand.run holds
  have there : (machine.ended number strand.run holds).strands[number]? =
      some { strand with ended := true } := by
    simp [strands_ended, found]
  rw [endStrand_eq]
  dsimp only
  cases role : strand.role with
  | spawned => exact released
  | inline =>
      split
      · contradiction
      · exact released.close (closes_endExternal _ _ _ _)
      · exact released
  | main =>
      obtain ⟨owner, known, leads⟩ := released.plays number _ there (by simp [role])
      have noted : ((machine.ended number strand.run holds).modifyRun strand.run fun run =>
          { run with ending := some ending }).Faithful := by
        refine released.modifyRun strand.run _ (fun _ => rfl) (fun _ _ => id)
          (fun _ _ _ => .inl) fun after other here going told => ?_
        obtain rfl := Option.some.inj (known.symm.trans here)
        obtain ⟨uncancelled, ending'⟩ := leads going
        rw [← Option.some.inj told, ends uncancelled, ← ending']
      have told := noted.notify strand.run
      have known : (machine.ended number strand.run holds).runs[strand.run]? = some owner := known
      rw [known]
      dsimp only
      split
      · exact told.of_same rfl rfl
      · exact told

/-- A strand is left where it has come to. -/
theorem Faithful.leave (faithful : machine.Faithful)
    (found : machine.strands[number]? = some strand) (holds : Bool) (pause : Pause)
    (ends : strand.cancelled = false → pause.ending = strand.rest.ending) :
    (machine.leave number strand holds pause).Faithful := by
  cases pause with
  | ended ending => exact faithful.endStrand found holds ending ends
  | waiting wait rest interrupted =>
      have changed := faithful.modifyStrand number
        (fun state =>
          { state with
            rest := rest, interrupted := interrupted, holds := holds, cancelled := false })
        (fun _ => ⟨rfl, rfl⟩) fun other state here _ _ leads => by
          obtain rfl := Option.some.inj (found.symm.trans here)
          exact ⟨rfl, (ends leads.uncancelled).trans leads.ending⟩
      have parked := changed.park number wait
      rwa [park_modifyStrand] at parked

theorem Faithful.resume (faithful : machine.Faithful) (number : Nat) :
    (machine.resume number).Faithful := by
  unfold Machine.resume
  split
  · exact faithful
  · next strand found =>
      split
      · exact faithful
      · split
        · exact faithful
        · next run _ =>
            have ends := Script.ending_play machine.isOpen strand.ahead
              (machine.strandStage number strand run)
            generalize strand.ahead.play machine.isOpen (machine.strandStage number strand run) =
              played at ends
            obtain ⟨pause, stage⟩ := played
            refine (faithful.takeStage strand.run stage).leave
              (getElem?_strands_takeStage strand.run stage found) stage.holds pause fun going => ?_
            rw [Strand.ahead, going] at ends
            exact ends

/-! ### Supervisors -/

/-- A supervisor that has not decided may wait, or go on. -/
theorem Faithful.setPhase (faithful : machine.Faithful) (found : machine.runs[run]? = some state)
    (going : state.isOver = false) (phase : Phase) :
    (machine.modifyRun run fun state => { state with phase := phase }).Faithful := by
  refine faithful.modifyRun_of_same run _ (fun _ => ⟨rfl, rfl, rfl⟩) fun other here done => ?_
  obtain rfl := Option.some.inj (found.symm.trans here)
  cases going.symm.trans done

theorem Faithful.listen (faithful : machine.Faithful) (found : machine.runs[run]? = some state)
    (going : state.isOver = false) : (machine.listen run).Faithful := by
  have timed : (machine.timed run).Faithful :=
    (faithful.setPhase found going (.listening false)).of_same (machine.runs_timed run).2
      (machine.runs_timed run).1
  rw [listen_eq found]
  split
  · exact timed.notify run
  · exact timed

/-- The main strand of a run plays what was deferred in its call. -/
theorem Faithful.startMain (faithful : machine.Faithful) (found : machine.runs[run]? = some state)
    {shares : Bool} {body : Script} (called : state.launch.start.called = .deferred shares body)
    (holds : Bool) : (machine.startMain run body holds).Faithful := by
  let strand : Strand := { run := run, role := .main, rest := body, holds := holds }
  let added : Machine := { machine with strands := machine.strands ++ [strand] }
  have leads : strand.Leads state := ⟨rfl, by rw [Run.prospect, called]; rfl⟩
  have first : added.Faithful :=
    faithful.append rfl rfl fun _ => ⟨state, found, fun _ => leads⟩
  have named : (added.modifyRun run fun state =>
      { state with main := some machine.strands.length }).Faithful := by
    refine first.modifyRun run _ (fun _ => rfl) (fun _ _ => id) (fun _ number _ main => .inr ?_)
      fun other ending here going told => first.ended run other ending here going told
    obtain rfl := Option.some.inj main
    exact ⟨strand, List.getElem?_concat_length, rfl⟩
  exact named.of_same rfl rfl

/-- So does the strand that plays in the supervisor's place. -/
theorem Faithful.startInline (faithful : machine.Faithful)
    (found : machine.runs[run]? = some state) (going : state.isOver = false)
    {shares : Bool} {body : Script} (called : state.launch.start.called = .deferred shares body) :
    (machine.startInline run body).Faithful := by
  have inside := faithful.setPhase found going .inside
  have there : (machine.modifyRun run fun state => { state with phase := .inside }).runs[run]? =
      some { state with phase := .inside } := by
    simp [Machine.modifyRun, found]
  let strand : Strand := { run := run, role := .inline, rest := body }
  let started : Machine :=
    { machine.modifyRun run fun state => { state with phase := .inside } with
      strands := machine.strands ++ [strand] }
  have leads : strand.Leads { state with phase := .inside } :=
    ⟨rfl, by rw [Run.prospect, called]; rfl⟩
  have started' : started.Faithful :=
    inside.append rfl rfl fun _ => ⟨_, there, fun _ => leads⟩
  exact started'.resume machine.strands.length

/-- A supervisor calls its program. -/
theorem Faithful.begin (faithful : machine.Faithful) (found : machine.runs[run]? = some state)
    (going : state.isOver = false) : (machine.begin run).Faithful := by
  have taken := faithful.takeStage run
    ((machine.callStage state).carryOutAll state.launch.start.deeds)
  have here := runs_takeStage found
    ((machine.callStage state).carryOutAll state.launch.start.deeds)
  cases kind : state.launch.kind with
  | internal =>
      rw [machine.begin_of_internal found kind]
      dsimp only
      generalize (machine.callStage state).carryOutAll state.launch.start.deeds = stage at *
      cases called : state.launch.start.called with
      | deferred shares body =>
          obtain ⟨completion, there, -⟩ := exists_releaseCompletion
            (runs_startMain here body (shares && stage.holds))
          exact ((taken.startMain here called _).releaseCompletion run).listen there going
      | ended ending =>
          cases ending with
          | returned result =>
              obtain ⟨completion, there, -⟩ := exists_releaseCompletion here
              exact (taken.releaseCompletion run).listen there going
          | failed fault => exact taken.close (closes_failInternal _ run _ _)
          | cancelled => exact taken.closeRun run none
  | external =>
      rw [machine.begin_of_external found kind]
      dsimp only
      generalize (machine.callStage state).carryOutAll state.launch.start.deeds = stage at *
      cases called : state.launch.start.called with
      | ended ending => exact taken.close (closes_endExternal _ run _ _)
      | deferred shares body =>
          unfold beginExternal
          dsimp only
          split
          · exact taken.startInline here going called
          · exact (taken.startMain here called false).listen (runs_startMain here body false) going

/-- A supervisor that waits is woken. -/
theorem Faithful.woken (faithful : machine.Faithful)
    (which : job = .signalled run ∨ job = .expire run) : (machine.perform job).Faithful := by
  rcases machine.woken_cases which with
    ⟨same, -⟩ | ⟨state, timers, found, listening, -, -, performed⟩
  · rwa [same]
  · have going : state.isOver = false := by rw [Run.isOver, listening]
    rw [performed]
    exact (faithful.setPhase found going (.listening true)).of_same rfl rfl

theorem runs_cancelStrand (machine : Machine) (number : Nat) :
    (machine.cancelStrand number).runs = machine.runs := by
  unfold cancelStrand
  dsimp only
  split
  · split <;> rfl
  · rfl

/-- What cancelling a strand does to all strands. -/
theorem strands_cancelStrand (machine : Machine) (number : Nat) :
    ∃ change : Strand → Strand, (∀ strand, (change strand).run = strand.run ∧
      (change strand).role = strand.role) ∧
        (machine.cancelStrand number).strands = machine.strands.modify number change := by
  unfold cancelStrand
  dsimp only
  split
  · split
    · refine ⟨fun strand => { strand with cancelled := true, parked := false },
        fun _ => ⟨rfl, rfl⟩, ?_⟩
      simp [unpark, modifyStrand, cancelTimer, queue, List.modify_modify_eq, Function.comp_def]
    · exact ⟨fun strand => { strand with cancelled := true }, fun _ => ⟨rfl, rfl⟩, rfl⟩
  · exact ⟨fun strand => { strand with cancelled := true }, fun _ => ⟨rfl, rfl⟩, rfl⟩

/-- A supervisor decides that its program takes too long, and cancels its main strand. -/
theorem Faithful.abandon (faithful : machine.Faithful) (found : machine.runs[run]? = some state)
    (name : Text) (closes : Closes run ((machine.warnTimeout name).cancelMain state) after) :
    after.Faithful := by
  obtain ⟨shown, status, -, rfl⟩ := closes
  have closed := faithful.closeRun run status
  have strands : (machine.closeRun run status).strands = machine.strands :=
    machine.strands_closeRun run status
  have runs : ∀ before : Machine, before.runs = machine.runs →
      (before.closeRun run status).runs = (machine.closeRun run status).runs := by
    intro before same
    rw [runs_closeRun, runs_closeRun, same]
  unfold Machine.cancelMain
  cases main : state.main with
  | none => exact closed.of_same (by rw [strands_closeRun, strands]; rfl) (runs _ rfl)
  | some number =>
      obtain ⟨stopped, there, owner⟩ := faithful.named run state number found main
      obtain ⟨change, same, cancelled⟩ := strands_cancelStrand (machine.warnTimeout name) number
      have kept := runs_cancelStrand (machine.warnTimeout name) number
      -- The run is over at once, so the strand may as well be cancelled behind that.
      have late : ((machine.closeRun run status).modifyStrand number change).Faithful := by
        refine closed.modifyStrand number change same fun strand other here known open' _ => ?_
        rw [strands] at here
        obtain rfl := Option.some.inj (there.symm.trans here)
        have shut : (machine.closeRun run status).runs[stopped.run]? =
            some (state.close status) := by
          rw [runs_closeRun, owner]
          simp [found, Run.close]
        obtain rfl := Option.some.inj (shut.symm.trans known)
        cases open'
      refine late.of_same ?_ (runs _ kept)
      rw [strands_closeRun]
      exact cancelled.trans (congrArg (List.modify · number change) strands.symm)

theorem Faithful.concludeInternal (faithful : machine.Faithful)
    (found : machine.runs[run]? = some state) : (machine.concludeInternal run state).Faithful := by
  unfold Machine.concludeInternal
  split
  · next status _ =>
      have reaping : (machine.modifyRun run fun state =>
          { state with reaped := state.main.isSome }).Faithful :=
        faithful.modifyRun_of_same run _ (fun _ => ⟨rfl, rfl, rfl⟩) fun _ _ => id
      refine Faithful.closeRun ?_ run (some status)
      split
      · exact reaping.of_same rfl rfl
      · exact reaping
  · split
    · exact faithful.abandon found _ (closes_failRun _ run _ _)
    · split <;> exact faithful.close ((closes_failRun _ run _ _).withShell rfl)

theorem Faithful.conclude (faithful : machine.Faithful) (run : Nat) :
    (machine.conclude run).Faithful := by
  unfold Machine.conclude
  split
  · exact faithful
  · next state found =>
      split
      · cases state.launch.kind with
        | internal => exact faithful.concludeInternal found
        | external =>
            dsimp only
            unfold concludeExternal
            split
            · exact faithful.close (closes_endExternal _ run _ _)
            · exact faithful.abandon found _ (closes_endExternal _ run _ _)
      · exact faithful

/-! ### The host and the attendants -/

theorem Faithful.attend (faithful : machine.Faithful) (run : Nat) :
    (machine.attend run).Faithful := by
  unfold Machine.attend
  split
  · exact faithful
  · split
    · exact faithful.of_same rfl rfl
    · exact faithful.modifyRun_of_same run _ (fun _ => ⟨rfl, rfl, rfl⟩) fun _ _ => id

theorem Faithful.launch (faithful : machine.Faithful) (program : Launch) :
    (machine.launch program).Faithful := by
  have kept : ∀ (run : Nat) (state : Run), machine.runs[run]? = some state →
      (machine.launch program).runs[run]? = some state := by
    intro run state found
    have bound := (List.getElem?_eq_some_iff.mp found).1
    change (machine.runs ++ [_])[run]? = _
    rwa [List.getElem?_append_left bound]
  refine ⟨fun number strand found plays => ?_, fun run state number found main => ?_,
    fun run state ending found going told => ?_⟩
  · obtain ⟨state, there, leads⟩ := faithful.plays number strand found plays
    exact ⟨state, kept _ _ there, leads⟩
  · rcases getElem?_concat_cases found with old | ⟨-, rfl⟩
    · exact faithful.named run state number old main
    · cases main
  · rcases getElem?_concat_cases found with old | ⟨-, rfl⟩
    · exact faithful.ended run state ending old going told
    · cases told

theorem Faithful.input (faithful : machine.Faithful) (event : Text) :
    (machine.input event).Faithful := by
  unfold Machine.input
  rcases machine.shell.input true event with ⟨reaction, shell⟩
  have typed : ({ machine with shell := shell } : Machine).Faithful := faithful.of_same rfl rfl
  cases reaction with
  | done | raised fault => exact typed
  | launched program => exact typed.launch program

theorem Faithful.call (faithful : machine.Faithful) (caller : Nat) :
    (machine.call caller).Faithful := by
  obtain ⟨waiting, finished, same⟩ := machine.call_eq caller
  rw [same]
  cases machine.submittedBy caller with
  | none => exact faithful.of_same rfl rfl
  | some line =>
      have typed : (machine.withLine line).Faithful := faithful.of_same rfl rfl
      exact (typed.input ['\r']).of_same rfl rfl

theorem Faithful.release (faithful : machine.Faithful) (gate : Text) :
    (machine.release gate).Faithful := by
  have woken : ∀ (strands : List Nat) (machine : Machine), machine.Faithful →
      (strands.foldl Machine.unpark machine).Faithful := by
    intro strands
    induction strands with
    | nil => exact fun _ => id
    | cons strand others ih => exact fun machine faithful => ih _ (faithful.unpark strand)
  exact woken _ _ (faithful.of_same rfl rfl)

/-! ### Moves -/

/-- A callback keeps the invariant, if it calls a program only once. -/
theorem Faithful.perform (faithful : machine.Faithful)
    (begins : ∀ run, job = .begin run → ∃ state, machine.runs[run]? = some state ∧
      state.phase = .starting) : (machine.perform job).Faithful := by
  cases job with
  | begin run =>
      obtain ⟨state, found, starting⟩ := begins run rfl
      exact faithful.begin found (by rw [Run.isOver, starting])
  | attend run => exact faithful.attend run
  | signalled run => exact faithful.woken (.inl rfl)
  | expire run => exact faithful.woken (.inr rfl)
  | conclude run => exact faithful.conclude run
  | finish run =>
      change (machine.finish run).Faithful
      unfold finish
      split
      · exact faithful
      · split <;> exact faithful.of_same rfl rfl
  | reap run =>
      change (machine.reap run).Faithful
      unfold reap
      split
      · exact faithful
      · split <;> exact faithful.of_same rfl rfl
  | resume number => exact faithful.resume number
  | alarm number =>
      change (machine.alarm number).Faithful
      unfold alarm
      split
      · split
        · exact faithful.unpark number
        · exact faithful
      · exact faithful
  | freed caller => exact faithful.of_same rfl rfl
  | call caller => exact faithful.call caller

theorem faithful_make (sound : machine.front.Sound none) (faithful : machine.Faithful)
    (move : Move) : (machine.make move).Faithful := by
  cases move with
  | input event => exact faithful.input event
  | exec line => exact faithful.of_same rfl rfl
  | carryOut line =>
      have enlisted : (machine.enlist line).Faithful := faithful.of_same rfl rfl
      exact enlisted.call machine.callers.length
  | release gate => exact faithful.release gate
  | elapse moment => exact faithful.of_same rfl rfl
  | step =>
      change machine.tick.Faithful
      rcases machine.tick_cases with ⟨job, ready, turn, next, -, ticked⟩ | ⟨-, ticked⟩
      · rw [ticked]
        have popped : (machine.pop ready turn).Faithful := faithful.of_same rfl rfl
        have starts : ∀ run, job = .begin run → ∃ state, machine.runs[run]? = some state ∧
            state.phase = .starting := by
          rintro run rfl
          exact starting_of_begin sound (next ▸ List.mem_cons_self)
        exact popped.perform starts
      · rw [ticked]
        exact faithful.of_same rfl rfl

end Machine

end LineShell
