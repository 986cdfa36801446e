/-
Module: LineShell.Proofs.Scheduler.Backstage
Purpose: What the callbacks of programs do to the front of a machine: all of it,
  case by case, so that no later proof has to look into a supervisor again.
Main exports: Machine.resume_eq, Machine.begin_of_internal, Machine.begin_of_external,
  Front.Begun, Front.Aside, Machine.front_begin, Machine.front_perform
-/
import LineShell.Proofs.Program.Acts
import LineShell.Proofs.Scheduler.Front

namespace LineShell

namespace Front

/-- A run is played in its supervisor's place. -/
def enter (front : Front) (run : Nat) : Front :=
  { front.progress run .inside with inlined := front.inlined ++ [run] }

/-- One strand that played a run in its supervisor's place has ended. -/
def Left (front : Front) (run : Nat) (left : Front) : Prop :=
  ∃ before behind, front.inlined = before ++ run :: behind ∧
    left = { front with inlined := before ++ behind }

/-- What the call of a program can lead to. -/
inductive Begun (front : Front) (run : Nat) : Front → Prop where
  /-- The supervisor waits for the program. -/
  | listening : Begun front run (front.progress run .listening)
  /-- The program has ended inside its call. -/
  | closed (status : Option Int) : Begun front run (front.close run status)
  /-- The program is played in the supervisor's place, and waits. -/
  | entered : Begun front run (front.enter run)
  /-- The program was played in the supervisor's place, and has ended. -/
  | passed {left : Front} (status : Option Int) (gone : (front.enter run).Left run left) :
      Begun front run (left.close run status)

/-- What a callback can do that belongs to a program alone. -/
inductive Aside (front : Front) : Front → Prop where
  | unseen : Aside front front
  /-- A supervisor that was woken has ended its run. -/
  | concluded {run : Nat} {outline : Outline} (status : Option Int)
      (found : front.runs[run]? = some outline) (listening : outline.progress = .listening) :
      Aside front (front.close run status)
  /-- A strand in a supervisor's place has ended, and its run with it. -/
  | ended {run : Nat} {left : Front} (status : Option Int) (gone : front.Left run left) :
      Aside front (left.close run status)

end Front

namespace Machine

variable (machine : Machine)

/-! ### Playing -/

section Playing

variable {run strand : Nat} {state : Run} {going : Strand}

/-- A strand that goes on is played, and left where it has come to. -/
theorem resume_eq (here : machine.strands[strand]? = some going) (live : going.ended = false)
    (found : machine.runs[going.run]? = some state) :
    machine.resume strand =
      let played := going.ahead.play machine.isOpen (machine.strandStage strand going state)
      (machine.takeStage going.run played.2).leave strand going played.2.holds played.1 := by
  simp [resume, here, live, found]

/-- A strand that has ended does nothing any more, and no more does one without a run. -/
theorem resume_of_idle (idle : ∀ going, machine.strands[strand]? = some going →
    going.ended = true ∨ machine.runs[going.run]? = none) : machine.resume strand = machine := by
  unfold resume
  split
  · rfl
  · next going here =>
      split
      · rfl
      · next live =>
          rcases idle going here with ended | absent
          · exact absurd ended live
          · rw [absent]

/-- An internal program is called, and the supervisor goes on with what that comes to. -/
theorem begin_of_internal (found : machine.runs[run]? = some state)
    (internal : state.launch.kind = .internal) :
    machine.begin run =
      let stage := (machine.callStage state).carryOutAll state.launch.start.deeds
      (machine.takeStage run stage).beginInternal run state.name stage.holds
        state.launch.start.called := by
  rw [begin, found]
  simp only [Start.play_eq, internal]

/-- An external program is called, and the supervisor goes on with what that comes to. -/
theorem begin_of_external (found : machine.runs[run]? = some state)
    (external : state.launch.kind = .external) :
    machine.begin run =
      let stage := (machine.callStage state).carryOutAll state.launch.start.deeds
      (machine.takeStage run stage).beginExternal run state.name state.launch.start.called := by
  rw [begin, found]
  simp only [Start.play_eq, external]

end Playing

/-! ### Ways to end a run -/

@[simp] theorem front_failRun (run : Nat) (fault : Fault) (status : Int) :
    (machine.failRun run fault status).front = machine.front.close run (some status) := by
  rw [failRun, front_closeRun, front_withShell_report]

@[simp] theorem front_closeExternal (run : Nat) (status : Option Int) :
    (machine.closeExternal run status).front = machine.front.close run status := by
  rw [closeExternal, front_closeRun]
  exact congrArg (Front.close · run status) (machine.front_withShell rfl)

/-- Whatever a program has come to, its run is closed once. -/
theorem front_endExternal (run : Nat) (name : Text) (ending : Ending) :
    ∃ status, (machine.endExternal run name ending).front = machine.front.close run status := by
  cases ending with
  | returned result => exact ⟨_, machine.front_closeExternal run _⟩
  | cancelled => exact ⟨_, machine.front_closeExternal run _⟩
  | failed fault =>
      cases fault with
      | timedOut program seconds =>
          exact ⟨some statusTimeout, by
            rw [endExternal, front_closeExternal, front_withShell_report]⟩
      | host | program | completion =>
          refine ⟨some statusFailure, ?_⟩
          rw [endExternal, front_closeExternal, front_withShell]
          · rfl
          · intro program seconds
            exact Fault.noConfusion

theorem front_failInternal (run : Nat) (name : Text) (fault : Fault) :
    ∃ status, (machine.failInternal run name fault).front = machine.front.close run status := by
  cases fault with
  | timedOut program seconds => exact ⟨_, machine.front_failRun run _ _⟩
  | program program message => exact ⟨_, machine.front_failRun run _ _⟩
  | completion program => exact ⟨_, machine.front_failRun run _ _⟩
  | host kind text =>
      exact ⟨_, by rw [failInternal, front_failRun, front_withShell_warn]⟩

@[simp] theorem front_warnTimeout (name : Text) :
    (machine.warnTimeout name).front = machine.front :=
  machine.front_withShell rfl

@[simp] theorem front_cancelMain (run : Run) :
    (machine.cancelMain run).front = machine.front := by
  unfold cancelMain
  split
  · exact machine.front_cancelStrand _
  · rfl

/-- A supervisor that decides closes its run, whatever it decides. -/
theorem front_concludeInternal (run : Nat) (state : Run) :
    ∃ status, (machine.concludeInternal run state).front = machine.front.close run status := by
  have reaping : (machine.modifyRun run fun other =>
      { other with reaped := other.main.isSome }).front = machine.front :=
    machine.front_modifyRun run fun _ _ => rfl
  unfold concludeInternal
  split
  · next status _ =>
      refine ⟨some status, ?_⟩
      rw [front_closeRun]
      split
      · rw [front_queue _ rfl, reaping]
      · rw [reaping]
  · split
    · exact ⟨some statusTimeout, by rw [front_failRun, front_cancelMain, front_warnTimeout]⟩
    · split
      · exact ⟨some statusFailure, by rw [front_failRun, front_withShell_warn]⟩
      · exact ⟨some statusFailure, by rw [front_failRun, front_withShell_warn]⟩

theorem front_concludeExternal (run : Nat) (state : Run) :
    ∃ status, (machine.concludeExternal run state).front = machine.front.close run status := by
  unfold concludeExternal
  split
  · exact machine.front_endExternal run state.name _
  · have ended := ((machine.warnTimeout state.name).cancelMain state).front_endExternal run
      state.name (.failed (.timedOut state.name (machine.shell.options.timeout.getD (.whole 0))))
    rwa [front_cancelMain, front_warnTimeout] at ended

/-! ### Strands -/

/-- Playing a strand adds strands behind those that are there. -/
theorem strands_takeStage (run : Nat) (stage : Stage) :
    ∃ spawned, (machine.takeStage run stage).strands = machine.strands ++ spawned := by
  have stirred : ∀ (stirs : List Stir) (machine : Machine), ∃ spawned,
      (stirs.foldl (fun machine stir => machine.stir run stir) machine).strands =
        machine.strands ++ spawned := by
    intro stirs
    induction stirs with
    | nil => exact fun machine => ⟨[], (List.append_nil _).symm⟩
    | cons first others ih =>
        intro machine
        obtain ⟨spawned, eq⟩ := ih (machine.stir run first)
        rw [List.foldl_cons, eq]
        cases first with
        | decided =>
            refine ⟨spawned, congrArg (· ++ spawned) ?_⟩
            rw [stir, notify]
            split
            · split <;> rfl
            · rfl
        | spawned holds body => exact ⟨_ :: spawned, List.append_assoc _ _ _⟩
  exact stirred stage.stirs _

/-- A strand that ends may let go of the completion signal, which is not seen from the front. -/
theorem front_released (run : Nat) (holds : Bool) :
    (if holds then machine.releaseCompletion run else machine).front = machine.front := by
  split
  · exact machine.front_releaseCompletion run
  · rfl

/-- A strand that ends, seen from the front: nothing, unless it was played in the
supervisor's place. -/
theorem front_endStrand {strand : Nat} {state : Strand} (holds : Bool) (ending : Ending)
    (found : machine.strands[strand]? = some state) (alive : state.ended = false) :
    (machine.endStrand strand state holds ending).front = machine.front ∨
      ∃ left status, machine.front.Left state.run left ∧
        (machine.endStrand strand state holds ending).front = left.close state.run status := by
  let marked := machine.modifyStrand strand fun state => { state with ended := true }
  have released := marked.front_released state.run holds
  rw [endStrand]
  dsimp only
  generalize (if holds then marked.releaseCompletion state.run else marked) = left at released ⊢
  by_cases inline : state.role = .inline
  · right
    obtain ⟨before, behind, split, modified⟩ := modify_split found
    have gone : machine.front.Left state.run marked.front := by
      refine ⟨before.filterMap Strand.inlinedRun?, behind.filterMap Strand.inlinedRun?, ?_, ?_⟩
      · simp [front, split, Strand.inlinedRun?, inline, alive]
      · simp [marked, front, modifyStrand, modified, Strand.inlinedRun?]
    refine ⟨marked.front, ?_⟩
    rw [inline]
    cases known : left.runs[state.run]? with
    | none =>
        refine ⟨none, gone, ?_⟩
        have unknown : marked.front.runs[state.run]? = none := by
          rw [← released, front, List.getElem?_map, known]
          rfl
        have short := List.getElem?_eq_none_iff.mp unknown
        dsimp only
        rw [released, Front.close, Front.progress, List.modify_eq_self short, Front.isAttended,
          unknown]
        rfl
    | some run =>
        obtain ⟨status, closed⟩ := left.front_endExternal state.run run.name ending
        exact ⟨status, gone, closed.trans (by rw [released])⟩
  · left
    have same : marked.front = machine.front := by
      refine machine.front_modifyStrand strand fun other eq => ?_
      obtain rfl := Option.some.inj (eq.symm.trans found)
      simp [Strand.inlinedRun?, inline]
    rw [← same, ← released]
    split
    · have told : (left.modifyRun state.run fun run =>
          { run with ending := some ending }).front = left.front :=
        front_modifyRun _ state.run fun _ _ => rfl
      split
      · rw [front_queue _ rfl, front_notify, told]
      · rw [front_notify, told]
    · next role _ => exact absurd role inline
    · rfl

/-- A strand that goes on, seen from the front. -/
theorem front_resume (strand : Nat) :
    (machine.resume strand).front = machine.front ∨
      ∃ state left status, machine.strands[strand]? = some state ∧
        machine.front.Left state.run left ∧
        (machine.resume strand).front = left.close state.run status := by
  cases found : machine.strands[strand]? with
  | none => exact .inl (by rw [resume, found])
  | some state =>
      cases alive : state.ended with
      | true => exact .inl (by simp [resume, found, alive])
      | false =>
          cases known : machine.runs[state.run]? with
          | none => exact .inl (by simp [resume, found, known])
          | some run =>
              rw [machine.resume_eq found alive known]
              obtain ⟨pause, stage⟩ :=
                state.ahead.play machine.isOpen (machine.strandStage strand state run)
              obtain ⟨spawned, behind⟩ := machine.strands_takeStage state.run stage
              dsimp only
              cases pause with
              | waiting wait rest interrupted =>
                  have parked := (machine.takeStage state.run stage).front_park strand wait
                    (fun state =>
                      { state with
                        rest := rest
                        interrupted := interrupted
                        holds := stage.holds
                        cancelled := false }) fun _ => rfl
                  exact .inl (parked.trans (machine.front_takeStage _ _))
              | ended ending =>
                  have still : (machine.takeStage state.run stage).strands[strand]? =
                      some state := by
                    rw [behind, List.getElem?_append_left, found]
                    exact (List.getElem?_eq_some_iff.mp found).1
                  obtain same | ⟨left, status, gone, ended⟩ :=
                    front_endStrand _ stage.holds ending still alive
                  · exact .inl (same.trans (machine.front_takeStage _ _))
                  · rw [front_takeStage] at gone
                    exact .inr ⟨state, left, status, rfl, gone, ended⟩

/-! ### The call of a program -/

@[simp] theorem front_listen (run : Nat) :
    (machine.listen run).front = machine.front.progress run .listening := by
  have listening : (machine.modifyRun run fun state =>
      { state with phase := .listening false }).front = machine.front.progress run .listening :=
    machine.front_setPhase run fun _ => rfl
  have timed : ∀ seconds, ((machine.modifyRun run fun state =>
      { state with phase := .listening false }).after seconds (.expire run)).front =
        machine.front.progress run .listening := by
    intro seconds
    rw [front_after _ _ rfl, listening]
  rw [listen]
  cases machine.shell.options.timeout.bind Numeral.value? with
  | none =>
      split
      · split
        · exact (front_notify _ run).trans listening
        · exact listening
      · exact listening
  | some seconds =>
      split
      · split
        · exact (front_notify _ run).trans (timed seconds)
        · exact timed seconds
      · exact timed seconds

@[simp] theorem front_startMain (run : Nat) (script : Script) (holds : Bool) :
    (machine.startMain run script holds).front = machine.front := by
  rw [startMain, front_addStrand _ (by simp)]
  exact machine.front_modifyRun run fun _ _ => rfl

theorem front_startInline (run : Nat) (script : Script) :
    machine.front.Begun run (machine.startInline run script).front := by
  let strand : Strand := { run := run, role := .inline, rest := script }
  let inside : Machine := machine.modifyRun run fun state => { state with phase := .inside }
  let started : Machine := { inside with strands := machine.strands ++ [strand] }
  have entered : started.front = machine.front.enter run := by
    have placed : inside.front = machine.front.progress run .inside :=
      machine.front_setPhase run fun _ => rfl
    rw [Front.enter, ← placed]
    simp [started, strand, inside, modifyRun, front, Strand.inlinedRun?]
  have found : started.strands[machine.strands.length]? = some strand := by
    simp [started]
  change machine.front.Begun run (started.resume machine.strands.length).front
  obtain same | ⟨state, left, status, met, gone, ended⟩ :=
    started.front_resume machine.strands.length
  · rw [same, entered]
    exact .entered
  · obtain rfl := Option.some.inj (found.symm.trans met)
    rw [entered] at gone
    rw [ended]
    exact .passed status gone

theorem front_beginInternal (run : Nat) (name : Text) (holds : Bool) (called : Called) :
    machine.front.Begun run (machine.beginInternal run name holds called).front := by
  cases called with
  | ended ending =>
      cases ending with
      | returned result =>
          rw [beginInternal, front_listen, front_releaseCompletion]
          exact .listening
      | failed fault =>
          obtain ⟨status, failed⟩ := machine.front_failInternal run name fault
          rw [beginInternal, failed]
          exact .closed status
      | cancelled =>
          rw [beginInternal, front_closeRun]
          exact .closed none
  | deferred shares body =>
      rw [beginInternal, front_listen, front_releaseCompletion, front_startMain]
      exact .listening

theorem front_beginExternal (run : Nat) (name : Text) (called : Called) :
    machine.front.Begun run (machine.beginExternal run name called).front := by
  cases called with
  | ended ending =>
      obtain ⟨status, ended⟩ := machine.front_endExternal run name ending
      rw [beginExternal, ended]
      exact .closed status
  | deferred shares body =>
      rw [beginExternal]
      split
      · exact machine.front_startInline run body
      · rw [front_listen, front_startMain]
        exact .listening

/-- The call of a program, seen from the front. -/
theorem front_begin {run : Nat} {state : Run} (found : machine.runs[run]? = some state) :
    machine.front.Begun run (machine.begin run).front := by
  let stage := (machine.callStage state).carryOutAll state.launch.start.deeds
  have played : (machine.takeStage run stage).front = machine.front := machine.front_takeStage _ _
  rw [← played]
  cases kind : state.launch.kind with
  | internal =>
      rw [machine.begin_of_internal found kind]
      exact front_beginInternal _ _ _ _ _
  | external =>
      rw [machine.begin_of_external found kind]
      exact front_beginExternal _ _ _ _

/-! ### The other callbacks of programs -/

@[simp] theorem front_alarm (strand : Nat) : (machine.alarm strand).front = machine.front := by
  unfold alarm
  split
  · split
    · exact machine.front_unpark strand
    · rfl
  · rfl

/-- Waking a supervisor is not seen from the front. -/
theorem front_wake {run : Nat} {state : Run} (found : machine.runs[run]? = some state)
    (listening : state.phase = .listening false) :
    (machine.modifyRun run fun state => { state with phase := .listening true }).front =
      machine.front := by
  refine machine.front_modifyRun run fun other eq => ?_
  obtain rfl := Option.some.inj (eq.symm.trans found)
  simp [Run.outline, Phase.progress, listening]

@[simp] theorem front_signalled (run : Nat) :
    (machine.signalled run).front = machine.front := by
  unfold signalled
  split
  · next state found =>
      split
      · next listening =>
          rw [front_queue _ rfl, front_wake (machine.cancelTimer (.expire run)) found listening,
            front_cancelTimer _ rfl]
      · rfl
  · rfl

@[simp] theorem front_expire (run : Nat) : (machine.expire run).front = machine.front := by
  unfold expire
  split
  · next state found =>
      split
      · next listening => rw [front_queue _ rfl, machine.front_wake found listening]
      · rfl
  · rfl

@[simp] theorem front_reap (run : Nat) : (machine.reap run).front = machine.front := by
  unfold reap
  split
  · rfl
  · split
    · exact machine.front_withShell rfl
    · rfl

theorem front_conclude (run : Nat) : machine.front.Aside (machine.conclude run).front := by
  unfold conclude
  split
  · exact .unseen
  · next state found =>
      split
      · next listening =>
          have outline : machine.front.runs[run]? = some state.outline := by
            rw [front, List.getElem?_map, found]
            rfl
          have progress : state.outline.progress = .listening := by
            simp [Run.outline, Phase.progress, listening]
          split
          · obtain ⟨status, closed⟩ := machine.front_concludeInternal run state
            rw [closed]
            exact .concluded status outline progress
          · obtain ⟨status, closed⟩ := machine.front_concludeExternal run state
            rw [closed]
            exact .concluded status outline progress
      · exact .unseen

/-- A callback that belongs to a program alone, seen from the front. -/
theorem front_perform {job : Job} (aside : job.isFront = false) :
    machine.front.Aside (machine.perform job).front := by
  cases job with
  | begin | attend | finish | freed | call => exact absurd aside (by simp [Job.isFront])
  | signalled run => exact machine.front_signalled run ▸ .unseen
  | expire run => exact machine.front_expire run ▸ .unseen
  | reap run => exact machine.front_reap run ▸ .unseen
  | alarm strand => exact machine.front_alarm strand ▸ .unseen
  | conclude run => exact machine.front_conclude run
  | resume strand =>
      rcases machine.front_resume strand with same | ⟨state, left, status, _, gone, ended⟩
      · exact same ▸ .unseen
      · exact ended ▸ .ended status gone

end Machine

end LineShell
