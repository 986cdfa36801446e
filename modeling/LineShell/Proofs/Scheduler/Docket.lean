/-
Module: LineShell.Proofs.Scheduler.Docket
Purpose: All that a machine holds about one run, and the proof that callbacks that work for
  other runs leave it alone.
Main exports: Docket, Machine.docket, Machine.ward, Machine.docket_perform,
  Docket.tell, Docket.revise, Docket.lose, Machine.docket_takeStage, Machine.docket_endStrand,
  Machine.launches_perform
-/
import LineShell.Proofs.Scheduler.Wakeful

namespace LineShell

/-!
Programs run beside each other, but what becomes of one of them is decided by little: how its
supervisor stands, whether a strand holds its signal, and what is going to wake the supervisor.
`Machine.docket` keeps that, as `Machine.front` keeps what decides whether the shell is free.
Every operation is described by one equation about it, first for the operations that work for
another run, and then for those that work for the run itself.
-/

/-! ### The docket of a run -/

/-- Whether a callback wakes the supervisor of a run. -/
def Job.wakes (run : Nat) : Job → Bool
  | .signalled other | .expire other => other = run
  | _ => false

/-- Whether a strand is one that holds the completion signal of a run. -/
def Strand.holdsFor (run : Nat) (strand : Strand) : Bool :=
  strand.run = run && strand.holds && !strand.ended

/-- Ends a run. -/
def Run.close (state : Run) (status : Option Int) : Run :=
  { state with phase := .closed status, completion := state.completion.revoke }

/-- All that a machine holds about one run. -/
@[ext] structure Docket where
  /-- The number of the run. -/
  run : Nat
  state : Option Run
  /-- Whether a strand holds the completion signal of the run. -/
  held : Bool
  /-- Whether the supervisor is going to be told that something has happened. -/
  told : Bool
  /-- Whether it is going to be told that the timeout has passed. -/
  due : Bool
  /-- The timers that are set to wake it. -/
  alarms : Timer → Prop
  now : Rat
  /-- The seconds that a program may take. -/
  limit : Option Rat

/-- The docket of a run. -/
def Machine.docket (machine : Machine) (run : Nat) : Docket :=
  { run := run
    state := machine.runs[run]?
    held := machine.isHeld run
    told := decide (.signalled run ∈ machine.ready)
    due := decide (.expire run ∈ machine.ready)
    alarms := fun timer => timer ∈ machine.timers ∧ timer.job.wakes run = true
    now := machine.now
    limit := machine.shell.options.timeout.bind Numeral.value? }

namespace Docket

/-- A supervisor that waits is going to be told that something has happened. -/
def tell (docket : Docket) : Docket :=
  if docket.state.any (·.phase = .listening false) then { docket with told := true } else docket

/-- Changes the run. -/
def revise (docket : Docket) (change : Run → Run) : Docket :=
  { docket with state := docket.state.map change }

/-- If nobody holds the signal it is given up. -/
def release (docket : Docket) : Docket :=
  if docket.state.any (·.completion = .pending) && !docket.held then
    (docket.revise fun state => { state with completion := state.completion.abandon }).tell
  else docket

/-- A strand has ended; it lets go of the signal if it has held it up to its end. -/
def lose (docket : Docket) (shared holds : Bool) : Docket :=
  let left := { docket with held := shared }
  if holds then left.release else left

/-- What a strand has stirred up. -/
def stir (docket : Docket) : Stir → Docket
  | .decided => docket.tell
  | .spawned holds _ => { docket with held := docket.held || holds }

/-- The supervisor begins to wait. -/
def listen (docket : Docket) : Docket :=
  { docket.revise fun state => { state with phase := .listening false } with
    alarms := fun timer => docket.alarms timer ∨ ∃ seconds, docket.limit = some seconds ∧
      timer = { due := docket.now + seconds, job := .expire docket.run } }

/-- Whether a docket is as before, or its run has just been launched. -/
def Admits (before after : Docket) : Prop :=
  after = before ∨
    (before.state = none ∧ ∃ program, after = { before with state := some { launch := program } })

/-- A supervisor that waits is told, or it does not wait. -/
theorem exists_tell (docket : Docket) : ∃ told, docket.tell = { docket with told := told } := by
  unfold tell
  split
  · exact ⟨true, rfl⟩
  · exact ⟨docket.told, rfl⟩

end Docket

namespace Machine

variable {run other : Nat} {job : Job}

/-- The run that a callback works for.  The attendant of a run works for the shell. -/
def ward (machine : Machine) : Job → Option Nat
  | .begin run | .signalled run | .expire run | .conclude run | .reap run => some run
  | .resume strand => machine.strands[strand]?.map Strand.run
  | .attend _ | .finish _ | .alarm _ | .freed _ | .call _ => none

/-! ### Parts that the docket does not show -/

section Aside

variable (machine : Machine)

/-- Callbacks that do not wake the supervisor of a run are nothing to it. -/
theorem docket_queueAll {jobs : List Job} (aside : ∀ job ∈ jobs, job.wakes run = false) :
    (machine.queueAll jobs).docket run = machine.docket run := by
  have absent : .signalled run ∉ jobs ∧ .expire run ∉ jobs := by
    refine ⟨fun member => ?_, fun member => ?_⟩
    · simpa [Job.wakes] using aside _ member
    · simpa [Job.wakes] using aside _ member
  simp only [docket, queueAll, List.mem_append, absent.1, absent.2, or_false]
  rfl

theorem docket_queue (aside : job.wakes run = false) :
    (machine.queue job).docket run = machine.docket run :=
  machine.docket_queueAll (List.forall_mem_singleton.mpr aside)

/-- Timers are nothing to a run that do not wake its supervisor. -/
theorem docket_withTimers {timers : List Timer}
    (same : ∀ timer : Timer, timer.job.wakes run = true →
      (timer ∈ timers ↔ timer ∈ machine.timers)) :
    ({ machine with timers := timers } : Machine).docket run = machine.docket run := by
  ext timer
  case alarms =>
    simp only [docket]
    constructor
    · exact fun ⟨set, wakes⟩ => ⟨(same timer wakes).mp set, wakes⟩
    · exact fun ⟨set, wakes⟩ => ⟨(same timer wakes).mpr set, wakes⟩
  all_goals rfl

theorem docket_after (seconds : Rat) (aside : job.wakes run = false) :
    (machine.after seconds job).docket run = machine.docket run := by
  refine machine.docket_withTimers fun timer wakes => ?_
  rw [mem_insertTimer]
  constructor
  · rintro (rfl | set)
    · cases aside.symm.trans wakes
    · exact set
  · exact .inr

/-- A timer that wakes another run may be forgotten. -/
theorem docket_cancelTimer (aside : job.wakes run = false) :
    (machine.cancelTimer job).docket run = machine.docket run := by
  refine machine.docket_withTimers fun timer wakes => ?_
  rw [List.mem_filter]
  refine ⟨And.left, fun set => ⟨set, ?_⟩⟩
  simp only [ne_eq, decide_eq_true_eq]
  rintro rfl
  cases aside.symm.trans wakes

/-- Whatever is written, and whatever becomes of variables and programs. -/
theorem docket_withShell {change : Shell → Shell}
    (options : (change machine.shell).options = machine.shell.options) :
    (machine.withShell change).docket run = machine.docket run := by
  simp only [docket, withShell, options]
  rfl

/-- A change of strands that leaves those which hold the signal of the run. -/
theorem docket_modifyStrand (strand : Nat) {change : Strand → Strand}
    (same : ∀ state, machine.strands[strand]? = some state →
      (change state).holdsFor run = state.holdsFor run) :
    (machine.modifyStrand strand change).docket run = machine.docket run := by
  have held : (machine.modifyStrand strand change).isHeld run = machine.isHeld run := by
    have shown : (machine.strands.modify strand change).map (Strand.holdsFor run) =
        machine.strands.map (Strand.holdsFor run) := map_modify_eq machine.strands strand same
    have any := congrArg (List.any · id) shown
    rwa [List.any_map, List.any_map] at any
  simp only [docket, held]
  rfl

/-- A strand of another run may change as it likes. -/
theorem docket_modifyStrand_of_ne {strand : Nat} {state : Strand} {change : Strand → Strand}
    (found : machine.strands[strand]? = some state) (differs : state.run ≠ run)
    (stays : (change state).run = state.run) :
    (machine.modifyStrand strand change).docket run = machine.docket run := by
  refine machine.docket_modifyStrand strand fun other there => ?_
  obtain rfl := Option.some.inj (found.symm.trans there)
  simp [Strand.holdsFor, stays, differs]

/-- A change of a run changes what its docket says about it. -/
theorem docket_modifyRun (run : Nat) (change : Run → Run) :
    (machine.modifyRun run change).docket run = (machine.docket run).revise change := by
  ext timer
  case state => simp [docket, Docket.revise, modifyRun]
  all_goals rfl

theorem docket_modifyRun_of_ne (differs : other ≠ run) (change : Run → Run) :
    (machine.modifyRun other change).docket run = machine.docket run := by
  ext timer
  case state => simp [docket, modifyRun, differs]
  all_goals rfl

/-- A strand more may be one more that holds the signal. -/
theorem docket_append {strand : Strand} :
    ({ machine with strands := machine.strands ++ [strand] } : Machine).docket run =
      { machine.docket run with held := machine.isHeld run || strand.holdsFor run } := by
  have held : ({ machine with strands := machine.strands ++ [strand] } : Machine).isHeld run =
      (machine.isHeld run || strand.holdsFor run) := by
    simp [isHeld, Strand.holdsFor]
  simp only [docket, held]

/-- A strand more may hold the signal of its run. -/
theorem docket_addStrand {strand : Strand} (run : Nat) : (machine.addStrand strand).docket run =
    { machine.docket run with held := machine.isHeld run || strand.holdsFor run } := by
  have queued : (machine.queue (.resume machine.strands.length)).docket run =
      machine.docket run := machine.docket_queue rfl
  rw [← queued]
  exact docket_append _

theorem docket_addStrand_of_ne {strand : Strand} (differs : strand.run ≠ run) :
    (machine.addStrand strand).docket run = machine.docket run := by
  have aside : strand.holdsFor run = false := by simp [Strand.holdsFor, differs]
  rw [docket_addStrand, aside, Bool.or_false]
  rfl

theorem docket_notify_of_ne (differs : other ≠ run) :
    (machine.notify other).docket run = machine.docket run := by
  unfold notify
  split
  · split
    · exact machine.docket_queue (by simpa [Job.wakes] using differs)
    · rfl
  · rfl

@[simp] theorem docket_unpark (strand : Nat) :
    (machine.unpark strand).docket run = machine.docket run :=
  (docket_queue _ rfl).trans (machine.docket_modifyStrand strand fun _ _ => rfl)

/-- Where a strand waits, and for what, is not seen. -/
theorem docket_park (strand : Nat) (wait : Wait) (change : Strand → Strand) :
    (machine.park strand wait change).docket run =
      (machine.modifyStrand strand change).docket run := by
  have parked : ∀ machine : Machine,
      (machine.park strand wait id).docket run = machine.docket run := by
    intro machine
    unfold park
    split
    · exact machine.docket_modifyStrand strand fun _ _ => rfl
    · split
      · rw [docket_queue _ rfl]
        exact machine.docket_modifyStrand strand fun _ _ => rfl
      · rw [docket_after _ _ rfl]
        exact machine.docket_modifyStrand strand fun _ _ => rfl
  exact (congrArg (docket · run) (machine.park_modifyStrand strand wait change id)).symm.trans
    (parked _)

/-- A strand that is cancelled still holds what it has held. -/
@[simp] theorem docket_cancelStrand (strand : Nat) :
    (machine.cancelStrand strand).docket run = machine.docket run := by
  let marked := machine.modifyStrand strand fun state => { state with cancelled := true }
  have same : marked.docket run = machine.docket run :=
    machine.docket_modifyStrand strand fun _ _ => rfl
  unfold cancelStrand
  split
  · split
    · have woken : ((marked.cancelTimer (.alarm strand)).unpark strand).docket run =
          (marked.cancelTimer (.alarm strand)).docket run := docket_unpark _ strand
      rw [docket_cancelTimer _ rfl, same] at woken
      exact woken
    · exact same
  · exact same

@[simp] theorem docket_cancelMain (state : Run) :
    (machine.cancelMain state).docket run = machine.docket run := by
  unfold cancelMain
  split
  · exact machine.docket_cancelStrand _
  · rfl

theorem docket_alarm (strand : Nat) : (machine.alarm strand).docket run = machine.docket run := by
  unfold alarm
  split
  · split
    · exact machine.docket_unpark strand
    · rfl
  · rfl

theorem docket_reap (other : Nat) : (machine.reap other).docket run = machine.docket run := by
  unfold reap
  split
  · rfl
  · split
    · exact machine.docket_withShell rfl
    · rfl

/-! ### Operations that work for another run -/

theorem docket_releaseCompletion_of_ne (differs : other ≠ run) :
    (machine.releaseCompletion other).docket run = machine.docket run := by
  unfold releaseCompletion
  split
  · split
    · exact (docket_notify_of_ne _ differs).trans (machine.docket_modifyRun_of_ne differs _)
    · rfl
  · rfl

theorem docket_takeStage_of_ne (differs : other ≠ run) (stage : Stage) :
    (machine.takeStage other stage).docket run = machine.docket run := by
  have stirred : ∀ (stirs : List Stir) (machine : Machine),
      (machine.stirAll other stirs).docket run = machine.docket run := by
    intro stirs
    induction stirs with
    | nil => exact fun _ => rfl
    | cons stir stirs ih =>
        intro machine
        refine (ih (machine.stir other stir)).trans ?_
        cases stir with
        | decided => exact machine.docket_notify_of_ne differs
        | spawned holds body => exact machine.docket_addStrand_of_ne differs
  refine (stirred stage.stirs _).trans ?_
  rw [docket_modifyRun_of_ne _ differs]
  exact machine.docket_withShell rfl

theorem docket_closeRun_of_ne (differs : other ≠ run) (status : Option Int) :
    (machine.closeRun other status).docket run = machine.docket run := by
  have closed := machine.docket_modifyRun_of_ne differs fun state =>
    { state with phase := .closed status, completion := state.completion.revoke }
  unfold closeRun
  split
  · split
    · exact (docket_queue _ rfl).trans closed
    · exact closed
  · exact closed

/-- However a run ends, it is nothing to another one. -/
theorem docket_of_closes {after : Machine} (closes : Closes other machine after)
    (differs : other ≠ run) : after.docket run = machine.docket run := by
  obtain ⟨change, status, options, rfl⟩ := closes
  exact (docket_closeRun_of_ne _ differs status).trans (machine.docket_withShell options)

/-- The end of a strand of another run. -/
theorem docket_endStrand_of_ne {strand : Nat} {state : Strand}
    (found : machine.strands[strand]? = some state) (differs : state.run ≠ run) (holds : Bool)
    (ending : Ending) : (machine.endStrand strand state holds ending).docket run =
      machine.docket run := by
  have released : (machine.ended strand state.run holds).docket run = machine.docket run := by
    have marked : (machine.modifyStrand strand fun state =>
        { state with ended := true }).docket run = machine.docket run :=
      machine.docket_modifyStrand_of_ne found differs rfl
    unfold Machine.ended
    dsimp only
    split
    · exact (docket_releaseCompletion_of_ne _ differs).trans marked
    · exact marked
  rw [endStrand_eq]
  dsimp only
  split
  · have told := (docket_notify_of_ne _ differs).trans
      ((docket_modifyRun_of_ne _ differs fun run =>
        { run with ending := some ending }).trans released)
    split
    · exact (docket_queue _ rfl).trans told
    · exact told
  · exact (docket_of_closes _ (closes_endExternal _ _ _ _) differs).trans released
  · exact released

/-- A strand of another run goes on. -/
theorem docket_resume_of_ne {strand : Nat} {state : Strand}
    (found : machine.strands[strand]? = some state) (differs : state.run ≠ run) :
    (machine.resume strand).docket run = machine.docket run := by
  by_cases live : state.ended = false
  · cases owned : machine.runs[state.run]? with
    | none =>
        rw [machine.resume_of_idle fun going here => .inr ?_]
        rwa [← Option.some.inj (found.symm.trans here)]
    | some owner =>
        rw [machine.resume_eq found live owned]
        obtain ⟨pause, stage⟩ :=
          state.ahead.play machine.isOpen (machine.strandStage strand state owner)
        have taken := machine.docket_takeStage_of_ne differs stage
        have here := getElem?_strands_takeStage state.run stage found
        cases pause with
        | ended ending => exact (docket_endStrand_of_ne _ here differs _ ending).trans taken
        | waiting wait rest interrupted =>
            refine (docket_park _ strand wait _).trans ?_
            exact (docket_modifyStrand_of_ne _ here differs rfl).trans taken
  · rw [machine.resume_of_idle fun going here => .inl ?_]
    rw [← Option.some.inj (found.symm.trans here)]
    simpa using live

theorem docket_timed_of_ne (differs : other ≠ run) :
    (machine.timed other).docket run = machine.docket run := by
  unfold timed
  dsimp only
  split
  · rw [docket_after _ _ (by simpa [Job.wakes] using differs)]
    exact machine.docket_modifyRun_of_ne differs _
  · exact machine.docket_modifyRun_of_ne differs _

theorem docket_listen_of_ne (differs : other ≠ run) :
    (machine.listen other).docket run = machine.docket run := by
  have timed := machine.docket_timed_of_ne differs
  cases found : machine.runs[other]? with
  | none =>
      unfold listen
      rw [found]
      exact timed
  | some state =>
      rw [listen_eq found]
      split
      · exact (docket_notify_of_ne _ differs).trans timed
      · exact timed

theorem docket_startMain_of_ne (differs : other ≠ run) (script : Script) (holds : Bool) :
    (machine.startMain other script holds).docket run = machine.docket run :=
  (docket_addStrand_of_ne _ differs).trans (machine.docket_modifyRun_of_ne differs _)

theorem docket_startInline_of_ne (differs : other ≠ run) (script : Script) :
    (machine.startInline other script).docket run = machine.docket run := by
  let strand : Strand := { run := other, role := .inline, rest := script }
  let inside : Machine := machine.modifyRun other fun state => { state with phase := .inside }
  let started : Machine := { inside with strands := machine.strands ++ [strand] }
  have entered : started.docket run = machine.docket run := by
    rw [← machine.docket_modifyRun_of_ne differs fun state => { state with phase := .inside }]
    have aside : strand.holdsFor run = false := by simp [Strand.holdsFor, strand]
    refine inside.docket_append.trans ?_
    rw [aside, Bool.or_false]
    rfl
  have found : started.strands[machine.strands.length]? = some strand := by
    simp [started]
  exact (started.docket_resume_of_ne found differs).trans entered

/-- The call of another program. -/
theorem docket_begin_of_ne (differs : other ≠ run) :
    (machine.begin other).docket run = machine.docket run := by
  cases found : machine.runs[other]? with
  | none =>
      unfold begin
      rw [found]
  | some state =>
      have taken := machine.docket_takeStage_of_ne differs
        ((machine.callStage state).carryOutAll state.launch.start.deeds)
      cases kind : state.launch.kind with
      | internal =>
          rw [machine.begin_of_internal found kind]
          refine Eq.trans ?_ taken
          cases state.launch.start.called with
          | deferred shares body =>
              exact (docket_listen_of_ne _ differs).trans
                ((docket_releaseCompletion_of_ne _ differs).trans
                  (docket_startMain_of_ne _ differs _ _))
          | ended ending =>
              cases ending with
              | returned result =>
                  exact (docket_listen_of_ne _ differs).trans
                    (docket_releaseCompletion_of_ne _ differs)
              | failed fault => exact docket_of_closes _ (closes_failInternal _ _ _ _) differs
              | cancelled => exact docket_closeRun_of_ne _ differs none
      | external =>
          rw [machine.begin_of_external found kind]
          refine Eq.trans ?_ taken
          cases state.launch.start.called with
          | ended ending => exact docket_of_closes _ (closes_endExternal _ _ _ _) differs
          | deferred shares body =>
              unfold beginExternal
              dsimp only
              split
              · exact docket_startInline_of_ne _ differs _
              · exact (docket_listen_of_ne _ differs).trans (docket_startMain_of_ne _ differs _ _)

/-- Another supervisor is told something. -/
theorem docket_woken_of_ne (differs : other ≠ run)
    (woken : job = .signalled other ∨ job = .expire other) :
    (machine.perform job).docket run = machine.docket run := by
  rcases machine.woken_cases woken with
    ⟨same, -⟩ | ⟨state, timers, -, -, fewer, left, performed⟩
  · rw [same]
  · rw [performed, Machine.woken, docket_queue _ rfl, docket_modifyRun_of_ne _ differs]
    refine machine.docket_withTimers fun timer wakes => ⟨(fewer ·), fun set => left timer set ?_⟩
    intro expires
    simp [expires, Job.wakes, differs] at wakes

theorem docket_concludeInternal_of_ne (differs : other ≠ run) (state : Run) :
    (machine.concludeInternal other state).docket run = machine.docket run := by
  unfold concludeInternal
  split
  · next status _ =>
      have reaping := machine.docket_modifyRun_of_ne differs fun state =>
        { state with reaped := state.main.isSome }
      refine (docket_closeRun_of_ne _ differs (some status)).trans ?_
      split
      · exact (docket_queue _ rfl).trans reaping
      · exact reaping
  · split
    · refine (docket_of_closes _ (closes_failRun _ other _ _) differs).trans ?_
      exact (docket_cancelMain _ state).trans (machine.docket_withShell rfl)
    · split <;> exact docket_of_closes _ ((closes_failRun _ other _ _).withShell rfl) differs

theorem docket_conclude_of_ne (differs : other ≠ run) :
    (machine.conclude other).docket run = machine.docket run := by
  unfold conclude
  split
  · rfl
  · next state _ =>
      split
      · split
        · exact machine.docket_concludeInternal_of_ne differs state
        · unfold concludeExternal
          split
          · exact docket_of_closes _ (closes_endExternal _ other _ _) differs
          · refine (docket_of_closes _ (closes_endExternal _ other _ _) differs).trans ?_
            exact (docket_cancelMain _ state).trans (machine.docket_withShell rfl)
      · rfl

theorem docket_handBack (status : Option Int) :
    (machine.handBack status).docket run = machine.docket run := by
  let idle := machine.withShell fun shell =>
    (({ shell with activity := .idle }.setStatus (status.getD statusFailure)).withConsole
      Console.complete).repaint
  have freed : ∀ job ∈ machine.waiting.map Job.freed, job.wakes run = false := by
    intro job member
    obtain ⟨caller, -, rfl⟩ := List.mem_map.mp member
    rfl
  exact (idle.docket_queueAll freed).trans (machine.docket_withShell rfl)

/-- An attendant changes nothing of a run, or it begins to wait. -/
theorem docket_attend (other : Nat) :
    (machine.attend other).docket run = machine.docket run ∨
      (machine.attend other).docket run =
        (machine.docket run).revise fun state => { state with attended := true } := by
  unfold attend
  split
  · exact .inl rfl
  · split
    · exact .inl (machine.docket_handBack _)
    · by_cases same : other = run
      · exact .inr (same ▸ machine.docket_modifyRun other _)
      · exact .inl (machine.docket_modifyRun_of_ne same _)

theorem docket_finish (other : Nat) : (machine.finish other).docket run = machine.docket run := by
  unfold finish
  split
  · rfl
  · split
    · exact machine.docket_handBack _
    · rfl

/-- A callback that works for another run leaves the docket of a run alone. -/
theorem docket_perform (aside : machine.ward job ≠ some run)
    (attendant : ∀ run, job ≠ .attend run) (caller : ∀ caller, job ≠ .call caller) :
    (machine.perform job).docket run = machine.docket run := by
  cases job with
  | begin other => exact machine.docket_begin_of_ne fun same => aside (congrArg some same)
  | signalled other =>
      exact machine.docket_woken_of_ne (fun same => aside (congrArg some same)) (.inl rfl)
  | expire other =>
      exact machine.docket_woken_of_ne (fun same => aside (congrArg some same)) (.inr rfl)
  | conclude other => exact machine.docket_conclude_of_ne fun same => aside (congrArg some same)
  | reap other => exact machine.docket_reap other
  | alarm strand => exact machine.docket_alarm strand
  | finish other => exact machine.docket_finish other
  | freed other => exact machine.docket_queue rfl
  | attend other => exact absurd rfl (attendant other)
  | call other => exact absurd rfl (caller other)
  | resume strand =>
      cases found : machine.strands[strand]? with
      | none =>
          change (machine.resume strand).docket run = _
          rw [resume, found]
      | some state =>
          refine machine.docket_resume_of_ne found fun same => aside ?_
          rw [ward, found, Option.map_some, same]

/-! ### What the host does -/

/-- One run more is launched, and all others are left alone. -/
theorem docket_launch (program : Launch) :
    (machine.docket run).Admits ((machine.launch program).docket run) := by
  have queued : ∀ job ∈ [Job.begin machine.runs.length, .attend machine.runs.length],
      job.wakes run = false := by
    intro job member
    rcases List.mem_pair.mp member with rfl | rfl <;> rfl
  have same := machine.docket_queueAll queued
  have state : ((machine.launch program).docket run) =
      { (machine.queueAll [.begin machine.runs.length, .attend machine.runs.length]).docket run with
        state := (machine.runs ++ [{ launch := program }])[run]? } := rfl
  rw [same] at state
  rcases Nat.lt_trichotomy run machine.runs.length with before | rfl | behind
  · rw [List.getElem?_append_left before] at state
    exact .inl state
  · rw [List.getElem?_concat_length] at state
    exact .inr ⟨List.getElem?_eq_none_iff.mpr le_rfl, program, state⟩
  · have absent : machine.runs[run]? = none := List.getElem?_eq_none_iff.mpr behind.le
    have still : (machine.runs ++ [{ launch := program }])[run]? = machine.runs[run]? := by
      rw [absent]
      exact List.getElem?_eq_none_iff.mpr (by simpa [Nat.succ_le_iff] using behind)
    rw [still] at state
    exact .inl state

theorem docket_input (event : Text) :
    (machine.docket run).Admits ((machine.input event).docket run) := by
  have options := machine.shell.options_input true event
  unfold input
  rcases result : machine.shell.input true event with ⟨reaction, shell⟩
  rw [result] at options
  have typed : (machine.withShell fun _ => shell).docket run = machine.docket run :=
    machine.docket_withShell options
  cases reaction with
  | done | raised fault => exact .inl typed
  | launched program => exact typed ▸ (machine.withShell fun _ => shell).docket_launch program

theorem docket_call (caller : Nat) :
    (machine.docket run).Admits ((machine.call caller).docket run) := by
  obtain ⟨waiting, finished, same⟩ := machine.call_eq caller
  rw [same]
  cases machine.submittedBy caller with
  | none => exact .inl rfl
  | some line =>
      have typed : (machine.withLine line).docket run = machine.docket run :=
        machine.docket_withShell rfl
      exact typed ▸ docket_input (machine.withLine line) ['\r']

/-- A callback that works for another run, or for the shell, may launch a run, or it may be the
attendant that begins to wait. -/
theorem docket_aside (aside : machine.ward job ≠ some run) :
    (machine.docket run).Admits ((machine.perform job).docket run) ∨
      (machine.perform job).docket run =
        (machine.docket run).revise fun state => { state with attended := true } := by
  by_cases attendant : ∃ other, job = .attend other
  · obtain ⟨other, rfl⟩ := attendant
    exact (machine.docket_attend other).imp_left .inl
  · left
    by_cases caller : ∃ caller, job = .call caller
    · obtain ⟨caller, rfl⟩ := caller
      exact machine.docket_call caller
    · exact .inl (machine.docket_perform aside (fun other same => attendant ⟨other, same⟩)
        fun other same => caller ⟨other, same⟩)

theorem docket_release (gate : Text) :
    (machine.release gate).docket run = machine.docket run := by
  have woken : ∀ (strands : List Nat) (machine : Machine),
      (strands.foldl unpark machine).docket run = machine.docket run := by
    intro strands
    induction strands with
    | nil => exact fun _ => rfl
    | cons strand others ih => exact fun machine => (ih _).trans (machine.docket_unpark strand)
  exact woken _ _

end Aside

/-! ### What a run is afterwards -/

section Afterwards

variable {machine : Machine} {state : Run}

/-- Of a run the stage changes the signal. -/
theorem runs_takeStage (found : machine.runs[run]? = some state) (stage : Stage) :
    (machine.takeStage run stage).runs[run]? =
      some { state with completion := stage.completion } := by
  have runs : (machine.takeStage run stage).runs = machine.runs.modify run fun state =>
      { state with completion := stage.completion } := runs_stirAll _ run stage.stirs
  simp [runs, found]

theorem runs_startMain (found : machine.runs[run]? = some state) (script : Script)
    (holds : Bool) : (machine.startMain run script holds).runs[run]? =
      some { state with main := some machine.strands.length } := by
  simp [startMain, addStrand, queue, modifyRun, found]

/-- What the signal of a run is when it has been given up, if it has. -/
theorem exists_releaseCompletion (found : machine.runs[run]? = some state) : ∃ completion,
    (machine.releaseCompletion run).runs[run]? = some { state with completion := completion } ∧
      (machine.releaseCompletion run).now = machine.now := by
  unfold releaseCompletion
  rw [found]
  dsimp only
  split
  · refine ⟨state.completion.abandon, ?_, (extends_notify _ run).now⟩
    rw [(runs_notify _ run).1]
    simp [modifyRun, found]
  · exact ⟨state.completion, found, rfl⟩

/-- A strand that ends leaves its run, and the supervisor that it has played for. -/
theorem exists_ended (strand : Nat) (found : machine.runs[run]? = some state) (holds : Bool) :
    ∃ completion, (machine.ended strand run holds).runs[run]? =
      some { state with completion := completion } := by
  unfold Machine.ended
  dsimp only
  split
  · have there : (machine.modifyStrand strand fun state =>
        { state with ended := true }).runs[run]? = some state := found
    obtain ⟨completion, here, -⟩ := exists_releaseCompletion there
    exact ⟨completion, here⟩
  · exact ⟨state.completion, found⟩

end Afterwards

/-! ### Operations that work for the run itself -/

section Own

variable (machine : Machine) (run : Nat)

/-- A supervisor that waits is told that something has happened. -/
theorem docket_notify : (machine.notify run).docket run = (machine.docket run).tell := by
  unfold notify Docket.tell
  cases found : machine.runs[run]? with
  | none => simp [docket, found]
  | some state =>
      by_cases listening : state.phase = .listening false
      · simp [docket, found, listening, queue, isHeld]
      · simp [docket, found, listening]

/-- A signal that nobody holds any more is given up. -/
theorem docket_releaseCompletion :
    (machine.releaseCompletion run).docket run = (machine.docket run).release := by
  unfold releaseCompletion Docket.release
  have state : (machine.docket run).state = machine.runs[run]? := rfl
  have held : (machine.docket run).held = machine.isHeld run := rfl
  rw [state, held]
  cases machine.runs[run]? with
  | none => rfl
  | some state =>
      dsimp only [Option.any_some]
      split
      · rw [docket_notify, docket_modifyRun]
      · rfl

/-- What a program has left on its stage: its signal, and what it has stirred up. -/
theorem docket_takeStage (stage : Stage) :
    (machine.takeStage run stage).docket run = stage.stirs.foldl Docket.stir
      ((machine.docket run).revise fun state => { state with completion := stage.completion }) := by
  have stirred : ∀ (stirs : List Stir) (machine : Machine),
      (machine.stirAll run stirs).docket run = stirs.foldl Docket.stir (machine.docket run) := by
    intro stirs
    induction stirs with
    | nil => exact fun _ => rfl
    | cons stir stirs ih =>
        intro machine
        refine (ih (machine.stir run stir)).trans ?_
        rw [List.foldl_cons]
        congr 1
        cases stir with
        | decided => exact machine.docket_notify run
        | spawned holds body =>
            have own : Strand.holdsFor run
                { run := run, role := .spawned, rest := body, holds := holds } = holds := by
              simp [Strand.holdsFor]
            refine (machine.docket_addStrand run).trans ?_
            rw [own]
            rfl
  refine (stirred stage.stirs _).trans ?_
  rw [docket_modifyRun]
  rfl

theorem docket_closeRun (status : Option Int) :
    (machine.closeRun run status).docket run = (machine.docket run).revise (·.close status) := by
  have closed := machine.docket_modifyRun run (·.close status)
  unfold closeRun
  split
  · split
    · exact (docket_queue _ rfl).trans closed
    · exact closed
  · exact closed

/-- Who holds the signal when one strand has changed: another, or this one. -/
theorem isHeld_modifyStrand (strand : Nat) (change : Strand → Strand) :
    (machine.modifyStrand strand change).isHeld run = (machine.isShared run strand ||
      machine.strands[strand]?.any fun state => (change state).holdsFor run) := by
  rw [Bool.eq_iff_iff, isHeld_iff, Bool.or_eq_true, isShared_iff]
  constructor
  · rintro ⟨place, after, found, owner, live, holds⟩
    rcases getElem?_modify_cases found with ⟨differs, old⟩ | ⟨rfl, before, old, rfl⟩
    · exact .inl ⟨place, after, Ne.symm differs, old, owner, live, holds⟩
    · right
      rw [old]
      simp [Strand.holdsFor, owner, live, holds]
  · rintro (beside | own)
    · exact beside.lives change
    · cases old : machine.strands[strand]? with
      | none => simp [old] at own
      | some before =>
          simp only [old, Option.any_some, Strand.holdsFor, Bool.and_eq_true, decide_eq_true_eq,
            Bool.not_eq_true'] at own
          exact ⟨strand, change before, by simp [modifyStrand, old], own.1.1, own.2, own.1.2⟩

/-- A strand of the run has ended. -/
theorem docket_ended (strand : Nat) (holds : Bool) :
    (machine.ended strand run holds).docket run =
      (machine.docket run).lose (machine.isShared run strand) holds := by
  have marked : (machine.modifyStrand strand fun state => { state with ended := true }).docket run =
      { machine.docket run with held := machine.isShared run strand } := by
    have held := machine.isHeld_modifyStrand run strand fun state => { state with ended := true }
    have gone : (machine.strands[strand]?.any fun state =>
        Strand.holdsFor run { state with ended := true }) = false := by
      cases machine.strands[strand]? <;> simp [Strand.holdsFor]
    rw [gone, Bool.or_false] at held
    simp only [docket, held]
    rfl
  unfold Machine.ended Docket.lose
  dsimp only
  split
  · rw [docket_releaseCompletion, marked]
  · exact marked

/-- What the end of a strand means to its run, unless it was played in the supervisor's place. -/
theorem docket_endStrand (strand : Nat) {state : Strand} {owner : Run} (own : state.run = run)
    (found : machine.runs[run]? = some owner) (outside : state.role ≠ .inline) (holds : Bool)
    (ending : Ending) :
    (machine.endStrand strand state holds ending).docket run =
      let released := (machine.docket run).lose (machine.isShared run strand) holds
      if state.role = .main then
        (released.revise fun state => { state with ending := some ending }).tell
      else released := by
  subst own
  have released := machine.docket_ended state.run strand holds
  obtain ⟨completion, known⟩ := exists_ended strand found holds
  rw [endStrand_eq]
  dsimp only
  rw [known]
  cases role : state.role with
  | inline => exact absurd role outside
  | spawned => exact released
  | main =>
      rw [if_pos rfl]
      have told := docket_notify ((machine.ended strand state.run holds).modifyRun state.run
        fun run => { run with ending := some ending }) state.run
      rw [docket_modifyRun, released] at told
      dsimp only
      split
      · exact (docket_queue _ rfl).trans told
      · exact told

/-- A strand of the run waits, and may have let go of the signal. -/
theorem docket_leave_waiting {strand : Nat} {state : Strand} (own : state.run = run)
    (here : machine.strands[strand]? = some state) (live : state.ended = false) (holds : Bool)
    (wait : Wait) (rest interrupted : Script) :
    (machine.leave strand state holds (.waiting wait rest interrupted)).docket run =
      { machine.docket run with held := machine.isShared run strand || holds } := by
  let change (state : Strand) : Strand :=
    { state with rest := rest, interrupted := interrupted, holds := holds, cancelled := false }
  have held := machine.isHeld_modifyStrand run strand change
  have noted : (machine.strands[strand]?.any fun state => (change state).holdsFor run) = holds := by
    simp [here, change, Strand.holdsFor, own, live]
  rw [noted] at held
  refine (docket_park _ strand wait change).trans ?_
  simp only [docket, held]
  rfl

/-- A supervisor begins to wait, and is told at once if the signal is decided. -/
theorem docket_listen {state : Run} (found : machine.runs[run]? = some state) :
    (machine.listen run).docket run =
      if state.completion.isDecided then (machine.docket run).listen.tell
      else (machine.docket run).listen := by
  have timed : (machine.timed run).docket run = (machine.docket run).listen := by
    have listening := machine.docket_modifyRun run fun state =>
      { state with phase := .listening false }
    unfold Machine.timed Docket.listen
    rw [← listening]
    dsimp only
    cases timeout : machine.shell.options.timeout.bind Numeral.value? with
    | none =>
        ext timer
        case alarms => simp [docket, modifyRun, timeout]
        all_goals rfl
    | some seconds =>
        ext timer
        case alarms =>
          simp only [docket, after, modifyRun, mem_insertTimer, timeout, Option.some.injEq]
          constructor
          · rintro ⟨rfl | old, wakes⟩
            · exact .inr ⟨seconds, rfl, rfl⟩
            · exact .inl ⟨old, wakes⟩
          · rintro (⟨old, wakes⟩ | ⟨_, rfl, rfl⟩)
            · exact ⟨.inr old, wakes⟩
            · exact ⟨.inl rfl, by simp [Job.wakes]⟩
        all_goals rfl
  rw [listen_eq found]
  split
  · rw [docket_notify, timed]
  · exact timed

theorem docket_startMain (script : Script) (holds : Bool) :
    (machine.startMain run script holds).docket run =
      { (machine.docket run).revise fun state =>
          { state with main := some machine.strands.length } with
        held := machine.isHeld run || holds } := by
  have own : Strand.holdsFor run { run := run, role := .main, rest := script, holds := holds } =
      holds := by simp [Strand.holdsFor]
  rw [startMain, docket_addStrand, docket_modifyRun, own]
  rfl

/-- A supervisor that waits is woken, and its timeout may be forgotten. -/
theorem docket_woken {job : Job} (woken : job = .signalled run ∨ job = .expire run) :
    (machine.perform job).docket run = machine.docket run ∨
      ∃ state alarms, machine.runs[run]? = some state ∧ state.phase = .listening false ∧
        (∀ timer, alarms timer → (machine.docket run).alarms timer) ∧
          (machine.perform job).docket run =
            { (machine.docket run).revise fun state => { state with phase := .listening true } with
              alarms := alarms } := by
  rcases machine.woken_cases woken with
    ⟨same, -⟩ | ⟨state, timers, found, listening, fewer, -, performed⟩
  · exact .inl (congrArg (docket · run) same)
  · rw [performed]
    refine .inr ⟨state, _, found, listening, fun timer set => ?_,
      (docket_queue _ rfl).trans (docket_modifyRun _ _ _)⟩
    exact ⟨fewer set.1, set.2⟩

/-- A callback is taken from the queue. -/
theorem docket_pop {ready : List Job} {job : Job} (next : machine.ready = job :: ready)
    (turn : Nat) :
    ∃ told due, (told = true → (machine.docket run).told = true) ∧
      (due = true → (machine.docket run).due = true) ∧
        (machine.pop ready turn).docket run =
          { machine.docket run with told := told, due := due } := by
  refine ⟨_, _, fun told => ?_, fun due => ?_, rfl⟩
  · exact decide_eq_true (next ▸ List.mem_cons_of_mem _ (of_decide_eq_true told))
  · exact decide_eq_true (next ▸ List.mem_cons_of_mem _ (of_decide_eq_true due))

end Own

/-! ### What was launched -/

section Launches

variable (machine : Machine)

/-- The programs that were launched, in their order. -/
def launches (machine : Machine) : List Launch :=
  machine.runs.map Run.launch

theorem launches_modifyRun (run : Nat) {change : Run → Run}
    (same : ∀ state, (change state).launch = state.launch) :
    (machine.modifyRun run change).launches = machine.launches :=
  map_modify_eq machine.runs run fun state _ => same state

theorem launches_notify (run : Nat) : (machine.notify run).launches = machine.launches :=
  congrArg (List.map Run.launch) (machine.runs_notify run).1

theorem launches_releaseCompletion (run : Nat) :
    (machine.releaseCompletion run).launches = machine.launches := by
  unfold releaseCompletion
  split
  · split
    · exact (launches_notify _ run).trans (machine.launches_modifyRun run fun _ => rfl)
    · rfl
  · rfl

theorem launches_takeStage (run : Nat) (stage : Stage) :
    (machine.takeStage run stage).launches = machine.launches :=
  (congrArg (List.map Run.launch) (runs_stirAll _ run stage.stirs)).trans
    (map_modify_eq machine.runs run fun _ _ => rfl)

theorem launches_closeRun (run : Nat) (status : Option Int) :
    (machine.closeRun run status).launches = machine.launches :=
  (congrArg (List.map Run.launch) (machine.runs_closeRun run status)).trans
    (map_modify_eq machine.runs run fun _ _ => rfl)

theorem launches_of_closes {run : Nat} {after : Machine} (closes : Closes run machine after) :
    after.launches = machine.launches := by
  obtain ⟨change, status, -, rfl⟩ := closes
  exact launches_closeRun _ run status

theorem launches_ended (strand run : Nat) (holds : Bool) :
    (machine.ended strand run holds).launches = machine.launches := by
  unfold Machine.ended
  dsimp only
  split
  · exact launches_releaseCompletion _ run
  · rfl

theorem launches_endStrand (strand : Nat) (state : Strand) (holds : Bool) (ending : Ending) :
    (machine.endStrand strand state holds ending).launches = machine.launches := by
  have released := machine.launches_ended strand state.run holds
  have told : (((machine.ended strand state.run holds).modifyRun state.run fun run =>
      { run with ending := some ending }).notify state.run).launches = machine.launches := by
    rw [launches_notify, launches_modifyRun, released]
    exact fun _ => rfl
  rw [endStrand_eq]
  dsimp only
  split
  · split
    · exact told
    · exact told
  · exact (launches_of_closes _ (closes_endExternal _ _ _ ending)).trans released
  · exact released

theorem launches_park (strand : Nat) (wait : Wait) (change : Strand → Strand) :
    (machine.park strand wait change).launches = machine.launches := by
  unfold park
  split
  · rfl
  · split <;> rfl

/-- Whatever a strand does, it takes no run away. -/
theorem launches_resume (strand : Nat) : (machine.resume strand).launches = machine.launches := by
  unfold resume
  split
  · rfl
  · next state _ =>
      split
      · rfl
      · split
        · rfl
        · next run _ =>
            rcases state.ahead.play machine.isOpen (machine.strandStage strand state run) with
              ⟨pause, stage⟩
            have taken := machine.launches_takeStage state.run stage
            cases pause with
            | ended ending => exact (launches_endStrand _ strand state _ ending).trans taken
            | waiting wait rest interrupted => exact (launches_park _ strand wait _).trans taken

theorem launches_listen (run : Nat) : (machine.listen run).launches = machine.launches := by
  have timed : (machine.timed run).launches = machine.launches :=
    (congrArg (List.map Run.launch) (machine.runs_timed run).1).trans
      (map_modify_eq machine.runs run fun _ _ => rfl)
  cases found : machine.runs[run]? with
  | none =>
      unfold listen
      rw [found]
      exact timed
  | some state =>
      rw [listen_eq found]
      split
      · exact (launches_notify _ run).trans timed
      · exact timed

theorem launches_startMain (run : Nat) (script : Script) (holds : Bool) :
    (machine.startMain run script holds).launches = machine.launches :=
  machine.launches_modifyRun run fun _ => rfl

theorem launches_begin (run : Nat) : (machine.begin run).launches = machine.launches := by
  unfold begin
  split
  · rfl
  · next state _ =>
      rcases state.launch.start.play (machine.callStage state) with ⟨called, stage⟩
      have taken := machine.launches_takeStage run stage
      refine Eq.trans ?_ taken
      dsimp only
      split
      · cases called with
        | deferred shares body =>
            exact (launches_listen _ run).trans ((launches_releaseCompletion _ run).trans
              (launches_startMain _ run _ _))
        | ended ending =>
            cases ending with
            | returned result =>
                exact (launches_listen _ run).trans (launches_releaseCompletion _ run)
            | failed fault => exact launches_of_closes _ (closes_failInternal _ run _ _)
            | cancelled => exact launches_closeRun _ run none
      · cases called with
        | ended ending => exact launches_of_closes _ (closes_endExternal _ run _ _)
        | deferred shares body =>
            unfold beginExternal
            dsimp only
            split
            · exact (launches_resume _ _).trans (launches_modifyRun _ run fun _ => rfl)
            · exact (launches_listen _ run).trans (launches_startMain _ run _ _)

theorem launches_conclude (run : Nat) : (machine.conclude run).launches = machine.launches := by
  have cancelled : ∀ state, ((machine.warnTimeout state.name).cancelMain state).launches =
      machine.launches := by
    intro state
    unfold cancelMain
    split
    · unfold cancelStrand
      split
      · split <;> rfl
      · rfl
    · rfl
  unfold conclude
  split
  · rfl
  · next state _ =>
      split
      · split
        · unfold concludeInternal
          split
          · refine (launches_closeRun _ run _).trans ?_
            have reaping : (machine.modifyRun run fun state =>
                { state with reaped := state.main.isSome }).launches = machine.launches :=
              machine.launches_modifyRun run fun _ => rfl
            split <;> exact reaping
          · split
            · exact (launches_of_closes _ (closes_failRun _ run _ _)).trans (cancelled state)
            · split <;> exact launches_of_closes _ ((closes_failRun _ run _ _).withShell rfl)
        · unfold concludeExternal
          split
          · exact launches_of_closes _ (closes_endExternal _ run _ _)
          · exact (launches_of_closes _ (closes_endExternal _ run _ _)).trans (cancelled state)
      · rfl

theorem launches_woken {run : Nat} {job : Job}
    (woken : job = .signalled run ∨ job = .expire run) :
    (machine.perform job).launches = machine.launches := by
  rcases machine.woken_cases woken with ⟨same, -⟩ | ⟨state, timers, -, -, -, -, performed⟩
  · rw [same]
  · rw [performed]
    exact launches_modifyRun _ run fun _ => rfl

/-- A callback that works for a run launches nothing. -/
theorem launches_perform {run : Nat} {job : Job} (own : machine.ward job = some run) :
    (machine.perform job).launches = machine.launches := by
  cases job with
  | begin run => exact machine.launches_begin run
  | resume strand => exact machine.launches_resume strand
  | conclude run => exact machine.launches_conclude run
  | attend | finish | alarm | freed | call => cases own
  | reap run =>
      simp only [perform, reap]
      split
      · rfl
      · split <;> rfl
  | signalled run => exact machine.launches_woken (.inl rfl)
  | expire run => exact machine.launches_woken (.inr rfl)

/-- A run is one of the same program as long as nothing is launched. -/
theorem exists_launch {machine after : Machine} {run : Nat} {state : Run}
    (same : after.launches = machine.launches) (found : machine.runs[run]? = some state) :
    ∃ next, after.runs[run]? = some next ∧ next.launch = state.launch := by
  have there : after.launches[run]? = some state.launch := by
    rw [same, launches, List.getElem?_map, found]
    rfl
  rw [launches, List.getElem?_map] at there
  exact Option.map_eq_some_iff.mp there

end Launches

end Machine

end LineShell
