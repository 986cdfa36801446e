/-
Module: LineShell.Proofs.Scheduler.Front
Purpose: The part of a machine that decides when the shell is free and who may use
  it, and the proof that what programs do by themselves leaves that part alone.
Main exports: Front, Machine.front, Front.close, Machine.front_takeStage,
  Machine.front_closeRun
-/
import LineShell.Scheduler.Drive

namespace LineShell

/-!
Most callbacks work for one program: they play its strands, write to the terminal,
and set or cancel timers.  None of that matters to the question whether the shell
is free.  `Machine.front` keeps what does matter, and every operation of a strand
or a supervisor is described by one equation about it.
-/

/-! ### The front of a machine -/

/-- Whether a callback starts a program, belongs to its attendant, or belongs to a
caller. -/
def Job.isFront : Job → Bool
  | .begin _ | .attend _ | .finish _ | .freed _ | .call _ => true
  | _ => false

/-- How far a run has come, where it does not matter whether its supervisor has been
woken. -/
inductive Progress where
  | starting
  | inside
  | listening
  | closed (status : Option Int)
deriving DecidableEq, Repr, Inhabited

/-- The phase of a supervisor as seen from the front. -/
def Phase.progress : Phase → Progress
  | .starting => .starting
  | .inside => .inside
  | .listening _ => .listening
  | .closed status => .closed status

/-- A run as seen from the front. -/
structure Outline where
  progress : Progress
  attended : Bool
deriving DecidableEq, Repr, Inhabited

namespace Outline

/-- Whether the supervisor of the run is done. -/
def isOver (outline : Outline) : Bool :=
  match outline.progress with
  | .closed _ => true
  | _ => false

/-- Whether the attendant waits for a supervisor that is not done. -/
def isAwaited (outline : Outline) : Bool :=
  outline.attended && !outline.isOver

end Outline

/-- The outline of a run. -/
def Run.outline (run : Run) : Outline :=
  { progress := run.phase.progress, attended := run.attended }

/-- A shell without what any program may change at any time: its terminal and its
journal. -/
def Shell.bare (shell : Shell) : Shell :=
  { shell with console := default, journal := {} }

/-- The run that a strand plays in the supervisor's place, as long as it does. -/
def Strand.inlinedRun? (strand : Strand) : Option Nat :=
  if strand.role = .inline && !strand.ended then some strand.run else none

/-- What decides when the shell is free and who may use it. -/
structure Front where
  shell : Shell
  task : Option Nat
  waiting : List Nat
  callers : List Caller
  finished : List (Nat × Except Fault Int)
  /-- The callbacks that are ready and concern the front. -/
  jobs : List Job
  /-- The callbacks for later that concern the front. -/
  later : List Job
  runs : List Outline
  /-- The runs that are played in their supervisor's place. -/
  inlined : List Nat

/-- The front of a machine. -/
def Machine.front (machine : Machine) : Front :=
  { shell := machine.shell.bare
    task := machine.task
    waiting := machine.waiting
    callers := machine.callers
    finished := machine.finished
    jobs := machine.ready.filter Job.isFront
    later := (machine.timers.map Timer.job).filter Job.isFront
    runs := machine.runs.map Run.outline
    inlined := machine.strands.filterMap Strand.inlinedRun? }

namespace Front

/-- Notes how far a run has come. -/
def progress (front : Front) (run : Nat) (progress : Progress) : Front :=
  { front with
    runs := front.runs.modify run fun outline => { outline with progress := progress } }

/-- Whether the attendant of a run waits. -/
def isAttended (front : Front) (run : Nat) : Bool :=
  front.runs[run]?.any (·.attended)

/-- Ends a run; an attendant that waits is told. -/
def close (front : Front) (run : Nat) (status : Option Int) : Front :=
  { front.progress run (.closed status) with
    jobs := if front.isAttended run then front.jobs ++ [.finish run] else front.jobs }

end Front

/-! ### Lists of runs and strands -/

/-- Changing one element of a list, with the elements around it in view. -/
theorem modify_split {α : Type} {list : List α} {index : Nat} {a : α}
    (found : list[index]? = some a) :
    ∃ before behind, list = before ++ a :: behind ∧
      ∀ change, list.modify index change = before ++ change a :: behind := by
  obtain ⟨bound, rfl⟩ := List.getElem?_eq_some_iff.mp found
  refine ⟨list.take index, list.drop (index + 1), ?_, fun change => ?_⟩
  · rw [List.getElem_cons_drop, List.take_append_drop]
  · rw [List.modify_eq_take_drop, List.drop_eq_getElem_cons bound]
    rfl

/-- A change that a view does not show. -/
theorem map_modify_eq {α β : Type} {view : α → β} {change : α → α} (list : List α)
    (index : Nat) (same : ∀ a, list[index]? = some a → view (change a) = view a) :
    (list.modify index change).map view = list.map view := by
  cases found : list[index]? with
  | none => rw [List.modify_eq_self (List.getElem?_eq_none_iff.mp found)]
  | some a =>
      obtain ⟨before, behind, split, modified⟩ := modify_split found
      rw [modified, split]
      simp only [List.map_append, List.map_cons, same a found]

/-- A change that does not show leaves the view of a list as it was. -/
theorem filterMap_modify_eq {α β : Type} {view : α → Option β} {change : α → α}
    (list : List α) (index : Nat)
    (same : ∀ a, list[index]? = some a → view (change a) = view a) :
    (list.modify index change).filterMap view = list.filterMap view := by
  cases found : list[index]? with
  | none => rw [List.modify_eq_self (List.getElem?_eq_none_iff.mp found)]
  | some a =>
      obtain ⟨before, behind, split, modified⟩ := modify_split found
      rw [modified, split]
      simp only [List.filterMap_append, List.filterMap_cons, same a found]

/-- A change that a view shows as a change of its own. -/
theorem map_modify_comm {α β : Type} {view : α → β} {change : α → α} {shown : β → β}
    (list : List α) (index : Nat) (same : ∀ a, view (change a) = shown (view a)) :
    (list.modify index change).map view = (list.map view).modify index shown := by
  apply List.ext_getElem?
  intro place
  simp only [List.getElem?_map, List.getElem?_modify]
  cases list[place]? with
  | none => rfl
  | some a =>
      by_cases here : index = place
      · simp [here, same a]
      · simp [here]

namespace Machine

variable (machine : Machine)

/-! ### Callbacks and timers -/

/-- What a shell shows has no part in who works for whom. -/
theorem front_withShell {change : Shell → Shell}
    (bare : (change machine.shell).bare = machine.shell.bare) :
    (machine.withShell change).front = machine.front := by
  simp only [withShell, front, bare]

@[simp] theorem front_withShell_warn (warning : Text) :
    (machine.withShell (·.warn warning)).front = machine.front :=
  machine.front_withShell rfl

@[simp] theorem front_withShell_report (fault : Fault) :
    (machine.withShell (·.report fault)).front = machine.front :=
  machine.front_withShell rfl

/-- A callback that concerns neither supervisors nor attendants is not seen at the front. -/
theorem front_queue {job : Job} (aside : job.isFront = false) :
    (machine.queue job).front = machine.front := by
  simp [queue, front, aside]

theorem map_job_insertTimer (timer : Timer) (timers : List Timer)
    (aside : timer.job.isFront = false) :
    ((insertTimer timer timers).map Timer.job).filter Job.isFront =
      (timers.map Timer.job).filter Job.isFront := by
  induction timers with
  | nil => simp [insertTimer, aside]
  | cons first others ih =>
      rw [insertTimer]
      split
      · simp [aside]
      · simp only [List.map_cons, List.filter_cons, ih]

theorem front_after (seconds : Rat) {job : Job} (aside : job.isFront = false) :
    (machine.after seconds job).front = machine.front := by
  have same := map_job_insertTimer { due := machine.now + seconds, job := job }
    machine.timers aside
  simp only [after, front, same]

theorem front_cancelTimer {job : Job} (aside : job.isFront = false) :
    (machine.cancelTimer job).front = machine.front := by
  have same : ∀ timers : List Timer,
      ((timers.filter (·.job ≠ job)).map Timer.job).filter Job.isFront =
        (timers.map Timer.job).filter Job.isFront := by
    intro timers
    induction timers with
    | nil => rfl
    | cons timer others ih =>
        by_cases cancelled : timer.job = job
        · simpa [cancelled, aside] using ih
        · simp only [List.filter_cons, List.map_cons, cancelled, ne_eq, not_false_eq_true,
            decide_true, if_true, ih]
  simp only [cancelTimer, front, same]

/-! ### Runs and strands -/

/-- A run is seen by its outline only, -/
theorem front_modifyRun (run : Nat) {change : Run → Run}
    (same : ∀ state, machine.runs[run]? = some state →
      (change state).outline = state.outline) :
    (machine.modifyRun run change).front = machine.front := by
  simp only [modifyRun, front, map_modify_eq machine.runs run same]

/-- and a strand only while it is played in the place of its supervisor. -/
theorem front_modifyStrand (strand : Nat) {change : Strand → Strand}
    (same : ∀ state, machine.strands[strand]? = some state →
      (change state).inlinedRun? = state.inlinedRun?) :
    (machine.modifyStrand strand change).front = machine.front := by
  simp only [modifyStrand, front, filterMap_modify_eq machine.strands strand same]

@[simp] theorem front_notify (run : Nat) : (machine.notify run).front = machine.front := by
  unfold notify
  split
  · split
    · exact machine.front_queue rfl
    · rfl
  · rfl

/-- A strand that is played by itself is not seen. -/
theorem front_addStrand {strand : Strand} (outside : strand.role ≠ .inline) :
    (machine.addStrand strand).front = machine.front := by
  have aside : strand.inlinedRun? = none := by simp [Strand.inlinedRun?, outside]
  simp [addStrand, queue, front, aside, Job.isFront]

theorem front_park (strand : Nat) (wait : Wait) (change : Strand → Strand)
    (same : ∀ state, (change state).inlinedRun? = state.inlinedRun?) :
    (machine.park strand wait change).front = machine.front := by
  unfold park
  split
  · exact machine.front_modifyStrand strand fun state _ => same state
  · split
    · rw [front_queue _ rfl]
      exact machine.front_modifyStrand strand fun state _ => same state
    · rw [front_after _ _ rfl]
      exact machine.front_modifyStrand strand fun state _ => same state

@[simp] theorem front_unpark (strand : Nat) :
    (machine.unpark strand).front = machine.front := by
  rw [unpark, front_queue _ rfl]
  exact machine.front_modifyStrand strand fun _ _ => rfl

@[simp] theorem front_cancelStrand (strand : Nat) :
    (machine.cancelStrand strand).front = machine.front := by
  let marked := machine.modifyStrand strand fun state => { state with cancelled := true }
  have same : marked.front = machine.front :=
    machine.front_modifyStrand strand fun _ _ => rfl
  unfold cancelStrand
  split
  · split
    · have woken := front_unpark (marked.cancelTimer (.alarm strand)) strand
      rw [front_cancelTimer marked rfl, same] at woken
      exact woken
    · exact same
  · exact same

@[simp] theorem front_releaseCompletion (run : Nat) :
    (machine.releaseCompletion run).front = machine.front := by
  unfold releaseCompletion
  split
  · split
    · rw [front_notify]
      exact machine.front_modifyRun run fun _ _ => rfl
    · rfl
  · rfl

@[simp] theorem front_stir (run : Nat) (stir : Stir) :
    (machine.stir run stir).front = machine.front := by
  cases stir with
  | decided => exact machine.front_notify run
  | spawned holds body => exact machine.front_addStrand (by simp)

theorem front_foldl_stir (run : Nat) (stirs : List Stir) :
    (stirs.foldl (fun machine stir => machine.stir run stir) machine).front =
      machine.front := by
  induction stirs generalizing machine with
  | nil => rfl
  | cons first others ih => rw [List.foldl_cons, ih, front_stir]

/-- Playing a strand is not seen from the front. -/
@[simp] theorem front_takeStage (run : Nat) (stage : Stage) :
    (machine.takeStage run stage).front = machine.front := by
  rw [takeStage, front_foldl_stir, front_modifyRun]
  · exact machine.front_withShell rfl
  · intro state _
    rfl

/-! ### The end of a run -/

@[simp] theorem isAttended_front (run : Nat) :
    machine.front.isAttended run = machine.runs[run]?.any (·.attended) := by
  simp only [Front.isAttended, front, List.getElem?_map]
  cases machine.runs[run]? <;> rfl

theorem front_setPhase (run : Nat) {change : Run → Run} {progress : Progress}
    (changed : ∀ state, (change state).outline =
      { progress := progress, attended := state.attended }) :
    (machine.modifyRun run change).front = machine.front.progress run progress := by
  simp only [modifyRun, front, Front.progress]
  congr 1
  exact map_modify_comm machine.runs run fun state => changed state

/-- Ending a run, seen from the front. -/
@[simp] theorem front_closeRun (run : Nat) (status : Option Int) :
    (machine.closeRun run status).front = machine.front.close run status := by
  have closed : (machine.modifyRun run fun state =>
      { state with phase := .closed status, completion := state.completion.revoke }).front =
        machine.front.progress run (.closed status) :=
    machine.front_setPhase run fun _ => rfl
  rw [closeRun, Front.close, ← closed, isAttended_front]
  cases machine.runs[run]? with
  | none => rfl
  | some state =>
      by_cases attended : state.attended
      · simp [attended, queue, front, modifyRun, Job.isFront]
      · simp [attended, front, modifyRun]

end Machine

end LineShell
