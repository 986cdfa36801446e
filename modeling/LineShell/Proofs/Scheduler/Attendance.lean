/-
Module: LineShell.Proofs.Scheduler.Attendance
Purpose: The attendant of a run, counted: the shell waits for one run at most, and
  exactly that run has an attendant left.
Main exports: Front.Sound, Front.Sound.aside, Front.Sound.begun,
  Front.Sound.handBack, Front.Sound.attend
-/
import LineShell.Proofs.Scheduler.Backstage
import Mathlib.Tactic.ByContra

namespace LineShell

/-!
The attendant of a run is in one of three places: its first callback is queued, it
waits for a supervisor that is not done, or its last callback is queued.  It leaves
the last place only to put the shell back to work.  The invariant counts, for every
run, the places in which its attendant is, and says that the count is one for the
run that the shell waits for and zero for every other run.

To keep the count a run must not be ended twice, so the invariant also says who can
end a run: the callback that calls the program, a strand that plays it in the
supervisor's place, or a supervisor that was woken, each in a phase of its own.
-/

/-- Whether a callback calls a program or belongs to its attendant. -/
def Job.isAttendant : Job → Bool
  | .begin _ | .attend _ | .finish _ => true
  | _ => false

namespace Front

variable {front : Front}

/-- How far a run has come. -/
def progressOf (front : Front) (run : Nat) : Option Progress :=
  front.runs[run]?.map Outline.progress

theorem progressOf_congr {after : Front} (runs : after.runs = front.runs) (run : Nat) :
    after.progressOf run = front.progressOf run := by
  rw [progressOf, runs, progressOf]

/-- In how many places the attendant of a run is. -/
def attendants (front : Front) (run : Nat) : Nat :=
  front.jobs.count (.attend run) + front.jobs.count (.finish run) +
    if front.runs[run]?.any Outline.isAwaited then 1 else 0

/-- The invariant.  A run that is being worked on, `held`, has no callback and no
strand that accounts for its phase. -/
structure Sound (held : Option Nat) (front : Front) : Prop where
  /-- The shell runs exactly while it waits for a run. -/
  active : front.shell.activity = .running ↔ front.task.isSome
  /-- The buffer of a running shell is empty. -/
  hushed : front.shell.activity = .running → front.shell.buffer = Buffer.empty
  /-- The shell waits for a run that was launched. -/
  known : ∀ run, front.task = some run → run < front.runs.length
  /-- A run that is not over is the one that the shell waits for. -/
  unfinished : ∀ run outline, front.runs[run]? = some outline → outline.isOver = false →
    front.task = some run
  /-- The attendant of that run is in one place, and no other attendant is left. -/
  attended : ∀ run, front.attendants run = if front.task = some run then 1 else 0
  /-- An attendant has its last callback only when the supervisor is done. -/
  finishes : ∀ run, .finish run ∈ front.jobs → front.runs[run]?.any Outline.isOver
  /-- A program is called once. -/
  begins : ∀ run, front.jobs.count (.begin run) =
    if front.progressOf run = some .starting ∧ held ≠ some run then 1 else 0
  /-- One strand plays a run in its supervisor's place. -/
  inlined : ∀ run, front.inlined.count run =
    if front.progressOf run = some .inside ∧ held ≠ some run then 1 else 0
  /-- No timer concerns the front. -/
  later : front.later = []

/-! ### Setting the progress of a run -/

theorem runs_progress (run : Nat) (progress : Progress) (other : Nat) :
    (front.progress run progress).runs[other]? = front.runs[other]?.map fun outline =>
      if run = other then { outline with progress := progress } else outline := by
  rw [Front.progress, List.getElem?_modify]
  rfl

theorem runs_progress_of_ne {run other : Nat} (differ : run ≠ other) (progress : Progress) :
    (front.progress run progress).runs[other]? = front.runs[other]? := by
  simp [runs_progress, differ]

theorem progressOf_progress {run : Nat} {outline : Outline}
    (found : front.runs[run]? = some outline) (progress : Progress) (other : Nat) :
    (front.progress run progress).progressOf other =
      if run = other then some progress else front.progressOf other := by
  by_cases same : run = other
  · subst same
    simp [progressOf, runs_progress, found]
  · simp [progressOf, runs_progress, same]

/-- A supervisor that was not done and is not done: the attendant stays. -/
theorem attendants_progress {run : Nat} {outline : Outline}
    (found : front.runs[run]? = some outline) (unfinished : outline.isOver = false)
    {progress : Progress} (still : ∀ status, progress ≠ .closed status) (other : Nat) :
    (front.progress run progress).attendants other = front.attendants other := by
  by_cases same : run = other
  · subst same
    have awaited : Outline.isAwaited { outline with progress := progress } =
        outline.isAwaited := by
      cases progress with
      | closed status => exact absurd rfl (still status)
      | starting | inside | listening =>
          rw [Outline.isAwaited, Outline.isAwaited, unfinished]
          rfl
    simp only [attendants, runs_progress, found, Option.map_some, if_true, Option.any_some,
      awaited]
    rfl
  · simp only [attendants, runs_progress_of_ne same]
    rfl

/-- An attendant that waits for a run which ends is told, so the attendant stays. -/
theorem attendants_close {run : Nat} {outline : Outline}
    (found : front.runs[run]? = some outline) (unfinished : outline.isOver = false)
    (status : Option Int) (other : Nat) :
    (front.close run status).attendants other = front.attendants other := by
  have jobs : (front.close run status).jobs =
      if outline.attended then front.jobs ++ [.finish run] else front.jobs := by
    simp [close, isAttended, found]
  have runs : (front.close run status).runs = (front.progress run (.closed status)).runs := rfl
  by_cases same : run = other
  · subst same
    have isOver : Outline.isOver { outline with progress := .closed status } = true := rfl
    simp only [attendants, jobs, runs, runs_progress, found, Option.map_some, if_true,
      Option.any_some, Outline.isAwaited, isOver, unfinished]
    cases outline.attended with
    | true => simp [Nat.add_assoc]
    | false => simp
  · simp only [attendants, jobs, runs, runs_progress_of_ne same]
    cases outline.attended with
    | true => simp [same]
    | false => simp

/-- An attendant whose callback is the next one is in one place less behind it. -/
theorem attendants_of_next {run : Nat} {job : Job} {jobs : List Job}
    (next : front.jobs = job :: jobs) (attendant : job = .attend run ∨ job = .finish run)
    (other : Nat) : front.attendants other =
      jobs.count (.attend other) + jobs.count (.finish other) +
        (if front.runs[other]?.any Outline.isAwaited then 1 else 0) +
        if run = other then 1 else 0 := by
  rw [attendants, next]
  rcases attendant with rfl | rfl
  · rw [List.count_cons, List.count_cons_of_ne (by simp)]
    simp only [beq_iff_eq, Job.attend.injEq]
    omega
  · rw [List.count_cons_of_ne (by simp), List.count_cons]
    simp only [beq_iff_eq, Job.finish.injEq]
    omega

section Attending

variable {after : Front} {run : Nat}
  (runs : after.runs = front.runs.modify run fun outline => { outline with attended := true })

include runs

theorem runs_attend (other : Nat) : after.runs[other]? = front.runs[other]?.map fun outline =>
    if run = other then { outline with attended := true } else outline := by
  rw [runs]
  exact List.getElem?_modify ..

/-- Nobody but the attendant sees that it waits. -/
theorem progressOf_attend (other : Nat) : after.progressOf other = front.progressOf other := by
  rw [progressOf, runs_attend runs, Option.map_map, progressOf]
  congr 1
  funext outline
  dsimp only [Function.comp_apply]
  split <;> rfl

theorem any_isOver_attend (other : Nat) :
    after.runs[other]?.any Outline.isOver = front.runs[other]?.any Outline.isOver := by
  rw [runs_attend runs]
  cases front.runs[other]? with
  | none => rfl
  | some outline =>
      simp only [Option.map_some, Option.any_some]
      split <;> rfl

/-- The attendant leaves the queue for the supervisor. -/
theorem attendants_attend {outline : Outline} {jobs : List Job}
    (next : front.jobs = .attend run :: jobs) (queued : after.jobs = jobs)
    (found : front.runs[run]? = some outline) (unfinished : outline.isOver = false)
    (alone : front.attendants run = 1) (other : Nat) :
    after.attendants other = front.attendants other := by
  rw [attendants, attendants, runs_attend runs, queued, next]
  by_cases same : run = other
  · subst same
    have isOver : Outline.isOver { outline with attended := true } = false := unfinished
    rw [attendants, next, found] at alone
    rw [found]
    simp only [List.count_cons_self, Option.map_some, if_true, Option.any_some,
      Outline.isAwaited, isOver] at alone ⊢
    simp at alone ⊢
    omega
  · rw [List.count_cons_of_ne (by simpa using same), List.count_cons_of_ne (by simp)]
    simp [same]

end Attending

section Launching

variable {after : Front}
  (runs : after.runs = front.runs ++ [{ progress := .starting, attended := false }])

include runs

/-- A launch adds one run behind the others. -/
theorem runs_launch (run : Nat) : after.runs[run]? =
    if run = front.runs.length then some { progress := .starting, attended := false }
    else front.runs[run]? := by
  rw [runs]
  split
  · next same => rw [same, List.getElem?_concat_length]
  · next differs =>
      rw [List.getElem?_append]
      split
      · rfl
      · next beyond =>
          rw [List.getElem?_eq_none (by simp; omega), List.getElem?_eq_none (by omega)]

theorem progressOf_launch (run : Nat) : after.progressOf run =
    if run = front.runs.length then some .starting else front.progressOf run := by
  rw [progressOf, runs_launch runs]
  split <;> rfl

/-- The new run has its attendant in the queue. -/
theorem attendants_launch
    (jobs : after.jobs =
      front.jobs ++ [.begin front.runs.length, .attend front.runs.length]) (run : Nat) :
    after.attendants run =
      front.attendants run + if run = front.runs.length then 1 else 0 := by
  rw [attendants, attendants, jobs, runs_launch runs, List.count_append, List.count_append]
  by_cases same : run = front.runs.length
  · subst same
    have absent : front.runs[front.runs.length]? = none := List.getElem?_eq_none (Nat.le_refl _)
    simp only [absent, if_true, Option.any_none, Option.any_some]
    simp [Outline.isAwaited]
    omega
  · simp [same, Ne.symm same]

end Launching

namespace Sound

variable {held : Option Nat} {run : Nat} {outline : Outline}

/-! ### Working on a run -/

/-- A run that is not over has the attendant of the run that the shell waits for. -/
theorem attended_of_unfinished (sound : front.Sound held)
    (found : front.runs[run]? = some outline) (unfinished : outline.isOver = false) :
    front.attendants run = 1 := by
  rw [sound.attended run, if_pos (sound.unfinished run outline found unfinished)]

/-- While a run is not over, its attendant has no last callback. -/
theorem finish_not_mem (sound : front.Sound held) (found : front.runs[run]? = some outline)
    (unfinished : outline.isOver = false) : .finish run ∉ front.jobs := by
  intro finishing
  have isOver := sound.finishes run finishing
  rw [found, Option.any_some, unfinished] at isOver
  cases isOver

/-- Work on a run ends when the run has come to a phase of its own, with its attendant
where it was. -/
theorem settle (sound : front.Sound (some run)) (found : front.runs[run]? = some outline)
    (unfinished : outline.isOver = false) {progress : Progress} {after : Front}
    (kept : after.shell = front.shell ∧ after.task = front.task ∧ after.later = front.later)
    (runs : after.runs = (front.progress run progress).runs) (starting : progress ≠ .starting)
    (attendants : ∀ other, after.attendants other = front.attendants other)
    (begins : ∀ other, after.jobs.count (.begin other) = front.jobs.count (.begin other))
    (finishes : ∀ other, run ≠ other → .finish other ∈ after.jobs → .finish other ∈ front.jobs)
    (closing : .finish run ∈ after.jobs → ∃ status, progress = .closed status)
    (counted : ∀ other, after.inlined.count other =
      front.inlined.count other + if progress = .inside ∧ run = other then 1 else 0) :
    Sound none after := by
  obtain ⟨shell, task, later⟩ := kept
  have progressed : ∀ other, after.progressOf other =
      if run = other then some progress else front.progressOf other := by
    intro other
    rw [progressOf, runs]
    exact progressOf_progress found progress other
  refine ⟨by rw [shell, task]; exact sound.active, by rw [shell]; exact sound.hushed,
    ?_, ?_, ?_, ?_, ?_, ?_, later.trans sound.later⟩
  · intro other waited
    rw [task] at waited
    simpa [runs, Front.progress] using sound.known other waited
  · intro other shown met notOver
    rw [task]
    rw [runs] at met
    by_cases same : run = other
    · subst same
      exact sound.unfinished run outline found unfinished
    · rw [runs_progress_of_ne same] at met
      exact sound.unfinished other shown met notOver
  · intro other
    rw [attendants, task]
    exact sound.attended other
  · intro other finishing
    rw [runs]
    by_cases same : run = other
    · subst same
      obtain ⟨status, rfl⟩ := closing finishing
      rw [runs_progress, found]
      simp [Outline.isOver]
    · rw [runs_progress_of_ne same]
      exact sound.finishes other (finishes other same finishing)
  · intro other
    rw [begins, sound.begins]
    by_cases same : run = other
    · simp [progressed, same, starting]
    · simp [progressed, same]
  · intro other
    rw [counted, sound.inlined]
    by_cases same : run = other
    · simp [progressed, same]
    · simp [progressed, same]

/-- A run in hand goes on under a supervisor that waits for it, or in its place. -/
theorem goOn (sound : front.Sound (some run)) (found : front.runs[run]? = some outline)
    (unfinished : outline.isOver = false) {progress : Progress} {inlined : List Nat}
    (starting : progress ≠ .starting) (still : ∀ status, progress ≠ .closed status)
    (counted : ∀ other, inlined.count other =
      front.inlined.count other + if progress = .inside ∧ run = other then 1 else 0) :
    Sound none { front.progress run progress with inlined := inlined } := by
  exact sound.settle found unfinished ⟨rfl, rfl, rfl⟩ rfl starting
    (front.attendants_progress found unfinished still) (fun _ => rfl) (fun _ _ old => old)
    (fun finishing => absurd finishing (sound.finish_not_mem found unfinished)) counted

/-- A run in hand is ended. -/
theorem close (sound : front.Sound (some run)) (found : front.runs[run]? = some outline)
    (unfinished : outline.isOver = false) (status : Option Int) :
    Sound none (front.close run status) := by
  have jobs : (front.close run status).jobs =
      if front.isAttended run then front.jobs ++ [.finish run] else front.jobs := rfl
  refine sound.settle found unfinished ⟨rfl, rfl, rfl⟩ rfl (by simp)
    (front.attendants_close found unfinished status) (fun other => ?_)
    (fun other differ finishing => ?_) (fun _ => ⟨status, rfl⟩) (fun other => ?_)
  · rw [jobs]
    split
    · simp
    · rfl
  · rw [jobs] at finishing
    split at finishing
    · simpa [Ne.symm differ] using finishing
    · exact finishing
  · simp [Front.close, Front.progress]

/-- A run is taken in hand: the callback or the strand that accounted for its phase is
gone, and everything else is as it was. -/
theorem take (sound : front.Sound none) {after : Front}
    (kept : after.shell = front.shell ∧ after.task = front.task ∧ after.runs = front.runs ∧
      after.later = front.later)
    (others : ∀ job, job ≠ .begin run → after.jobs.count job = front.jobs.count job)
    (begins : after.jobs.count (.begin run) = 0)
    (inlined : ∀ other, after.inlined.count other =
      if run = other then 0 else front.inlined.count other) :
    Sound (some run) after := by
  obtain ⟨shell, task, runs, later⟩ := kept
  have progressed := progressOf_congr runs
  refine ⟨by rw [shell, task]; exact sound.active, by rw [shell]; exact sound.hushed,
    by rw [task, runs]; exact sound.known, by rw [task, runs]; exact sound.unfinished,
    ?_, ?_, ?_, ?_, later.trans sound.later⟩
  · intro other
    rw [task, ← sound.attended other, attendants, others _ (by simp), others _ (by simp), runs]
    rfl
  · intro other finishing
    rw [runs]
    refine sound.finishes other (List.count_pos_iff.mp ?_)
    rw [← others _ (by simp)]
    exact List.count_pos_iff.mpr finishing
  · intro other
    rw [progressed]
    by_cases same : run = other
    · subst same
      simp [begins]
    · rw [others _ (by simpa using Ne.symm same), sound.begins]
      simp [same]
  · intro other
    rw [progressed, inlined]
    by_cases same : run = other
    · simp [same]
    · rw [if_neg same, sound.inlined]
      simp [same]

/-- A run in a phase other than the last, with its outline. -/
theorem exists_outline {progress : Progress} (here : front.progressOf run = some progress)
    (still : ∀ status, progress ≠ .closed status) :
    ∃ outline, front.runs[run]? = some outline ∧ outline.isOver = false := by
  obtain ⟨outline, found, rfl⟩ := Option.map_eq_some_iff.mp here
  refine ⟨outline, found, ?_⟩
  rw [Outline.isOver]
  cases shown : outline.progress with
  | closed status => exact absurd shown (still status)
  | starting | inside | listening => rfl

/-! ### The callbacks of programs -/

/-- The strand that played a run in its supervisor's place ends, and the run with it. -/
theorem ended (sound : front.Sound none) (status : Option Int) {left : Front}
    (gone : front.Left run left) : Sound none (left.close run status) := by
  obtain ⟨before, behind, split, rfl⟩ := gone
  have counted := sound.inlined run
  rw [split, List.count_append, List.count_cons_self] at counted
  have inside : front.progressOf run = some .inside := by
    by_contra differs
    simp [differs] at counted
  obtain ⟨outline, found, unfinished⟩ := exists_outline inside (by simp)
  have taken : Sound (some run) { front with inlined := before ++ behind } := by
    refine sound.take ⟨rfl, rfl, rfl, rfl⟩ (fun _ _ => rfl) ?_ (fun other => ?_)
    · rw [sound.begins, inside]
      rfl
    · rw [split, List.count_append, List.count_append]
      by_cases same : run = other
      · subst same
        simp only [inside, true_and] at counted
        simp at counted ⊢
        omega
      · rw [List.count_cons_of_ne same, if_neg same]
  exact taken.close found unfinished status

/-- A callback that belongs to a program alone keeps the invariant. -/
theorem aside (sound : front.Sound none) {after : Front} (aside : front.Aside after) :
    Sound none after := by
  cases aside with
  | unseen => exact sound
  | ended status gone => exact sound.ended status gone
  | @concluded run outline status found listening =>
      have shown : front.progressOf run = some .listening := by
        rw [progressOf, found, Option.map_some, listening]
      have unfinished : outline.isOver = false := by
        rw [Outline.isOver, listening]
      have taken : Sound (some run) front := by
        refine sound.take ⟨rfl, rfl, rfl, rfl⟩ (fun _ _ => rfl) ?_ (fun other => ?_)
        · rw [sound.begins, shown]
          rfl
        · split
          · next same =>
              rw [← same, sound.inlined, shown]
              rfl
          · rfl
      exact taken.close found unfinished status

/-- The callback that calls a program keeps the invariant. -/
theorem begun (sound : front.Sound none) {jobs : List Job}
    (next : front.jobs = .begin run :: jobs) {after : Front}
    (begun : Begun { front with jobs := jobs } run after) : Sound none after := by
  have counted := sound.begins run
  rw [next, List.count_cons_self] at counted
  have starting : front.progressOf run = some .starting := by
    by_contra differs
    simp [differs] at counted
  obtain ⟨outline, found, unfinished⟩ := exists_outline starting (by simp)
  have none' : front.inlined.count run = 0 := by
    rw [sound.inlined, starting]
    rfl
  have taken : Sound (some run) { front with jobs := jobs } := by
    refine sound.take ⟨rfl, rfl, rfl, rfl⟩ (fun job differs => ?_) ?_ (fun other => ?_)
    · rw [next, List.count_cons_of_ne (Ne.symm differs)]
    · simpa [starting] using counted
    · split
      · next same => rw [← same, none']
      · rfl
  have inside : Sound none (enter { front with jobs := jobs } run) := by
    refine taken.goOn found unfinished (by simp) (by simp) fun other => ?_
    rw [List.count_append]
    by_cases same : run = other
    · simp [same]
    · simp [same]
  cases begun with
  | listening =>
      exact taken.goOn found unfinished (by simp) (by simp) fun other => by simp
  | closed status => exact taken.close found unfinished status
  | entered => exact inside
  | passed status gone => exact inside.ended status gone

/-! ### The callbacks of attendants and callers -/

/-- Changes that concern callers alone. -/
theorem congr (sound : front.Sound none) {after : Front}
    (kept : after.task = front.task ∧ after.runs = front.runs ∧
      after.inlined = front.inlined ∧ after.later = front.later)
    (activity : after.shell.activity = front.shell.activity)
    (hushed : after.shell.activity = .running → after.shell.buffer = Buffer.empty)
    (jobs : ∀ job, (∀ caller, job ≠ .call caller ∧ job ≠ .freed caller) →
      after.jobs.count job = front.jobs.count job) :
    Sound none after := by
  obtain ⟨task, runs, inlined, later⟩ := kept
  have attendants : ∀ run, after.attendants run = front.attendants run := by
    intro run
    rw [Front.attendants, jobs _ (by simp), jobs _ (by simp), runs]
    rfl
  have progressed := progressOf_congr runs
  refine ⟨by rw [activity, task]; exact sound.active, hushed,
    by rw [task, runs]; exact sound.known, by rw [task, runs]; exact sound.unfinished,
    ?_, ?_, ?_, ?_, later.trans sound.later⟩
  · intro run
    rw [attendants, task]
    exact sound.attended run
  · intro run finishing
    rw [runs]
    refine sound.finishes run (List.count_pos_iff.mp ?_)
    rw [← jobs _ (by simp)]
    exact List.count_pos_iff.mpr finishing
  · intro run
    rw [jobs _ (by simp), progressed]
    exact sound.begins run
  · intro run
    rw [inlined, progressed]
    exact sound.inlined run

/-- The run whose attendant has a callback is the one that the shell waits for. -/
theorem task_of_mem (sound : front.Sound none) {job : Job} (member : job ∈ front.jobs)
    (attendant : job = .attend run ∨ job = .finish run) : front.task = some run := by
  have counted := sound.attended run
  have present := List.count_pos_iff.mpr member
  by_contra other
  rw [if_neg other, Front.attendants] at counted
  rcases attendant with rfl | rfl
  · omega
  · omega

/-- The run whose program is to be called is the one that the shell waits for. -/
theorem task_of_begin (sound : front.Sound none) (member : .begin run ∈ front.jobs) :
    front.task = some run := by
  have counted := sound.begins run
  have called := List.count_pos_iff.mpr member
  split at counted
  · next starting =>
      obtain ⟨outline, found, unfinished⟩ := exists_outline starting.1 (by simp)
      exact sound.unfinished run outline found unfinished
  · omega

theorem isSome_task (sound : front.Sound none) {job : Job} (member : job ∈ front.jobs)
    (attendant : job.isAttendant = true) : front.task.isSome := by
  cases job with
  | begin run => exact Option.isSome_of_eq_some (sound.task_of_begin member)
  | attend run => exact Option.isSome_of_eq_some (sound.task_of_mem member (.inl rfl))
  | finish run => exact Option.isSome_of_eq_some (sound.task_of_mem member (.inr rfl))
  | signalled | expire | conclude | reap | resume | alarm | freed | call => cases attendant

/-- A supervisor that is done and the last callback of its attendant: the shell is put
back to work. -/
theorem handBack (sound : front.Sound none) {job : Job} {jobs freed : List Job}
    (next : front.jobs = job :: jobs) (attendant : job = .attend run ∨ job = .finish run)
    (isOver : front.runs[run]?.any Outline.isOver) {after : Front}
    (kept : after.runs = front.runs ∧ after.inlined = front.inlined ∧
      after.later = front.later)
    (idle : after.shell.activity = .idle) (task : after.task = none)
    (jobs' : after.jobs = jobs ++ freed) (callers : ∀ job ∈ freed, ∃ caller, job = .freed caller) :
    Sound none after := by
  obtain ⟨runs, inlined, later⟩ := kept
  have waited : front.task = some run :=
    sound.task_of_mem (next ▸ List.mem_cons_self) attendant
  have counts : ∀ other, (∀ caller, other ≠ .freed caller) →
      after.jobs.count other = jobs.count other := by
    intro other differs
    rw [jobs', List.count_append, Nat.add_eq_left, List.count_eq_zero]
    intro member
    obtain ⟨caller, same⟩ := callers other member
    exact differs caller same
  have progressed := progressOf_congr runs
  refine ⟨by simp [idle, task], by simp [idle], by simp [task], ?_, ?_, ?_, ?_, ?_,
    later.trans sound.later⟩
  · intro other outline found unfinished
    rw [runs] at found
    obtain rfl := Option.some.inj
      (waited.symm.trans (sound.unfinished other outline found unfinished))
    rw [found, Option.any_some, unfinished] at isOver
    cases isOver
  · intro other
    have counted := sound.attended other
    rw [attendants_of_next next attendant, waited] at counted
    rw [task, Front.attendants, counts _ (by simp), counts _ (by simp), runs]
    simp only [Option.some.injEq, reduceCtorEq, if_false] at counted ⊢
    omega
  · intro other finishing
    rw [runs]
    refine sound.finishes other ?_
    rw [jobs'] at finishing
    rcases List.mem_append.mp finishing with old | new
    · exact next ▸ List.mem_cons_of_mem _ old
    · obtain ⟨caller, same⟩ := callers _ new
      cases same
  · intro other
    rw [counts _ (by simp), progressed, ← sound.begins other, next, List.count_cons_of_ne]
    rcases attendant with rfl | rfl
    · simp
    · simp
  · intro other
    rw [inlined, progressed]
    exact sound.inlined other

/-- An attendant that finds its supervisor at work begins to wait. -/
theorem attend (sound : front.Sound none) {jobs : List Job}
    (next : front.jobs = .attend run :: jobs) (found : front.runs[run]? = some outline)
    (unfinished : outline.isOver = false) :
    Sound none { front with
      jobs := jobs
      runs := front.runs.modify run fun outline => { outline with attended := true } } := by
  let after : Front := { front with
    jobs := jobs
    runs := front.runs.modify run fun outline => { outline with attended := true } }
  have runs : after.runs = front.runs.modify run fun outline =>
      { outline with attended := true } := rfl
  have progressed := progressOf_attend runs
  refine ⟨sound.active, sound.hushed, fun other task => ?_, ?_, fun other => ?_, ?_,
    fun other => ?_, fun other => ?_, sound.later⟩
  · simpa using sound.known other task
  · intro other shown met notOver
    rw [runs_attend runs] at met
    obtain ⟨before, known, rfl⟩ := Option.map_eq_some_iff.mp met
    refine sound.unfinished other before known (Eq.trans ?_ notOver)
    split <;> rfl
  · rw [← sound.attended other]
    exact attendants_attend runs next rfl found unfinished
      (sound.attended_of_unfinished found unfinished) other
  · intro other finishing
    have old : .finish other ∈ front.jobs := next ▸ List.mem_cons_of_mem _ finishing
    exact (any_isOver_attend runs other).trans (sound.finishes other old)
  · change jobs.count _ = if after.progressOf other = _ ∧ _ then 1 else 0
    rw [progressed, ← sound.begins other, next, List.count_cons_of_ne (by simp)]
  · change front.inlined.count _ = if after.progressOf other = _ ∧ _ then 1 else 0
    rw [progressed]
    exact sound.inlined other

/-- A program is launched in a free shell: it is called first, and then its attendant
begins to wait. -/
theorem launch (sound : front.Sound none) (free : front.task = none) {after : Front}
    (running : after.shell.activity = .running)
    (empty : after.shell.buffer = Buffer.empty)
    (jobs : after.jobs =
      front.jobs ++ [.begin front.runs.length, .attend front.runs.length])
    (runs : after.runs = front.runs ++ [{ progress := .starting, attended := false }])
    (task : after.task = some front.runs.length)
    (kept : after.inlined = front.inlined ∧ after.later = front.later) :
    Sound none after := by
  obtain ⟨inlined, later⟩ := kept
  have absent : front.runs[front.runs.length]? = none := List.getElem?_eq_none (Nat.le_refl _)
  have unknown : front.progressOf front.runs.length = none := by
    rw [progressOf, absent]
    rfl
  refine ⟨?_, fun _ => empty, ?_, ?_, fun run => ?_, ?_, fun run => ?_, fun run => ?_,
    later.trans sound.later⟩
  · rw [task]
    exact ⟨fun _ => rfl, fun _ => running⟩
  · intro run waited
    obtain rfl := Option.some.inj (task.symm.trans waited)
    simp [runs]
  · intro run outline found unfinished
    rw [runs_launch runs] at found
    split at found
    · next same => rw [task, same]
    · have waited := sound.unfinished run outline found unfinished
      rw [free] at waited
      cases waited
  · rw [attendants_launch runs jobs, sound.attended, free, task]
    simp [eq_comm]
  · intro run finishing
    have member : .finish run ∈ front.jobs := by
      rw [jobs] at finishing
      simpa using finishing
    have isOver := sound.finishes run member
    rw [runs_launch runs, if_neg ?_]
    · exact isOver
    · rintro rfl
      rw [absent] at isOver
      cases isOver
  · rw [jobs, List.count_append, sound.begins, progressOf_launch runs]
    by_cases same : run = front.runs.length
    · simp [same, unknown]
    · simp [same, Ne.symm same]
  · rw [inlined, sound.inlined, progressOf_launch runs]
    by_cases same : run = front.runs.length
    · simp [same, unknown]
    · simp [same]

end Sound

end Front

end LineShell
