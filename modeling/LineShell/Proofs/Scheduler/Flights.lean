/-
Module: LineShell.Proofs.Scheduler.Flights
Purpose: On every course at most one program is in flight, the shell runs exactly
  while one is, and nothing is started meanwhile.
Main exports: Machine.Change, Machine.change_make, Machine.Idles, Flight.Sound,
  Reachable.sound, Flight.Exclusive, Reachable.exclusive
-/
import LineShell.Proofs.Scheduler.Exclusive

namespace LineShell

/-!
The invariant of `Exclusive` speaks about one state of a machine.  Which programs are
in flight is told by the history of a course.  The two are connected by what a single
move can do: it leaves the shell waiting for what it waits for, it launches a run in
a free shell, or it puts the shell back to work with the run that it waits for.
-/

/-! ### What a move does to the run that the shell waits for -/

/-- How a move changes the run that the shell waits for; the last argument is the run
with which the shell is put back to work. -/
inductive Machine.Change (before after : Machine) : Option Nat → Prop where
  | kept (task : after.task = before.task) (runs : after.runs.length = before.runs.length) :
      Change before after none
  | launched (free : before.task = none) (task : after.task = some before.runs.length)
      (runs : after.runs.length = before.runs.length + 1) : Change before after none
  | freed (run : Nat) (waited : before.task = some run) (task : after.task = none)
      (runs : after.runs.length = before.runs.length) : Change before after (some run)

namespace Front

variable {front after : Front} {run : Nat}

/-- The shell, the run that it waits for, and the number of runs. -/
def roster (front : Front) : Shell × Option Nat × Nat :=
  (front.shell, front.task, front.runs.length)

theorem roster_progress (run : Nat) (progress : Progress) :
    (front.progress run progress).roster = front.roster := by
  simp [roster, Front.progress]

theorem roster_enter (run : Nat) : (front.enter run).roster = front.roster := by
  simp [roster, Front.enter, Front.progress]

theorem roster_close (run : Nat) (status : Option Int) :
    (front.close run status).roster = front.roster := by
  simp [roster, Front.close, Front.progress]

theorem Left.roster {left : Front} (gone : front.Left run left) :
    left.roster = front.roster := by
  obtain ⟨before, behind, split, rfl⟩ := gone
  rfl

theorem Aside.roster (aside : front.Aside after) : after.roster = front.roster := by
  cases aside with
  | unseen => rfl
  | concluded status found listening => exact roster_close _ _
  | ended status gone => exact (roster_close _ _).trans gone.roster

theorem Begun.roster (begun : front.Begun run after) : after.roster = front.roster := by
  cases begun with
  | listening => exact roster_progress _ _
  | closed status => exact roster_close _ _
  | entered => exact roster_enter _
  | passed status gone =>
      exact ((roster_close _ _).trans gone.roster).trans (roster_enter _)

end Front

namespace Machine

variable {machine after : Machine}

theorem Change.of_front (same : after.front.roster = machine.front.roster) :
    Change machine after none := by
  obtain ⟨-, task, runs⟩ := Prod.mk.inj same |>.imp_right Prod.mk.inj
  exact .kept task (by simpa [front] using runs)

theorem change_input (sound : machine.front.Sound none) (event : Text) :
    Change machine (machine.input event) none := by
  cases active : machine.shell.activity with
  | running =>
      rw [input_of_running active]
      exact .kept rfl rfl
  | idle =>
      rw [input]
      generalize machine.shell.input true event = result
      obtain ⟨reaction, shell⟩ := result
      cases reaction with
      | done | raised => exact .kept rfl rfl
      | launched launch =>
          exact .launched (free_of_idle sound active) rfl (by simp [takeOver, Machine.launch])

theorem change_submitLine (sound : machine.front.Sound none) (free : machine.task = none)
    (caller : Nat) (line : Text) : Change machine (machine.submitLine caller line) none := by
  have idle := idle_of_free sound free
  have ready : (machine.withLine line).front.Sound none := sound_withShell sound idle idle
  cases change_input ready ['\r'] with
  | kept task runs => exact .kept task runs
  | launched free task runs => exact .launched free task runs

theorem change_call (sound : machine.front.Sound none) (caller : Nat) :
    Change machine (machine.call caller) none := by
  unfold call
  split
  · exact .kept rfl rfl
  · next state _ =>
      split
      · exact .kept rfl rfl
      · next free =>
          split
          · exact .kept rfl rfl
          · have submitted := change_submitLine sound (by simpa using free) caller state.line
            dsimp only
            cases submitted with
            | kept task runs =>
                split
                · exact .kept task runs
                · split <;> exact .kept task runs
            | launched free task runs =>
                split
                · exact .launched free task runs
                · rw [task]
                  exact .launched free task runs

section Steps

variable {job : Job} {ready : List Job}

/-- The attendant of a run looks at its supervisor: if that is done, the shell is put
back to work. -/
theorem change_attendant (sound : machine.front.Sound none)
    (next : machine.ready = job :: ready) (turn : Nat) {run : Nat}
    (attendant : job = .attend run ∨ job = .finish run) :
    Change machine ((machine.pop ready turn).perform job) (machine.handedBackBy job) := by
  have concerns : job.isFront = true := by
    rcases attendant with rfl | rfl <;> rfl
  have jobs := jobs_of_isFront next turn concerns
  have waited := sound.task_of_mem (jobs ▸ List.mem_cons_self) attendant
  have handsBack : ∀ (state : Run) (status : Option Int), machine.runs[run]? = some state →
      state.phase = .closed status → machine.handedBackBy job = some run := by
    intro state status found closed
    have isOver : state.isOver = true := by simp [Run.isOver, closed]
    rcases attendant with rfl | rfl <;> simp [handedBackBy, found, isOver]
  have goesOn : ∀ state : Run, machine.runs[run]? = some state →
      (∀ status, state.phase ≠ .closed status) → machine.handedBackBy job = none := by
    intro state found open'
    have isOver : state.isOver = false := by
      rw [Run.isOver]
      split
      · next status closed => exact absurd closed (open' status)
      · rfl
    rcases attendant with rfl | rfl <;> simp [handedBackBy, found, isOver]
  have absent : machine.runs[run]? = none → machine.handedBackBy job = none := by
    intro absent
    rcases attendant with rfl | rfl <;> simp [handedBackBy, absent]
  rcases attendant with rfl | rfl
  · change Change machine ((machine.pop ready turn).attend run) _
    unfold attend
    split
    · next missing => exact absent missing ▸ .kept rfl rfl
    · next state found =>
        split
        · next status closed =>
            exact handsBack state status found closed ▸ .freed run waited rfl rfl
        · next open' =>
            exact goesOn state found open' ▸ .kept rfl (by simp [modifyRun, pop])
  · change Change machine ((machine.pop ready turn).finish run) _
    unfold finish
    split
    · next missing => exact absent missing ▸ .kept rfl rfl
    · next state found =>
        split
        · next status closed =>
            exact handsBack state status found closed ▸ .freed run waited rfl rfl
        · next open' => exact goesOn state found open' ▸ .kept rfl rfl

theorem change_perform (sound : machine.front.Sound none)
    (next : machine.ready = job :: ready) (turn : Nat) :
    Change machine ((machine.pop ready turn).perform job) (machine.handedBackBy job) := by
  cases job with
  | attend run => exact change_attendant sound next turn (.inl rfl)
  | finish run => exact change_attendant sound next turn (.inr rfl)
  | call caller =>
      cases change_call (sound_pop_callers sound next turn rfl (.inl rfl)) caller with
      | kept task runs => exact .kept task runs
      | launched free task runs => exact .launched free task runs
  | freed caller => exact .kept rfl rfl
  | begin run =>
      change Change machine ((machine.pop ready turn).begin run) none
      cases found : machine.runs[run]? with
      | none =>
          unfold begin
          rw [show (machine.pop ready turn).runs[run]? = none from found]
          exact .kept rfl rfl
      | some state =>
          exact .of_front ((machine.pop ready turn).front_begin found).roster
  | signalled | expire | conclude | reap | resume | alarm =>
      exact .of_front (front_perform (machine.pop ready turn) rfl).roster

theorem change_tick (sound : machine.front.Sound none) :
    Change machine machine.tick (machine.next?.bind machine.handedBackBy) := by
  rcases machine.tick_cases with ⟨job, ready, turn, next, shown, ticked⟩ | ⟨nothing, ticked⟩
  · rw [shown, ticked]
    exact change_perform sound next turn
  · rw [nothing, ticked]
    exact .kept rfl rfl

end Steps

/-- What a move does to the run that the shell waits for. -/
theorem change_make (sound : machine.front.Sound none) (move : Move) :
    Change machine (machine.make move) (machine.handedBack move) := by
  cases move with
  | input event => exact change_input sound event
  | exec line => exact .kept rfl rfl
  | carryOut line =>
      cases change_call (sound_enlist sound line) machine.callers.length with
      | kept task runs => exact .kept task runs
      | launched free task runs => exact .launched free task runs
  | release gate => exact .of_front (congrArg Front.roster (front_release machine gate))
  | elapse moment => exact .kept rfl rfl
  | step => exact change_tick sound

/-! ### What is started, and when -/

/-- A caller starts a program only when the shell is free. -/
theorem free_of_startedByCall (machine : Machine) {caller : Nat} {program : Text × Program}
    (started : machine.startedByCall caller = some program) : machine.task = none := by
  unfold startedByCall at started
  split at started
  · cases started
  · split at started
    · cases started
    · next free =>
        simp only [Bool.or_eq_true, not_or, Bool.not_eq_true, Option.isSome_eq_false_iff,
          Option.isNone_iff_eq_none] at free
        exact free.1

/-- A program is started only when the shell is free. -/
theorem free_of_started (sound : machine.front.Sound none) {move : Move}
    {program : Text × Program} (started : machine.started move = some program) :
    machine.task = none := by
  cases move with
  | input event =>
      refine free_of_idle sound ?_
      change machine.shell.started true event = some program at started
      unfold Shell.started at started
      split at started
      · next idle _ => exact idle
      · cases started
  | carryOut line =>
      exact (machine.enlist line).free_of_startedByCall started
  | step =>
      rw [Machine.started] at started
      split at started
      · exact machine.free_of_startedByCall started
      · cases started
  | exec | release | elapse => cases started

/-- An event that leads to nothing changes nothing but the shell. -/
theorem input_of_done (machine : Machine) {event : Text}
    (nothing : (machine.shell.input true event).1 = .done) :
    machine.input event = { machine with shell := (machine.shell.input true event).2 } := by
  unfold input
  generalize machine.shell.input true event = result at nothing ⊢
  obtain ⟨reaction, shell⟩ := result
  obtain rfl := nothing
  rfl

/-- A caller that starts no program reaches none. -/
theorem call_of_startedByCall_none (machine : Machine) {caller : Nat}
    (none : machine.startedByCall caller = none) :
    (machine.call caller).runs = machine.runs ∧
      machine.shell.Untouched (.done, (machine.call caller).shell) := by
  unfold startedByCall at none
  unfold call
  generalize machine.callers[caller]? = found at none ⊢
  cases found with
  | none => exact ⟨rfl, rfl, rfl, rfl⟩
  | some state =>
      dsimp only at none ⊢
      split at none
      · next engaged =>
          split
          · exact ⟨rfl, rfl, rfl, rfl⟩
          · next free =>
              have submitted : state.submitted = true := by simpa [free] using engaged
              rw [if_pos submitted]
              exact ⟨rfl, rfl, rfl, rfl⟩
      · next engaged =>
          simp only [Bool.or_eq_true, not_or] at engaged
          rw [if_neg engaged.1, if_neg engaged.2]
          obtain ⟨nothing, programs, calls⟩ := Shell.input_of_started_none _ _ none
          have entered : (machine.withLine state.line).input ['\r'] = _ :=
            (machine.withLine state.line).input_of_done nothing
          have submitted : (machine.submitLine caller state.line).runs = machine.runs ∧
              machine.shell.Untouched (.done, (machine.submitLine caller state.line).shell) := by
            rw [submitLine, entered]
            exact ⟨rfl, rfl, programs, calls⟩
          split
          · exact submitted
          · split <;> exact submitted

/-- Whether a move is made by the host or by one of its callers: no callback of a program
runs. -/
def isOutside (machine : Machine) : Move → Bool
  | .step =>
      match machine.next? with
      | some (.call _) => true
      | _ => false
  | _ => true

/-- A move that starts no program adds no run and plays no builtin program: the table of
programs is as it was, and no function of the host has been called but by the programs that
run already. -/
structure Idles (machine : Machine) (move : Move) : Prop where
  runs : (machine.make move).runs.length = machine.runs.length
  programs : (machine.make move).shell.programs = machine.shell.programs
  calls : machine.isOutside move = true →
    (machine.make move).shell.journal.calls = machine.shell.journal.calls

/-- A callback that is no caller's leaves the table of programs alone. -/
theorem programs_perform (sound : machine.front.Sound none) {job : Job} {ready : List Job}
    (next : machine.ready = job :: ready) (turn : Nat) (aside : ∀ caller, job ≠ .call caller) :
    ((machine.pop ready turn).perform job).runs.length = machine.runs.length ∧
      ((machine.pop ready turn).perform job).shell.programs = machine.shell.programs := by
  have unseen : ∀ {after : Machine}, after.front.roster = (machine.pop ready turn).front.roster →
      after.runs.length = machine.runs.length ∧
        after.shell.programs = machine.shell.programs := by
    intro after same
    obtain ⟨shell, -, runs⟩ := Prod.mk.inj same |>.imp_right Prod.mk.inj
    have programs := congrArg Shell.programs shell
    exact ⟨by simpa [front, pop] using runs, programs⟩
  have attendant : ∀ run, job = .attend run ∨ job = .finish run →
      ((machine.pop ready turn).perform job).shell.programs = machine.shell.programs := by
    rintro run (rfl | rfl)
    · simp only [perform, attend]
      split
      · rfl
      · split <;> rfl
    · simp only [perform, finish]
      split
      · rfl
      · split <;> rfl
  have counted : ∀ run, job = .attend run ∨ job = .finish run →
      ((machine.pop ready turn).perform job).runs.length = machine.runs.length := by
    intro run attends
    have change := change_attendant sound next turn attends
    generalize machine.handedBackBy job = handed at change
    cases change with
    | kept task runs => exact runs
    | launched free =>
        have concerns : job.isFront = true := by rcases attends with rfl | rfl <;> rfl
        have waited := sound.task_of_mem
          (jobs_of_isFront next turn concerns ▸ List.mem_cons_self) attends
        cases free.symm.trans waited
    | freed run waited task runs => exact runs
  cases job with
  | call caller => exact absurd rfl (aside caller)
  | attend run => exact ⟨counted run (.inl rfl), attendant run (.inl rfl)⟩
  | finish run => exact ⟨counted run (.inr rfl), attendant run (.inr rfl)⟩
  | freed caller => exact ⟨rfl, rfl⟩
  | begin run =>
      cases found : machine.runs[run]? with
      | none =>
          have still : (machine.pop ready turn).perform (.begin run) = machine.pop ready turn := by
            simp [perform, begin, pop, found]
          exact unseen (by rw [still])
      | some state => exact unseen ((machine.pop ready turn).front_begin found).roster
  | signalled | expire | conclude | reap | resume | alarm =>
      exact unseen (front_perform (machine.pop ready turn) rfl).roster

theorem idles_of_started_none (sound : machine.front.Sound none) {move : Move}
    (none : machine.started move = none) : machine.Idles move := by
  cases move with
  | input event =>
      obtain ⟨nothing, programs, calls⟩ := Shell.input_of_started_none _ _ none
      have same : machine.make (.input event) = _ := machine.input_of_done nothing
      exact ⟨by rw [same], by rw [same, programs], fun _ => by rw [same, calls]⟩
  | exec line => exact ⟨rfl, rfl, fun _ => rfl⟩
  | carryOut line =>
      obtain ⟨runs, -, programs, calls⟩ :=
        (machine.enlist line).call_of_startedByCall_none none
      exact ⟨congrArg List.length runs, programs, fun _ => calls⟩
  | release gate =>
      have same := front_release machine gate
      have journal : ∀ (strands : List Nat) (machine : Machine),
          (strands.foldl unpark machine).shell = machine.shell := by
        intro strands
        induction strands with
        | nil => exact fun _ => rfl
        | cons strand others ih => exact fun machine => ih (machine.unpark strand)
      have runs : (machine.release gate).runs.length = machine.runs.length := by
        simpa [front] using congrArg (·.runs.length) same
      exact ⟨runs, congrArg (·.shell.programs) same,
        fun _ => congrArg (·.journal.calls) (journal _ _)⟩
  | elapse moment => exact ⟨rfl, rfl, fun _ => rfl⟩
  | step =>
      have made : machine.make .step = machine.tick := rfl
      rcases machine.tick_cases with ⟨job, ready, turn, next, shown, ticked⟩ | ⟨nothing, ticked⟩
      · by_cases caller : ∃ caller, job = .call caller
        · obtain ⟨caller, rfl⟩ := caller
          rw [started, shown] at none
          obtain ⟨runs, -, programs, calls⟩ :=
            (machine.pop ready turn).call_of_startedByCall_none none
          have performed : machine.make .step = (machine.pop ready turn).call caller :=
            made.trans ticked
          refine ⟨?_, ?_, fun _ => ?_⟩
          · rw [performed]
            exact congrArg List.length runs
          · rw [performed]
            exact programs
          · rw [performed]
            exact calls
        · obtain ⟨runs, programs⟩ :=
            programs_perform sound next turn fun given same => caller ⟨given, same⟩
          refine ⟨by rw [made, ticked, runs], by rw [made, ticked, programs], fun outside => ?_⟩
          rw [isOutside, shown] at outside
          cases job with
          | call given => exact absurd ⟨given, rfl⟩ caller
          | _ => cases outside
      · refine ⟨by rw [made, ticked]; rfl, by rw [made, ticked]; rfl, fun outside => ?_⟩
        rw [isOutside, nothing] at outside
        cases outside

/-- A supervisor calls its program only for the run that the shell waits for. -/
theorem task_of_begin (sound : machine.front.Sound none) {run : Nat}
    (next : machine.next? = some (.begin run)) : machine.task = some run := by
  have member : .begin run ∈ machine.front.jobs := by
    unfold next? at next
    split at next
    · cases next
    · obtain ⟨others, ready⟩ := List.head?_eq_some_iff.mp next
      simp [front, ready, Job.isFront]
  exact Front.Sound.task_of_begin sound member

/-! ### Leaving a machine -/

/-- On a machine where nobody waits no callback concerns the front. -/
theorem jobs_of_deserted (sound : machine.front.Sound none) (deserted : machine.Deserted) :
    machine.front.jobs = [] := by
  have free : machine.front.task = none := deserted.task
  refine List.eq_nil_iff_forall_not_mem.mpr fun job member => ?_
  obtain ⟨ready, concerns⟩ := List.mem_filter.mp member
  cases job with
  | begin | attend | finish =>
      have waited := sound.isSome_task member rfl
      rw [free] at waited
      cases waited
  | freed caller => exact (deserted.callers caller).1 ready
  | call caller => exact (deserted.callers caller).2 ready
  | signalled | expire | conclude | reap | resume | alarm => cases concerns

/-- When the shell waits for no run, the callbacks of programs are not seen from the
front. -/
theorem Front.Sound.aside_eq {front after : Front} (sound : front.Sound none)
    (free : front.task = none) (aside : front.Aside after) : after = front := by
  have allOver : ∀ (run : Nat) (outline : Outline), front.runs[run]? = some outline →
      outline.isOver = true := by
    intro run outline found
    cases closed : outline.isOver with
    | true => rfl
    | false =>
        have waited := sound.unfinished run outline found closed
        rw [free] at waited
        cases waited
  cases aside with
  | unseen => rfl
  | concluded status found listening =>
      have closed := allOver _ _ found
      rw [Outline.isOver, listening] at closed
      cases closed
  | @ended run left status gone =>
      obtain ⟨before, behind, split, rfl⟩ := gone
      have counted := sound.inlined run
      have played : 0 < front.inlined.count run :=
        List.count_pos_iff.mpr (split ▸ List.mem_append_right before List.mem_cons_self)
      split at counted
      · next here =>
          obtain ⟨outline, found, unfinished⟩ :=
            Front.Sound.exists_outline here.1 (by simp)
          rw [allOver run outline found] at unfinished
          cases unfinished
      · omega

/-- A step on a machine where no callback concerns the front. -/
theorem front_tick_of_quiet (sound : machine.front.Sound none) (free : machine.task = none)
    (quiet : machine.front.jobs = []) : machine.tick.front = machine.front := by
  rcases machine.tick_cases with ⟨job, ready, turn, next, _, ticked⟩ | ⟨_, ticked⟩
  · have aside : job.isFront = false := by
      cases concerns : job.isFront with
      | false => rfl
      | true =>
          have jobs := jobs_of_isFront next turn concerns
          rw [quiet] at jobs
          cases jobs
    have popped := front_pop_of_aside next turn aside
    rw [ticked, ← popped]
    exact Front.Sound.aside_eq (popped ▸ sound) free (front_perform _ aside)
  · rw [ticked, front_beginTurn sound.later]

theorem front_tickWhile_of_quiet (goesOn : Machine → Bool) (limit : Nat)
    (sound : machine.front.Sound none) (free : machine.task = none)
    (quiet : machine.front.jobs = []) :
    (machine.tickWhile goesOn limit).front = machine.front := by
  induction limit generalizing machine with
  | zero => rfl
  | succ limit ih =>
      have same := front_tick_of_quiet sound free quiet
      rw [tickWhile]
      split
      · rw [ih (same ▸ sound) ((congrArg Front.task same).trans free) (same ▸ quiet), same]
      · rfl

/-- Cancelling strands is not seen from the front. -/
theorem front_foldl_cancelStrand (strands : List Nat) :
    (strands.foldl cancelStrand machine).front = machine.front := by
  induction strands generalizing machine with
  | nil => rfl
  | cons strand others ih => rw [List.foldl_cons, ih, front_cancelStrand]

/-- Forgetting all timers is not seen from the front. -/
theorem front_dropTimers (later : machine.front.later = []) :
    ({ machine with timers := [] } : Machine).front = machine.front := by
  change { machine.front with later := [] } = machine.front
  rw [← later]

/-- Leaving a machine is not seen from the front. -/
theorem front_shutDown (sound : machine.front.Sound none) (deserted : machine.Deserted) :
    machine.shutDown.front = machine.front := by
  have cancelled := machine.front_foldl_cancelStrand (List.range machine.strands.length)
  have stopped := (front_dropTimers (cancelled ▸ sound.later)).trans cancelled
  rw [shutDown, settle]
  generalize ({ (List.range machine.strands.length).foldl cancelStrand machine with
    timers := [] } : Machine) = still at stopped ⊢
  have free : still.task = none := (congrArg Front.task stopped).trans deserted.task
  have quiet : still.front.jobs = [] := stopped ▸ jobs_of_deserted sound deserted
  exact (front_tickWhile_of_quiet _ _ (stopped ▸ sound) free quiet).trans stopped

/-- A shell that leaves a machine is idle. -/
theorem idle_shutDown (sound : machine.front.Sound none) (deserted : machine.Deserted) :
    machine.shutDown.shell.activity = .idle := by
  have same := congrArg (fun front => front.shell.activity) (front_shutDown sound deserted)
  exact Eq.trans same (idle_of_free sound deserted.task)

end Machine

/-! ### Flights -/

namespace Flight

variable {flight : Flight}

/-- The invariant of a flight: that of its machine, and the run that the shell waits for
is the one in flight. -/
structure Sound (flight : Flight) : Prop where
  machine : flight.machine.front.Sound none
  inFlight : flight.inFlight = flight.machine.task.toList

theorem sound_start {shell : Shell} (idle : shell.activity = .idle) : (start shell).Sound :=
  ⟨Machine.sound_start idle, rfl⟩

/-- A move keeps the invariant. -/
theorem Sound.next (sound : flight.Sound) (move : Move) : (flight.next move).Sound := by
  refine ⟨Machine.sound_make sound.machine move, ?_⟩
  have change := Machine.change_make sound.machine move
  rw [Flight.next]
  dsimp only
  rw [sound.inFlight]
  generalize flight.machine.handedBack move = handed at change
  cases change with
  | kept task runs => simp [task, runs]
  | launched free task runs => simp [free, task, runs]
  | freed run waited task runs => simp [waited, task, runs]

end Flight

/-- Every flight that a shell can come to keeps the invariant. -/
theorem Reachable.sound {flight : Flight} (reachable : Reachable flight) : flight.Sound := by
  induction reachable with
  | start options sink store programs => exact Flight.sound_start rfl
  | next move _ sound => exact sound.next move
  | leave deserted _ sound =>
      exact Flight.sound_start (Machine.idle_shutDown sound.machine deserted)
  | @unscheduled shell event _ sound =>
      have idle : shell.activity = .idle := Machine.idle_of_free sound.machine rfl
      have outcome := shell.outcome_input false idle event
      generalize shell.input false event = result at outcome
      cases outcome with
      | done still => exact Flight.sound_start still
      | launched scheduled => cases scheduled
      | raised still => exact Flight.sound_start still

/-! ### Dispatch exclusivity -/

/-- What holds of every flight that a shell can come to. -/
structure Flight.Exclusive (flight : Flight) : Prop where
  /-- The shell runs exactly while it waits for a run. -/
  running_iff : flight.machine.shell.activity = .running ↔ flight.machine.task.isSome
  /-- It waits for a run exactly while one program is in flight. -/
  task_iff : flight.machine.task.isSome ↔ flight.inFlight.length = 1
  /-- That program is the only one, and the one that the shell waits for. -/
  inFlight : flight.inFlight = flight.machine.task.toList
  /-- No move starts a program while another one is in flight. -/
  started : ∀ move program, flight.machine.started move = some program → flight.inFlight = []
  /-- A move that starts none adds no run and plays no builtin program. -/
  unstarted : ∀ move, flight.machine.started move = none → flight.machine.Idles move
  /-- A supervisor calls the program that is in flight. -/
  begun : ∀ run, flight.machine.next? = some (.begin run) → flight.inFlight = [run]
  /-- The buffer of a running shell is empty. -/
  hushed : flight.machine.shell.activity = .running →
    flight.machine.shell.buffer = Buffer.empty
  /-- An input event changes nothing while the shell runs. -/
  deaf : flight.machine.shell.activity = .running →
    ∀ event, flight.machine.input event = flight.machine

/-- Dispatch is exclusive: in every flight that a shell can come to, at most one
program is in flight, the shell runs exactly while one is, no other is started
meanwhile, and input is ignored. -/
theorem Reachable.exclusive {flight : Flight} (reachable : Reachable flight) :
    flight.Exclusive := by
  obtain ⟨sound, inFlight⟩ := reachable.sound
  refine ⟨sound.active, ?_, inFlight, ?_, ?_, ?_, sound.hushed, ?_⟩
  · rw [inFlight]
    cases flight.machine.task <;> simp
  · intro move program started
    rw [inFlight, Machine.free_of_started sound started]
    rfl
  · exact fun move none => Machine.idles_of_started_none sound none
  · intro run next
    rw [inFlight, Machine.task_of_begin sound next]
    rfl
  · exact fun running event => Machine.input_of_running running event

/-- A shell with one external program, which waits at a gate, after that program was
called. -/
def Flight.waitingAtGate : Flight :=
  let program : Program := .external fun _ =>
    .defer false (.awaits [.gate "open"] (.stop (.returned (.number 0))))
  let shell := Shell.start {} .memory {} { entries := [("wait", program)] }
  ((Flight.start shell).next (.input "wait")).next (.input "\r")

theorem exclusive_waitingAtGate :
    Flight.waitingAtGate.inFlight = [0] ∧ Flight.waitingAtGate.Exclusive :=
  ⟨by decide +kernel, Reachable.exclusive (.next _ (.next _ (.start ..)))⟩

end LineShell
