/-
Module: LineShell.Proofs.Scheduler.Exclusive
Purpose: Every move keeps the count of attendants, so the shell runs exactly while
  it waits for a run that was launched.
Main exports: Machine.tick_cases, Machine.sound_input, Machine.sound_perform,
  Machine.sound_make
-/
import LineShell.Proofs.Scheduler.Attendance
import LineShell.Proofs.Scheduler.Course

namespace LineShell

namespace Machine

variable {machine : Machine}

/-! ### Single operations -/

theorem sound_start {shell : Shell} (idle : shell.activity = .idle) :
    (start shell).front.Sound none := by
  refine ⟨?_, ?_, ?_, ?_, ?_, ?_, ?_, ?_, rfl⟩
  · simp [front, start, Shell.bare, idle]
  · simp [front, start, Shell.bare, idle]
  · simp [front, start]
  · simp [front, start]
  · simp [front, start, Front.attendants]
  · simp [front, start]
  · simp [front, start, Front.progressOf]
  · simp [front, start, Front.progressOf]

/-- Changes of callers, and callbacks of callers that are queued. -/
theorem sound_callers (sound : machine.front.Sound none) {after : Machine}
    (shell : after.shell = machine.shell)
    (front : after.front.task = machine.front.task ∧ after.front.runs = machine.front.runs ∧
      after.front.inlined = machine.front.inlined ∧ after.front.later = machine.front.later)
    (jobs : ∃ calls : List Job, after.front.jobs = machine.front.jobs ++ calls ∧
      ∀ job ∈ calls, ∃ caller, job = .call caller) :
    after.front.Sound none := by
  obtain ⟨calls, eq, callers⟩ := jobs
  refine sound.congr front ?_ ?_ fun job other => ?_
  · exact congrArg (fun shell => shell.bare.activity) shell
  · intro running
    have bare : after.front.shell = machine.front.shell := congrArg Shell.bare shell
    rw [bare] at running ⊢
    exact sound.hushed running
  · rw [eq, List.count_append, Nat.add_eq_left, List.count_eq_zero]
    intro member
    obtain ⟨caller, same⟩ := callers job member
    exact (other caller).1 same

/-- A program is launched by a shell that waits for none. -/
theorem sound_launch (sound : machine.front.Sound none) (free : machine.task = none)
    {shell : Shell} (running : shell.activity = .running) (empty : shell.buffer = Buffer.empty)
    (launch : Launch) :
    (({ machine with shell := shell } : Machine).launch launch).front.Sound none := by
  have length : machine.front.runs.length = machine.runs.length := by simp [front]
  let after := ({ machine with shell := shell } : Machine).launch launch
  change after.front.Sound none
  refine sound.launch free running empty ?_ ?_ ?_ ⟨rfl, rfl⟩
  · simp [after, Machine.launch, front, queueAll, Job.isFront]
  · simp [after, Machine.launch, front, queueAll, Run.outline, Phase.progress]
  · rw [length]
    rfl

/-- Other changes of an idle shell keep it idle. -/
theorem sound_withShell (sound : machine.front.Sound none) {shell : Shell}
    (idle : machine.shell.activity = .idle) (still : shell.activity = .idle) :
    ({ machine with shell := shell } : Machine).front.Sound none := by
  refine sound.congr ⟨rfl, rfl, rfl, rfl⟩ (still.trans idle.symm) (fun running => ?_)
    fun _ _ => rfl
  exact absurd (still.symm.trans running) (by simp)

/-- A shell that waits for no run is idle. -/
theorem idle_of_free (sound : machine.front.Sound none) (free : machine.task = none) :
    machine.shell.activity = .idle := by
  cases active : machine.shell.activity with
  | idle => rfl
  | running =>
      have waited := sound.active.mp active
      change machine.task.isSome at waited
      rw [free] at waited
      cases waited

theorem free_of_idle (sound : machine.front.Sound none)
    (idle : machine.shell.activity = .idle) : machine.task = none := by
  cases task : machine.task with
  | none => rfl
  | some run =>
      have running := sound.active.mpr (congrArg Option.isSome task)
      exact absurd (idle.symm.trans running) (by simp)

/-- While a program runs an input event changes nothing on the whole machine. -/
theorem input_of_running (running : machine.shell.activity = .running) (event : Text) :
    machine.input event = machine := by
  rw [input, machine.shell.input_of_running true running]
  rfl

theorem sound_input (sound : machine.front.Sound none) (event : Text) :
    (machine.input event).front.Sound none := by
  cases active : machine.shell.activity with
  | running => rwa [input_of_running active]
  | idle =>
      have free := free_of_idle sound active
      have outcome := machine.shell.outcome_input true active event
      rw [input]
      generalize machine.shell.input true event = result at outcome
      cases outcome with
      | done still => exact sound_withShell sound active still
      | launched present running empty => exact sound_launch sound free running empty _
      | raised still empty => exact sound_withShell sound active still

/-! ### Callers -/

theorem sound_submitLine (sound : machine.front.Sound none) (free : machine.task = none)
    (caller : Nat) (line : Text) : (machine.submitLine caller line).front.Sound none := by
  have idle := idle_of_free sound free
  have ready : (machine.withLine line).front.Sound none := sound_withShell sound idle idle
  exact sound_callers (sound_input ready ['\r']) rfl ⟨rfl, rfl, rfl, rfl⟩
    ⟨[], (List.append_nil _).symm, by simp⟩

theorem sound_wait (sound : machine.front.Sound none) (caller : Nat) :
    (machine.wait caller).front.Sound none :=
  sound_callers sound rfl ⟨rfl, rfl, rfl, rfl⟩ ⟨[], (List.append_nil _).symm, by simp⟩

theorem sound_dismiss (sound : machine.front.Sound none) (caller : Nat)
    (outcome : Except Fault Int) : (machine.dismiss caller outcome).front.Sound none :=
  sound_callers sound rfl ⟨rfl, rfl, rfl, rfl⟩ ⟨[], (List.append_nil _).symm, by simp⟩

theorem sound_call (sound : machine.front.Sound none) (caller : Nat) :
    (machine.call caller).front.Sound none := by
  unfold call
  split
  · exact sound
  · next state _ =>
      split
      · exact sound_wait sound caller
      · next free =>
          split
          · exact sound_dismiss sound caller _
          · have submitted := sound_submitLine sound (by simpa using free) caller state.line
            dsimp only
            split
            · exact sound_dismiss submitted caller _
            · split
              · exact sound_wait submitted caller
              · exact sound_dismiss submitted caller _

theorem sound_exec (sound : machine.front.Sound none) (line : Text) :
    (machine.exec line).front.Sound none :=
  sound_callers sound rfl ⟨rfl, rfl, rfl, rfl⟩
    ⟨[.call machine.callers.length], by simp [exec, queue, front, Job.isFront], by simp⟩

theorem sound_enlist (sound : machine.front.Sound none) (line : Text) :
    (machine.enlist line).front.Sound none :=
  sound_callers sound rfl ⟨rfl, rfl, rfl, rfl⟩ ⟨[], (List.append_nil _).symm, by simp⟩

/-! ### Gates -/

/-- Opening a gate is not seen from the front. -/
theorem front_release (machine : Machine) (gate : Text) :
    (machine.release gate).front = machine.front := by
  have woken : ∀ (strands : List Nat) (machine : Machine),
      (strands.foldl unpark machine).front = machine.front := by
    intro strands
    induction strands with
    | nil => exact fun _ => rfl
    | cons strand others ih =>
        intro machine
        rw [List.foldl_cons, ih, front_unpark]
  exact woken _ _

/-! ### Steps -/

section Steps

variable {job : Job} {ready : List Job}

/-- The machine when a callback has been taken from the queue. -/
def pop (machine : Machine) (ready : List Job) (turn : Nat) : Machine :=
  { machine with ready := ready, turn := turn }

/-- A step runs the next callback of the turn, or it begins the next turn. -/
theorem tick_cases (machine : Machine) :
    (∃ job ready turn, machine.ready = job :: ready ∧ machine.next? = some job ∧
      machine.tick = (machine.pop ready turn).perform job) ∨
    (machine.next? = none ∧ machine.tick = machine.beginTurn) := by
  unfold tick next?
  cases machine.turn with
  | zero => exact .inr ⟨rfl, rfl⟩
  | succ turn =>
      cases next : machine.ready with
      | nil => exact .inr ⟨rfl, rfl⟩
      | cons job ready => exact .inl ⟨job, ready, turn, rfl, rfl, rfl⟩

theorem front_pop_of_aside (next : machine.ready = job :: ready) (turn : Nat)
    (aside : job.isFront = false) : (machine.pop ready turn).front = machine.front := by
  simp [pop, front, next, aside]

theorem jobs_of_isFront (next : machine.ready = job :: ready) (turn : Nat)
    (concerns : job.isFront = true) :
    machine.front.jobs = job :: (machine.pop ready turn).front.jobs := by
  simp [pop, front, next, concerns]

/-- The attendant of a run that is over frees the shell. -/
theorem sound_handBack (sound : machine.front.Sound none) (next : machine.ready = job :: ready)
    (turn : Nat) {run : Nat} (attendant : job = .attend run ∨ job = .finish run)
    (isOver : machine.front.runs[run]?.any Outline.isOver) (status : Option Int) :
    ((machine.pop ready turn).handBack status).front.Sound none := by
  have concerns : job.isFront = true := by
    rcases attendant with rfl | rfl <;> rfl
  have jobs : ((machine.pop ready turn).handBack status).front.jobs =
      (machine.pop ready turn).front.jobs ++ machine.waiting.map .freed := by
    rw [handBack, queueAll]
    simp only [front, List.filter_append]
    congr 1
    exact List.filter_eq_self.mpr (by simp [Job.isFront])
  exact sound.handBack (jobs_of_isFront next turn concerns) attendant isOver ⟨rfl, rfl, rfl⟩
    rfl rfl jobs (by simp)

/-- What the runs of a machine look like from the front. -/
theorem runs_front (run : Nat) :
    machine.front.runs[run]? = machine.runs[run]?.map Run.outline :=
  List.getElem?_map ..

theorem isOver_outline_of_closed {state : Run} {status : Option Int}
    (closed : state.phase = .closed status) : state.outline.isOver = true := by
  simp [Run.outline, Outline.isOver, Phase.progress, closed]

theorem isOver_outline_of_open {state : Run} (open' : ∀ status, state.phase ≠ .closed status) :
    state.outline.isOver = false := by
  rw [Run.outline, Outline.isOver]
  cases phase : state.phase with
  | closed status => exact absurd phase (open' status)
  | starting | inside | listening => rfl

theorem sound_attend (sound : machine.front.Sound none) {run : Nat}
    (next : machine.ready = .attend run :: ready) (turn : Nat) :
    ((machine.pop ready turn).attend run).front.Sound none := by
  have jobs := jobs_of_isFront next turn rfl
  have waited := sound.task_of_mem (jobs ▸ List.mem_cons_self) (.inl rfl)
  have known := sound.known run waited
  unfold attend
  split
  · next absent =>
      change machine.runs[run]? = none at absent
      simp [front] at known
      rw [List.getElem?_eq_none_iff] at absent
      omega
  · next state found =>
      have shown : machine.front.runs[run]? = some state.outline := by
        rw [runs_front]
        exact congrArg (Option.map Run.outline) found
      split
      · next status closed =>
          refine sound_handBack sound next turn (.inl rfl) ?_ status
          rw [shown]
          exact isOver_outline_of_closed closed
      · next open' =>
          have marked := sound.attend jobs shown (isOver_outline_of_open open')
          have runs : (machine.runs.modify run fun state =>
              { state with attended := true }).map Run.outline =
              machine.front.runs.modify run fun outline => { outline with attended := true } :=
            map_modify_comm machine.runs run fun _ => rfl
          rw [← runs] at marked
          exact marked

theorem sound_finish (sound : machine.front.Sound none) {run : Nat}
    (next : machine.ready = .finish run :: ready) (turn : Nat) :
    ((machine.pop ready turn).finish run).front.Sound none := by
  have jobs := jobs_of_isFront next turn rfl
  have isOver := sound.finishes run (jobs ▸ List.mem_cons_self)
  unfold finish
  split
  · next absent =>
      change machine.runs[run]? = none at absent
      rw [runs_front, absent] at isOver
      cases isOver
  · next state found =>
      change machine.runs[run]? = some state at found
      split
      · next status closed => exact sound_handBack sound next turn (.inr rfl) isOver status
      · next open' =>
          rw [runs_front, found, Option.map_some, Option.any_some,
            isOver_outline_of_open open'] at isOver
          cases isOver

/-- Taking a callback of a caller from the queue. -/
theorem sound_pop_callers (sound : machine.front.Sound none)
    (next : machine.ready = job :: ready) (turn : Nat) (concerns : job.isFront = true)
    {caller : Nat} (callers : job = .call caller ∨ job = .freed caller) :
    (machine.pop ready turn).front.Sound none := by
  refine sound.congr ⟨rfl, rfl, rfl, rfl⟩ rfl sound.hushed fun other differs => ?_
  rw [jobs_of_isFront next turn concerns, List.count_cons_of_ne]
  rcases callers with rfl | rfl
  · exact Ne.symm (differs caller).1
  · exact Ne.symm (differs caller).2

theorem sound_begin (sound : machine.front.Sound none) {run : Nat}
    (next : machine.ready = .begin run :: ready) (turn : Nat) :
    ((machine.pop ready turn).begin run).front.Sound none := by
  have jobs := jobs_of_isFront next turn rfl
  have starting := sound.begins run
  rw [jobs, List.count_cons_self] at starting
  have found : ∃ state, machine.runs[run]? = some state := by
    cases found : machine.runs[run]? with
    | some state => exact ⟨state, rfl⟩
    | none =>
        rw [Front.progressOf, runs_front, found] at starting
        simp at starting
  obtain ⟨state, found⟩ := found
  exact sound.begun jobs ((machine.pop ready turn).front_begin found)

/-- A callback keeps the invariant. -/
theorem sound_perform (sound : machine.front.Sound none) (next : machine.ready = job :: ready)
    (turn : Nat) : ((machine.pop ready turn).perform job).front.Sound none := by
  cases job with
  | begin run => exact sound_begin sound next turn
  | attend run => exact sound_attend sound next turn
  | finish run => exact sound_finish sound next turn
  | call caller => exact sound_call (sound_pop_callers sound next turn rfl (.inl rfl)) caller
  | freed caller =>
      have popped := sound_pop_callers sound next turn rfl (.inr rfl)
      exact sound_callers popped rfl ⟨rfl, rfl, rfl, rfl⟩
        ⟨[.call caller], by simp [perform, queue, front, Job.isFront], by simp⟩
  | signalled | expire | conclude | reap | resume | alarm =>
      have same := front_pop_of_aside next turn rfl
      exact (same ▸ sound).aside (front_perform _ rfl)

/-- The beginning of a turn is not seen from the front. -/
theorem front_beginTurn (later : machine.front.later = []) :
    machine.beginTurn.front = machine.front := by
  have aside : ∀ timer ∈ machine.timers, timer.job.isFront = false := by
    simpa [front] using later
  have none : ∀ timers : List Timer, (∀ timer ∈ timers, timer ∈ machine.timers) →
      (timers.map Timer.job).filter Job.isFront = [] := by
    intro timers among
    rw [List.filter_eq_nil_iff]
    intro job member
    obtain ⟨timer, found, rfl⟩ := List.mem_map.mp member
    simp [aside timer (among timer found)]
  have ready : (machine.beginTurn.ready).filter Job.isFront =
      machine.ready.filter Job.isFront := by
    rw [beginTurn, List.filter_append, none _ fun _ member => (List.mem_filter.mp member).1,
      List.append_nil]
  have put : (machine.beginTurn.timers.map Timer.job).filter Job.isFront = [] :=
    none _ fun _ member => (List.mem_filter.mp member).1
  rw [front, ready, put, ← later]
  rfl

theorem sound_tick (sound : machine.front.Sound none) : machine.tick.front.Sound none := by
  rcases machine.tick_cases with ⟨job, ready, turn, next, _, ticked⟩ | ⟨_, ticked⟩
  · rw [ticked]
    exact sound_perform sound next turn
  · rwa [ticked, front_beginTurn sound.later]

/-- Every move keeps the invariant. -/
theorem sound_make (sound : machine.front.Sound none) (move : Move) :
    (machine.make move).front.Sound none := by
  cases move with
  | input event => exact sound_input sound event
  | exec line => exact sound_exec sound line
  | carryOut line => exact sound_call (sound_enlist sound line) _
  | release gate =>
      change (machine.release gate).front.Sound none
      rwa [front_release]
  | elapse moment => exact sound
  | step => exact sound_tick sound

end Steps

end Machine

end LineShell
