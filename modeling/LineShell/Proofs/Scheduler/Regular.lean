/-
Module: LineShell.Proofs.Scheduler.Regular
Purpose: What holds of a machine on all courses, and what a move means to one run: what its
  callbacks come with, what it sends in them, and what the other moves leave of it.
Main exports: Machine.Regular, Machine.regular_makeAll, Machine.Grounded,
  Machine.Regular.grounded, Machine.callback?, Machine.sendsAll, Machine.Touches
-/
import LineShell.Proofs.Scheduler.Lineage
import LineShell.Proofs.Scheduler.Progress
import LineShell.Proofs.Scheduler.Sends

namespace LineShell

/-!
A run is moved by its own callbacks only.  Whatever else happens launches it, lets time pass, or
leaves its docket alone, and `Machine.Touches` says which.
-/

namespace Machine

/-! ### What holds of a machine -/

/-- What holds of a machine on all courses, whatever its programs are. -/
structure Regular (machine : Machine) (called : List (Nat × Rat)) : Prop where
  sound : machine.front.Sound none
  alert : machine.Alert called none none
  faithful : machine.Faithful

/-- What the callbacks of a run come with: a program is called once, its strands are played
after that, and an external program is waited for only if it was deferred. -/
structure Grounded (machine : Machine) (called : List (Nat × Rat)) (run : Nat) (state : Run)
    (job : Job) : Prop where
  begins : job = .begin run → state.phase = .starting ∧ (run, machine.now) ∈ called
  plays : ∀ number strand, job = .resume number → machine.strands[number]? = some strand →
    strand.run = run → state.phase ≠ .starting ∧
      (strand.role = .inline → strand.ended = false →
        state.phase = .inside ∧ state.launch.kind = .external)
  awaits : ∀ woken, state.phase = .listening woken → state.launch.kind = .external →
    state.launch.start.defers = true

/-- The callback of a move, if it works for a run. -/
def callback? (machine : Machine) (run : Nat) : Move → Option Job
  | .step => machine.next?.filter fun job => machine.ward job = some run
  | _ => none

/-- What a run sends in a move while it is not over. -/
def sends (machine : Machine) (run : Nat) (move : Move) : List Int :=
  (machine.callback? run move).elim [] (machine.sent run)

/-- What a run sends on a course while it is not over. -/
def sendsAll (machine : Machine) (run : Nat) : List Move → List Int
  | [] => []
  | move :: moves => machine.sends run move ++ (machine.make move).sendsAll run moves

variable {machine : Machine} {called : List (Nat × Rat)} {sent : List Int} {run number : Nat}
  {state : Run} {strand : Strand} {job : Job} {ready : List Job}

theorem alert_start (shell : Shell) : (Machine.start shell).Alert [] none none := by
  refine ⟨?_, ?_, ?_, ?_⟩ <;> simp [Machine.start]

theorem regular_start {shell : Shell} (sound : (Machine.start shell).front.Sound none) :
    (Machine.start shell).Regular [] :=
  ⟨sound, alert_start shell, faithful_start shell⟩

theorem regular_make (regular : machine.Regular called) (move : Move) :
    (machine.make move).Regular (called ++ machine.callOf move) :=
  ⟨sound_make regular.sound move, alert_make regular.sound regular.alert move,
    faithful_make regular.sound regular.faithful move⟩

theorem regular_makeAll (regular : machine.Regular called) (moves : List Move) :
    (machine.makeAll moves).Regular (called ++ machine.calls moves) := by
  induction moves generalizing machine called with
  | nil =>
      rw [calls, List.append_nil]
      exact regular
  | cons move moves ih =>
      rw [calls, ← List.append_assoc]
      exact ih (regular_make regular move)

/-- A strand that is played in its supervisor's place finds it waiting there. -/
theorem inside_of_inline (sound : machine.front.Sound none)
    (here : machine.strands[number]? = some strand) (live : strand.ended = false)
    (inline : strand.role = .inline) (found : machine.runs[strand.run]? = some state) :
    state.phase = .inside := by
  have plays : strand.inlinedRun? = some strand.run := by
    simp [Strand.inlinedRun?, inline, live]
  have member : strand.run ∈ machine.front.inlined :=
    List.mem_filterMap.mpr ⟨strand, List.mem_iff_getElem?.mpr ⟨number, here⟩, plays⟩
  have counted := sound.inlined strand.run
  have positive := List.count_pos_iff.mpr member
  split at counted
  · next inside =>
      have progress : state.phase.progress = .inside := by
        have progress := inside.1
        rw [Front.progressOf, runs_front, found] at progress
        exact Option.some.inj progress
      cases phase : state.phase <;> simp [phase, Phase.progress] at progress
      rfl
  · omega

/-- A callback that is ready comes with what it needs. -/
theorem Regular.grounded (regular : machine.Regular called) (next : machine.ready = job :: ready)
    (turn : Nat) (found : machine.runs[run]? = some state) :
    (machine.pop ready turn).Grounded (called ++ machine.calledBy job) run state job := by
  refine ⟨?_, ?_, (regular.alert.runs run state found).external⟩
  · rintro rfl
    obtain ⟨other, here, starting⟩ :=
      starting_of_begin regular.sound (next ▸ List.mem_cons_self)
    obtain rfl := Option.some.inj (found.symm.trans here)
    exact ⟨starting, List.mem_append_right _ List.mem_cons_self⟩
  · rintro number strand rfl here rfl
    obtain ⟨other, there, begun⟩ := regular.alert.follows_owned here
    obtain rfl := Option.some.inj (found.symm.trans there)
    refine ⟨fun starting => (by cases begun starting), fun inline live => ?_⟩
    have inside := inside_of_inline regular.sound here live inline found
    exact ⟨inside, ((regular.alert.runs _ state found).inside inside).1⟩

/-- Without a run there is nothing to be done. -/
theorem perform_of_absent (alert : machine.Alert called none none)
    (absent : machine.runs[run]? = none) (own : machine.ward job = some run) (turn : Nat) :
    (machine.pop ready turn).perform job = machine.pop ready turn ∧ machine.deedsOf job = [] := by
  have nobody : (machine.pop ready turn).runs[run]? = none := absent
  cases job with
  | resume strand =>
      obtain ⟨going, here, rfl⟩ := Option.map_eq_some_iff.mp own
      obtain ⟨owner, there, -⟩ := alert.follows_owned here
      cases absent.symm.trans there
  | attend | finish | alarm | freed | call => cases own
  | begin other | signalled other | expire other | conclude other | reap other =>
      obtain rfl := Option.some.inj own
      simp [perform, deedsOf, Machine.begin, signalled, expire, conclude, reap, absent, nobody]

/-- A run that is not over is the one that the shell waits for. -/
theorem running_of_open (sound : machine.front.Sound none) (found : machine.runs[run]? = some state)
    (going : state.isOver = false) :
    machine.task = some run ∧ machine.shell.activity = .running := by
  have outline : machine.front.runs[run]? = some state.outline := by
    rw [runs_front, found]
    rfl
  have open' : state.outline.isOver = false := by
    refine isOver_outline_of_open fun status closed => ?_
    rw [Run.isOver, closed] at going
    cases going
  have waited : machine.task = some run := sound.unfinished run _ outline open'
  exact ⟨waited, sound.active.mpr (Option.isSome_of_eq_some waited)⟩

/-- The shell is put back to work with the status of the run. -/
theorem status_of_handedBack {status : Option Int} {move : Move}
    (found : machine.runs[run]? = some state) (closed : state.phase = .closed status)
    (handed : machine.handedBack move = some run) :
    (machine.make move).shell.status = status.getD statusFailure := by
  have exit : machine.exitOf run = status.getD statusFailure := by
    rw [exitOf, found, Option.map_some, closed]
    cases status <;> rfl
  rw [(machine.treats_make move).of_handedBack handed, exit]
  rfl

/-! ### What a move means to a run -/

/-- What a move means to a run: its callback, if it works for the run, the calls of programs,
and the machine that it leads to. -/
inductive Touches (machine : Machine) (run : Nat) :
    Option Job → List (Nat × Rat) → Machine → Prop where
  /-- The run is launched, or nothing happens. -/
  | admitted {after : Machine} (admits : (machine.docket run).Admits (after.docket run)) :
      Touches machine run none [] after
  | elapsed (moment : Rat) : Touches machine run none [] (machine.elapse moment)
  | turned : Touches machine run none [] machine.beginTurn
  | aside {job : Job} {ready : List Job} (turn : Nat) (next : machine.ready = job :: ready)
      (aside : machine.ward job ≠ some run) :
      Touches machine run none (machine.calledBy job) ((machine.pop ready turn).perform job)
  | owned {job : Job} {ready : List Job} (turn : Nat) (next : machine.ready = job :: ready)
      (own : machine.ward job = some run) :
      Touches machine run (some job) (machine.calledBy job)
        ((machine.pop ready turn).perform job)

theorem touches_make (machine : Machine) (run : Nat) (move : Move) :
    machine.Touches run (machine.callback? run move) (machine.callOf move)
      (machine.make move) := by
  cases move with
  | input event => exact .admitted (machine.docket_input event)
  | exec line => exact .admitted (.inl (machine.docket_queue rfl))
  | carryOut line => exact .admitted ((machine.enlist line).docket_call _)
  | release gate => exact .admitted (.inl (machine.docket_release gate))
  | elapse moment => exact .elapsed moment
  | step =>
      change machine.Touches run _ _ machine.tick
      rcases machine.tick_cases with ⟨job, ready, turn, next, shown, ticked⟩ | ⟨nothing, ticked⟩
      · have call : machine.callOf .step = machine.calledBy job := by rw [callOf, shown]; rfl
        rw [call, ticked]
        by_cases own : machine.ward job = some run
        · have callback : machine.callback? run .step = some job := by
            simp [callback?, shown, own]
          exact callback ▸ .owned turn next own
        · have callback : machine.callback? run .step = none := by
            simp [callback?, shown, own]
          exact callback ▸ .aside turn next own
      · have call : machine.callOf .step = [] := by rw [callOf, nothing]; rfl
        have callback : machine.callback? run .step = none := by simp [callback?, nothing]
        rw [call, callback, ticked]
        exact .turned

theorem deeds_of_callback {move : Move} (callback : machine.callback? run move = some job) :
    machine.deeds move = machine.deedsOf job := by
  cases move with
  | step => rw [deeds, (Option.filter_eq_some_iff.mp callback).1]
  | input | exec | carryOut | release | elapse => cases callback

/-- Time passes. -/
theorem lowers_elapse (machine : Machine) (moment : Rat) :
    (machine.docket run).Lowers called ((machine.elapse moment).docket run) :=
  ⟨rfl, rfl, rfl, le_max_left _ _, id, id, .inl, fun _ => id⟩

/-- A callback is taken from the queue. -/
theorem lowers_pop (next : machine.ready = job :: ready) (turn : Nat) :
    (machine.docket run).Lowers called ((machine.pop ready turn).docket run) := by
  obtain ⟨told, due, before, earlier, popped⟩ := machine.docket_pop run next turn
  rw [popped]
  exact ⟨rfl, rfl, rfl, le_rfl, id, before, fun due => .inl (earlier due), fun _ => id⟩

/-- The timers that are due join the queue. -/
theorem lowers_beginTurn (fair : (machine.docket run).Fair called sent) :
    (machine.docket run).Lowers called (machine.beginTurn.docket run) := by
  have joined : ∀ job, job ∈ machine.beginTurn.ready → job ∈ machine.ready ∨
      ∃ timer ∈ machine.timers, timer.job = job ∧ timer.due ≤ machine.now := by
    intro job member
    refine (List.mem_append.mp member).imp_right fun due => ?_
    obtain ⟨timer, there, same⟩ := List.mem_map.mp due
    obtain ⟨set, passed⟩ := List.mem_filter.mp there
    exact ⟨timer, set, same, of_decide_eq_true passed⟩
  refine ⟨rfl, rfl, rfl, le_rfl, id, fun told => ?_, fun due => ?_,
    fun timer ⟨set, wakes⟩ => ⟨List.mem_of_mem_filter set, wakes⟩⟩
  · rcases joined _ (of_decide_eq_true told) with before | ⟨timer, set, same, -⟩
    · exact decide_eq_true before
    · obtain ⟨expires, -⟩ := fair.alarms timer ⟨set, by simp [same, Job.wakes]⟩
      cases same.symm.trans expires
  · rcases joined _ (of_decide_eq_true due) with before | ⟨timer, set, same, passed⟩
    · exact .inl (decide_eq_true before)
    · obtain ⟨-, deadline⟩ := fair.alarms timer ⟨set, by simp [same, Job.wakes]⟩
      exact .inr ⟨timer.due, deadline, passed⟩

/-- A supervisor is woken for a reason, when it is told so. -/
theorem reason_of_ready (fair : (machine.docket run).Fair called sent)
    (next : machine.ready = job :: ready) (found : machine.runs[run]? = some state)
    (woken : job = .signalled run ∨ job = .expire run) :
    state.HasNews ∨ (machine.docket run).Overdue called := by
  have member : job ∈ machine.ready := next ▸ List.mem_cons_self
  rcases woken with rfl | rfl
  · exact .inl (fair.news state found (decide_eq_true member))
  · exact .inr (fair.due (decide_eq_true member))

end Machine

end LineShell
