/-
Module: LineShell.Proofs.Scheduler.Alert
Purpose: The invariant that nothing is forgotten: whatever waits on a machine is going to be
  woken by a callback, a timer or the host; and what the single operations do to it.
Main exports: Machine.IsSet, Machine.Follows, Machine.Watches, Machine.Manned,
  Machine.Alert, Machine.Extends, Machine.Alert.of_extends
-/
import LineShell.Proofs.Scheduler.Desk
import Mathlib.Tactic.Tauto

namespace LineShell

/-!
A strand that is not over is going to go on: a callback of it is ready, or a timer is set,
or it waits at a gate that is closed.  A supervisor that waits is going to be woken once
there is something to wake it for: the completion signal has been decided, the program has
ended, or the timeout has passed.  As long as there is nothing of the kind the program is
not over: its main strand is left, or for an internal program at least a strand that could
send the signal.

The invariant is kept by every operation, and so it has two parameters for the moments when
it is about to be restored: the callback `held` has been taken from the queue and has not
done its work, and the run `spared` has lost a strand.
-/

/-- Whether something is left to be awaited when the call of a program has returned. -/
def Start.defers (start : Start) : Bool :=
  match start.called with
  | .deferred _ _ => true
  | .ended _ => false

/-- Whether a run has been called, or its call is the callback that runs. -/
def Run.IsBegun (held : Option Job) (run : Nat) (state : Run) : Prop :=
  state.phase = .starting → held = some (.begin run)

/-- Whether a supervisor waits for a completion signal that has not been decided. -/
def Run.AwaitsSignal (state : Run) : Prop :=
  (∃ woken, state.phase = .listening woken) ∧ state.launch.kind = .internal ∧
    state.completion = .pending

/-- Whether a change of a strand is none to its run: the strand is as it was, and holds the
completion signal if it held it. -/
structure Strand.Stays (strand after : Strand) : Prop where
  run : after.run = strand.run
  role : after.role = strand.role
  ended : after.ended = strand.ended
  holds : strand.holds = true → after.holds = true

namespace Machine

/-! ### The invariant -/

/-- Whether a callback is going to run, or runs. -/
def IsSet (machine : Machine) (held : Option Job) (job : Job) : Prop :=
  job ∈ machine.ready ∨ held = some job

/-- Whether a strand of a run, of some kind, is not over. -/
def Lives (machine : Machine) (run : Nat) (kind : Strand → Prop) : Prop :=
  ∃ (number : Nat) (strand : Strand), machine.strands[number]? = some strand ∧
    strand.run = run ∧ strand.ended = false ∧ kind strand

/-- What holds of a strand. -/
structure Follows (machine : Machine) (held : Option Job) (number : Nat) (strand : Strand) :
    Prop where
  goes : strand.ended = false → strand.parked = false → machine.IsSet held (.resume number)
  waits : strand.ended = false → strand.parked = true →
    (∃ gate, (gate, number) ∈ machine.atGates ∧ gate ∉ machine.openGates) ∨
      machine.IsSet held (.alarm number) ∨
        ∃ timer ∈ machine.timers, timer.job = .alarm number
  owned : ∃ state, machine.runs[strand.run]? = some state ∧ state.IsBegun held strand.run

/-- What holds of a run; `called` are the runs that were called, with the times of their
calls. -/
structure Watches (machine : Machine) (called : List (Nat × Rat)) (held : Option Job)
    (run : Nat) (state : Run) : Prop where
  new : state.phase = .starting → state.ending = none
  noted : state.IsBegun held run → ∃ moment, (run, moment) ∈ called
  /-- Only an external program is played in its supervisor's place, and without a timeout. -/
  inside : state.phase = .inside → state.launch.kind = .external ∧
    state.launch.start.defers = true ∧ machine.shell.options.timeout = none
  external : ∀ woken, state.phase = .listening woken → state.launch.kind = .external →
    state.launch.start.defers = true
  concludes : state.phase = .listening true → machine.IsSet held (.conclude run)
  signalled : state.phase = .listening false →
    state.completion.isDecided = true ∨ state.ending.isSome → machine.IsSet held (.signalled run)
  timed : state.phase = .listening false → ∀ moment seconds, (run, moment) ∈ called →
    machine.shell.options.timeout.bind Numeral.value? = some seconds →
      machine.IsSet held (.expire run) ∨
        ∃ timer ∈ machine.timers, timer.job = .expire run ∧ timer.due = moment + seconds

/-- A program that is waited for is not over, unless it has been seen to end. -/
structure Manned (machine : Machine) (run : Nat) (state : Run) : Prop where
  main : ∀ woken, state.phase = .listening woken → state.launch.start.defers = true →
    state.ending = none → machine.Lives run (·.role = .main)
  sender : state.AwaitsSignal → machine.Lives run (·.holds = true)

/-- The invariant. -/
structure Alert (called : List (Nat × Rat)) (held : Option Job) (spared : Option Nat)
    (machine : Machine) : Prop where
  strands : ∀ (number : Nat) (strand : Strand), machine.strands[number]? = some strand →
    machine.Follows held number strand
  runs : ∀ (run : Nat) (state : Run), machine.runs[run]? = some state →
    machine.Watches called held run state
  manned : ∀ (run : Nat) (state : Run), machine.runs[run]? = some state → spared ≠ some run →
    machine.Manned run state
  called : ∀ (run : Nat) (moment : Rat), (run, moment) ∈ called →
    ∃ state, machine.runs[run]? = some state ∧ state.IsBegun held run

/-! ### Changes that take nothing away -/

/-- Whether all runs are left, and none that was called is as before its call. -/
def RunsStay (machine after : Machine) : Prop :=
  ∀ (run : Nat) (state : Run), machine.runs[run]? = some state →
    ∃ state', after.runs[run]? = some state' ∧ (state'.phase = .starting → state.phase = .starting)

/-- Whether whatever is going to wake a strand is left. -/
structure KeepsStrand (machine after : Machine) (number : Nat) : Prop where
  ready : ∀ job ∈ machine.ready, job ∈ after.ready
  timers : ∀ timer ∈ machine.timers, timer.job = .alarm number → timer ∈ after.timers
  gates : ∀ gate, (gate, number) ∈ machine.atGates → gate ∉ machine.openGates →
    (gate, number) ∈ after.atGates ∧ gate ∉ after.openGates

/-- Whether whatever is going to wake a supervisor is left. -/
structure KeepsRun (machine after : Machine) (run : Nat) : Prop where
  ready : ∀ job ∈ machine.ready, job ∈ after.ready
  timers : ∀ timer ∈ machine.timers, timer.job = .expire run → timer ∈ after.timers
  options : after.shell.options = machine.shell.options

/-- Whether the strands of a run that are not over are left. -/
def KeepsLives (machine after : Machine) (run : Nat) : Prop :=
  ∀ (number : Nat) (strand : Strand), machine.strands[number]? = some strand →
    strand.run = run → strand.ended = false →
      ∃ strand', after.strands[number]? = some strand' ∧ strand.Stays strand'

variable {machine after later : Machine} {called : List (Nat × Rat)} {held : Option Job}
  {spared : Option Nat} {run number : Nat} {state : Run} {strand : Strand} {job : Job}

/-- A strand that lives goes on living, and stays what it was. -/
theorem Lives.keep {kind : Strand → Prop} (lives : machine.Lives run kind)
    (keeps : machine.KeepsLives after run)
    (stays : ∀ strand strand', strand.Stays strand' → kind strand → kind strand') :
    after.Lives run kind := by
  obtain ⟨number, strand, found, owner, live, here⟩ := lives
  obtain ⟨strand', found', same⟩ := keeps number strand found owner live
  exact ⟨number, strand', found', same.run.trans owner, same.ended.trans live,
    stays strand strand' same here⟩

theorem Lives.keepMain (lives : machine.Lives run (·.role = .main))
    (keeps : machine.KeepsLives after run) : after.Lives run (·.role = .main) :=
  lives.keep keeps fun _ _ same main => same.role.trans main

theorem Lives.keepHolder (lives : machine.Lives run (·.holds = true))
    (keeps : machine.KeepsLives after run) : after.Lives run (·.holds = true) :=
  lives.keep keeps fun _ _ same => same.holds

theorem KeepsLives.refl (machine : Machine) (run : Nat) : machine.KeepsLives machine run :=
  fun _ strand found _ _ => ⟨strand, found, rfl, rfl, rfl, id⟩

theorem KeepsLives.trans (first : machine.KeepsLives after run)
    (second : after.KeepsLives later run) : machine.KeepsLives later run := by
  intro number strand found owner live
  obtain ⟨strand', found', same⟩ := first number strand found owner live
  obtain ⟨strand'', found'', same'⟩ :=
    second number strand' found' (same.run.trans owner) (same.ended.trans live)
  exact ⟨strand'', found'', same'.run.trans same.run, same'.role.trans same.role,
    same'.ended.trans same.ended, fun holds => same'.holds (same.holds holds)⟩

/-- Strands that are added take nothing away. -/
theorem keepsLives_append {strands : List Strand}
    (added : ∃ others, strands = machine.strands ++ others) (same : after.strands = strands)
    (run : Nat) : machine.KeepsLives after run := by
  obtain ⟨others, rfl⟩ := added
  intro number strand found owner live
  have bound := (List.getElem?_eq_some_iff.mp found).1
  refine ⟨strand, ?_, rfl, rfl, rfl, id⟩
  rw [same, List.getElem?_append_left bound, found]

/-- A callback that is set stays set as long as the queue only grows. -/
theorem IsSet.mono (set : machine.IsSet held job)
    (ready : ∀ job ∈ machine.ready, job ∈ after.ready) : after.IsSet held job :=
  set.imp_left (ready job)

theorem Follows.keep (follows : machine.Follows held number strand)
    (keeps : machine.KeepsStrand after number) (stay : machine.RunsStay after) :
    after.Follows held number strand := by
  refine ⟨fun live free => (follows.goes live free).mono keeps.ready, fun live parked => ?_, ?_⟩
  · rcases follows.waits live parked with ⟨gate, here, closed⟩ | set | ⟨timer, here, alarm⟩
    · exact .inl ⟨gate, keeps.gates gate here closed⟩
    · exact .inr (.inl (set.mono keeps.ready))
    · exact .inr (.inr ⟨timer, keeps.timers timer here alarm, alarm⟩)
  · obtain ⟨state, found, begun⟩ := follows.owned
    obtain ⟨state', found', stays⟩ := stay _ state found
    exact ⟨state', found', fun starting => begun (stays starting)⟩

theorem Watches.keep (watches : machine.Watches called held run state)
    (keeps : machine.KeepsRun after run) : after.Watches called held run state := by
  refine ⟨watches.new, watches.noted, fun inside => ?_, watches.external,
    fun woken => (watches.concludes woken).mono keeps.ready,
    fun listening told => (watches.signalled listening told).mono keeps.ready,
    fun listening moment seconds begun timeout => ?_⟩
  · rw [keeps.options]
    exact watches.inside inside
  · rw [keeps.options] at timeout
    rcases watches.timed listening moment seconds begun timeout with set | ⟨timer, here, job, due⟩
    · exact .inl (set.mono keeps.ready)
    · exact .inr ⟨timer, keeps.timers timer here job, job, due⟩

/-- Who works for a run goes on working for it. -/
theorem Manned.keep (manned : machine.Manned run state) (keeps : machine.KeepsLives after run) :
    after.Manned run state :=
  ⟨fun woken listening defers going => (manned.main woken listening defers going).keepMain keeps,
    fun awaits => (manned.sender awaits).keepHolder keeps⟩

/-- A run that is over asks for nothing. -/
theorem watches_closed {status : Option Int} (closed : state.phase = .closed status)
    (noted : ∃ moment, (run, moment) ∈ called) : machine.Watches called held run state := by
  refine ⟨?_, fun _ => noted, ?_, ?_, ?_, ?_, ?_⟩ <;> rw [closed] <;> simp

/-- A run that is over needs nobody. -/
theorem manned_closed {status : Option Int} (closed : state.phase = .closed status) :
    machine.Manned run state := by
  refine ⟨?_, ?_⟩ <;> simp [Run.AwaitsSignal, closed]

/-- A change keeps the invariant if what it leaves alone keeps what is going to wake it. -/
theorem Alert.of_keeps (alert : machine.Alert called held spared) (stay : machine.RunsStay after)
    (strands : ∀ (number : Nat) (strand : Strand), after.strands[number]? = some strand →
      (machine.strands[number]? = some strand ∧ machine.KeepsStrand after number) ∨
        after.Follows held number strand)
    (runs : ∀ (run : Nat) (state : Run), after.runs[run]? = some state →
      (machine.runs[run]? = some state ∧ machine.KeepsRun after run) ∨
        after.Watches called held run state)
    (manned : ∀ (run : Nat) (state : Run), after.runs[run]? = some state → spared ≠ some run →
      (machine.runs[run]? = some state ∧ machine.KeepsLives after run) ∨
        after.Manned run state) : after.Alert called held spared := by
  refine ⟨fun number strand found => ?_, fun run state found => ?_,
    fun run state found kept => ?_, fun run moment member => ?_⟩
  · rcases strands number strand found with ⟨old, keeps⟩ | follows
    · exact (alert.strands number strand old).keep keeps stay
    · exact follows
  · rcases runs run state found with ⟨old, keeps⟩ | watches
    · exact (alert.runs run state old).keep keeps
    · exact watches
  · rcases manned run state found kept with ⟨old, keeps⟩ | there
    · exact (alert.manned run state old kept).keep keeps
    · exact there
  · obtain ⟨state, found, begun⟩ := alert.called run moment member
    obtain ⟨state', found', stays⟩ := stay run state found
    exact ⟨state', found', fun starting => begun (stays starting)⟩

/-- Whether a change takes nothing away. -/
structure Extends (machine after : Machine) : Prop where
  ready : ∀ job ∈ machine.ready, job ∈ after.ready
  timers : ∀ timer ∈ machine.timers, timer ∈ after.timers
  atGates : ∀ entry ∈ machine.atGates, entry ∈ after.atGates
  openGates : after.openGates = machine.openGates
  options : after.shell.options = machine.shell.options
  now : after.now = machine.now
  runs : machine.RunsStay after
  lives : ∀ run, machine.KeepsLives after run

theorem Extends.refl (machine : Machine) : machine.Extends machine :=
  ⟨fun _ => id, fun _ => id, fun _ => id, rfl, rfl, rfl,
    fun _ state found => ⟨state, found, id⟩, .refl machine⟩

/-- What extends an extension extends the machine. -/
theorem Extends.trans (first : machine.Extends after) (second : after.Extends later) :
    machine.Extends later := by
  refine ⟨fun job member => second.ready job (first.ready job member),
    fun timer member => second.timers timer (first.timers timer member),
    fun entry member => second.atGates entry (first.atGates entry member),
    second.openGates.trans first.openGates, second.options.trans first.options,
    second.now.trans first.now, fun run state found => ?_,
    fun run => (first.lives run).trans (second.lives run)⟩
  obtain ⟨state', found', stays⟩ := first.runs run state found
  obtain ⟨state'', found'', stays'⟩ := second.runs run state' found'
  exact ⟨state'', found'', fun starting => stays (stays' starting)⟩

theorem Extends.keepsStrand (ext : machine.Extends after) (number : Nat) :
    machine.KeepsStrand after number :=
  ⟨ext.ready, fun timer member _ => ext.timers timer member,
    fun _ member closed => ⟨ext.atGates _ member, ext.openGates ▸ closed⟩⟩

theorem Extends.keepsRun (ext : machine.Extends after) (run : Nat) : machine.KeepsRun after run :=
  ⟨ext.ready, fun timer member _ => ext.timers timer member, ext.options⟩

/-- A change that takes nothing away keeps the invariant if it holds of what is new. -/
theorem Alert.of_extends (alert : machine.Alert called held spared) (ext : machine.Extends after)
    (strands : ∀ (number : Nat) (strand : Strand), after.strands[number]? = some strand →
      machine.strands[number]? = some strand ∨ after.Follows held number strand)
    (runs : ∀ (run : Nat) (state : Run), after.runs[run]? = some state →
      machine.runs[run]? = some state ∨
        (after.Watches called held run state ∧ (spared ≠ some run → after.Manned run state))) :
    after.Alert called held spared := by
  refine alert.of_keeps ext.runs (fun number strand found => ?_) (fun run state found => ?_)
    fun run state found kept => ?_
  · exact (strands number strand found).imp_left fun old => ⟨old, ext.keepsStrand number⟩
  · exact (runs run state found).imp (fun old => ⟨old, ext.keepsRun run⟩) fun there => there.1
  · exact (runs run state found).imp (fun old => ⟨old, ext.lives run⟩) fun there => there.2 kept

/-- Changes of other parts, with which nothing is taken away. -/
theorem extends_of_same (strands : after.strands = machine.strands)
    (runs : after.runs = machine.runs) (ready : ∀ job ∈ machine.ready, job ∈ after.ready)
    (timers : ∀ timer ∈ machine.timers, timer ∈ after.timers)
    (gates : after.atGates = machine.atGates ∧ after.openGates = machine.openGates)
    (rest : after.shell.options = machine.shell.options ∧ after.now = machine.now) :
    machine.Extends after := by
  refine ⟨ready, timers, fun entry member => gates.1 ▸ member, gates.2, rest.1, rest.2,
    fun run state found => ⟨state, runs ▸ found, id⟩,
    keepsLives_append ⟨[], (List.append_nil _).symm⟩ strands⟩

theorem Alert.of_same (alert : machine.Alert called held spared) (ext : machine.Extends after)
    (strands : after.strands = machine.strands) (runs : after.runs = machine.runs) :
    after.Alert called held spared :=
  alert.of_extends ext (fun _ _ found => .inl (strands ▸ found))
    fun _ _ found => .inl (runs ▸ found)

/-! ### Callbacks, timers and the shell -/

theorem extends_queueAll (machine : Machine) (jobs : List Job) :
    machine.Extends (machine.queueAll jobs) :=
  extends_of_same rfl rfl (fun _ member => List.mem_append_left _ member) (fun _ => id) ⟨rfl, rfl⟩
    ⟨rfl, rfl⟩

theorem extends_queue (machine : Machine) (job : Job) : machine.Extends (machine.queue job) :=
  machine.extends_queueAll [job]

theorem mem_insertTimer (timer other : Timer) (timers : List Timer) :
    other ∈ insertTimer timer timers ↔ other = timer ∨ other ∈ timers := by
  induction timers with
  | nil => simp [insertTimer]
  | cons first others ih =>
      rw [insertTimer]
      split
      · simp
      · simp only [List.mem_cons, ih]
        tauto

theorem extends_after (machine : Machine) (seconds : Rat) (job : Job) :
    machine.Extends (machine.after seconds job) :=
  extends_of_same rfl rfl (fun _ => id)
    (fun _ member => (mem_insertTimer _ _ _).mpr (.inr member)) ⟨rfl, rfl⟩ ⟨rfl, rfl⟩

theorem mem_timers_after (machine : Machine) (seconds : Rat) (job : Job) :
    { due := machine.now + seconds, job := job } ∈ (machine.after seconds job).timers :=
  (mem_insertTimer _ _ _).mpr (.inl rfl)

/-- The shell has no part in who waits for whom, but for the timeout among its options. -/
theorem extends_withShell (machine : Machine) (change : Shell → Shell)
    (options : (change machine.shell).options = machine.shell.options) :
    machine.Extends (machine.withShell change) :=
  extends_of_same rfl rfl (fun _ => id) (fun _ => id) ⟨rfl, rfl⟩ ⟨options, rfl⟩

theorem runs_notify (machine : Machine) (run : Nat) :
    (machine.notify run).runs = machine.runs ∧ (machine.notify run).strands = machine.strands := by
  unfold notify
  split
  · split <;> exact ⟨rfl, rfl⟩
  · exact ⟨rfl, rfl⟩

theorem extends_notify (machine : Machine) (run : Nat) : machine.Extends (machine.notify run) := by
  unfold notify
  split
  · split
    · exact machine.extends_queue _
    · exact .refl machine
  · exact .refl machine

/-- A supervisor that waits is told. -/
theorem mem_ready_notify (found : machine.runs[run]? = some state)
    (listening : state.phase = .listening false) : .signalled run ∈ (machine.notify run).ready := by
  simp [notify, found, listening, queue]

theorem Alert.queue (alert : machine.Alert called held spared) (job : Job) :
    (machine.queue job).Alert called held spared :=
  alert.of_same (machine.extends_queue job) rfl rfl

theorem Alert.withShell (alert : machine.Alert called held spared) (change : Shell → Shell)
    (options : (change machine.shell).options = machine.shell.options) :
    (machine.withShell change).Alert called held spared :=
  alert.of_same (machine.extends_withShell change options) rfl rfl

/-! ### Changes of runs -/

/-- Changing one element of a list, as seen at any place. -/
theorem getElem?_modify_cases {α : Type} {list : List α} {index place : Nat} {change : α → α}
    {b : α} (found : (list.modify index change)[place]? = some b) :
    (index ≠ place ∧ list[place]? = some b) ∨
      (index = place ∧ ∃ a, list[place]? = some a ∧ b = change a) := by
  rw [List.getElem?_modify, Option.map_eq_map, Option.map_eq_some_iff] at found
  obtain ⟨a, there, rfl⟩ := found
  by_cases same : index = place
  · exact .inr ⟨same, a, there, by simp [same]⟩
  · exact .inl ⟨same, by simpa [same] using there⟩

/-- The element that was changed. -/
theorem exists_of_getElem?_modify {α : Type} {list : List α} {index : Nat} {change : α → α} {b : α}
    (found : (list.modify index change)[index]? = some b) :
    ∃ a, list[index]? = some a ∧ b = change a := by
  rcases getElem?_modify_cases found with ⟨differs, _⟩ | ⟨_, changed⟩
  · exact absurd rfl differs
  · exact changed

theorem extends_modifyRun (machine : Machine) (run : Nat) (change : Run → Run)
    (stays : ∀ state, machine.runs[run]? = some state →
      (change state).phase = .starting → state.phase = .starting) :
    machine.Extends (machine.modifyRun run change) := by
  refine ⟨fun _ => id, fun _ => id, fun _ => id, rfl, rfl, rfl, fun other state found => ?_,
    .refl _⟩
  by_cases same : run = other
  · subst same
    exact ⟨change state, by simp [modifyRun, found], stays state found⟩
  · exact ⟨state, by simp [modifyRun, same, found], id⟩

/-- A run may change if the invariant holds of it afterwards. -/
theorem Alert.modifyRun (alert : machine.Alert called held spared) {change : Run → Run}
    (stays : ∀ state, machine.runs[run]? = some state →
      (change state).phase = .starting → state.phase = .starting)
    (there : ∀ state, machine.runs[run]? = some state →
      (machine.modifyRun run change).Watches called held run (change state) ∧
        (spared ≠ some run → (machine.modifyRun run change).Manned run (change state))) :
    (machine.modifyRun run change).Alert called held spared := by
  refine alert.of_extends (machine.extends_modifyRun run change stays) (fun _ _ => .inl)
    fun other state found => ?_
  rcases getElem?_modify_cases found with ⟨_, old⟩ | ⟨rfl, before, old, rfl⟩
  · exact .inl old
  · exact .inr (there before old)

/-- A supervisor that has been told has nothing to ask of the rest. -/
theorem Watches.told {after : Run} (watches : machine.Watches called held run state)
    (phase : after.phase = state.phase) (launch : after.launch = state.launch)
    (new : after.phase = .starting → after.ending = none)
    (signalled : after.phase = .listening false →
      after.completion.isDecided = true ∨ after.ending.isSome →
        machine.IsSet held (.signalled run)) :
    machine.Watches called held run after := by
  obtain ⟨-, noted, inside, external, concludes, -, timed⟩ := watches
  rw [Run.IsBegun, ← phase] at noted
  rw [← phase] at inside concludes timed
  rw [← launch] at inside external
  refine ⟨new, noted, inside, fun woken => ?_, concludes, signalled, timed⟩
  rw [phase]
  exact external woken

/-- Fields that the invariant does not speak of. -/
theorem Watches.congr {after : Run} (watches : machine.Watches called held run state)
    (phase : after.phase = state.phase) (launch : after.launch = state.launch)
    (completion : after.completion = state.completion) (ending : after.ending = state.ending) :
    machine.Watches called held run after := by
  refine watches.told phase launch (fun starting => ?_) fun listening told => ?_
  · rw [ending]
    exact watches.new (phase ▸ starting)
  · rw [completion, ending] at told
    exact watches.signalled (phase ▸ listening) told

theorem Manned.congr {after : Run} (manned : machine.Manned run state)
    (phase : after.phase = state.phase) (launch : after.launch = state.launch)
    (completion : after.completion = .pending → state.completion = .pending)
    (ending : after.ending = none → state.ending = none) : machine.Manned run after := by
  refine ⟨fun woken listening defers going => ?_, fun ⟨listening, internal, pending⟩ => ?_⟩
  · exact manned.main woken (phase ▸ listening) (launch ▸ defers) (ending going)
  · exact manned.sender ⟨phase ▸ listening, launch ▸ internal, completion pending⟩

/-- A change of a run that leaves alone what the invariant speaks of. -/
theorem Alert.modifyRun_of_same (alert : machine.Alert called held spared) (run : Nat)
    {change : Run → Run}
    (same : ∀ state, (change state).phase = state.phase ∧ (change state).launch = state.launch ∧
      (change state).completion = state.completion ∧ (change state).ending = state.ending) :
    (machine.modifyRun run change).Alert called held spared := by
  have stays : ∀ state, machine.runs[run]? = some state →
      (change state).phase = .starting → state.phase = .starting :=
    fun state _ starting => (same state).1 ▸ starting
  have ext := machine.extends_modifyRun run change stays
  refine alert.modifyRun stays fun state found => ?_
  obtain ⟨phase, launch, completion, ending⟩ := same state
  refine ⟨((alert.runs run state found).keep (ext.keepsRun run)).congr phase launch completion
    ending, fun kept => ?_⟩
  exact ((alert.manned run state found kept).keep (ext.lives run)).congr phase launch
    (fun pending => completion ▸ pending) fun going => ending ▸ going

/-- A change of a run that its supervisor is told of. -/
theorem Alert.modifyRun_notify (alert : machine.Alert called held spared) (run : Nat)
    (change : Run → Run)
    (same : ∀ state, (change state).phase = state.phase ∧ (change state).launch = state.launch)
    (new : ∀ state, machine.runs[run]? = some state → (change state).phase = .starting →
      (change state).ending = none)
    (later : ∀ state, ((change state).completion = .pending → state.completion = .pending) ∧
      ((change state).ending = none → state.ending = none)) :
    ((machine.modifyRun run change).notify run).Alert called held spared := by
  have stays : ∀ state, machine.runs[run]? = some state →
      (change state).phase = .starting → state.phase = .starting :=
    fun state _ starting => (same state).1 ▸ starting
  have ext := (machine.extends_modifyRun run change stays).trans
    ((machine.modifyRun run change).extends_notify run)
  obtain ⟨runs, strands⟩ := (machine.modifyRun run change).runs_notify run
  refine alert.of_extends ext (fun number strand found => .inl (strands ▸ found))
    fun other state found => ?_
  rw [runs] at found
  rcases getElem?_modify_cases found with ⟨_, old⟩ | ⟨rfl, before, old, rfl⟩
  · exact .inl old
  · obtain ⟨phase, launch⟩ := same before
    refine .inr ⟨?_, fun kept => ?_⟩
    · refine ((alert.runs run before old).keep (ext.keepsRun run)).told phase launch
        (new before old) fun listening _ => ?_
      exact .inl (mem_ready_notify found listening)
    · exact ((alert.manned run before old kept).keep (ext.lives run)).congr phase launch
        (later before).1 (later before).2

theorem Alert.spare (alert : machine.Alert called held none) (run : Nat) :
    machine.Alert called held (some run) :=
  ⟨alert.strands, alert.runs, fun other state found _ => alert.manned other state found nofun,
    alert.called⟩

/-- A run that was left out of account is taken in again. -/
theorem Alert.unspare (alert : machine.Alert called held (some run))
    (manned : ∀ state, machine.runs[run]? = some state → machine.Manned run state) :
    machine.Alert called held none := by
  refine ⟨alert.strands, alert.runs, fun other state found _ => ?_, alert.called⟩
  by_cases same : run = other
  · subst same
    exact manned state found
  · exact alert.manned other state found (by simpa using same)

theorem strands_closeRun (machine : Machine) (run : Nat) (status : Option Int) :
    (machine.closeRun run status).strands = machine.strands := by
  unfold closeRun
  split
  · split <;> rfl
  · rfl

theorem runs_closeRun (machine : Machine) (run : Nat) (status : Option Int) :
    (machine.closeRun run status).runs = machine.runs.modify run fun state =>
      { state with phase := .closed status, completion := state.completion.revoke } := by
  unfold closeRun
  split
  · split <;> rfl
  · rfl

/-- A run that is over asks for nothing more; its attendant is told. -/
theorem Alert.closeRun (alert : machine.Alert called held (some run))
    (noted : ∃ moment, (run, moment) ∈ called) (status : Option Int) :
    (machine.closeRun run status).Alert called held none := by
  have closed : (machine.modifyRun run fun state =>
      { state with phase := .closed status, completion := state.completion.revoke }).Alert
        called held (some run) := by
    exact alert.modifyRun (by simp) fun state _ =>
      ⟨watches_closed rfl noted, fun _ => manned_closed rfl⟩
  have after : (machine.closeRun run status).Alert called held (some run) := by
    unfold Machine.closeRun
    split
    · split
      · exact closed.queue _
      · exact closed
    · exact closed
  refine after.unspare fun state found => ?_
  rw [runs_closeRun] at found
  obtain ⟨before, _, rfl⟩ := exists_of_getElem?_modify found
  exact manned_closed rfl

/-! ### Changes of strands -/

theorem extends_modifyStrand (machine : Machine) (number : Nat) (change : Strand → Strand)
    (same : ∀ strand : Strand, strand.Stays (change strand)) :
    machine.Extends (machine.modifyStrand number change) := by
  refine ⟨fun _ => id, fun _ => id, fun _ => id, rfl, rfl, rfl,
    fun _ state found => ⟨state, found, id⟩, fun run other strand found _ _ => ?_⟩
  by_cases here : number = other
  · subst here
    exact ⟨change strand, by simp [modifyStrand, found], same strand⟩
  · exact ⟨strand, by simp [modifyStrand, here, found], rfl, rfl, rfl, id⟩

theorem Alert.modifyStrand (alert : machine.Alert called held spared) {change : Strand → Strand}
    (same : ∀ strand : Strand, strand.Stays (change strand))
    (there : ∀ strand, machine.strands[number]? = some strand →
      (machine.modifyStrand number change).Follows held number (change strand)) :
    (machine.modifyStrand number change).Alert called held spared := by
  refine alert.of_extends (machine.extends_modifyStrand number change same)
    (fun other strand found => ?_) fun _ _ => .inl
  rcases getElem?_modify_cases found with ⟨_, old⟩ | ⟨rfl, before, old, rfl⟩
  · exact .inl old
  · exact .inr (there before old)

/-- A strand more, which goes on in a later turn. -/
theorem extends_addStrand (machine : Machine) (strand : Strand) :
    machine.Extends (machine.addStrand strand) := by
  refine ⟨fun _ member => List.mem_append_left _ member, fun _ => id, fun _ => id, rfl, rfl, rfl,
    fun _ state found => ⟨state, found, id⟩, keepsLives_append ⟨[strand], rfl⟩ rfl⟩

theorem getElem?_concat_cases {α : Type} {list : List α} {last b : α} {place : Nat}
    (found : (list ++ [last])[place]? = some b) :
    list[place]? = some b ∨ (place = list.length ∧ b = last) := by
  rw [List.getElem?_append] at found
  split at found
  · exact .inl found
  · next beyond =>
      rw [List.getElem?_singleton] at found
      split at found
      · next same => exact .inr ⟨by omega, (Option.some.inj found).symm⟩
      · cases found

/-- A strand that is started is put into the queue at once. -/
theorem Alert.addStrand (alert : machine.Alert called held spared) {strand : Strand}
    (owned : ∃ state, machine.runs[strand.run]? = some state ∧ state.IsBegun held strand.run)
    (free : strand.parked = false) : (machine.addStrand strand).Alert called held spared := by
  refine alert.of_extends (machine.extends_addStrand strand) (fun number other found => ?_)
    fun _ _ => .inl
  rcases getElem?_concat_cases found with old | ⟨rfl, rfl⟩
  · exact .inl old
  · refine .inr ⟨fun _ _ => .inl ?_, fun _ parked => ?_, owned⟩
    · exact List.mem_append_right _ List.mem_cons_self
    · rw [free] at parked
      cases parked

/-! ### The callback that runs -/

/-- Whether a callback has done its work: nothing relies on it any more. -/
structure Done (machine : Machine) (job : Job) : Prop where
  begins : ∀ (run : Nat) (state : Run), job = .begin run → machine.runs[run]? = some state →
    state.phase ≠ .starting
  goes : ∀ (number : Nat) (strand : Strand), job = .resume number →
    machine.strands[number]? = some strand → strand.ended = false → strand.parked = false →
      job ∈ machine.ready
  waits : ∀ (number : Nat) (strand : Strand), job = .alarm number →
    machine.strands[number]? = some strand → strand.parked = false
  concludes : ∀ (run : Nat) (state : Run), job = .conclude run →
    machine.runs[run]? = some state → state.phase ≠ .listening true
  listens : ∀ (run : Nat) (state : Run), job = .signalled run ∨ job = .expire run →
    machine.runs[run]? = some state → state.phase ≠ .listening false

theorem IsSet.drop {other : Job} (set : machine.IsSet (some other) job) (differs : other ≠ job) :
    machine.IsSet none job := by
  rcases set with ready | same
  · exact .inl ready
  · exact absurd (Option.some.inj same) differs

/-- When a callback has done its work the invariant holds without it. -/
theorem Alert.drop (alert : machine.Alert called (some job) none) (done : machine.Done job) :
    machine.Alert called none none := by
  have begun : ∀ (run : Nat) (state : Run), machine.runs[run]? = some state →
      state.IsBegun (some job) run → state.IsBegun none run := by
    intro run state found begun starting
    exact absurd starting (done.begins run state (Option.some.inj (begun starting)) found)
  refine ⟨fun number strand found => ?_, fun run state found => ?_, alert.manned,
    fun run moment member => ?_⟩
  · have follows := alert.strands number strand found
    refine ⟨fun live free => ?_, fun live parked => ?_, ?_⟩
    · rcases follows.goes live free with ready | same
      · exact .inl ready
      · have same := Option.some.inj same
        exact .inl (same ▸ done.goes number strand same found live free)
    · rcases follows.waits live parked with gate | set | timer
      · exact .inl gate
      · refine .inr (.inl (set.drop fun same => ?_))
        rw [done.waits number strand same found] at parked
        cases parked
      · exact .inr (.inr timer)
    · obtain ⟨state, found, here⟩ := follows.owned
      exact ⟨state, found, begun _ state found here⟩
  · have watches := alert.runs run state found
    refine ⟨watches.new, fun here => watches.noted fun starting => ?_, watches.inside,
      watches.external, fun woken => ?_, fun listening told => ?_,
      fun listening moment seconds member timeout => ?_⟩
    · cases here starting
    · exact (watches.concludes woken).drop fun same => done.concludes run state same found woken
    · exact (watches.signalled listening told).drop fun same =>
        done.listens run state (.inl same) found listening
    · refine (watches.timed listening moment seconds member timeout).imp_left fun set => ?_
      exact set.drop fun same => done.listens run state (.inr same) found listening
  · obtain ⟨state, found, here⟩ := alert.called run moment member
    exact ⟨state, found, begun run state found here⟩

end Machine

end LineShell
