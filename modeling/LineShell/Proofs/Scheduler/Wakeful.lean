/-
Module: LineShell.Proofs.Scheduler.Wakeful
Purpose: Every move keeps the invariant that nothing is forgotten.
Main exports: Machine.calledBy, Machine.Alert.pop, Machine.Alert.begin, Machine.woken_cases,
  Machine.Alert.conclude, Machine.Alert.perform, Machine.alert_make
-/
import LineShell.Proofs.Scheduler.Playing

namespace LineShell

namespace Machine

variable {machine : Machine} {called : List (Nat × Rat)} {held : Option Job}
  {spared : Option Nat} {run number : Nat} {state : Run} {job : Job}

/-! ### Taking a callback from the queue -/

/-- The run that a callback calls, with the time. -/
def calledBy (machine : Machine) : Job → List (Nat × Rat)
  | .begin run => [(run, machine.now)]
  | _ => []

/-- A callback is taken from the queue, and the invariant holds as long as it runs. -/
theorem Alert.pop (alert : machine.Alert called none none) (job : Job) {ready : List Job}
    (left : ∀ other ∈ machine.ready, other ∈ ready ∨ job = other) (turn : Nat)
    (starts : ∀ run, job = .begin run → ∃ state, machine.runs[run]? = some state ∧
      state.phase = .starting) :
    (machine.pop ready turn).Alert (called ++ machine.calledBy job) (some job) none := by
  have set : ∀ other, machine.IsSet none other →
      (machine.pop ready turn).IsSet (some job) other := by
    intro other set
    rcases set with member | same
    · exact (left other member).imp id (congrArg some)
    · cases same
  have begun : ∀ (run : Nat) (state : Run), state.IsBegun none run →
      state.IsBegun (some job) run := by
    intro run state begun starting
    cases begun starting
  have split : ∀ (run : Nat) (moment : Rat), (run, moment) ∈ machine.calledBy job →
      job = .begin run := by
    intro run moment member
    cases job with
    | begin other =>
        obtain ⟨rfl, -⟩ := Prod.mk.inj (List.mem_singleton.mp member)
        rfl
    | _ => cases member
  refine ⟨fun number strand found => ?_, fun run state found => ?_, fun run state found _ => ?_,
    fun run moment member => ?_⟩
  · have follows := alert.strands number strand found
    refine ⟨fun live free => set _ (follows.goes live free), fun live parked => ?_, ?_⟩
    · exact (follows.waits live parked).imp_right (Or.imp_left (set _))
    · obtain ⟨state, known, here⟩ := follows.owned
      exact ⟨state, known, begun _ state here⟩
  · have watches := alert.runs run state found
    refine ⟨watches.new, fun here => ?_, watches.inside, watches.external,
      fun woken => set _ (watches.concludes woken),
      fun listening told => set _ (watches.signalled listening told),
      fun listening moment seconds member timeout => ?_⟩
    · by_cases starting : state.phase = .starting
      · obtain rfl := Option.some.inj (here starting)
        exact ⟨machine.now, List.mem_append_right _ List.mem_cons_self⟩
      · obtain ⟨moment, member⟩ := watches.noted fun no => absurd no starting
        exact ⟨moment, List.mem_append_left _ member⟩
    · rcases List.mem_append.mp member with old | new
      · exact (watches.timed listening moment seconds old timeout).imp_left (set _)
      · -- A run that is called now does not listen yet.
        obtain ⟨state', known, starting⟩ := starts run (split run moment new)
        obtain rfl := Option.some.inj (found.symm.trans known)
        rw [starting] at listening
        cases listening
  · have manned := alert.manned run state found nofun
    exact ⟨manned.main, manned.sender⟩
  · rcases List.mem_append.mp member with old | new
    · obtain ⟨state, known, here⟩ := alert.called run moment old
      exact ⟨state, known, begun run state here⟩
    · obtain ⟨state, known, _⟩ := starts run (split run moment new)
      exact ⟨state, known, fun _ => congrArg some (split run moment new)⟩

/-- A strand that goes on at once is held like a callback. -/
theorem Alert.hold (alert : machine.Alert called none none) (number : Nat) :
    machine.Alert called (some (.resume number)) none := by
  have held := alert.pop (.resume number) (fun _ member => .inl member) machine.turn (by simp)
  change machine.Alert (called ++ []) _ _ at held
  rwa [List.append_nil] at held

/-! ### Calling a program -/

theorem done_begin (begun : ∀ state, machine.runs[run]? = some state → state.phase ≠ .starting) :
    machine.Done (.begin run) := by
  refine ⟨fun other state same found => ?_, by simp, by simp, by simp, by simp⟩
  obtain rfl := Job.begin.inj same
  exact begun state found

/-- The machine when a supervisor has begun to wait and has set its timeout. -/
def timed (machine : Machine) (run : Nat) : Machine :=
  let listening := machine.modifyRun run fun state => { state with phase := .listening false }
  match machine.shell.options.timeout.bind Numeral.value? with
  | some seconds => listening.after seconds (.expire run)
  | none => listening

theorem listen_eq (found : machine.runs[run]? = some state) :
    machine.listen run =
      if state.completion.isDecided then (machine.timed run).notify run else machine.timed run := by
  unfold listen
  rw [found]
  rfl

theorem runs_timed (machine : Machine) (run : Nat) :
    (machine.timed run).runs =
        machine.runs.modify run (fun state => { state with phase := .listening false }) ∧
      (machine.timed run).strands = machine.strands := by
  unfold timed
  dsimp only
  split <;> exact ⟨rfl, rfl⟩

theorem extends_timed (machine : Machine) (run : Nat) : machine.Extends (machine.timed run) := by
  have listening := machine.extends_modifyRun run
    (fun state => { state with phase := .listening false }) (by simp)
  unfold timed
  dsimp only
  split
  · exact listening.trans (extends_after _ _ _)
  · exact listening

theorem mem_timers_timed {seconds : Rat}
    (timeout : machine.shell.options.timeout.bind Numeral.value? = some seconds) :
    { due := machine.now + seconds, job := .expire run } ∈ (machine.timed run).timers := by
  unfold timed
  rw [timeout]
  exact mem_timers_after _ seconds _

/-- A supervisor begins to wait: it is told at once if the signal has been decided, its
timeout is set, and strands are left on which its program depends. -/
theorem Alert.listen (alert : machine.Alert called (some (.begin run)) none)
    (found : machine.runs[run]? = some state) (starting : state.phase = .starting)
    (now : ∀ moment, (run, moment) ∈ called → moment = machine.now)
    (external : state.launch.kind = .external → state.launch.start.defers = true)
    (main : state.launch.start.defers = true → machine.Lives run (·.role = .main))
    (sender : state.launch.kind = .internal → state.completion = .pending →
      machine.Lives run (·.holds = true)) : (machine.listen run).Alert called none none := by
  -- The supervisor may be told at once, so this is shown of both machines that can come.
  have all : ∀ after : Machine, (machine.timed run).Extends after →
      after.runs = (machine.timed run).runs → after.strands = (machine.timed run).strands →
        (state.completion.isDecided = true → .signalled run ∈ after.ready) →
          after.Alert called none none := by
    intro after more runs strands told
    have ext := (machine.extends_timed run).trans more
    rw [(machine.runs_timed run).1] at runs
    rw [(machine.runs_timed run).2] at strands
    have held : after.Alert called (some (.begin run)) none := by
      refine alert.of_extends ext (fun _ _ shown => .inl (strands ▸ shown))
        fun other next shown => ?_
      rw [runs] at shown
      rcases getElem?_modify_cases shown with ⟨_, old⟩ | ⟨rfl, before, old, rfl⟩
      · exact .inl old
      · obtain rfl := Option.some.inj (found.symm.trans old)
        have watches := alert.runs run state found
        have going := watches.new starting
        refine .inr ⟨⟨by simp, fun _ => watches.noted fun _ => rfl, by simp, fun _ _ => external,
          by simp, fun _ news => ?_, fun _ moment seconds member timeout => .inr ?_⟩,
          fun _ => ⟨fun _ _ defers _ => (main defers).keepMain (ext.lives run),
            fun ⟨_, internal, pending⟩ => (sender internal pending).keepHolder (ext.lives run)⟩⟩
        · rcases news with decided | ended
          · exact .inl (told decided)
          · change state.ending.isSome = true at ended
            rw [going] at ended
            cases ended
        · rw [ext.options] at timeout
          exact ⟨_, more.timers _ (mem_timers_timed timeout), rfl, by rw [now moment member]⟩
    refine held.drop (done_begin fun next shown => ?_)
    rw [runs] at shown
    obtain ⟨before, _, rfl⟩ := exists_of_getElem?_modify shown
    simp
  rw [listen_eq found]
  split
  · obtain ⟨runs, strands⟩ := runs_notify (machine.timed run) run
    refine all _ (extends_notify _ run) runs strands fun _ => ?_
    have here : (machine.timed run).runs[run]? = some { state with phase := .listening false } := by
      rw [(machine.runs_timed run).1]
      simp [found]
    exact mem_ready_notify here rfl
  · next pending => exact all _ (.refl _) rfl rfl fun decided => absurd decided pending

/-- A program is played in its supervisor's place, up to where it waits or ends. -/
theorem Alert.startInline (alert : machine.Alert called (some (.begin run)) none)
    (found : machine.runs[run]? = some state)
    (allowed : state.launch.kind = .external ∧ state.launch.start.defers = true ∧
      machine.shell.options.timeout = none) (script : Script) :
    (machine.startInline run script).Alert called none none := by
  let strand : Strand := { run := run, role := .inline, rest := script }
  let inside := machine.modifyRun run fun state => { state with phase := .inside }
  have entered : inside.Alert called none none := by
    have held : inside.Alert called (some (.begin run)) none := by
      refine alert.modifyRun (by simp) fun before old => ?_
      obtain rfl := Option.some.inj (found.symm.trans old)
      have noted := (alert.runs run state found).noted fun _ => rfl
      refine ⟨⟨by simp, fun _ => noted, fun _ => allowed, by simp, by simp, by simp, by simp⟩,
        fun _ => ⟨by simp, by simp [Run.AwaitsSignal]⟩⟩
    refine held.drop (done_begin fun next shown => ?_)
    obtain ⟨before, _, rfl⟩ := exists_of_getElem?_modify shown
    simp
  let started : Machine := { inside with strands := machine.strands ++ [strand] }
  have ext : inside.Extends started := by
    refine ⟨fun _ => id, fun _ => id, fun _ => id, rfl, rfl, rfl,
      fun _ state known => ⟨state, known, id⟩, keepsLives_append ⟨[strand], rfl⟩ rfl⟩
  have held : started.Alert called (some (.resume machine.strands.length)) none := by
    refine (entered.hold machine.strands.length).of_extends ext (fun number other shown => ?_)
      fun _ _ => .inl
    rcases getElem?_concat_cases shown with old | ⟨rfl, rfl⟩
    · exact .inl old
    · refine .inr ⟨fun _ _ => .inr rfl, fun _ parked => by simp [strand] at parked, ?_⟩
      exact ⟨{ state with phase := .inside },
        by simp [started, inside, Machine.modifyRun, strand, found], by simp [Run.IsBegun]⟩
  exact held.resume

/-- The main strand of a program is started. -/
theorem Alert.startMain (alert : machine.Alert called (some (.begin run)) none)
    (found : machine.runs[run]? = some state) (script : Script) (holds : Bool) :
    (machine.startMain run script holds).Alert called (some (.begin run)) none ∧
      (machine.startMain run script holds).runs[run]? =
        some { state with main := some machine.strands.length } ∧
      (machine.startMain run script holds).Lives run (·.role = .main) := by
  let named := machine.modifyRun run fun state => { state with main := some machine.strands.length }
  have first : named.Alert called (some (.begin run)) none :=
    alert.modifyRun_of_same run fun _ => ⟨rfl, rfl, rfl, rfl⟩
  have here : named.runs[run]? = some { state with main := some machine.strands.length } := by
    simp [named, Machine.modifyRun, found]
  refine ⟨first.addStrand ⟨_, here, fun _ => rfl⟩ rfl, here, machine.strands.length,
    { run := run, role := .main, rest := script, holds := holds }, ?_, rfl, rfl, rfl⟩
  exact List.getElem?_concat_length

/-- The supervisor of an internal program lets go of the signal and begins to wait.  The signal
is given up if the program has left nobody who holds it. -/
theorem Alert.releaseListen (alert : machine.Alert called (some (.begin run)) none)
    (found : machine.runs[run]? = some state) (starting : state.phase = .starting)
    (kind : state.launch.kind = .internal)
    (now : ∀ moment, (run, moment) ∈ called → moment = machine.now)
    (main : state.launch.start.defers = true → machine.Lives run (·.role = .main)) :
    ((machine.releaseCompletion run).listen run).Alert called none none := by
  obtain ⟨spared, more⟩ := (alert.spare run).releaseCompletion run
  obtain ⟨after, known, -⟩ := more.runs run state found
  obtain ⟨before, old, ⟨phase, launch, going⟩, left⟩ := runs_releaseCompletion known
  obtain rfl := Option.some.inj (found.symm.trans old)
  have released : (machine.releaseCompletion run).Alert called (some (.begin run)) none := by
    refine spared.unspare fun other there => ?_
    obtain rfl := Option.some.inj (known.symm.trans there)
    exact ⟨by simp [phase, starting], by simp [Run.AwaitsSignal, phase, starting]⟩
  refine released.listen known (phase.trans starting) (fun moment member => ?_)
    (fun external => ?_) (fun defers => ?_)
    fun _ pending => (left pending).2.keepHolder (more.lives run)
  · rw [more.now]
    exact now moment member
  · rw [launch, kind] at external
    cases external
  · rw [launch] at defers
    exact (main defers).keepMain (more.lives run)

/-- A run that is over needs neither its call nor a decision. -/
theorem done_closed (closed : ∀ state, machine.runs[run]? = some state →
      ∃ status, state.phase = .closed status) (which : job = .begin run ∨ job = .conclude run) :
    machine.Done job := by
  have rests : ∀ state, machine.runs[run]? = some state →
      state.phase ≠ .starting ∧ state.phase ≠ .listening true := by
    intro state found
    obtain ⟨status, phase⟩ := closed state found
    simp [phase]
  rcases which with rfl | rfl
  · exact done_begin fun state found => (rests state found).1
  · refine ⟨by simp, by simp, by simp, fun other state same found => ?_, by simp⟩
    obtain rfl := Job.conclude.inj same
    exact (rests state found).2

/-- A callback that ends a run has done its work. -/
theorem Alert.close {after : Machine} (alert : machine.Alert called (some job) none)
    (noted : ∃ moment, (run, moment) ∈ called) (closes : Closes run machine after)
    (which : job = .begin run ∨ job = .conclude run) : after.Alert called none none :=
  (closes.alert (alert.spare run) noted).drop
    (done_closed (fun _ found => closes.closed found) which)

/-- What the call of an internal program leads to. -/
theorem Alert.beginInternal (alert : machine.Alert called (some (.begin run)) none)
    (found : machine.runs[run]? = some state) (starting : state.phase = .starting)
    (kind : state.launch.kind = .internal)
    (now : ∀ moment, (run, moment) ∈ called → moment = machine.now)
    (noted : ∃ moment, (run, moment) ∈ called) (name : Text) (holds : Bool) :
    (machine.beginInternal run name holds state.launch.start.called).Alert called none none := by
  cases called' : state.launch.start.called with
  | ended ending =>
      cases ending with
      | failed fault => exact alert.close noted (closes_failInternal _ run name fault) (.inl rfl)
      | cancelled => exact alert.close noted ⟨id, none, rfl, rfl⟩ (.inl rfl)
      | returned result =>
          refine alert.releaseListen found starting kind now fun defers => ?_
          simp [Start.defers, called'] at defers
  | deferred shares body =>
      obtain ⟨started, known, main⟩ := alert.startMain found body (shares && holds)
      exact started.releaseListen known starting kind now fun _ => main

/-- What the call of an external program leads to. -/
theorem Alert.beginExternal (alert : machine.Alert called (some (.begin run)) none)
    (found : machine.runs[run]? = some state) (starting : state.phase = .starting)
    (kind : state.launch.kind = .external)
    (now : ∀ moment, (run, moment) ∈ called → moment = machine.now)
    (noted : ∃ moment, (run, moment) ∈ called) (name : Text) :
    (machine.beginExternal run name state.launch.start.called).Alert called none none := by
  cases called' : state.launch.start.called with
  | ended ending => exact alert.close noted (closes_endExternal _ run name ending) (.inl rfl)
  | deferred shares body =>
      have defers : state.launch.start.defers = true := by simp [Start.defers, called']
      rw [Machine.beginExternal]
      split
      · next unlimited => exact alert.startInline found ⟨kind, defers, unlimited⟩ body
      · obtain ⟨started, known, main⟩ := alert.startMain found body false
        refine started.listen known starting now (fun _ => defers) (fun _ => main)
          fun internal => ?_
        rw [kind] at internal
        cases internal

/-- A program is called, and nothing is forgotten. -/
theorem Alert.begin (alert : machine.Alert called (some (.begin run)) none)
    (found : machine.runs[run]? = some state) (starting : state.phase = .starting)
    (now : ∀ moment, (run, moment) ∈ called → moment = machine.now) :
    (machine.begin run).Alert called none none := by
  have begun : state.IsBegun (some (.begin run)) run := fun _ => rfl
  have noted := (alert.runs run state found).noted begun
  have becomes := (machine.callStage state).becomes_carryOutAll state.launch.start.deeds
  obtain ⟨taken, ext, runs⟩ := alert.takeStage found begun becomes rfl
  have here : (machine.takeStage run
      ((machine.callStage state).carryOutAll state.launch.start.deeds)).runs[run]? =
        some { state with
          completion := ((machine.callStage state).carryOutAll
            state.launch.start.deeds).completion } := by
    simp [runs, found]
  have now' : ∀ moment, (run, moment) ∈ called → moment = _ := fun moment member =>
    (now moment member).trans ext.now.symm
  cases kind : state.launch.kind with
  | internal =>
      rw [machine.begin_of_internal found kind]
      exact taken.beginInternal here starting kind now' noted _ _
  | external =>
      rw [machine.begin_of_external found kind]
      exact taken.beginExternal here starting kind now' noted _

/-! ### Waking a supervisor -/

/-- The machine when a supervisor has been woken, with the timers that are left. -/
def woken (machine : Machine) (run : Nat) (timers : List Timer) : Machine :=
  (({ machine with timers := timers } : Machine).modifyRun run fun state =>
    { state with phase := .listening true }).queue (.conclude run)

/-- A supervisor that waits is woken by what it is told, and its timeout may be forgotten.  One
that does not wait is told nothing. -/
theorem woken_cases (machine : Machine) (which : job = .signalled run ∨ job = .expire run) :
    (machine.perform job = machine ∧
      ∀ state, machine.runs[run]? = some state → state.phase ≠ .listening false) ∨
    ∃ state timers, machine.runs[run]? = some state ∧ state.phase = .listening false ∧
      timers ⊆ machine.timers ∧
        (∀ timer ∈ machine.timers, timer.job ≠ .expire run → timer ∈ timers) ∧
          machine.perform job = machine.woken run timers := by
  have kept : ∀ timer ∈ machine.timers, timer.job ≠ .expire run →
      timer ∈ (machine.cancelTimer (.expire run)).timers :=
    fun timer member other => List.mem_filter.mpr ⟨member, by simpa using other⟩
  cases found : machine.runs[run]? with
  | none =>
      refine .inl ⟨?_, fun other same => (by cases same)⟩
      rcases which with rfl | rfl
      · simp [perform, signalled, found]
      · simp [perform, expire, found]
  | some state =>
      by_cases listening : state.phase = .listening false
      · right
        rcases which with rfl | rfl
        · refine ⟨state, _, rfl, listening, List.filter_subset_self _, kept, ?_⟩
          simp only [perform, signalled, found, listening, if_true]
          rfl
        · refine ⟨state, machine.timers, rfl, listening, List.Subset.refl _,
            fun _ member _ => member, ?_⟩
          simp only [perform, expire, found, listening, if_true]
          rfl
      · refine .inl ⟨?_, fun other same => Option.some.inj same ▸ listening⟩
        rcases which with rfl | rfl
        · simp [perform, signalled, found, listening]
        · simp [perform, expire, found, listening]

theorem done_listening (which : job = .signalled run ∨ job = .expire run)
    (woken : ∀ state, machine.runs[run]? = some state → state.phase ≠ .listening false) :
    machine.Done job := by
  rcases which with rfl | rfl
  · refine ⟨by simp, by simp, by simp, by simp, fun other state same found => ?_⟩
    simp only [Job.signalled.injEq, reduceCtorEq, or_false] at same
    exact woken state (same ▸ found)
  · refine ⟨by simp, by simp, by simp, by simp, fun other state same found => ?_⟩
    simp only [Job.expire.injEq, reduceCtorEq, false_or] at same
    exact woken state (same ▸ found)

/-- A supervisor is woken; its timeout is of no interest any more. -/
theorem Alert.wakeSupervisor (alert : machine.Alert called held none)
    (found : machine.runs[run]? = some state) (listening : state.phase = .listening false)
    {timers : List Timer}
    (left : ∀ timer ∈ machine.timers, timer.job ≠ .expire run → timer ∈ timers) :
    (machine.woken run timers).Alert called held none := by
  have ready : ∀ job ∈ machine.ready, job ∈ machine.ready ++ [.conclude run] :=
    fun _ member => List.mem_append_left _ member
  refine alert.of_keeps (fun other before old => ?_)
    (fun number strand old => .inl ⟨old, ready, ?_, ?_⟩) (fun other after shown => ?_)
    fun other after shown kept => ?_
  · obtain ⟨after, there, stays⟩ := (machine.extends_modifyRun run
      (fun state => { state with phase := .listening true }) (by simp)).runs other before old
    exact ⟨after, there, stays⟩
  · exact fun timer member alarm => left timer member (by simp [alarm])
  · exact fun gate member closed => ⟨member, closed⟩
  · rcases getElem?_modify_cases shown with ⟨differs, old⟩ | ⟨rfl, before, old, rfl⟩
    · refine .inl ⟨old, ready, fun timer member expire => left timer member ?_, rfl⟩
      rw [expire]
      simpa using Ne.symm differs
    · obtain rfl := Option.some.inj (found.symm.trans old)
      have watches := alert.runs run state found
      exact .inr ⟨by simp, fun _ => watches.noted fun starting => by simp [listening] at starting,
        by simp, fun _ _ => watches.external false listening,
        fun _ => .inl (List.mem_append_right _ List.mem_cons_self), by simp, by simp⟩
  · rcases getElem?_modify_cases shown with ⟨_, old⟩ | ⟨rfl, before, old, rfl⟩
    · exact .inl ⟨old, KeepsLives.refl machine other⟩
    · obtain rfl := Option.some.inj (found.symm.trans old)
      have manned := alert.manned run state found kept
      exact .inr ⟨fun _ _ => manned.main false listening, fun ⟨_, internal, pending⟩ =>
        manned.sender ⟨⟨false, listening⟩, internal, pending⟩⟩

/-- A supervisor is told something, and nothing is forgotten. -/
theorem Alert.woken (alert : machine.Alert called (some job) none)
    (which : job = .signalled run ∨ job = .expire run) :
    (machine.perform job).Alert called none none := by
  rcases machine.woken_cases which with
    ⟨same, idle⟩ | ⟨state, timers, found, listening, -, left, performed⟩
  · rw [same]
    exact alert.drop (done_listening which idle)
  · rw [performed]
    refine (alert.wakeSupervisor found listening left).drop (done_listening which ?_)
    intro after there
    obtain ⟨before, _, rfl⟩ := exists_of_getElem?_modify there
    simp

/-! ### Deciding how a run ends -/

theorem Alert.cancelMain (alert : machine.Alert called held spared) (state : Run) :
    (machine.cancelMain state).Alert called held spared := by
  unfold Machine.cancelMain
  split
  · exact alert.cancelStrand _
  · exact alert

theorem Alert.warnTimeout (alert : machine.Alert called held spared) (name : Text) :
    (machine.warnTimeout name).Alert called held spared :=
  alert.withShell (·.warn (name ++ " timed out after " ++
    (machine.shell.options.timeout.getD (.whole 0)).plain ++ "s")) rfl

theorem Alert.concludeInternal (alert : machine.Alert called (some (.conclude run)) none)
    (noted : ∃ moment, (run, moment) ∈ called) (state : Run) :
    (machine.concludeInternal run state).Alert called none none := by
  unfold Machine.concludeInternal
  split
  · next status _ =>
      have reaping : (machine.modifyRun run fun state =>
          { state with reaped := state.main.isSome }).Alert called (some (.conclude run)) none :=
        alert.modifyRun_of_same run fun _ => ⟨rfl, rfl, rfl, rfl⟩
      dsimp only
      split
      · exact (reaping.queue (.reap run)).close noted ⟨id, some status, rfl, rfl⟩ (.inr rfl)
      · exact reaping.close noted ⟨id, some status, rfl, rfl⟩ (.inr rfl)
  · split
    · exact ((alert.warnTimeout state.name).cancelMain state).close noted
        (closes_failRun _ run _ _) (.inr rfl)
    · split
      · exact alert.close noted ((closes_failRun _ run _ _).withShell rfl) (.inr rfl)
      · exact alert.close noted ((closes_failRun _ run _ _).withShell rfl) (.inr rfl)

theorem Alert.concludeExternal (alert : machine.Alert called (some (.conclude run)) none)
    (noted : ∃ moment, (run, moment) ∈ called) (state : Run) :
    (machine.concludeExternal run state).Alert called none none := by
  unfold Machine.concludeExternal
  split
  · exact alert.close noted (closes_endExternal _ run _ _) (.inr rfl)
  · exact ((alert.warnTimeout state.name).cancelMain state).close noted
      (closes_endExternal _ run _ _) (.inr rfl)

theorem Alert.conclude (alert : machine.Alert called (some (.conclude run)) none) :
    (machine.conclude run).Alert called none none := by
  have idle : (∀ state, machine.runs[run]? = some state → state.phase ≠ .listening true) →
      machine.Done (.conclude run) := by
    refine fun rests => ⟨by simp, by simp, by simp, fun other state same found => ?_, by simp⟩
    obtain rfl := Job.conclude.inj same
    exact rests state found
  unfold Machine.conclude
  split
  · next absent => exact alert.drop (idle fun _ there => by simp [absent] at there)
  · next state found =>
      split
      · next listening =>
          have noted := (alert.runs run state found).noted fun starting => by
            simp [listening] at starting
          cases state.launch.kind with
          | internal => exact alert.concludeInternal noted state
          | external => exact alert.concludeExternal noted state
      · next other =>
          refine alert.drop (idle fun after there => ?_)
          obtain rfl := Option.some.inj (found.symm.trans there)
          exact other

/-! ### Other callbacks -/

/-- Callbacks on which nothing waits. -/
theorem Alert.dropAside (alert : machine.Alert called (some job) none)
    (aside : (∃ run, job = .attend run ∨ job = .finish run ∨ job = .reap run) ∨
      ∃ caller, job = .freed caller ∨ job = .call caller) : machine.Alert called none none := by
  refine alert.drop ?_
  rcases aside with ⟨run, rfl | rfl | rfl⟩ | ⟨caller, rfl | rfl⟩ <;>
    exact ⟨by simp, by simp, by simp, by simp, by simp⟩

theorem Alert.alarm (alert : machine.Alert called (some (.alarm number)) none) :
    (machine.alarm number).Alert called none none := by
  have done : ∀ after : Machine, (∀ strand, after.strands[number]? = some strand →
      strand.parked = false) → after.Done (.alarm number) := by
    refine fun after free => ⟨by simp, by simp, fun other strand same found => ?_, by simp, by simp⟩
    obtain rfl := Job.alarm.inj same
    exact free strand found
  unfold Machine.alarm
  split
  · next strand found =>
      split
      · refine (alert.unpark number).drop (done _ fun after there => ?_)
        obtain ⟨before, _, rfl⟩ := exists_of_getElem?_modify there
        rfl
      · next free =>
          refine alert.drop (done _ fun after there => ?_)
          obtain rfl := Option.some.inj (found.symm.trans there)
          simpa using free
  · next absent => exact alert.drop (done _ fun _ there => by simp [absent] at there)

theorem Alert.reap (alert : machine.Alert called held spared) (run : Nat) :
    (machine.reap run).Alert called held spared := by
  unfold Machine.reap
  split
  · exact alert
  · split
    · exact alert.withShell _ rfl
    · exact alert

theorem Alert.handBack (alert : machine.Alert called held spared) (status : Option Int) :
    (machine.handBack status).Alert called held spared :=
  alert.of_same (extends_of_same rfl rfl (fun _ member => List.mem_append_left _ member)
    (fun _ => id) ⟨rfl, rfl⟩ ⟨rfl, rfl⟩) rfl rfl

theorem Alert.attend (alert : machine.Alert called held spared) (run : Nat) :
    (machine.attend run).Alert called held spared := by
  unfold Machine.attend
  split
  · exact alert
  · split
    · exact alert.handBack _
    · exact alert.modifyRun_of_same run fun _ => ⟨rfl, rfl, rfl, rfl⟩

theorem Alert.finish (alert : machine.Alert called held spared) (run : Nat) :
    (machine.finish run).Alert called held spared := by
  unfold Machine.finish
  split
  · exact alert
  · split
    · exact alert.handBack _
    · exact alert

/-! ### The host -/

/-- A run more, which is going to be called. -/
theorem Alert.launch (alert : machine.Alert called none none) (program : Launch) :
    (machine.launch program).Alert called none none := by
  have old : ∀ (run : Nat) (state : Run), machine.runs[run]? = some state →
      (machine.launch program).runs[run]? = some state := by
    intro run state found
    have bound := (List.getElem?_eq_some_iff.mp found).1
    change (machine.runs ++ [_])[run]? = _
    rwa [List.getElem?_append_left bound]
  have ext : machine.Extends (machine.launch program) :=
    ⟨fun _ member => List.mem_append_left _ member, fun _ => id, fun _ => id, rfl, rfl, rfl,
      fun run state found => ⟨state, old run state found, id⟩, .refl _⟩
  refine alert.of_extends ext (fun _ _ => .inl) fun run state found => ?_
  rcases getElem?_concat_cases found with before | ⟨rfl, rfl⟩
  · exact .inl before
  · exact .inr ⟨⟨by simp, fun begun => by simpa using begun rfl, by simp, by simp, by simp, by simp,
      by simp⟩, fun _ => ⟨by simp, by simp [Run.AwaitsSignal]⟩⟩

theorem Alert.input (alert : machine.Alert called none none) (event : Text) :
    (machine.input event).Alert called none none := by
  have options := machine.shell.options_input true event
  unfold Machine.input
  rcases result : machine.shell.input true event with ⟨reaction, shell⟩
  rw [result] at options
  have typed : ({ machine with shell := shell } : Machine).Alert called none none :=
    alert.of_same (extends_of_same rfl rfl (fun _ => id) (fun _ => id) ⟨rfl, rfl⟩ ⟨options, rfl⟩)
      rfl rfl
  cases reaction with
  | done | raised => exact typed
  | launched program => exact typed.launch program

/-- Changes of callers. -/
theorem Alert.withCallers (alert : machine.Alert called held spared) (callers : List Caller)
    (waiting : List Nat) (finished : List (Nat × Except Fault Int)) :
    Alert called held spared
      { machine with callers := callers, waiting := waiting, finished := finished } :=
  alert.of_same (extends_of_same rfl rfl (fun _ => id) (fun _ => id) ⟨rfl, rfl⟩ ⟨rfl, rfl⟩) rfl rfl

theorem Alert.call (alert : machine.Alert called none none) (caller : Nat) :
    (machine.call caller).Alert called none none := by
  obtain ⟨waiting, finished, same⟩ := machine.call_eq caller
  rw [same]
  refine Alert.withCallers ?_ _ waiting finished
  cases machine.submittedBy caller with
  | none => exact alert
  | some line =>
      have typed : (machine.withLine line).Alert called none none :=
        alert.withShell (fun shell => { shell with buffer := Buffer.ofText line }) rfl
      exact (typed.input ['\r']).withCallers _ _ _

/-- The time passes, and timers that are due may become callbacks. -/
theorem Alert.pass {after : Machine} (alert : machine.Alert called none none)
    (ready : ∀ job ∈ machine.ready, job ∈ after.ready)
    (timers : ∀ timer ∈ machine.timers, timer ∈ after.timers ∨ timer.job ∈ after.ready)
    (same : after.strands = machine.strands ∧ after.runs = machine.runs ∧
      after.atGates = machine.atGates ∧ after.openGates = machine.openGates ∧
        after.shell = machine.shell) : after.Alert called none none := by
  obtain ⟨strands, runs, atGates, openGates, shell⟩ := same
  have set : ∀ job, machine.IsSet none job → after.IsSet none job := by
    exact fun job set => set.mono ready
  refine ⟨fun number strand found => ?_, fun run state found => ?_, fun run state found kept => ?_,
    fun run moment member => ?_⟩
  · rw [strands] at found
    have follows := alert.strands number strand found
    refine ⟨fun live free => set _ (follows.goes live free), fun live parked => ?_, ?_⟩
    · rcases follows.waits live parked with gate | later | ⟨timer, member, alarm⟩
      · rw [atGates, openGates]
        exact .inl gate
      · exact .inr (.inl (set _ later))
      · rcases timers timer member with left | due
        · exact .inr (.inr ⟨timer, left, alarm⟩)
        · exact .inr (.inl (.inl (alarm ▸ due)))
    · rw [runs]
      exact follows.owned
  · rw [runs] at found
    have watches := alert.runs run state found
    refine ⟨watches.new, watches.noted, by rw [shell]; exact watches.inside, watches.external,
      fun woken => set _ (watches.concludes woken),
      fun listening told => set _ (watches.signalled listening told),
      fun listening moment seconds member timeout => ?_⟩
    rw [shell] at timeout
    rcases watches.timed listening moment seconds member timeout with
      later | ⟨timer, there, expire, due⟩
    · exact .inl (set _ later)
    · rcases timers timer there with left | passed
      · exact .inr ⟨timer, left, expire, due⟩
      · exact .inl (.inl (expire ▸ passed))
  · rw [runs] at found
    exact (alert.manned run state found kept).keep
      (keepsLives_append ⟨[], (List.append_nil _).symm⟩ strands run)
  · rw [runs]
    exact alert.called run moment member

theorem Alert.beginTurn (alert : machine.Alert called none none) :
    machine.beginTurn.Alert called none none := by
  refine alert.pass (fun _ member => List.mem_append_left _ member) (fun timer member => ?_)
    ⟨rfl, rfl, rfl, rfl, rfl⟩
  by_cases due : timer.due ≤ machine.now
  · refine .inr (List.mem_append_right _ (List.mem_map.mpr ⟨timer, ?_, rfl⟩))
    exact List.mem_filter.mpr ⟨member, by simpa using due⟩
  · exact .inl (List.mem_filter.mpr ⟨member, by simpa using due⟩)

/-! ### Moves -/

/-- A callback runs, and nothing is forgotten. -/
theorem Alert.perform (alert : machine.Alert called (some job) none)
    (begins : ∀ run, job = .begin run → (∃ state, machine.runs[run]? = some state ∧
      state.phase = .starting) ∧ ∀ moment, (run, moment) ∈ called → moment = machine.now) :
    (machine.perform job).Alert called none none := by
  cases job with
  | begin run =>
      obtain ⟨⟨state, found, starting⟩, now⟩ := begins run rfl
      exact alert.begin found starting now
  | attend run => exact (alert.dropAside (.inl ⟨run, by simp⟩)).attend run
  | signalled run => exact alert.woken (.inl rfl)
  | expire run => exact alert.woken (.inr rfl)
  | conclude run => exact alert.conclude
  | finish run => exact (alert.dropAside (.inl ⟨run, by simp⟩)).finish run
  | reap run => exact (alert.dropAside (.inl ⟨run, by simp⟩)).reap run
  | resume number => exact alert.resume
  | alarm number => exact alert.alarm
  | freed caller => exact (alert.dropAside (.inr ⟨caller, by simp⟩)).queue _
  | call caller => exact (alert.dropAside (.inr ⟨caller, by simp⟩)).call caller

/-- The run that a move calls, with the time. -/
def callOf (machine : Machine) : Move → List (Nat × Rat)
  | .step => machine.next?.elim [] machine.calledBy
  | _ => []

/-- A program that is about to be called has not been called. -/
theorem starting_of_begin (sound : machine.front.Sound none) (member : .begin run ∈ machine.ready) :
    ∃ state, machine.runs[run]? = some state ∧ state.phase = .starting := by
  have counted := sound.begins run
  have there : .begin run ∈ machine.front.jobs := List.mem_filter.mpr ⟨member, rfl⟩
  have present := List.count_pos_iff.mpr there
  split at counted
  · next starting =>
      obtain ⟨outline, found, progress⟩ := Option.map_eq_some_iff.mp starting.1
      rw [runs_front] at found
      obtain ⟨state, known, rfl⟩ := Option.map_eq_some_iff.mp found
      refine ⟨state, known, ?_⟩
      change state.phase.progress = .starting at progress
      cases phase : state.phase <;> simp [phase, Phase.progress] at progress
      rfl
  · omega

theorem Alert.tick (alert : machine.Alert called none none) (sound : machine.front.Sound none) :
    machine.tick.Alert (called ++ machine.callOf .step) none none := by
  rcases machine.tick_cases with ⟨job, ready, turn, next, shown, ticked⟩ | ⟨nothing, ticked⟩
  · have starts : ∀ run, job = .begin run → ∃ state, machine.runs[run]? = some state ∧
        state.phase = .starting := by
      rintro run rfl
      exact starting_of_begin sound (next ▸ List.mem_cons_self)
    have left : ∀ other ∈ machine.ready, other ∈ ready ∨ job = other := by
      intro other member
      rw [next] at member
      exact (List.mem_cons.mp member).symm.imp id Eq.symm
    rw [ticked, callOf, shown]
    refine (alert.pop job left turn starts).perform fun run same =>
      ⟨starts run same, fun moment member => ?_⟩
    subst same
    rcases List.mem_append.mp member with old | new
    · -- A run that was called before is not about to be called.
      obtain ⟨state, found, starting⟩ := starts run rfl
      obtain ⟨state', found', begun⟩ := alert.called run moment old
      obtain rfl := Option.some.inj (found.symm.trans found')
      cases begun starting
    · exact (Prod.mk.inj (List.mem_singleton.mp new)).2
  · rw [ticked, callOf, nothing]
    change machine.beginTurn.Alert (called ++ []) none none
    rw [List.append_nil]
    exact alert.beginTurn

/-- Every move keeps the invariant. -/
theorem alert_make (sound : machine.front.Sound none) (alert : machine.Alert called none none)
    (move : Move) : (machine.make move).Alert (called ++ machine.callOf move) none none := by
  have silent : ∀ after : Machine, after.Alert called none none →
      after.Alert (called ++ []) none none := by
    intro after kept
    rwa [List.append_nil]
  cases move with
  | input event => exact silent _ (alert.input event)
  | exec line => exact silent _ ((alert.queue _).withCallers _ _ _)
  | carryOut line => exact silent _ (Alert.call (alert.withCallers _ _ _) _)
  | release gate => exact silent _ (alert.release gate)
  | elapse moment =>
      exact silent _ (alert.pass (fun _ => id) (fun _ => .inl) ⟨rfl, rfl, rfl, rfl, rfl⟩)
  | step => exact alert.tick sound

end Machine

end LineShell
