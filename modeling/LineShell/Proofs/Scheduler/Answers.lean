/-
Module: LineShell.Proofs.Scheduler.Answers
Purpose: On orderly courses every caller is told the status with which its own command
  ended, in the order in which the callers came; on others it need not be so.
Main exports: Machine.attendant_cases, Ledger.InOrder.perform, Ledger.InOrder.next,
  Orderly.inOrder, Orderly.answered_in_turn, Orderly.own_status, not_own_status
-/
import LineShell.Proofs.Scheduler.Lineup
import Mathlib.Data.List.Nodup

namespace LineShell

/-! ### Callbacks -/

namespace Machine

variable {machine : Machine} {places : Places} {job : Job} {ready : List Job} {run : Nat}

theorem handedBackBy_attendant (machine : Machine)
    (attendant : job = .attend run ∨ job = .finish run) :
    machine.handedBackBy job =
      if machine.runs[run]?.any Run.isOver then some run else none := by
  rcases attendant with rfl | rfl <;> rfl

/-- The attendant of a run puts the shell back to work, or it leaves the desk alone. -/
theorem attendant_cases (machine : Machine)
    (attendant : job = .attend run ∨ job = .finish run) :
    (∃ status, machine.perform job = machine.handBack status ∧
      machine.handedBackBy job = some run ∧
        machine.exitOf run = status.getD statusFailure) ∨
      (machine.handedBackBy job = none ∧ machine.front.Quiet (machine.perform job).front) := by
  rw [machine.handedBackBy_attendant attendant]
  cases found : machine.runs[run]? with
  | none =>
      have same : machine.perform job = machine := by
        rcases attendant with rfl | rfl
        · simp only [perform, attend, found]
        · simp only [perform, finish, found]
      exact .inr ⟨rfl, same.symm ▸ Front.quiet_of_jobs rfl rfl⟩
  | some state =>
      cases phase : state.phase with
      | closed status =>
          refine .inl ⟨status, ?_, ?_, ?_⟩
          · rcases attendant with rfl | rfl
            · simp only [perform, attend, found, phase]
            · simp only [perform, finish, found, phase]
          · simp [Run.isOver, phase]
          · rw [exitOf, found, Option.map_some, phase]
            cases status <;> rfl
      | starting | inside | listening =>
          refine .inr ⟨by simp [Run.isOver, phase], ?_⟩
          rcases attendant with rfl | rfl
          · simp only [perform, attend, found, phase]
            exact Front.quiet_of_jobs rfl rfl
          · simp only [perform, finish, found, phase]
            exact Front.quiet_of_jobs rfl rfl

end Machine

namespace Ledger

variable {ledger : Ledger} {places : Places} {current : Option Nat} {job : Job}
  {ready : List Job} {turn : Nat}

/-- The attendant of a run notes the end of the command in flight. -/
theorem perform_of_attendant {run : Nat} (ledger : Ledger)
    (attendant : job = .attend run ∨ job = .finish run) :
    ledger.perform job =
      match ledger.machine.handedBackBy job with
      | none => { ledger with machine := ledger.machine.perform job }
      | some run =>
          { machine := ledger.machine.perform job
            submitter := none
            ended := ledger.ended ++
              ledger.submitter.toList.map (·, ledger.machine.exitOf run) } := by
  rcases attendant with rfl | rfl <;> rfl

/-- A callback that leaves the desk alone. -/
theorem Kept.inOrder_quiet (kept : ledger.Kept places current) (nobody : places.held = none)
    {after : Machine} (quiet : ledger.machine.front.Quiet after.front)
    (sound : after.front.Sound none) : InOrder { ledger with machine := after } := by
  obtain ⟨attendants, lined⟩ := kept.lined.quiet quiet sound
  exact ⟨_, current, kept.congr quiet.1 lined, nobody⟩

/-- A callback that belongs to a program alone. -/
theorem Kept.perform_aside (kept : ledger.Kept places current) (nobody : places.held = none)
    (sound : ledger.machine.front.Sound none) (next : ledger.machine.ready = job :: ready)
    (turn : Nat) (aside : job.isFront = false) : ((ledger.pop ready turn).perform job).InOrder := by
  have front : (ledger.pop ready turn).machine.front = ledger.machine.front :=
    Machine.front_pop_of_aside next turn aside
  have popped : (ledger.pop ready turn).Kept places current :=
    kept.congr (congrArg Front.desk front) (kept.lined.of_front front)
  have quiet := (Machine.front_perform (ledger.pop ready turn).machine aside).quiet
  have done := popped.inOrder_quiet nobody quiet (Machine.sound_perform sound next turn)
  cases job with
  | begin | attend | finish | freed | call => cases aside
  | signalled | expire | conclude | reap | resume | alarm => exact done

/-- A caller that was to be told that the shell is free is to look at it now. -/
theorem Kept.perform_freed (kept : ledger.Kept places current) (nobody : places.held = none)
    {caller : Nat} {freed : List Nat} (here : places.freed = caller :: freed)
    (rest : (ledger.pop ready turn).machine.front.jobs = { places with freed := freed }.jobs) :
    ((ledger.pop ready turn).perform (.freed caller)).InOrder := by
  have free : ledger.machine.task = none := by
    refine Option.eq_none_iff_forall_ne_some.mpr fun run task => ?_
    have none := kept.lined.engaged (Option.isSome_of_eq_some task)
    rw [here] at none
    cases none
  have gone := (kept.lined.free free).2
  have line : { places with called := places.called ++ [caller], freed := freed }.line =
      places.line := by
    simp [Places.line, here]
  have queued : ((ledger.pop ready turn).machine.queue (.call caller)).front.jobs =
      (ledger.pop ready turn).machine.front.jobs ++ [.call caller] := by
    simp [Machine.queue, Machine.front, Job.isFront]
  have lined : ((ledger.pop ready turn).machine.queue (.call caller)).Lined
      { places with called := places.called ++ [caller], freed := freed } := by
    refine ⟨?_, kept.lined.attendants, fun engaged => ?_, kept.lined.free, ?_⟩
    · rw [queued, rest]
      simp [Places.jobs, gone]
    · change ledger.machine.task.isSome at engaged
      rw [free] at engaged
      cases engaged
    · rw [line]
      exact kept.lined.order
  exact ⟨_, current, kept.congr rfl lined, nobody⟩

/-- A caller looks at the shell. -/
theorem Kept.perform_call (kept : ledger.Kept places current) (nobody : places.held = none)
    (sound : ledger.machine.front.Sound none) {caller : Nat} {called : List Nat}
    (next : ledger.machine.ready = .call caller :: ready) (turn : Nat)
    (alone : places.freed = []) (here : places.called = caller :: called)
    (rest : (ledger.pop ready turn).machine.front.jobs = { places with called := called }.jobs) :
    ((ledger.pop ready turn).perform (.call caller)).InOrder := by
  have line : { places with held := some caller, called := called }.line = places.line := by
    simp [Places.line, nobody, here]
  have lined : (ledger.pop ready turn).machine.Lined
      { places with held := some caller, called := called } := by
    refine ⟨rest, kept.lined.attendants, fun _ => alone, kept.lined.free, ?_⟩
    rw [line]
    exact kept.lined.order
  have popped : (ledger.pop ready turn).Kept { places with held := some caller, called := called }
      current := kept.congr rfl lined
  exact popped.call (Machine.sound_pop_callers sound next turn rfl (.inl rfl)) rfl alone

/-- The callback that calls a program, and those of its attendant. -/
theorem Kept.perform_attendant (kept : ledger.Kept places current) (nobody : places.held = none)
    (sound : ledger.machine.front.Sound none) (next : ledger.machine.ready = job :: ready)
    (turn : Nat) (attendant : job.isAttendant = true) (freed : places.freed = [])
    (called : places.called = [])
    (rest : places.attendants = job :: (ledger.pop ready turn).machine.front.jobs) :
    ((ledger.pop ready turn).perform job).InOrder := by
  have after := Machine.sound_perform sound next turn
  have engaged : ledger.machine.task.isSome := by
    refine sound.isSome_task ?_ attendant
    rw [kept.lined.jobs, Places.jobs, rest]
    simp
  have lined : (ledger.pop ready turn).machine.Lined
      { places with attendants := (ledger.pop ready turn).machine.front.jobs } := by
    refine ⟨?_, fun job member => ?_, kept.lined.engaged, fun free => ?_, kept.lined.order⟩
    · simp [Places.jobs, freed, called]
    · exact kept.lined.attendants job (rest ▸ List.mem_cons_of_mem _ member)
    · change ledger.machine.task = none at free
      rw [free] at engaged
      cases engaged
  have popped : (ledger.pop ready turn).Kept
      { places with attendants := (ledger.pop ready turn).machine.front.jobs } current :=
    kept.congr rfl lined
  have empty : places.line = [] := by simp [Places.line, nobody, freed, called]
  have attended : ∀ run, job = .attend run ∨ job = .finish run →
      ((ledger.pop ready turn).perform job).InOrder := by
    intro run attendant
    rw [perform_of_attendant _ attendant]
    change ((ledger.pop ready turn).machine.perform job).front.Sound none at after
    rcases (ledger.pop ready turn).machine.attendant_cases attendant with
      ⟨status, back, handed, exit⟩ | ⟨handed, quiet⟩
    · rw [back] at after
      rw [handed]
      dsimp only
      rw [back, exit]
      exact ⟨_, current, popped.handBack empty engaged after, rfl⟩
    · rw [handed]
      exact popped.inOrder_quiet nobody quiet after
  cases job with
  | attend run => exact attended run (.inl rfl)
  | finish run => exact attended run (.inr rfl)
  | begin run =>
      refine popped.inOrder_quiet nobody ?_ after
      cases found : (ledger.pop ready turn).machine.runs[run]? with
      | none =>
          simp only [Machine.perform, Machine.begin, found]
          exact Front.quiet_of_jobs rfl rfl
      | some state => exact ((ledger.pop ready turn).machine.front_begin found).quiet
  | signalled | expire | conclude | reap | resume | alarm | freed | call => cases attendant

/-- A callback leaves a ledger in order. -/
theorem InOrder.perform (ordered : ledger.InOrder) (sound : ledger.machine.front.Sound none)
    (next : ledger.machine.ready = job :: ready) (turn : Nat) :
    ((ledger.pop ready turn).perform job).InOrder := by
  obtain ⟨places, current, kept, nobody⟩ := ordered
  cases concerns : job.isFront with
  | false => exact kept.perform_aside nobody sound next turn concerns
  | true =>
      have split := kept.lined.jobs.symm.trans (Machine.jobs_of_isFront next turn concerns)
      rcases Places.jobs_eq_cons split kept.lined.attendants with
        ⟨caller, freed, rfl, here, rest⟩ | ⟨caller, called, rfl, alone, here, rest⟩ |
          ⟨attendant, freed, called, rest⟩
      · exact kept.perform_freed nobody here rest
      · exact kept.perform_call nobody sound next turn alone here rest
      · exact kept.perform_attendant nobody sound next turn attendant freed called rest

/-! ### Moves of the host -/

theorem InOrder.of_front (ordered : ledger.InOrder) {after : Machine}
    (same : after.front = ledger.machine.front) : InOrder { ledger with machine := after } := by
  obtain ⟨places, current, kept, nobody⟩ := ordered
  exact ⟨places, current, kept.congr (congrArg Front.desk same) (kept.lined.of_front same),
    nobody⟩

/-- One caller more, at the back of the line. -/
theorem Kept.enlist {places' : Places} (kept : ledger.Kept places current) {after : Machine}
    {line : Text}
    (callers : after.callers = ledger.machine.callers ++ [{ line := line }])
    (others : after.shell = ledger.machine.shell ∧ after.task = ledger.machine.task ∧
      after.finished = ledger.machine.finished) (lined : after.Lined places') :
    Kept { ledger with machine := after } places' current := by
  obtain ⟨shell, task, finished⟩ := others
  have short := kept.lined.length_le
  have old : ∀ caller < ledger.machine.callers.length,
      after.callers[caller]? = ledger.machine.callers[caller]? := by
    intro caller bound
    rw [callers, List.getElem?_append_left bound]
  refine ⟨⟨lined, ?_, ?_, ?_, ?_, ?_, kept.once⟩, ?_⟩
  · intro caller here
    obtain ⟨ahead, bound⟩ := kept.first caller here
    change caller = after.finished.length ∧ caller < after.callers.length
    rw [finished, callers, List.length_append]
    exact ⟨ahead, by omega⟩
  · intro caller state found
    change _ ↔ caller < after.finished.length ∨ _
    rw [finished]
    by_cases bound : caller < ledger.machine.callers.length
    · exact kept.submitted caller state ((old caller bound).symm.trans found)
    · change after.callers[caller]? = some state at found
      rw [callers, List.getElem?_append_right (by omega), List.getElem?_singleton] at found
      split at found
      · obtain rfl := Option.some.inj found
        have later : ¬ (caller < ledger.machine.finished.length ∨ current = some caller) := by
          rintro (before | here)
          · omega
          · exact bound (kept.first caller here).2
        exact ⟨fun no => Bool.noConfusion no, fun yes => absurd yes later⟩
      · cases found
  · change ledger.submitter = if after.task.isSome then current else none
    rw [task]
    exact kept.submitter
  · intro caller status answered state found
    change (caller, .ok status) ∈ after.finished at answered
    change after.callers[caller]? = some state at found
    rw [finished] at answered
    have member : caller ∈ List.range ledger.machine.callers.length := by
      rw [← kept.lined.order]
      exact List.mem_append_left _ (List.mem_map_of_mem answered)
    rw [old caller (List.mem_range.mp member)] at found
    exact kept.answered caller status answered state found
  · intro caller status member
    change caller < after.finished.length ∨ (after.task = none ∧ _)
    rw [finished, task]
    exact kept.enders caller status member
  · intro free caller here state found
    change after.task = none at free
    change after.callers[caller]? = some state at found
    change _ ∨ (caller, after.shell.status) ∈ _
    rw [old caller (kept.first caller here).2] at found
    rw [shell]
    exact kept.told (task ▸ free) caller here state found

/-- An input event, given while nothing concerns the front. -/
theorem InOrder.input (ordered : ledger.InOrder) (sound : ledger.machine.front.Sound none)
    (quiet : ledger.machine.front.jobs = []) (event : Text) :
    InOrder { ledger with machine := ledger.machine.input event } := by
  cases active : ledger.machine.shell.activity with
  | running => rwa [Machine.input_of_running active]
  | idle =>
      obtain ⟨places, current, kept, nobody⟩ := ordered
      have free := Machine.free_of_idle sound active
      obtain ⟨freed, called, attendants⟩ :=
        Places.jobs_eq_nil (kept.lined.jobs.symm.trans quiet)
      have waiting := (kept.lined.free free).1
      have line : places.line = [] := by simp [Places.line, nobody, called, freed]
      have none : current = none := by
        cases current with
        | none => rfl
        | some caller =>
            have lengths := congrArg List.length kept.lined.order
            rw [waiting, line, List.append_nil, List.append_nil, List.length_map,
              List.length_range] at lengths
            have := kept.first caller rfl
            omega
      subst none
      have silent : ledger.submitter = none := by
        rw [kept.submitter, ite_self]
      rw [Machine.input]
      generalize ledger.machine.shell.input true event = result
      obtain ⟨reaction, shell⟩ := result
      cases reaction with
      | done | raised =>
          have lined := kept.lined.withShell shell
          exact ⟨_, none, ⟨⟨lined, kept.first, kept.submitted, kept.submitter, kept.answered,
            kept.enders, kept.once⟩, fun _ _ no => by cases no⟩, nobody⟩
      | launched program =>
          have lined := (kept.lined.withShell shell).launch freed free program
          refine ⟨_, none, ⟨⟨lined, kept.first, kept.submitted, silent, kept.answered,
            fun caller status member => ?_, kept.once⟩, fun _ _ no => by cases no⟩, nobody⟩
          exact .inl ((kept.enders caller status member).resolve_right (by simp))

/-- A new caller comes while nothing but looks of other callers concerns the front. -/
theorem InOrder.exec (ordered : ledger.InOrder)
    (looks : ∀ job ∈ ledger.machine.front.jobs, ∃ caller, job = .call caller) (line : Text) :
    InOrder { ledger with machine := ledger.machine.exec line } := by
  obtain ⟨places, current, kept, nobody⟩ := ordered
  have jobs := kept.lined.jobs
  have freed : places.freed = [] := by
    refine List.eq_nil_iff_forall_not_mem.mpr fun caller member => ?_
    obtain ⟨other, same⟩ := looks (.freed caller) (by simp [jobs, Places.jobs, member])
    cases same
  have attendants : places.attendants = [] := by
    refine List.eq_nil_iff_forall_not_mem.mpr fun job member => ?_
    obtain ⟨other, rfl⟩ := looks job (by simp [jobs, Places.jobs, member])
    exact Bool.noConfusion (kept.lined.attendants _ member)
  let caller := ledger.machine.callers.length
  have queued : (ledger.machine.exec line).front.jobs =
      ledger.machine.front.jobs ++ [.call caller] := by
    simp [Machine.exec, Machine.queue, Machine.front, Job.isFront, caller]
  have lined : (ledger.machine.exec line).Lined
      { places with called := places.called ++ [caller] } := by
    refine ⟨?_, kept.lined.attendants, kept.lined.engaged, kept.lined.free, ?_⟩
    · rw [queued, jobs]
      simp [Places.jobs, freed, attendants]
    · have order := congrArg (· ++ [caller]) kept.lined.order
      rw [← List.range_succ] at order
      simpa [Places.line, freed, Machine.exec, Machine.queue] using order
  exact ⟨_, current, kept.enlist rfl ⟨rfl, rfl, rfl⟩ lined, nobody⟩

/-- A new caller looks at the shell where it comes, while nothing concerns the front. -/
theorem InOrder.carryOut (ordered : ledger.InOrder) (sound : ledger.machine.front.Sound none)
    (quiet : ledger.machine.front.jobs = []) (line : Text) :
    (call { ledger with machine := ledger.machine.enlist line }
      ledger.machine.callers.length).InOrder := by
  obtain ⟨places, current, kept, nobody⟩ := ordered
  obtain ⟨freed, called, -⟩ := Places.jobs_eq_nil (kept.lined.jobs.symm.trans quiet)
  let caller := ledger.machine.callers.length
  have lined : (ledger.machine.enlist line).Lined { places with held := some caller } := by
    refine ⟨kept.lined.jobs, kept.lined.attendants, kept.lined.engaged, kept.lined.free, ?_⟩
    have order := congrArg (· ++ [caller]) kept.lined.order
    rw [← List.range_succ] at order
    simpa [Places.line, nobody, freed, called, Machine.enlist] using order
  have enlisted : Kept { ledger with machine := ledger.machine.enlist line }
      { places with held := some caller } current := kept.enlist rfl ⟨rfl, rfl, rfl⟩ lined
  exact enlisted.call (Machine.sound_enlist sound line) rfl freed

/-- A move that an orderly host makes leaves a ledger in order. -/
theorem InOrder.next (ordered : ledger.InOrder) (sound : ledger.machine.front.Sound none)
    {move : Move} (permits : ledger.machine.Permits move) : (ledger.next move).InOrder := by
  cases move with
  | input event => exact ordered.input sound permits event
  | exec line => exact ordered.exec permits line
  | carryOut line => exact ordered.carryOut sound permits line
  | release gate => exact ordered.of_front (Machine.front_release _ gate)
  | elapse moment => exact ordered.of_front rfl
  | step =>
      change ledger.tick.InOrder
      unfold Ledger.tick
      split
      · next turn job ready _ next => exact ordered.perform sound next turn
      · exact ordered.of_front (Machine.front_beginTurn sound.later)

end Ledger

/-! ### Orderly courses -/

namespace Orderly

variable {ledger : Ledger}

theorem inOrder (orderly : Orderly ledger) :
    ledger.machine.front.Sound none ∧ ledger.InOrder := by
  induction orderly with
  | @start shell reachable =>
      have lined : (Machine.start shell).Lined {} :=
        ⟨rfl, nofun, nofun, fun _ => ⟨rfl, rfl⟩, rfl⟩
      exact ⟨reachable.sound.machine, {}, none,
        ⟨⟨lined, nofun, nofun, rfl, nofun, nofun, .nil⟩, nofun⟩, rfl⟩
  | @next ledger move permits _ ih =>
      refine ⟨?_, ih.2.next ih.1 permits⟩
      rw [Ledger.machine_next]
      exact Machine.sound_make ih.1 move

/-- On an orderly course the callers are answered in the order in which they came. -/
theorem answered_in_turn (orderly : Orderly ledger) :
    ledger.machine.finished.map Prod.fst = List.range ledger.machine.finished.length := by
  obtain ⟨-, places, current, kept, -⟩ := orderly.inOrder
  exact kept.lined.fst_finished

/-- On an orderly course a caller is told the status with which its own command ended, and
that command ended once. -/
theorem own_status (orderly : Orderly ledger) {caller : Nat} {status : Int} {state : Caller}
    (answered : (caller, .ok status) ∈ ledger.machine.finished)
    (found : ledger.machine.callers[caller]? = some state)
    (visible : state.line.isBlank = false) :
    (caller, status) ∈ ledger.ended ∧
      ∀ other, (caller, other) ∈ ledger.ended → other = status := by
  obtain ⟨-, places, current, kept, -⟩ := orderly.inOrder
  have ended : (caller, status) ∈ ledger.ended := by
    refine (kept.answered caller status answered state found).resolve_left ?_
    rw [visible]
    exact Bool.false_ne_true
  refine ⟨ended, fun other member => ?_⟩
  exact (Prod.mk.inj (List.inj_on_of_nodup_map kept.once member ended rfl)).2

end Orderly

/-! ### Other courses -/

/-- A shell with one external program, which waits at a gate and ends with status 0, and
one builtin program, which ends with status 1. -/
def gatedShell : Shell :=
  let wait : Program := .external fun _ =>
    .defer false (.awaits [.gate "open"] (.stop (.returned (.number 0))))
  let fail : Program := .builtin (.ok fun _ _ => { acts := [], ending := .ok 1 })
  .start {} .memory {} { entries := [("wait", wait), ("fail", fail)] }

/-- A course on which the host gives input when a program has ended, and the caller that
waits for it is to be told that the shell is free. -/
def hastyCourse : List Move :=
  .exec "wait" :: List.replicate 5 .step ++ .release "open" :: List.replicate 4 .step ++
    .input "fail" :: .input "\r" :: List.replicate 4 .step

/-- On other courses a caller can be told the status of a line that was submitted later. -/
theorem not_own_status :
    ¬ ∀ (shell : Shell) (moves : List Move), Reachable (.start shell) →
      let ledger := (Ledger.start shell).nextAll moves
      ∀ (caller : Nat) (status : Int) (state : Caller),
        (caller, .ok status) ∈ ledger.machine.finished →
        ledger.machine.callers[caller]? = some state → state.line.isBlank = false →
        (caller, status) ∈ ledger.ended := by
  intro own
  have told : ((Ledger.start gatedShell).nextAll hastyCourse).machine.finished = [(0, .ok 1)] ∧
      ((Ledger.start gatedShell).nextAll hastyCourse).machine.callers =
        [{ line := "wait", submitted := true }] ∧
      ((Ledger.start gatedShell).nextAll hastyCourse).ended = [(0, 0)] := by
    decide +kernel
  have own := own gatedShell hastyCourse (.start ..) 0 1 { line := "wait", submitted := true }
  generalize (Ledger.start gatedShell).nextAll hastyCourse = ledger at told own
  obtain ⟨finished, callers, ended⟩ := told
  rw [finished, callers, ended] at own
  exact absurd (own List.mem_cons_self rfl (by decide)) (by decide)

end LineShell
