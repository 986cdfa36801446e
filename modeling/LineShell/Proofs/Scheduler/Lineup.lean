/-
Module: LineShell.Proofs.Scheduler.Lineup
Purpose: The callers in one line, in the order in which they came, and what the first of
  them knows about its own command.
Main exports: Places, Machine.Lined, Front.Quiet, Ledger.Kept, Ledger.InOrder,
  Ledger.Kept.call
-/
import LineShell.Proofs.Scheduler.Ledger

namespace LineShell

/-!
A caller that has come waits for the program in flight, or it is to be told that the shell
is free, or it is to look at the shell.  While a program is in flight nobody is in the
second place; while none is, nobody is in the first.  So all callers stand in one line,
which changes at its ends only: a caller comes to the back, and the one at the front is
answered.

Only the caller at the front of the line can have submitted its line.  As long as its
command runs the ledger knows it as the submitter, and from the end of the command to the
answer the status of the shell is that of the command.
-/

/-! ### Places -/

/-- Where the callers are that have come and do not wait for a program. -/
structure Places where
  /-- The caller whose callback runs. -/
  held : Option Nat := none
  /-- Those that are to look at the shell. -/
  called : List Nat := []
  /-- Those that are to be told that the shell is free. -/
  freed : List Nat := []
  /-- The callbacks of attendants, which stand behind all others. -/
  attendants : List Job := []

namespace Places

/-- The callbacks that concern the front, in their order. -/
def jobs (places : Places) : List Job :=
  places.freed.map .freed ++ (places.called.map .call ++ places.attendants)

/-- The callers in the order in which they came. -/
def line (places : Places) : List Nat :=
  places.held.toList ++ (places.called ++ places.freed)

variable {places : Places} {job : Job} {others : List Job}

theorem jobs_eq_nil (none : places.jobs = []) :
    places.freed = [] ∧ places.called = [] ∧ places.attendants = [] := by
  simpa [Places.jobs] using none

/-- Where the next callback that concerns the front comes from. -/
theorem jobs_eq_cons (split : places.jobs = job :: others)
    (attendants : ∀ job ∈ places.attendants, job.isAttendant = true) :
    (∃ caller freed, job = .freed caller ∧ places.freed = caller :: freed ∧
      others = { places with freed := freed }.jobs) ∨
    (∃ caller called, job = .call caller ∧ places.freed = [] ∧
      places.called = caller :: called ∧ others = { places with called := called }.jobs) ∨
    (job.isAttendant = true ∧ places.freed = [] ∧ places.called = [] ∧
      places.attendants = job :: others) := by
  obtain ⟨held, called, freed, attendants'⟩ := places
  cases freed with
  | cons caller freed =>
      obtain ⟨rfl, rfl⟩ := List.cons.inj split
      exact .inl ⟨caller, freed, rfl, rfl, rfl⟩
  | nil =>
      cases called with
      | cons caller called =>
          obtain ⟨rfl, rfl⟩ := List.cons.inj split
          exact .inr (.inl ⟨caller, called, rfl, rfl, rfl, rfl⟩)
      | nil =>
          obtain rfl : attendants' = job :: others := split
          exact .inr (.inr ⟨attendants job List.mem_cons_self, rfl, rfl, rfl⟩)

end Places

/-- Whether the callers stand in one line: those that were answered, those that wait for
the program in flight, and the others. -/
structure Machine.Lined (machine : Machine) (places : Places) : Prop where
  jobs : machine.front.jobs = places.jobs
  attendants : ∀ job ∈ places.attendants, job.isAttendant = true
  /-- While a program is in flight nobody is told that the shell is free. -/
  engaged : machine.task.isSome → places.freed = []
  /-- While none is, nobody waits and no attendant is left. -/
  free : machine.task = none → machine.waiting = [] ∧ places.attendants = []
  order : machine.finished.map Prod.fst ++ (machine.waiting ++ places.line) =
    List.range machine.callers.length

/-! ### Callbacks that leave the callers alone -/

/-- What a machine keeps about callers and the command in flight. -/
structure Desk where
  shell : Shell
  task : Option Nat
  waiting : List Nat
  callers : List Caller
  finished : List (Nat × Except Fault Int)

namespace Front

variable {front after : Front} {run : Nat}

def desk (front : Front) : Desk :=
  { shell := front.shell
    task := front.task
    waiting := front.waiting
    callers := front.callers
    finished := front.finished }

/-- Whether nothing has changed at the desk, and only callbacks of attendants have been
queued. -/
def Quiet (front after : Front) : Prop :=
  after.desk = front.desk ∧ ∃ told, after.jobs = front.jobs ++ told ∧
    ∀ job ∈ told, job.isAttendant = true

theorem quiet_of_jobs (desk : after.desk = front.desk) (jobs : after.jobs = front.jobs) :
    front.Quiet after :=
  ⟨desk, [], jobs.trans (List.append_nil _).symm, by simp⟩

theorem quiet_close (status : Option Int) : front.Quiet (front.close run status) := by
  refine ⟨rfl, ?_⟩
  rw [close]
  split
  · exact ⟨[.finish run], rfl, by simp [Job.isAttendant]⟩
  · exact ⟨[], (List.append_nil _).symm, by simp⟩

theorem Left.quiet_close {left : Front} (gone : front.Left run left) (status : Option Int) :
    front.Quiet (left.close run status) := by
  obtain ⟨before, behind, -, rfl⟩ := gone
  exact Front.quiet_close status

theorem Aside.quiet (aside : front.Aside after) : front.Quiet after := by
  cases aside with
  | unseen => exact quiet_of_jobs rfl rfl
  | concluded status found listening => exact quiet_close status
  | ended status gone => exact gone.quiet_close status

theorem Begun.quiet (begun : front.Begun run after) : front.Quiet after := by
  cases begun with
  | listening => exact quiet_of_jobs rfl rfl
  | closed status => exact quiet_close status
  | entered => exact quiet_of_jobs rfl rfl
  | passed status gone => exact gone.quiet_close status

end Front

namespace Machine.Lined

variable {machine after : Machine} {places : Places}

/-- At a free desk there is nothing left of attendants. -/
theorem attendants_eq_nil {attendants : List Job} (sound : machine.front.Sound none)
    (free : machine.task = none) (among : ∀ job ∈ attendants, job ∈ machine.front.jobs)
    (belong : ∀ job ∈ attendants, job.isAttendant = true) : attendants = [] := by
  refine List.eq_nil_iff_forall_not_mem.mpr fun job member => ?_
  have waited := sound.isSome_task (among job member) (belong job member)
  change machine.task.isSome at waited
  rw [free] at waited
  cases waited

/-- Callbacks that leave the desk alone leave everybody in place. -/
theorem quiet (lined : machine.Lined places) (quiet : machine.front.Quiet after.front)
    (sound : after.front.Sound none) :
    ∃ attendants, after.Lined { places with attendants := attendants } := by
  obtain ⟨desk, told, jobs, belong⟩ := quiet
  obtain ⟨-, task, waiting, callers, finished⟩ := Desk.mk.inj desk
  change after.task = machine.task at task
  change after.waiting = machine.waiting at waiting
  change after.callers = machine.callers at callers
  change after.finished = machine.finished at finished
  refine ⟨places.attendants ++ told, ?_, ?_, ?_, ?_, ?_⟩
  · rw [jobs, lined.jobs]
    simp [Places.jobs]
  · intro job member
    exact (List.mem_append.mp member).elim (lined.attendants job) (belong job)
  · rw [task]
    exact lined.engaged
  · intro free
    obtain ⟨nobody, none⟩ := lined.free (task ▸ free)
    have gone : told = [] := attendants_eq_nil sound free
      (fun job member => jobs ▸ List.mem_append_right _ member) belong
    exact ⟨waiting.trans nobody, by rw [none, gone, List.nil_append]⟩
  · rw [finished, waiting, callers]
    exact lined.order

/-- Moves that are not seen from the front leave everybody in place. -/
theorem of_front (lined : machine.Lined places) (same : after.front = machine.front) :
    after.Lined places := by
  obtain ⟨attendants, engaged, free, order⟩ :
      (∀ job ∈ places.attendants, job.isAttendant = true) ∧
        (after.front.task.isSome → places.freed = []) ∧
          (after.front.task = none → after.front.waiting = [] ∧ places.attendants = []) ∧
            after.front.finished.map Prod.fst ++ (after.front.waiting ++ places.line) =
              List.range after.front.callers.length := by
    rw [same]
    exact ⟨lined.attendants, lined.engaged, lined.free, lined.order⟩
  exact ⟨same ▸ lined.jobs, attendants, engaged, free, order⟩

theorem withShell (lined : machine.Lined places) (shell : Shell) :
    Machine.Lined { machine with shell := shell } places :=
  ⟨lined.jobs, lined.attendants, lined.engaged, lined.free, lined.order⟩

theorem modifyCaller (lined : machine.Lined places) (caller : Nat) (change : Caller → Caller) :
    (machine.modifyCaller caller change).Lined places := by
  refine ⟨lined.jobs, lined.attendants, lined.engaged, lined.free, ?_⟩
  change _ = List.range (machine.callers.modify caller change).length
  rw [List.length_modify]
  exact lined.order

/-- A program is launched in a free shell: its callbacks come behind all others. -/
theorem launch (lined : machine.Lined places) (alone : places.freed = [])
    (free : machine.task = none) (program : Launch) :
    (machine.launch program).Lined
      { places with attendants := [.begin machine.runs.length, .attend machine.runs.length] } := by
  refine ⟨?_, by simp [Job.isAttendant], fun _ => alone, nofun, lined.order⟩
  have jobs : machine.ready.filter Job.isFront = places.jobs := lined.jobs
  have none := (lined.free free).2
  simp only [Machine.launch, Machine.queueAll, Machine.front, List.filter_append, jobs]
  simp [Places.jobs, none, Job.isFront]

/-- Nobody is answered who has not come. -/
theorem length_le (lined : machine.Lined places) :
    machine.finished.length ≤ machine.callers.length := by
  have lengths := congrArg List.length lined.order
  simp only [List.length_append, List.length_map, List.length_range] at lengths
  omega

/-- The callers that were answered are those that came first. -/
theorem fst_finished (lined : machine.Lined places) :
    machine.finished.map Prod.fst = List.range machine.finished.length := by
  have front := congrArg (List.take machine.finished.length) lined.order
  rw [List.take_left' (List.length_map _), List.take_range,
    Nat.min_eq_left lined.length_le] at front
  exact front

/-- The caller behind those that were answered is the first in the line. -/
theorem eq_length (lined : machine.Lined places) {caller : Nat} {others : List Nat}
    (line : machine.waiting ++ places.line = caller :: others) :
    caller = machine.finished.length ∧ caller < machine.callers.length := by
  have order := lined.order
  rw [line] at order
  have here := congrArg (fun list => list[machine.finished.length]?) order
  simp only [List.getElem?_append, List.length_map, Nat.lt_irrefl, if_false, Nat.sub_self,
    List.getElem?_cons_zero] at here
  obtain ⟨bound, same⟩ := List.getElem?_eq_some_iff.mp here.symm
  rw [List.getElem_range] at same
  rw [List.length_range] at bound
  exact ⟨same.symm, same ▸ bound⟩

end Machine.Lined

/-! ### Ledgers in order -/

namespace Ledger

/-- Whether a status is that of the command of a caller, unless its line was blank. -/
def Tells (ledger : Ledger) (caller : Nat) (status : Int) : Prop :=
  ∀ state, ledger.machine.callers[caller]? = some state →
    state.line.isBlank = true ∨ (caller, status) ∈ ledger.ended

/-- How the callers stand on an orderly course.  The caller `current` has submitted its line
and is not done. -/
structure Stands (ledger : Ledger) (places : Places) (current : Option Nat) : Prop where
  lined : ledger.machine.Lined places
  /-- That caller is the first in the line. -/
  first : ∀ caller, current = some caller →
    caller = ledger.machine.finished.length ∧ caller < ledger.machine.callers.length
  /-- Lines are submitted in turn. -/
  submitted : ∀ caller state, ledger.machine.callers[caller]? = some state →
    (state.submitted = true ↔ caller < ledger.machine.finished.length ∨ current = some caller)
  submitter : ledger.submitter = if ledger.machine.task.isSome then current else none
  answered : ∀ caller status, (caller, .ok status) ∈ ledger.machine.finished →
    ledger.Tells caller status
  enders : ∀ caller status, (caller, status) ∈ ledger.ended →
    caller < ledger.machine.finished.length ∨
      (ledger.machine.task = none ∧ current = some caller)
  /-- No command ends twice. -/
  once : (ledger.ended.map Prod.fst).Nodup

/-- What holds of a ledger on an orderly course. -/
structure Kept (ledger : Ledger) (places : Places) (current : Option Nat) : Prop
    extends ledger.Stands places current where
  /-- The status that the caller is going to read is that of its own command. -/
  told : ledger.machine.task = none → ∀ caller, current = some caller →
    ledger.Tells caller ledger.machine.shell.status

/-- Whether a ledger is in order between two callbacks. -/
def InOrder (ledger : Ledger) : Prop :=
  ∃ places current, ledger.Kept places current ∧ places.held = none

namespace Kept

variable {ledger : Ledger} {places places' : Places} {current : Option Nat}
  {after : Machine} {caller : Nat} {state : Caller}

/-- Moves that leave the desk alone. -/
theorem congr (kept : ledger.Kept places current)
    (desk : after.front.desk = ledger.machine.front.desk) (lined : after.Lined places') :
    Kept { ledger with machine := after } places' current := by
  have status : after.shell.status = ledger.machine.shell.status :=
    congrArg (fun desk => desk.shell.status) desk
  obtain ⟨-, task, waiting, callers, finished⟩ := Desk.mk.inj desk
  change after.task = ledger.machine.task at task
  change after.callers = ledger.machine.callers at callers
  change after.finished = ledger.machine.finished at finished
  obtain ⟨⟨-, first, submitted, submitter, answered, enders, once⟩, told⟩ := kept
  unfold Tells at told answered
  rw [← task] at submitter told enders
  rw [← callers] at first submitted told answered
  rw [← finished] at first submitted answered enders
  rw [← status] at told
  exact ⟨⟨lined, first, submitted, submitter, answered, enders, once⟩, told⟩

end Kept

/-- A command that is in flight, or that is yet to be submitted, has not ended. -/
theorem Stands.not_ended {ledger : Ledger} {places : Places} {current : Option Nat} {caller : Nat}
    (stands : ledger.Stands places current) (ahead : caller = ledger.machine.finished.length)
    (open' : ledger.machine.task.isSome ∨ current = none) (status : Int) :
    (caller, status) ∉ ledger.ended := by
  intro member
  rcases stands.enders caller status member with before | ⟨free, here⟩
  · omega
  · rcases open' with engaged | none
    · rw [free] at engaged
      cases engaged
    · rw [none] at here
      cases here

/-- A caller is done: its command has ended and it is told the status, or its line has raised
a failure. -/
theorem Stands.dismiss {ledger : Ledger} {places : Places} {caller : Nat}
    (stands : ledger.Stands places (some caller))
    (held : places.held = some caller) (free : ledger.machine.task = none)
    {outcome : Except Fault Int}
    (tells : ∀ status, outcome = .ok status → ledger.Tells caller status) :
    Kept { ledger with machine := ledger.machine.dismiss caller outcome }
      { places with held := none } none := by
  obtain ⟨⟨jobs, attendants, nobody, unused, order⟩, first, submitted, submitter, answered,
    enders, once⟩ := stands
  have ahead := (first caller rfl).1
  have waiting : ledger.machine.waiting = [] := (unused free).1
  refine ⟨⟨⟨jobs, attendants, nobody, unused, ?_⟩, by simp, ?_, ?_, ?_, ?_, once⟩, by simp⟩
  · simpa [Places.line, held, waiting, Machine.dismiss] using order
  · intro other state found
    rw [submitted other state found]
    simp [Machine.dismiss, ahead]
    omega
  · simpa [free] using submitter
  · intro other status finished
    rcases List.mem_append.mp finished with old | new
    · exact answered other status old
    · obtain ⟨rfl, same⟩ := Prod.mk.inj (List.mem_singleton.mp new)
      exact tells status same.symm
  · intro other status member
    left
    rcases enders other status member with before | ⟨_, same⟩
    · simp [Machine.dismiss]
      omega
    · obtain rfl := Option.some.inj same
      simp [Machine.dismiss, ahead]

/-- One command more has ended. -/
theorem nodup_ended {ended : List (Nat × Int)} {caller : Nat} (once : (ended.map Prod.fst).Nodup)
    (new : ∀ status, (caller, status) ∉ ended) (status : Int) :
    ((ended ++ [(caller, status)]).map Prod.fst).Nodup := by
  rw [List.map_append, List.nodup_append]
  refine ⟨once, by simp, ?_⟩
  rintro other old other' here rfl
  obtain ⟨⟨other, before⟩, member, rfl⟩ := List.mem_map.mp old
  obtain rfl : other = caller := by simpa using here
  exact new before member

namespace Kept

variable {ledger : Ledger} {places places' : Places} {current : Option Nat}
  {caller : Nat} {state : Caller}

/-! ### The end of a command -/

theorem jobs_handBack (machine : Machine) (status : Option Int) :
    (machine.handBack status).front.jobs =
      machine.front.jobs ++ machine.waiting.map .freed := by
  have all : (machine.waiting.map Job.freed).filter Job.isFront = machine.waiting.map .freed :=
    List.filter_eq_self.mpr (by simp [Job.isFront])
  rw [Machine.handBack, Machine.queueAll]
  simp only [Machine.front, List.filter_append, all]
  rfl

/-- The shell is put back to work: the command in flight has ended, and all that wait are
to be told. -/
theorem handBack (kept : ledger.Kept places current) (nobody : places.line = [])
    (engaged : ledger.machine.task.isSome) {status : Option Int}
    (sound : (ledger.machine.handBack status).front.Sound none) :
    Kept
      { machine := ledger.machine.handBack status
        submitter := none
        ended := ledger.ended ++
          ledger.submitter.toList.map (·, status.getD statusFailure) }
      { freed := ledger.machine.waiting } current := by
  have submitter : ledger.submitter = current := by
    rw [kept.submitter, if_pos engaged]
  have lined : (ledger.machine.handBack status).Lined { freed := ledger.machine.waiting } := by
    obtain ⟨held, called, freed, attendants⟩ := places
    obtain ⟨alone, rfl, rfl⟩ : held.toList = [] ∧ called = [] ∧ freed = [] := by
      simpa [Places.line] using nobody
    have jobs := jobs_handBack ledger.machine status
    rw [kept.lined.jobs] at jobs
    have gone : attendants = [] := Machine.Lined.attendants_eq_nil sound rfl
      (fun job member => jobs ▸ by simp [Places.jobs, member]) kept.lined.attendants
    subst gone
    have order : ledger.machine.finished.map Prod.fst ++
        ([] ++ ({ freed := ledger.machine.waiting } : Places).line) =
          List.range ledger.machine.callers.length := by
      simpa [Places.line, alone] using kept.lined.order
    exact ⟨jobs.trans (by simp [Places.jobs]), nofun, nofun, fun _ => ⟨rfl, rfl⟩, order⟩
  refine ⟨⟨lined, kept.first, kept.submitted, rfl, ?_, ?_, ?_⟩, ?_⟩
  rotate_right
  · rintro - caller rfl state found
    rw [submitter]
    exact .inr (List.mem_append_right _ List.mem_cons_self)
  · intro caller answer finished state found
    exact (kept.answered caller answer finished state found).imp_right
      (List.mem_append_left _)
  · intro caller answer member
    rcases List.mem_append.mp member with old | new
    · refine (kept.enders caller answer old).imp_right fun ⟨free, _⟩ => ?_
      rw [free] at engaged
      cases engaged
    · obtain ⟨other, found, same⟩ := List.mem_map.mp new
      rw [submitter, Option.mem_toList] at found
      exact .inr ⟨rfl, found.trans (congrArg some (congrArg Prod.fst same))⟩
  · cases here : ledger.submitter with
    | none =>
        change ((ledger.ended ++ []).map Prod.fst).Nodup
        rw [List.append_nil]
        exact kept.once
    | some caller =>
        have ahead := (kept.first caller (submitter.symm.trans here)).1
        exact nodup_ended kept.once (kept.not_ended ahead (.inl engaged)) _

/-! ### Looking at the shell -/

/-- A caller that finds a program in flight waits. -/
theorem wait (kept : ledger.Kept places current) (held : places.held = some caller)
    (engaged : ledger.machine.task.isSome) :
    Kept { ledger with machine := ledger.machine.wait caller } { places with held := none }
      current := by
  obtain ⟨⟨⟨jobs, attendants, nobody, free, order⟩, first, submitted, submitter, answered,
    enders, once⟩, told⟩ := kept
  refine ⟨⟨⟨jobs, attendants, nobody, fun free => ?_, ?_⟩, first, submitted, submitter,
    answered, enders, once⟩, told⟩
  · change ledger.machine.task = none at free
    rw [free] at engaged
    cases engaged
  · simpa [Places.line, held, Machine.wait] using order

/-- A caller whose command has ended is told the status. -/
theorem answer (kept : ledger.Kept places (some caller)) (held : places.held = some caller)
    (free : ledger.machine.task = none) :
    Kept { ledger with machine := ledger.machine.answer caller } { places with held := none }
      none := by
  refine kept.toStands.dismiss held free fun status same => ?_
  obtain rfl := Except.ok.inj same
  exact kept.told free caller rfl

/-- The callers when one of them has submitted its line. -/
theorem exists_of_marked {callers : List Caller} {other : Nat} {marked : Caller}
    (met : (callers.modify caller fun state => { state with submitted := true })[other]? =
      some marked) :
    ∃ state, callers[other]? = some state ∧ marked.line = state.line ∧
      (marked.submitted = true ↔ state.submitted = true ∨ caller = other) := by
  rw [List.getElem?_modify, Option.map_eq_map, Option.map_eq_some_iff] at met
  obtain ⟨state, met, rfl⟩ := met
  by_cases same : caller = other
  · exact ⟨state, met, by simp [same], by simp [same]⟩
  · exact ⟨state, met, by simp [same], by simp [same]⟩

/-- A caller has submitted its line, and the ledger notes what became of it. -/
theorem afterSubmission (kept : ledger.Kept places none) (held : places.held = some caller)
    (free : ledger.machine.task = none)
    {later : Ledger} (lined : later.machine.Lined places')
    (callers : later.machine.callers = ledger.machine.callers.modify caller
      fun state => { state with submitted := true })
    (finished : later.machine.finished = ledger.machine.finished)
    (submitter : later.submitter = if later.machine.task.isSome then some caller else none)
    (ended : later.ended = ledger.ended ∨ (later.machine.task = none ∧
      ∃ status, later.ended = ledger.ended ++ [(caller, status)])) :
    later.Stands places' (some caller) := by
  have line : ledger.machine.waiting ++ places.line =
      caller :: (places.called ++ places.freed) := by
    simp [(kept.lined.free free).1, Places.line, held]
  obtain ⟨ahead, bound⟩ := kept.lined.eq_length line
  have length : later.machine.callers.length = ledger.machine.callers.length := by
    rw [callers, List.length_modify]
  have grown : ∀ entry ∈ ledger.ended, entry ∈ later.ended := by
    intro entry member
    rcases ended with same | ⟨-, status, more⟩
    · exact same ▸ member
    · exact more ▸ List.mem_append_left _ member
  refine ⟨lined, ?_, ?_, submitter, ?_, ?_, ?_⟩
  · rintro other same
    obtain rfl := Option.some.inj same
    rw [finished, length]
    exact ⟨ahead, bound⟩
  · intro other marked met
    obtain ⟨state, met, -, flag⟩ := exists_of_marked (callers ▸ met)
    rw [flag, finished, kept.submitted other state met]
    simp
  · intro other status answered marked met
    obtain ⟨state, met, line, -⟩ := exists_of_marked (callers ▸ met)
    rw [finished] at answered
    rw [line]
    exact (kept.answered other status answered state met).imp_right (grown _)
  · intro other status member
    have old : (other, status) ∈ ledger.ended → other < later.machine.finished.length := by
      intro member
      rw [finished]
      exact (kept.enders other status member).resolve_right (by simp)
    rcases ended with same | ⟨free, answer, more⟩
    · exact .inl (old (same ▸ member))
    · rcases List.mem_append.mp (more ▸ member) with before | here
      · exact .inl (old before)
      · obtain ⟨rfl, -⟩ := Prod.mk.inj (List.mem_singleton.mp here)
        exact .inr ⟨free, rfl⟩
  · rcases ended with same | ⟨-, status, more⟩
    · exact same ▸ kept.once
    · rw [more]
      exact nodup_ended kept.once (kept.not_ended ahead (.inr rfl)) status

/-- If the line was blank, or has ended at once, its caller can be told the status. -/
theorem told_of_callers {later : Ledger}
    (found : ledger.machine.callers[caller]? = some state)
    (callers : later.machine.callers = ledger.machine.callers.modify caller
      fun state => { state with submitted := true })
    {status : Int} (tells : state.line.isBlank = true ∨ (caller, status) ∈ later.ended) :
    later.Tells caller status := by
  intro marked met
  obtain ⟨state', met, line, -⟩ := exists_of_marked (callers ▸ met)
  obtain rfl := Option.some.inj (found.symm.trans met)
  rwa [line]

/-- A line is submitted to a free shell: it ends at once, its program is launched, or it raises
a failure. -/
theorem submit (kept : ledger.Kept places none) (sound : ledger.machine.front.Sound none)
    (held : places.held = some caller) (alone : places.freed = [])
    (free : ledger.machine.task = none) (found : ledger.machine.callers[caller]? = some state) :
    ∃ attendants, (ledger.submit caller state.line).Stands
        { places with attendants := attendants } (some caller) ∧
      (((ledger.machine.withLine state.line).failure? ['\r'] = none ∧
          ((ledger.submit caller state.line).machine.task = none →
            (ledger.submit caller state.line).Tells caller
              (ledger.submit caller state.line).machine.shell.status)) ∨
        ∃ fault, (ledger.machine.withLine state.line).failure? ['\r'] = some fault ∧
          (ledger.submit caller state.line).machine.task = none) := by
  let typed : Shell := { ledger.machine.shell with buffer := Buffer.ofText state.line }
  have idle : typed.activity = .idle := Machine.idle_of_free sound free
  obtain ⟨launch, status⟩ := Shell.input_submit idle
  have outcome := typed.submit_cases
  rw [← launch, ← status] at outcome
  rcases result : typed.input true ['\r'] with ⟨reaction, shell⟩
  rw [result] at outcome
  dsimp only [typed] at outcome
  unfold Ledger.submit
  rw [Machine.submitLine_eq _ caller result, Machine.failure?_withLine _ result]
  have still := (kept.lined.withShell shell).modifyCaller caller
    fun state => { state with submitted := true }
  have silent : ledger.submitter = none := by rw [kept.submitter, ite_self]
  rcases outcome with ⟨ends, rfl⟩ | ⟨goesOn, rfl, blank⟩ | ⟨goesOn, program, rfl⟩ |
    ⟨goesOn, fault, rfl⟩
  · refine ⟨places.attendants, ?_, .inl ⟨rfl, fun _ => ?_⟩⟩
    · rw [ends]
      refine kept.afterSubmission held free still rfl rfl ?_ (.inr ⟨free, shell.status, rfl⟩)
      exact silent.trans (if_neg (by simp [Machine.modifyCaller, Machine.takeOver, free])).symm
    · rw [ends]
      exact told_of_callers found rfl (.inr (List.mem_append_right _ List.mem_cons_self))
  · refine ⟨places.attendants, ?_, .inl ⟨rfl, fun _ => ?_⟩⟩
    · rw [goesOn]
      exact kept.afterSubmission held free still rfl rfl rfl (.inl rfl)
    · rw [goesOn]
      exact told_of_callers found rfl (.inl blank)
  · have lined := ((kept.lined.withShell shell).launch alone free program).modifyCaller caller
      fun state => { state with submitted := true }
    refine ⟨[.begin ledger.machine.runs.length, .attend ledger.machine.runs.length], ?_,
      .inl ⟨rfl, fun no => ?_⟩⟩
    · rw [goesOn]
      exact kept.afterSubmission held free lined rfl rfl rfl (.inl rfl)
    · rw [goesOn] at no
      cases no
  · refine ⟨places.attendants, ?_, .inr ⟨fault, rfl, ?_⟩⟩
    · rw [goesOn]
      exact kept.afterSubmission held free still rfl rfl rfl (.inl rfl)
    · rw [goesOn]
      exact free

/-- A caller that looks at the shell stays in its place until it is answered. -/
theorem call (kept : ledger.Kept places current) (sound : ledger.machine.front.Sound none)
    (held : places.held = some caller) (alone : places.freed = []) :
    (ledger.call caller).InOrder := by
  have bound : caller < ledger.machine.callers.length := by
    have member : caller ∈ List.range ledger.machine.callers.length := by
      rw [← kept.lined.order]
      simp [Places.line, held]
    exact List.mem_range.mp member
  obtain ⟨state, found⟩ : ∃ state, ledger.machine.callers[caller]? = some state :=
    ⟨_, List.getElem?_eq_getElem bound⟩
  unfold Ledger.call Machine.submittedBy Machine.call
  rw [found]
  dsimp only
  cases task : ledger.machine.task with
  | some run =>
      have engaged : ledger.machine.task.isSome := Option.isSome_of_eq_some task
      exact ⟨_, current, kept.wait held engaged, rfl⟩
  | none =>
      have line : ledger.machine.waiting ++ places.line =
          caller :: (places.called ++ places.freed) := by
        simp [(kept.lined.free task).1, Places.line, held]
      have ahead := (kept.lined.eq_length line).1
      have turn := kept.submitted caller state found
      cases submitted : state.submitted with
      | true =>
          have here := (turn.mp submitted).resolve_left (by omega)
          subst here
          exact ⟨_, none, kept.answer held task, rfl⟩
      | false =>
          have nobody : current = none := by
            cases current with
            | none => rfl
            | some other =>
                have same := (kept.first other rfl).1
                have already := turn.mpr (.inr (congrArg some (same.trans ahead.symm)))
                rw [submitted] at already
                cases already
          subst nobody
          obtain ⟨attendants, stands, outcome⟩ := kept.submit sound held alone task found
          have machine := ledger.machine_submit caller state.line
          rw [← machine]
          simp only [Option.isSome_none, Bool.or_self, Bool.false_eq_true, if_false]
          rcases outcome with ⟨fine, told⟩ | ⟨fault, raised, free⟩
          · have after : (ledger.submit caller state.line).Kept
                { places with attendants := attendants } (some caller) :=
              ⟨stands, fun free other same => Option.some.inj same ▸ told free⟩
            rw [fine]
            cases engaged : (ledger.submit caller state.line).machine.task with
            | some run =>
                have engaged := Option.isSome_of_eq_some engaged
                exact ⟨_, some caller, after.wait held engaged, rfl⟩
            | none => exact ⟨_, none, after.answer held engaged, rfl⟩
          · rw [raised]
            exact ⟨_, none, stands.dismiss held free nofun, rfl⟩

end Kept

end Ledger

end LineShell
