/-
Module: LineShell.Proofs.Scheduler.Submissions
Purpose: Callers are neither lost, nor doubled, nor overtaken: each stands in one place until
  it is answered, and submits its line once, to an idle shell and, if the host is patient,
  in its turn.
Main exports: Machine.Accounted, Machine.accounted_make, Machine.submissions, Machine.looks,
  Machine.isPatient, Flight.Serves, Reachable.serves
-/
import LineShell.Proofs.Scheduler.Desk
import Mathlib.Data.List.Count

namespace LineShell

/-!
A caller that has come waits for the program in flight, or a callback of it is ready, or it
has been answered.  The invariant counts, for every caller, the places in which it is, and
says that the count is one.

A caller submits its line the first time that it finds the shell free.  A mark that is never
taken back keeps it from doing so again, and a look at a free shell is what sets the mark.
-/

namespace Machine

variable {machine after : Machine}

/-! ### Places of callers -/

/-- In how many places a caller is. -/
def places (machine : Machine) (caller : Nat) : Nat :=
  (machine.finished.map Prod.fst).count caller + machine.waiting.count caller +
    machine.ready.count (.freed caller) + machine.ready.count (.call caller)

/-- Whether every caller is in one place.  The callback of the caller `held` has been taken
from the queue. -/
structure Accounted (held : Option Nat) (machine : Machine) : Prop where
  once : ∀ caller, machine.places caller + (if held = some caller then 1 else 0) =
    if caller < machine.callers.length then 1 else 0
  /-- Nobody waits for nothing. -/
  waits : machine.waiting ≠ [] → machine.task.isSome

theorem count_jobs (machine : Machine) {job : Job} (concerns : job.isFront = true) :
    machine.front.jobs.count job = machine.ready.count job :=
  List.count_filter concerns

section Accounting

variable {held : Option Nat}

/-- Moves that leave callers in their places. -/
theorem Accounted.congr (accounted : machine.Accounted held)
    (finished : after.finished = machine.finished) (waiting : after.waiting = machine.waiting)
    (ready : ∀ caller, after.ready.count (.freed caller) = machine.ready.count (.freed caller) ∧
      after.ready.count (.call caller) = machine.ready.count (.call caller))
    (callers : after.callers.length = machine.callers.length)
    (task : machine.task.isSome → after.task.isSome) : after.Accounted held := by
  refine ⟨fun caller => ?_, fun some => task (accounted.waits (waiting ▸ some))⟩
  rw [places, finished, waiting, (ready caller).1, (ready caller).2, callers]
  exact accounted.once caller

/-- What is not seen from the front leaves callers in their places. -/
theorem Accounted.of_desk (accounted : machine.Accounted held)
    (desk : after.front.desk = machine.front.desk)
    (jobs : ∀ caller, after.front.jobs.count (.freed caller) =
        machine.front.jobs.count (.freed caller) ∧
      after.front.jobs.count (.call caller) = machine.front.jobs.count (.call caller)) :
    after.Accounted held := by
  obtain ⟨-, task, waiting, callers, finished⟩ := Desk.mk.inj desk
  change after.task = machine.task at task
  refine accounted.congr finished waiting (fun caller => ?_) (congrArg List.length callers)
    (fun some => task ▸ some)
  rw [← after.count_jobs rfl, ← after.count_jobs rfl, ← machine.count_jobs rfl,
    ← machine.count_jobs rfl]
  exact jobs caller

theorem Accounted.of_front (accounted : machine.Accounted held)
    (same : after.front = machine.front) : after.Accounted held :=
  accounted.of_desk (congrArg Front.desk same) fun _ => by rw [same]; exact ⟨rfl, rfl⟩

theorem Accounted.quiet (accounted : machine.Accounted held)
    (quiet : machine.front.Quiet after.front) : after.Accounted held := by
  obtain ⟨desk, told, jobs, belong⟩ := quiet
  have none : ∀ job : Job, job.isAttendant = false → told.count job = 0 := by
    intro job aside
    refine List.count_eq_zero.mpr fun member => ?_
    rw [belong job member] at aside
    cases aside
  refine accounted.of_desk desk fun caller => ?_
  rw [jobs, List.count_append, List.count_append, none _ rfl, none _ rfl]
  exact ⟨rfl, rfl⟩

/-- A program that is launched has callbacks of its own, and no caller is moved. -/
theorem Accounted.input (accounted : machine.Accounted held) (event : Text) :
    (machine.input event).Accounted held := by
  obtain ⟨callers, waiting, finished⟩ := machine.desk_input event
  have takes := machine.takes_input event
  generalize machine.shell.input true event = result at takes
  obtain ⟨reaction, shell⟩ := result
  refine accounted.congr finished waiting (fun caller => ?_) (congrArg List.length callers)
    fun some => ?_
  · rw [takes.ready]
    cases reaction <;> simp [Reaction.launch?]
  · rw [takes.task]
    cases reaction with
    | done | raised => exact some
    | launched program => rfl

theorem Accounted.submitLine (accounted : machine.Accounted held) (caller : Nat) (line : Text) :
    (machine.submitLine caller line).Accounted held := by
  let typed := machine.withShell fun shell => { shell with buffer := Buffer.ofText line }
  have same : typed.Accounted held := ⟨accounted.once, accounted.waits⟩
  exact (same.input ['\r']).congr rfl rfl (fun _ => ⟨rfl, rfl⟩) (List.length_modify ..) id

theorem Accounted.wait {caller : Nat} (accounted : machine.Accounted (some caller))
    (engaged : machine.task.isSome) : (machine.wait caller).Accounted none := by
  refine ⟨fun other => ?_, fun _ => engaged⟩
  refine Eq.trans ?_ (accounted.once other)
  simp only [places, Machine.wait, List.count_append, List.count_singleton, beq_iff_eq,
    Option.some.injEq, reduceCtorEq, if_false]
  omega

theorem Accounted.dismiss {caller : Nat} (accounted : machine.Accounted (some caller))
    (outcome : Except Fault Int) : (machine.dismiss caller outcome).Accounted none := by
  refine ⟨fun other => ?_, accounted.waits⟩
  refine Eq.trans ?_ (accounted.once other)
  simp only [places, Machine.dismiss, List.map_append, List.map_cons, List.map_nil,
    List.count_append, List.count_singleton, beq_iff_eq, Option.some.injEq, reduceCtorEq,
    if_false]
  omega

/-- A caller that looks at the shell waits or is done. -/
theorem Accounted.call {caller : Nat} (accounted : machine.Accounted (some caller)) :
    (machine.call caller).Accounted none := by
  rcases machine.call_cases caller with ⟨absent, _⟩ | ⟨state, _, called⟩
  · have once := accounted.once caller
    rw [List.getElem?_eq_none_iff] at absent
    rw [if_pos rfl, if_neg (by omega)] at once
    omega
  · rcases called with ⟨engaged, _, waits⟩ | ⟨_, _, _, answered⟩ |
      ⟨_, _, _, ⟨fault, _, raises⟩ | ⟨_, ⟨engaged, waits⟩ | ⟨_, answered⟩⟩⟩
    · exact waits ▸ accounted.wait engaged
    · exact answered ▸ accounted.dismiss _
    · exact raises ▸ (accounted.submitLine caller state.line).dismiss _
    · exact waits ▸ (accounted.submitLine caller state.line).wait engaged
    · exact answered ▸ (accounted.submitLine caller state.line).dismiss _

theorem Accounted.enlist (accounted : machine.Accounted none) (line : Text) :
    (machine.enlist line).Accounted (some machine.callers.length) := by
  refine ⟨fun caller => ?_, accounted.waits⟩
  have once := accounted.once caller
  simp only [places, Machine.enlist, List.length_append, List.length_singleton,
    Option.some.injEq, reduceCtorEq, if_false] at once ⊢
  split at once <;> split <;> split <;> omega

theorem Accounted.exec (accounted : machine.Accounted none) (line : Text) :
    (machine.exec line).Accounted none := by
  refine ⟨fun caller => ?_, accounted.waits⟩
  have once := accounted.once caller
  simp only [places, Machine.exec, Machine.queue, List.count_append, List.count_singleton,
    beq_iff_eq, Job.call.injEq, List.length_append, List.length_singleton, reduceCtorEq,
    if_false] at once ⊢
  split at once <;> split <;> split <;> omega

/-- Those that wait are told that the shell is free. -/
theorem Accounted.handBack (accounted : machine.Accounted none) (status : Option Int) :
    (machine.handBack status).Accounted none := by
  refine ⟨fun caller => ?_, fun none => absurd rfl none⟩
  have told : (machine.waiting.map Job.freed).count (.freed caller) =
      machine.waiting.count caller :=
    List.count_map_of_injective _ _ (fun _ _ same => Job.freed.inj same) _
  have others : (machine.waiting.map Job.freed).count (.call caller) = 0 := by
    simp [List.count_eq_zero]
  refine Eq.trans ?_ (accounted.once caller)
  simp only [places, Machine.handBack, Machine.queueAll, List.count_append, told, others,
    List.count_nil, Machine.withShell]
  omega

end Accounting

/-! ### Moves -/

section Moves

variable {job : Job} {ready : List Job}

/-- Taking a callback from the queue takes its caller, if it has one, from its place. -/
theorem Accounted.pop (accounted : machine.Accounted none) (next : machine.ready = job :: ready)
    (turn : Nat) {held : Option Nat}
    (taken : ∀ caller, held = some caller ↔ job = .freed caller ∨ job = .call caller) :
    (machine.pop ready turn).Accounted held := by
  refine ⟨fun caller => Eq.trans ?_ (accounted.once caller), accounted.waits⟩
  simp only [places, Machine.pop, next, List.count_cons, beq_iff_eq, taken]
  by_cases freed : job = .freed caller
  · subst freed
    simp
    omega
  · simp only [freed, if_false, false_or, reduceCtorEq]
    omega

theorem Accounted.perform (accounted : machine.Accounted none)
    (next : machine.ready = job :: ready) (turn : Nat) :
    ((machine.pop ready turn).perform job).Accounted none := by
  rcases (machine.pop ready turn).perform_cases job with
    ⟨caller, rfl, called⟩ | ⟨caller, rfl, freed⟩ | ⟨run, status, attendant, _, _, back⟩ |
      ⟨other, _, quiet⟩
  · rw [called]
    exact Accounted.call (accounted.pop next turn (by simp))
  · rw [freed]
    have popped : (machine.pop ready turn).Accounted (some caller) :=
      accounted.pop next turn (by simp)
    refine ⟨fun other => Eq.trans ?_ (popped.once other), popped.waits⟩
    simp only [places, queue, List.count_append, List.count_singleton, beq_iff_eq,
      Job.call.injEq, Option.some.injEq, reduceCtorEq, if_false]
    omega
  · rw [back]
    have popped : (machine.pop ready turn).Accounted none := by
      refine accounted.pop next turn ?_
      rcases attendant with rfl | rfl <;> simp
    exact popped.handBack status
  · have popped : (machine.pop ready turn).Accounted none :=
      accounted.pop next turn fun caller => by simp [(other caller).1, (other caller).2]
    exact popped.quiet quiet

/-- Every move leaves every caller in one place. -/
theorem accounted_make (sound : machine.front.Sound none) (accounted : machine.Accounted none)
    (move : Move) : (machine.make move).Accounted none := by
  cases move with
  | input event => exact accounted.input event
  | exec line => exact accounted.exec line
  | carryOut line => exact (accounted.enlist line).call
  | release gate => exact accounted.of_front (front_release machine gate)
  | elapse moment => exact ⟨accounted.once, accounted.waits⟩
  | step =>
      change machine.tick.Accounted none
      rcases machine.tick_cases with ⟨job, ready, turn, next, _, ticked⟩ | ⟨_, ticked⟩
      · rw [ticked]
        exact accounted.perform next turn
      · rw [ticked]
        exact accounted.of_front (front_beginTurn sound.later)

end Moves

/-! ### Submissions on a course -/

/-- The lines that callers submit on a course, in order. -/
def submissions (machine : Machine) : List Move → List (Nat × Text)
  | [] => []
  | move :: moves => (machine.submission move).toList ++ (machine.make move).submissions moves

/-- The caller that finds the shell free with a move. -/
def look? (machine : Machine) : Move → Option Nat
  | .carryOut _ => if machine.task.isSome then none else some machine.callers.length
  | .step =>
      match machine.next? with
      | some (.call caller) => if machine.task.isSome then none else some caller
      | _ => none
  | _ => none

/-- The callers that find the shell free on a course. -/
def looks (machine : Machine) : List Move → List Nat
  | [] => []
  | move :: moves => (machine.look? move).toList ++ (machine.make move).looks moves

/-- Whether a caller has submitted its line. -/
def hasSubmitted (machine : Machine) (caller : Nat) : Bool :=
  machine.callers[caller]?.any (·.submitted)

/-- Callers that have just come have submitted nothing. -/
theorem any_submitted_append (callers : List Caller) (line : Option Text) (caller : Nat) :
    (callers ++ line.toList.map ({ line := · }))[caller]?.any (·.submitted) =
      callers[caller]?.any (·.submitted) := by
  rw [List.getElem?_append]
  split
  · rfl
  · next beyond =>
      have none : callers[caller]? = none := List.getElem?_eq_none_iff.mpr (by omega)
      rw [none]
      cases line with
      | none => rfl
      | some line =>
          rw [Option.toList_some, List.map_singleton, List.getElem?_singleton]
          split <;> rfl

/-- A move marks the caller that submits its line with it, and no other. -/
theorem hasSubmitted_make (machine : Machine) (move : Move) (caller : Nat) :
    (machine.make move).hasSubmitted caller =
      (machine.hasSubmitted caller || (machine.submission move).any (·.1 = caller)) := by
  rw [hasSubmitted, callers_make, hasSubmitted,
    ← any_submitted_append machine.callers move.line? caller]
  cases given : machine.submission move with
  | none => simp [marked]
  | some entry =>
      obtain ⟨other, line⟩ := entry
      have found := (submission_eq_some given).2
      simp only [marked, List.getElem?_modify, Option.any_some]
      by_cases same : other = caller
      · subst same
        simp [found]
      · simp [same]

theorem hasSubmitted_of_submission {move : Move} {caller : Nat} {line : Text}
    (given : machine.submission move = some (caller, line)) :
    machine.hasSubmitted caller = false := by
  rw [hasSubmitted, ← any_submitted_append machine.callers move.line? caller,
    (submission_eq_some given).2]
  rfl

theorem look_of_submission {move : Move} {caller : Nat} {line : Text}
    (given : machine.submission move = some (caller, line)) : machine.look? move = some caller := by
  have free : ¬ machine.task.isSome := by simp [(submission_eq_some given).1]
  cases move with
  | carryOut text =>
      obtain ⟨line, -, same⟩ := Option.map_eq_some_iff.mp given
      rw [look?, if_neg free]
      exact congrArg some (congrArg Prod.fst same)
  | step =>
      rw [submission] at given
      split at given
      · next other next =>
          obtain ⟨line, -, same⟩ := Option.map_eq_some_iff.mp given
          simp only [look?, next, if_neg free]
          exact congrArg some (congrArg Prod.fst same)
      · cases given
  | input | exec | release | elapse => cases given

/-- A caller that looks at a free shell submits its line unless it has done so before. -/
theorem hasSubmitted_call (machine : Machine) {caller : Nat} (free : machine.task = none)
    {state : Caller} (found : machine.callers[caller]? = some state) :
    (machine.hasSubmitted caller || (machine.submittedBy caller).isSome) = true := by
  simp only [hasSubmitted, submittedBy, found, free]
  cases submitted : state.submitted <;> simp [submitted]

/-- A caller that has found the shell free has submitted its line. -/
theorem Accounted.hasSubmitted_of_look (accounted : machine.Accounted none) {move : Move}
    {caller : Nat} (looked : machine.look? move = some caller) :
    (machine.make move).hasSubmitted caller = true := by
  have submits : ∀ given : Option Text,
      (given.map (caller, ·)).any (·.1 = caller) = given.isSome := by
    intro given
    cases given <;> simp
  rw [hasSubmitted_make]
  cases move with
  | carryOut line =>
      rw [look?] at looked
      split at looked
      · cases looked
      · next free =>
          obtain rfl := Option.some.inj looked
          have free : machine.task = none := by simpa using free
          have found : (machine.enlist line).callers[machine.callers.length]? =
              some { line := line } := by simp [Machine.enlist]
          have here := (machine.enlist line).hasSubmitted_call free found
          rw [submission, submits]
          rw [hasSubmitted, found] at here
          rw [Bool.or_eq_true]
          exact .inr here
  | step =>
      simp only [look?] at looked
      split at looked
      · next other next =>
          split at looked
          · cases looked
          · next free =>
              obtain rfl := Option.some.inj looked
              have free : machine.task = none := by simpa using free
              have member : .call other ∈ machine.ready := by
                rw [next?] at next
                split at next
                · cases next
                · exact List.mem_of_head? next
              have known : other < machine.callers.length := by
                by_contra beyond
                have once := accounted.once other
                have there := List.count_pos_iff.mpr member
                rw [if_neg beyond, places] at once
                omega
              simp only [submission, next, submits]
              exact machine.hasSubmitted_call free (List.getElem?_eq_getElem known)
      · cases looked
  | input | exec | release | elapse => cases looked

/-! ### Once and no more -/

/-- The marks count the submissions. -/
theorem count_submissions (machine : Machine) (moves : List Move) (caller : Nat) :
    ((machine.submissions moves).map Prod.fst).count caller + (machine.hasSubmitted caller).toNat =
      ((machine.makeAll moves).hasSubmitted caller).toNat := by
  induction moves generalizing machine with
  | nil => exact Nat.zero_add _
  | cons move moves ih =>
      have later := ih (machine.make move)
      rw [hasSubmitted_make] at later
      change _ = (((machine.make move).makeAll moves).hasSubmitted caller).toNat
      rw [← later, submissions, List.map_append, List.count_append]
      cases given : machine.submission move with
      | none => simp
      | some entry =>
          obtain ⟨other, line⟩ := entry
          by_cases same : other = caller
          · subst same
            simp [hasSubmitted_of_submission given]
            omega
          · simp [same]

theorem hasSubmitted_makeAll {caller : Nat} (submitted : machine.hasSubmitted caller = true)
    (moves : List Move) : (machine.makeAll moves).hasSubmitted caller = true := by
  have counted := machine.count_submissions moves caller
  rw [submitted] at counted
  cases after : (machine.makeAll moves).hasSubmitted caller with
  | true => rfl
  | false =>
      rw [after, Bool.toNat_true, Bool.toNat_false] at counted
      omega

theorem mem_looks_of_mem_submissions {moves : List Move} {entry : Nat × Text}
    (member : entry ∈ machine.submissions moves) : entry.1 ∈ machine.looks moves := by
  induction moves generalizing machine with
  | nil => cases member
  | cons move moves ih =>
      rcases List.mem_append.mp member with here | later
      · have looked := look_of_submission (Option.mem_toList.mp here)
        exact List.mem_append_left _ (Option.mem_toList.mpr looked)
      · exact List.mem_append_right _ (ih later)

theorem Accounted.hasSubmitted_of_mem_looks (accounted : machine.Accounted none)
    (sound : machine.front.Sound none) {moves : List Move} {caller : Nat}
    (member : caller ∈ machine.looks moves) :
    (machine.makeAll moves).hasSubmitted caller = true := by
  induction moves generalizing machine with
  | nil => cases member
  | cons move moves ih =>
      rcases List.mem_append.mp member with here | later
      · have submitted := accounted.hasSubmitted_of_look (Option.mem_toList.mp here)
        exact hasSubmitted_makeAll submitted moves
      · exact ih (accounted_make sound accounted move) (sound_make sound move) later

/-! ### Lines of callers -/

theorem lines_marked (callers : List Caller) (given : Option (Nat × Text)) :
    (marked callers given).map Caller.line = callers.map Caller.line := by
  cases given with
  | none => rfl
  | some entry => exact map_modify_eq _ _ fun _ _ => rfl

theorem lines_make (machine : Machine) (move : Move) :
    (machine.make move).callers.map Caller.line =
      machine.callers.map Caller.line ++ move.line?.toList := by
  rw [callers_make, lines_marked, List.map_append]
  cases move.line? <;> rfl

/-- Every caller submits the line that it came with. -/
theorem getElem?_of_mem_submissions {moves : List Move} {caller : Nat} {line : Text}
    (member : (caller, line) ∈ machine.submissions moves) :
    (machine.callers.map Caller.line ++ moves.filterMap Move.line?)[caller]? = some line := by
  induction moves generalizing machine with
  | nil => cases member
  | cons move moves ih =>
      have split : machine.callers.map Caller.line ++ (move :: moves).filterMap Move.line? =
          (machine.make move).callers.map Caller.line ++ moves.filterMap Move.line? := by
        rw [lines_make, List.append_assoc, List.filterMap_cons]
        cases move.line? <;> rfl
      rw [split]
      rcases List.mem_append.mp member with here | later
      · have given := Option.mem_toList.mp here
        have found := congrArg (Option.map Caller.line) (submission_eq_some given).2
        have here : ((machine.make move).callers.map Caller.line)[caller]? = some line := by
          rw [callers_make, lines_marked, List.getElem?_map]
          exact found
        rw [List.getElem?_append_left (List.getElem?_eq_some_iff.mp here).1]
        exact here
      · exact ih later

/-! ### Patient hosts -/

/-- Whether a host passes on input and lines only while no callback is ready. -/
def isPatient (machine : Machine) : List Move → Bool
  | [] => true
  | move :: moves =>
      (match move with
        | .input _ | .exec _ | .carryOut _ => machine.ready.isEmpty
        | .release _ | .elapse _ | .step => true) && (machine.make move).isPatient moves

end Machine

namespace Ledger

variable {ledger : Ledger}

/-- On an orderly course the callers that have submitted their lines are those that came
first. -/
theorem InOrder.exists_hasSubmitted_iff (ordered : ledger.InOrder) :
    ∃ bound, ∀ caller, ledger.machine.hasSubmitted caller = true ↔ caller < bound := by
  obtain ⟨places, current, kept, -⟩ := ordered
  have known := kept.lined.length_le
  have marked : ∀ caller, ledger.machine.hasSubmitted caller = true ↔
      caller < ledger.machine.finished.length ∨ current = some caller := by
    intro caller
    rw [Machine.hasSubmitted]
    cases found : ledger.machine.callers[caller]? with
    | some state => exact kept.submitted caller state found
    | none =>
        rw [List.getElem?_eq_none_iff] at found
        refine ⟨nofun, fun submitted => ?_⟩
        rcases submitted with before | here
        · omega
        · have bound := (kept.first caller here).2
          omega
  cases current with
  | none =>
      refine ⟨ledger.machine.finished.length, fun caller => (marked caller).trans ?_⟩
      simp
  | some first =>
      obtain ⟨rfl, -⟩ := kept.first first rfl
      refine ⟨ledger.machine.finished.length + 1, fun caller => (marked caller).trans ?_⟩
      rw [Option.some.injEq]
      omega

end Ledger

/-- On a patient course the callers submit their lines in the order in which they came. -/
theorem Orderly.submissions_in_turn {ledger : Ledger} (orderly : Orderly ledger)
    {moves : List Move} (patient : ledger.machine.isPatient moves = true) {bound : Nat}
    (marked : ∀ caller, ledger.machine.hasSubmitted caller = true ↔ caller < bound) :
    (ledger.machine.submissions moves).map Prod.fst =
      List.range' bound (ledger.machine.submissions moves).length := by
  induction moves generalizing ledger bound with
  | nil => rfl
  | cons move moves ih =>
      simp only [Machine.isPatient, Bool.and_eq_true] at patient
      obtain ⟨still, patient⟩ := patient
      have permits : ledger.machine.Permits move := by
        have quiet : ledger.machine.ready = [] → ledger.machine.front.jobs = [] := by
          intro none
          simp [Machine.front, none]
        cases move with
        | input event | carryOut line => exact quiet (List.isEmpty_iff.mp still)
        | exec line =>
            intro job member
            rw [quiet (List.isEmpty_iff.mp still)] at member
            cases member
        | release gate | elapse moment | step => trivial
      have next := orderly.next move permits
      have after := ledger.machine_next move
      obtain ⟨later, marked'⟩ := next.inOrder.2.exists_hasSubmitted_iff
      have followed := ih next (after ▸ patient) marked'
      rw [after] at followed marked'
      have step : ∀ caller, caller < later ↔
          caller < bound ∨ (ledger.machine.submission move).any (·.1 = caller) = true := by
        intro caller
        rw [← marked', ← marked, Machine.hasSubmitted_make, Bool.or_eq_true]
      rw [Machine.submissions, List.map_append, followed]
      cases given : ledger.machine.submission move with
      | none =>
          rw [given] at step
          have same : later = bound := by
            have low := step bound
            have high := step later
            simp at low high
            omega
          simp [same]
      | some entry =>
          obtain ⟨caller, line⟩ := entry
          rw [given] at step
          have new : ¬ caller < bound := by
            rw [← marked, Machine.hasSubmitted_of_submission given]
            exact Bool.false_ne_true
          simp only [Option.any_some, decide_eq_true_eq] at step
          have low := step bound
          have here := step caller
          have high := step (later - 1)
          obtain ⟨rfl, rfl⟩ : caller = bound ∧ later = bound + 1 := by omega
          rw [Option.toList_some, List.length_append, List.length_singleton, Nat.add_comm 1,
            List.range'_succ]
          rfl

/-! ### All courses -/

namespace Flight

/-- The flight after moves in order. -/
def nextAll (flight : Flight) (moves : List Move) : Flight :=
  moves.foldl next flight

/-- What holds when a caller submits a line with a move: no program is in flight, the line
is submitted to an idle shell as if it had been typed there, and what it launches is run. -/
structure Accepts (flight : Flight) (move : Move) (line : Text) : Prop where
  idle : flight.machine.shell.activity = .idle
  alone : flight.inFlight = []
  submits : Shell.Submits { flight.machine.shell with buffer := Buffer.ofText line } true
    ({ flight.machine.shell with buffer := Buffer.ofText line }.input true ['\r'])
  shell : (flight.next move).machine.shell =
    ({ flight.machine.shell with buffer := Buffer.ofText line }.input true ['\r']).2
  runs : (flight.next move).machine.runs = flight.machine.runs ++
    ({ flight.machine.shell with buffer := Buffer.ofText line }.input true ['\r']).1.launch?.toList.map
      fun program => { launch := program }
  task : (flight.next move).machine.task =
    ({ flight.machine.shell with buffer := Buffer.ofText line }.input true ['\r']).1.launch?.map
      fun _ => flight.machine.runs.length

/-- What holds of a course that begins on a machine of its own. -/
structure Serves (shell : Shell) (moves : List Move) : Prop where
  /-- No caller is lost or doubled: each is in one place, and none waits for nothing. -/
  accounted : ((start shell).nextAll moves).machine.Accounted none
  /-- No caller submits a line twice, -/
  once : (((Machine.start shell).submissions moves).map Prod.fst).Nodup
  /-- and those that submit are those that have found the shell free. -/
  looked : ∀ caller, caller ∈ ((Machine.start shell).submissions moves).map Prod.fst ↔
    caller ∈ (Machine.start shell).looks moves
  /-- Each submits the line that it came with, -/
  own : ∀ caller line, (caller, line) ∈ (Machine.start shell).submissions moves →
    (moves.filterMap Move.line?)[caller]? = some line
  /-- to an idle shell that takes it. -/
  accepted : ∀ move caller line,
    ((start shell).nextAll moves).machine.submission move = some (caller, line) →
      ((start shell).nextAll moves).Accepts move line
  /-- If the host is patient, the lines are submitted in the order in which they came. -/
  turns : (Machine.start shell).isPatient moves = true →
    ((Machine.start shell).submissions moves).map Prod.fst =
        List.range ((Machine.start shell).submissions moves).length ∧
      ((Machine.start shell).submissions moves).map Prod.snd <+: moves.filterMap Move.line?

end Flight

namespace Machine

variable {machine : Machine}

/-- What a caller that submits its line launches. -/
theorem launched_of_submittedBy {caller : Nat} {line : Text}
    (submitted : machine.submittedBy caller = some line) :
    (machine.call caller).runs = machine.runs ++
        ({ machine.shell with buffer := Buffer.ofText line }.input true ['\r']).1.launch?.toList.map
          (fun program => { launch := program }) ∧
      (machine.call caller).task =
        ({ machine.shell with buffer := Buffer.ofText line }.input true ['\r']).1.launch?.map
          fun _ => machine.runs.length := by
  have free := (submittedBy_eq_some submitted).1
  let typed := machine.withShell fun shell => { shell with buffer := Buffer.ofText line }
  have takes := typed.takes_input ['\r']
  have task : (machine.submitLine caller line).task =
      (typed.shell.input true ['\r']).1.launch?.map fun _ => machine.runs.length := by
    refine takes.task.trans ?_
    change Option.elim _ machine.task _ = _
    rw [free]
    cases (typed.shell.input true ['\r']).1.launch? <;> rfl
  have entered : (machine.submitLine caller line).runs = machine.runs ++
      (typed.shell.input true ['\r']).1.launch?.toList.map (fun program => { launch := program }) :=
    takes.runs
  rcases machine.call_cases caller with ⟨absent, _⟩ | ⟨state, found, called⟩
  · simp [submittedBy, absent] at submitted
  · rcases called with ⟨_, silent, _⟩ | ⟨_, _, silent, _⟩ | ⟨_, _, same, looked⟩
    · cases silent.symm.trans submitted
    · cases silent.symm.trans submitted
    · obtain rfl := Option.some.inj (same.symm.trans submitted)
      rcases looked with ⟨_, _, raises⟩ | ⟨_, ⟨_, waits⟩ | ⟨_, answered⟩⟩
      · rw [raises]
        exact ⟨entered, task⟩
      · rw [waits]
        exact ⟨entered, task⟩
      · rw [answered]
        exact ⟨entered, task⟩

end Machine

/-- A caller that submits its line does so while no program is in flight. -/
theorem Flight.Sound.accepts {flight : Flight} (sound : flight.Sound) {move : Move} {caller : Nat}
    {line : Text} (given : flight.machine.submission move = some (caller, line)) :
    flight.Accepts move line := by
  have free := (Machine.submission_eq_some given).1
  let typed : Shell := { flight.machine.shell with buffer := Buffer.ofText line }
  have idle : typed.activity = .idle := Machine.idle_of_free sound.machine free
  have submits : typed.Submits true (typed.input true ['\r']) := Shell.submits_input idle (.inl rfl)
  have launched : (flight.machine.make move).runs = flight.machine.runs ++
        (typed.input true ['\r']).1.launch?.toList.map (fun program => { launch := program }) ∧
      (flight.machine.make move).task =
        (typed.input true ['\r']).1.launch?.map fun _ => flight.machine.runs.length := by
    cases move with
    | carryOut text =>
        obtain ⟨line, submitted, same⟩ := Option.map_eq_some_iff.mp given
        obtain ⟨rfl, rfl⟩ := Prod.mk.inj same
        exact Machine.launched_of_submittedBy submitted
    | step =>
        rw [Machine.submission] at given
        split at given
        · next other next =>
            obtain ⟨line, submitted, same⟩ := Option.map_eq_some_iff.mp given
            obtain ⟨rfl, rfl⟩ := Prod.mk.inj same
            change flight.machine.tick.runs = _ ∧ flight.machine.tick.task = _
            rcases flight.machine.tick_cases with ⟨job, ready, turn, _, shown, ticked⟩ | ⟨none, _⟩
            · obtain rfl := Option.some.inj (shown.symm.trans next)
              have popped : (flight.machine.pop ready turn).submittedBy other = some line :=
                submitted
              rw [ticked]
              exact Machine.launched_of_submittedBy popped
            · cases none.symm.trans next
        · cases given
    | input | exec | release | elapse => cases given
  exact ⟨idle, by rw [sound.inFlight, free]; rfl, submits,
    (Machine.treats_make _ move).of_submission given, launched.1, launched.2⟩

/-- Lines in the order of their numbers are the first of all lines. -/
theorem prefix_of_range {entries : List (Nat × Text)} {lines : List Text}
    (turns : entries.map Prod.fst = List.range entries.length)
    (own : ∀ entry ∈ entries, lines[entry.1]? = some entry.2) :
    entries.map Prod.snd <+: lines := by
  refine List.prefix_iff_getElem?.mpr fun index bound => ?_
  rw [List.length_map] at bound
  have number : entries[index].1 = index := by
    have here := congrArg (·[index]?) turns
    simpa [bound] using here
  have line := own _ (List.getElem_mem bound)
  rw [number] at line
  rw [line, List.getElem_map]

/-- The parts of a course: every flight on it is sound, and every caller is in one place. -/
theorem Reachable.nextAll {flight : Flight} (reachable : Reachable flight)
    (accounted : flight.machine.Accounted none) (moves : List Move) :
    Reachable (flight.nextAll moves) ∧ (flight.nextAll moves).machine.Accounted none := by
  induction moves generalizing flight with
  | nil => exact ⟨reachable, accounted⟩
  | cons move moves ih =>
      exact ih (reachable.next move)
        (Machine.accounted_make reachable.sound.machine accounted move)

/-- Callers are neither lost nor doubled, and on patient courses they are not overtaken. -/
theorem Reachable.serves {shell : Shell} (reachable : Reachable (.start shell))
    (moves : List Move) : Flight.Serves shell moves := by
  have fresh : (Machine.start shell).Accounted none := ⟨fun _ => rfl, fun none => absurd rfl none⟩
  have nobody : ∀ caller, (Machine.start shell).hasSubmitted caller = false := fun _ => rfl
  obtain ⟨reached, accounted⟩ := reachable.nextAll fresh moves
  have counted : ∀ caller,
      (((Machine.start shell).submissions moves).map Prod.fst).count caller =
        (((Machine.start shell).makeAll moves).hasSubmitted caller).toNat := by
    intro caller
    have counted := (Machine.start shell).count_submissions moves caller
    rw [nobody] at counted
    exact counted
  refine ⟨accounted, ?_, fun caller => ⟨?_, fun looked => ?_⟩, fun caller line member => ?_,
    fun move caller line given => reached.sound.accepts given, fun patient => ?_⟩
  · refine List.nodup_iff_count_le_one.mpr fun caller => ?_
    rw [counted]
    exact Bool.toNat_le _
  · intro submitted
    obtain ⟨entry, member, rfl⟩ := List.mem_map.mp submitted
    exact Machine.mem_looks_of_mem_submissions member
  · have submitted := fresh.hasSubmitted_of_mem_looks reachable.sound.machine looked
    refine List.count_pos_iff.mp ?_
    rw [counted, submitted]
    exact Nat.one_pos
  · exact Machine.getElem?_of_mem_submissions member
  · have turns : ((Machine.start shell).submissions moves).map Prod.fst =
        List.range ((Machine.start shell).submissions moves).length := by
      rw [List.range_eq_range']
      refine Orderly.submissions_in_turn (.start reachable) patient fun caller => ?_
      simp [Ledger.start, nobody]
    refine ⟨turns, prefix_of_range turns fun entry member => ?_⟩
    exact Machine.getElem?_of_mem_submissions member

/-- A course on which two callers wait for the program of a third. -/
def queuedCourse : List Move :=
  .exec "wait" :: List.replicate 6 .step ++ .exec "fail" :: List.replicate 2 .step ++
    .carryOut "wait" :: .release "open" :: List.replicate 16 .step

theorem serves_queuedCourse :
    ((Machine.start gatedShell).submissions queuedCourse).map Prod.fst = [0, 1, 2] ∧
      (Machine.start gatedShell).isPatient queuedCourse = true ∧
      Flight.Serves gatedShell queuedCourse :=
  ⟨by decide +kernel, by decide +kernel, Reachable.serves (.start ..) queuedCourse⟩

end LineShell
