/-
Module: LineShell.Proofs.Scheduler.Desk
Purpose: What one move does to the callers and to the shell: the callbacks of programs
  leave both alone, and every other move treats them in one of a few ways.
Main exports: Machine.perform_cases, Machine.submission, Machine.callers_make,
  Shell.relieved, Shell.putBack, Machine.Treats, Machine.treats_make
-/
import LineShell.Proofs.Scheduler.Answers
import LineShell.Proofs.Shell.Submission

namespace LineShell

/-!
Later results ask of every move what it does to the callers and to the shell.  Of the
callbacks only three kinds do anything to them: a caller looks at the shell, a caller is
told that it is free, and an attendant puts it back to work.
-/

/-- The shell when its program is over: the status is recorded, and a dangling line is
ended. -/
def Shell.relieved (shell : Shell) (status : Int) : Shell :=
  ({ shell with activity := .idle }.setStatus status).withConsole Console.complete

/-- The shell when it is put back to work: then the prompt is shown again. -/
def Shell.putBack (shell : Shell) (status : Int) : Shell :=
  (shell.relieved status).repaint

/-- The line that a move gives to a caller of its own. -/
def Move.line? : Move → Option Text
  | .exec line | .carryOut line => some line
  | _ => none

namespace Machine

/-! ### Callbacks -/

variable (machine : Machine)

/-- What a callback does to callers and to the shell. -/
theorem perform_cases (job : Job) :
    (∃ caller, job = .call caller ∧ machine.perform job = machine.call caller) ∨
    (∃ caller, job = .freed caller ∧ machine.perform job = machine.queue (.call caller)) ∨
    (∃ run status, (job = .attend run ∨ job = .finish run) ∧
      machine.handedBackBy job = some run ∧ machine.exitOf run = status.getD statusFailure ∧
        machine.perform job = machine.handBack status) ∨
    ((∀ caller, job ≠ .call caller ∧ job ≠ .freed caller) ∧ machine.handedBackBy job = none ∧
      machine.front.Quiet (machine.perform job).front) := by
  have attended : ∀ run, job = .attend run ∨ job = .finish run →
      (∃ run status, (job = .attend run ∨ job = .finish run) ∧
        machine.handedBackBy job = some run ∧ machine.exitOf run = status.getD statusFailure ∧
          machine.perform job = machine.handBack status) ∨
      ((∀ caller, job ≠ .call caller ∧ job ≠ .freed caller) ∧
        machine.handedBackBy job = none ∧ machine.front.Quiet (machine.perform job).front) := by
    intro run attendant
    rcases machine.attendant_cases attendant with ⟨status, back, handed, exit⟩ | ⟨handed, quiet⟩
    · exact .inl ⟨run, status, attendant, handed, exit, back⟩
    · refine .inr ⟨fun caller => ?_, handed, quiet⟩
      rcases attendant with rfl | rfl <;> simp
  cases job with
  | call caller => exact .inl ⟨caller, rfl, rfl⟩
  | freed caller => exact .inr (.inl ⟨caller, rfl, rfl⟩)
  | attend run => exact .inr (.inr (attended run (.inl rfl)))
  | finish run => exact .inr (.inr (attended run (.inr rfl)))
  | begin run =>
      refine .inr (.inr (.inr ⟨by simp, rfl, ?_⟩))
      cases found : machine.runs[run]? with
      | none =>
          simp only [perform, begin, found]
          exact Front.quiet_of_jobs rfl rfl
      | some state => exact (machine.front_begin found).quiet
  | signalled | expire | conclude | reap | resume | alarm =>
      exact .inr (.inr (.inr ⟨by simp, rfl, (machine.front_perform rfl).quiet⟩))

/-! ### Looks of callers -/

/-- What comes of it that a caller looks at the shell. -/
theorem call_cases (caller : Nat) :
    (machine.callers[caller]? = none ∧ machine.call caller = machine) ∨
    ∃ state, machine.callers[caller]? = some state ∧
      ((machine.task.isSome ∧ machine.submittedBy caller = none ∧
          machine.call caller = machine.wait caller) ∨
        (machine.task = none ∧ state.submitted = true ∧ machine.submittedBy caller = none ∧
          machine.call caller = machine.answer caller) ∨
        (machine.task = none ∧ state.submitted = false ∧
          machine.submittedBy caller = some state.line ∧
            ((∃ fault, (machine.withLine state.line).failure? ['\r'] = some fault ∧
                machine.call caller =
                  (machine.submitLine caller state.line).dismiss caller (.error fault)) ∨
              ((machine.withLine state.line).failure? ['\r'] = none ∧
                (((machine.submitLine caller state.line).task.isSome ∧
                    machine.call caller = (machine.submitLine caller state.line).wait caller) ∨
                  ((machine.submitLine caller state.line).task = none ∧
                    machine.call caller =
                      (machine.submitLine caller state.line).answer caller)))))) := by
  unfold call submittedBy
  cases machine.callers[caller]? with
  | none => exact .inl ⟨rfl, rfl⟩
  | some state =>
      refine .inr ⟨state, rfl, ?_⟩
      cases task : machine.task with
      | some run => exact .inl ⟨rfl, rfl, rfl⟩
      | none =>
          cases submitted : state.submitted with
          | true => exact .inr (.inl ⟨rfl, rfl, by simp [submitted], by simp [submitted]⟩)
          | false =>
              refine .inr (.inr ⟨rfl, rfl, by simp [submitted], ?_⟩)
              simp only [submitted, Option.isSome_none, Bool.false_eq_true, if_false]
              cases (machine.withLine state.line).failure? ['\r'] with
              | some fault => exact .inl ⟨fault, rfl, rfl⟩
              | none =>
                  refine .inr ⟨rfl, ?_⟩
                  cases engaged : (machine.submitLine caller state.line).task with
                  | some run => exact .inl ⟨rfl, rfl⟩
                  | none => exact .inr ⟨rfl, rfl⟩

/-- A caller that looks at the shell submits its line if it can, and then waits or is
done. -/
theorem call_eq (caller : Nat) : ∃ waiting finished,
    machine.call caller =
      { (machine.submittedBy caller).elim machine (machine.submitLine caller) with
        waiting := waiting, finished := finished } := by
  rcases machine.call_cases caller with ⟨absent, same⟩ | ⟨state, _, called⟩
  · refine ⟨machine.waiting, machine.finished, ?_⟩
    rw [same, submittedBy, absent]
    rfl
  · rcases called with ⟨_, silent, waits⟩ | ⟨_, _, silent, answered⟩ |
      ⟨_, _, line, ⟨_, _, raises⟩ | ⟨_, ⟨_, waits⟩ | ⟨_, answered⟩⟩⟩
    · exact ⟨_, _, by rw [waits, silent]; rfl⟩
    · exact ⟨_, _, by rw [answered, silent]; rfl⟩
    · exact ⟨_, _, by rw [raises, line]; rfl⟩
    · exact ⟨_, _, by rw [waits, line]; rfl⟩
    · exact ⟨_, _, by rw [answered, line]; rfl⟩

/-- An input event leaves callers alone. -/
theorem desk_input (event : Text) :
    (machine.input event).callers = machine.callers ∧
      (machine.input event).waiting = machine.waiting ∧
        (machine.input event).finished = machine.finished := by
  unfold input
  generalize machine.shell.input true event = result
  obtain ⟨reaction, shell⟩ := result
  cases reaction <;> exact ⟨rfl, rfl, rfl⟩

theorem shell_input (event : Text) :
    (machine.input event).shell = (machine.shell.input true event).2 :=
  (machine.takes_input event).shell

/-! ### Submissions -/

/-- The caller that submits its line with a move, and the line. -/
def submission : Move → Option (Nat × Text)
  | .carryOut line =>
      ((machine.enlist line).submittedBy machine.callers.length).map (machine.callers.length, ·)
  | .step =>
      match machine.next? with
      | some (.call caller) => (machine.submittedBy caller).map (caller, ·)
      | _ => none
  | _ => none

/-- The callers when one of them has submitted its line, if one has. -/
def marked (callers : List Caller) : Option (Nat × Text) → List Caller
  | none => callers
  | some (caller, _) => callers.modify caller fun state => { state with submitted := true }

theorem callers_call (caller : Nat) :
    (machine.call caller).callers =
      marked machine.callers ((machine.submittedBy caller).map (caller, ·)) := by
  obtain ⟨waiting, finished, same⟩ := machine.call_eq caller
  rw [same]
  cases machine.submittedBy caller with
  | none => rfl
  | some line => exact congrArg (List.modify · caller _) (desk_input _ _).1

theorem callers_perform (job : Job) :
    (machine.perform job).callers =
      marked machine.callers
        (match job with
          | .call caller => (machine.submittedBy caller).map (caller, ·)
          | _ => none) := by
  rcases machine.perform_cases job with
    ⟨caller, rfl, called⟩ | ⟨caller, rfl, freed⟩ | ⟨run, status, attendant, _, _, back⟩ |
      ⟨other, _, quiet⟩
  · exact machine.callers_call caller
  · rfl
  · rw [back]
    rcases attendant with rfl | rfl <;> rfl
  · have same : (machine.perform job).callers = machine.callers := congrArg Desk.callers quiet.1
    cases job with
    | call caller => exact absurd rfl (other caller).1
    | _ => exact same

/-- The callers after a move: a new one may have come, and one may have submitted its
line. -/
theorem callers_make (move : Move) :
    (machine.make move).callers =
      marked (machine.callers ++ move.line?.toList.map ({ line := · }))
        (machine.submission move) := by
  cases move with
  | input event => exact (desk_input machine event).1.trans (List.append_nil _).symm
  | exec line => rfl
  | carryOut line => exact (machine.enlist line).callers_call machine.callers.length
  | release gate =>
      exact (congrArg Front.callers (front_release machine gate)).trans (List.append_nil _).symm
  | elapse moment => exact (List.append_nil _).symm
  | step =>
      change machine.tick.callers = marked (machine.callers ++ []) _
      rw [List.append_nil]
      rcases machine.tick_cases with ⟨job, ready, turn, next, shown, ticked⟩ | ⟨nothing, ticked⟩
      · rw [ticked, submission, shown, callers_perform]
        cases job <;> rfl
      · rw [ticked, submission, nothing]
        rfl

/-! ### The shell -/

/-- How a move treats the shell. -/
inductive Treats (move : Move) : Shell → Prop where
  /-- Programs write to the terminal, and otherwise leave the shell alone. -/
  | aside {after : Shell} (bare : after.bare = machine.shell.bare)
      (silent : machine.submission move = none) (handed : machine.handedBack move = none) :
      Treats move after
  | typed (event : Text) (given : move = .input event) :
      Treats move (machine.shell.input true event).2
  | submitted (caller : Nat) (line : Text) (given : machine.submission move = some (caller, line))
      (handed : machine.handedBack move = none) :
      Treats move ({ machine.shell with buffer := Buffer.ofText line }.input true ['\r']).2
  | putBack (run : Nat) (silent : machine.submission move = none)
      (handed : machine.handedBack move = some run) :
      Treats move (machine.shell.putBack (machine.exitOf run))

theorem shell_call (caller : Nat) :
    (machine.call caller).shell =
      match machine.submittedBy caller with
      | none => machine.shell
      | some line => ({ machine.shell with buffer := Buffer.ofText line }.input true ['\r']).2 := by
  obtain ⟨waiting, finished, same⟩ := machine.call_eq caller
  rw [same]
  cases machine.submittedBy caller with
  | none => rfl
  | some line => exact shell_input _ _

/-- The shell behind a caller's look, as a move treats it. -/
theorem treats_call {move : Move} {before : Machine} (same : before.shell = machine.shell)
    {caller : Nat}
    (given : machine.submission move = (before.submittedBy caller).map (caller, ·))
    (handed : machine.handedBack move = none) :
    machine.Treats move (before.call caller).shell := by
  rw [shell_call, same]
  cases submitted : before.submittedBy caller with
  | none => exact .aside rfl (by rw [given, submitted]; rfl) handed
  | some line => exact .submitted caller line (by rw [given, submitted]; rfl) handed

/-- How a move treats the shell, for every move. -/
theorem treats_make (move : Move) : machine.Treats move (machine.make move).shell := by
  cases move with
  | input event =>
      change machine.Treats _ (machine.input event).shell
      rw [shell_input]
      exact .typed event rfl
  | exec line => exact .aside rfl rfl rfl
  | carryOut line =>
      have same : (machine.enlist line).shell = machine.shell := rfl
      exact machine.treats_call same rfl rfl
  | release gate => exact .aside (congrArg Front.shell (front_release machine gate)) rfl rfl
  | elapse moment => exact .aside rfl rfl rfl
  | step =>
      change machine.Treats _ machine.tick.shell
      rcases machine.tick_cases with ⟨job, ready, turn, next, shown, ticked⟩ | ⟨nothing, ticked⟩
      · rw [ticked]
        have handed : machine.handedBack .step = machine.handedBackBy job := by
          rw [handedBack, shown]
          rfl
        rcases (machine.pop ready turn).perform_cases job with
          ⟨caller, rfl, called⟩ | ⟨caller, rfl, freed⟩ |
            ⟨run, status, attendant, back, exit, same⟩ | ⟨other, back, quiet⟩
        · rw [called]
          have before : (machine.pop ready turn).shell = machine.shell := rfl
          refine machine.treats_call before ?_ handed
          rw [submission, shown]
          rfl
        · exact .aside rfl (by rw [submission, shown]) handed
        · rw [same]
          have put : ((machine.pop ready turn).handBack status).shell =
              machine.shell.putBack (machine.exitOf run) :=
            congrArg machine.shell.putBack exit.symm
          rw [put]
          refine .putBack run ?_ (handed.trans back)
          rw [submission, shown]
          rcases attendant with rfl | rfl <;> rfl
        · refine .aside (congrArg Desk.shell quiet.1) ?_ (handed.trans back)
          rw [submission, shown]
          cases job with
          | call caller => exact absurd rfl (other caller).1
          | _ => rfl
      · rw [ticked]
        exact .aside rfl (by rw [submission, nothing]) (by rw [handedBack, nothing]; rfl)

variable {machine} {move : Move} {after : Shell}

/-- The shell when a caller has submitted its line. -/
theorem Treats.of_submission (treats : machine.Treats move after) {caller : Nat} {line : Text}
    (given : machine.submission move = some (caller, line)) :
    after = ({ machine.shell with buffer := Buffer.ofText line }.input true ['\r']).2 := by
  cases treats with
  | aside _ silent | putBack _ silent => cases silent.symm.trans given
  | typed event same =>
      subst same
      cases given
  | submitted other text here =>
      obtain ⟨rfl, rfl⟩ := Prod.mk.inj (Option.some.inj (here.symm.trans given))
      rfl

/-- The shell when it has been put back to work. -/
theorem Treats.of_handedBack (treats : machine.Treats move after) {run : Nat}
    (handed : machine.handedBack move = some run) :
    after = machine.shell.putBack (machine.exitOf run) := by
  cases treats with
  | aside _ _ none | submitted _ _ _ none => cases none.symm.trans handed
  | typed event same =>
      subst same
      cases handed
  | putBack other _ here =>
      obtain rfl := Option.some.inj (here.symm.trans handed)
      rfl

/-- A caller that submits its line has not done so before, and the shell is free. -/
theorem submittedBy_eq_some {caller : Nat} {line : Text}
    (submitted : machine.submittedBy caller = some line) :
    machine.task = none ∧ machine.callers[caller]? = some { line := line } := by
  rcases machine.call_cases caller with ⟨absent, _⟩ | ⟨state, found, called⟩
  · simp [submittedBy, absent] at submitted
  · rcases called with ⟨_, silent, _⟩ | ⟨_, _, silent, _⟩ | ⟨free, new, same, _⟩
    · cases silent.symm.trans submitted
    · cases silent.symm.trans submitted
    · obtain rfl := Option.some.inj (same.symm.trans submitted)
      obtain ⟨line, flag⟩ := state
      exact ⟨free, new ▸ found⟩

theorem submission_eq_some {caller : Nat} {line : Text}
    (given : machine.submission move = some (caller, line)) :
    machine.task = none ∧
      (machine.callers ++ move.line?.toList.map ({ line := · }))[caller]? =
        some { line := line } := by
  cases move with
  | carryOut text =>
      obtain ⟨line, submitted, same⟩ := Option.map_eq_some_iff.mp given
      obtain ⟨rfl, rfl⟩ := Prod.mk.inj same
      exact submittedBy_eq_some submitted
  | step =>
      change _ ∧ (machine.callers ++ [])[caller]? = _
      rw [List.append_nil]
      rw [submission] at given
      split at given
      · obtain ⟨line, submitted, same⟩ := Option.map_eq_some_iff.mp given
        obtain ⟨rfl, rfl⟩ := Prod.mk.inj same
        exact submittedBy_eq_some submitted
      · cases given
  | input | exec | release | elapse => cases given

end Machine

end LineShell
