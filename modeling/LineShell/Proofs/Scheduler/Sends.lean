/-
Module: LineShell.Proofs.Scheduler.Sends
Purpose: What is sent reaches the completion signal, and a supervisor is woken for a reason:
  the signal is decided, the program has ended, or the timeout has passed.
Main exports: Completion.Hears, Stage.sends, Machine.sent, Machine.actedOn, Docket.Overdue,
  Docket.Fair, Docket.Fair.release, Docket.Fair.takeStage
-/
import LineShell.Proofs.Scheduler.Docket
import LineShell.Proofs.Scheduler.Leftovers

namespace LineShell

/-!
A signal is decided by the first status that is sent with it, or given up when the last of
those who hold it lets go.  The first part of this module is about a stage: what deeds send
there, and what they make of the signal.  The second part carries that over to the docket of a
run, and says of everything that is going to wake the supervisor why it does.
-/

/-! ### Sending -/

namespace Completion

variable {completion : Completion} {sends : List Int}

/-- Whether a signal that somebody listens to is decided by the first of the statuses that
were sent.  If there is none it may have been given up. -/
def Hears (completion : Completion) : List Int → Prop
  | [] => completion = .pending ∨ completion = .abandoned
  | first :: _ => completion = .sent first

/-- Who sends a status as the first decides with it, unless the signal was given up. -/
theorem Hears.send (hears : completion.Hears sends) (held : completion ≠ .abandoned)
    (status : Int) : (completion.send status).2.Hears (sends ++ [status]) := by
  cases sends with
  | cons first others =>
      obtain rfl : completion = .sent first := hears
      rfl
  | nil =>
      rcases hears with rfl | rfl
      · rfl
      · exact absurd rfl held

end Completion

/-! ### What playing leaves on a stage -/

namespace Stage

/-- The statuses that deeds send.  Only who holds the signal can send it. -/
def sends (stage : Stage) : List Deed → List Int
  | [] => []
  | deed :: deeds =>
      (if stage.holds then deed.status?.toList else []) ++ (stage.carryOut deed).sends deeds

/-- Whether a signal that was given up is held by nobody. -/
def Honest (stage : Stage) : Prop :=
  stage.completion = .abandoned → stage.isHeld = false

variable {stage : Stage} {sends : List Int}

theorem Honest.carryOut (honest : stage.Honest) (deed : Deed) : (stage.carryOut deed).Honest := by
  have sent : ∀ status, (stage.send status).2.Honest := by
    intro status
    rcases stage.send_cases status with same | ⟨-, -, same⟩
    · rwa [same]
    · rw [same]
      exact nofun
  cases deed with
  | spawn shares body =>
      intro given
      have nobody : (stage.holds || stage.shared) = false := honest given
      obtain ⟨here, there⟩ := Bool.or_eq_false_iff.mp nobody
      simp [Stage.carryOut, Stage.spawn, isHeld, here, there]
  | act act =>
      cases act with
      | send status => exact sent status
      | sendReporting status => exact sent status
      | release =>
          rcases stage.release_cases with ⟨same, -⟩ | ⟨-, alone, -, same⟩
          · intro given
            have given : stage.release.completion = .abandoned := given
            rw [same] at given
            have others := (Bool.or_eq_false_iff.mp (honest given)).2
            change stage.release.isHeld = false
            rw [same]
            exact others
          · intro _
            change stage.release.isHeld = false
            rw [same]
            exact alone
      | write | clear | completeLine | call | reportDecided => exact honest

theorem Honest.carryOutAll (honest : stage.Honest) (deeds : List Deed) :
    (stage.carryOutAll deeds).Honest := by
  induction deeds generalizing stage with
  | nil => exact honest
  | cons deed deeds ih => exact ih (honest.carryOut deed)

/-- One deed: a status is sent, or the signal is given up, or nothing happens to it. -/
theorem hears_carryOut (honest : stage.Honest) (hears : stage.completion.Hears sends)
    (deed : Deed) : (stage.carryOut deed).completion.Hears
      (sends ++ if stage.holds then deed.status?.toList else []) := by
  have sent : ∀ status, (stage.send status).2.completion.Hears
      (sends ++ if stage.holds then [status] else []) := by
    intro status
    rw [completion_send]
    cases holds : stage.holds with
    | false => simpa using hears
    | true =>
        refine hears.send (fun given => ?_) status
        have nobody := honest given
        rw [isHeld, holds] at nobody
        cases nobody
  have silent : deed.status? = none → sends ++ (if stage.holds then deed.status?.toList else []) =
      sends := by
    intro none
    rw [none]
    simp
  cases deed with
  | spawn shares body => exact (silent rfl).symm ▸ hears
  | act act =>
      cases act with
      | send status => exact sent status
      | sendReporting status => exact sent status
      | release =>
          rw [silent rfl]
          change stage.release.completion.Hears sends
          rcases stage.release_cases with ⟨same, -⟩ | ⟨-, -, pending, same⟩
          · rwa [same]
          · rw [same]
            rw [pending] at hears
            cases sends with
            | nil => exact .inr rfl
            | cons first others => cases hears
      | write | clear | completeLine | call | reportDecided => exact (silent rfl).symm ▸ hears

/-- What is sent on a stage reaches the signal. -/
theorem hears_carryOutAll (honest : stage.Honest) (hears : stage.completion.Hears sends)
    (deeds : List Deed) :
    (stage.carryOutAll deeds).completion.Hears (sends ++ stage.sends deeds) := by
  induction deeds generalizing stage sends with
  | nil =>
      rw [Stage.sends, List.append_nil]
      exact hears
  | cons deed deeds ih =>
      rw [Stage.sends, ← List.append_assoc]
      exact ih (honest.carryOut deed) (hears_carryOut honest hears deed)

/-- Who does not hold a signal cannot decide it, and cannot share it. -/
theorem idle_carryOutAll (idle : stage.isHeld = false) (deeds : List Deed) :
    (stage.carryOutAll deeds).isHeld = false ∧
      (stage.carryOutAll deeds).completion = stage.completion := by
  have one : ∀ (stage : Stage) (deed : Deed), stage.isHeld = false →
      (stage.carryOut deed).isHeld = false ∧
        (stage.carryOut deed).completion = stage.completion := by
    intro stage deed idle
    obtain ⟨here, there⟩ := Bool.or_eq_false_iff.mp idle
    have sent : ∀ status, (stage.send status).2 = stage := by
      intro status
      rw [send, here]
      rfl
    cases deed with
    | spawn shares body => simp [Stage.carryOut, Stage.spawn, isHeld, here, there]
    | act act =>
        cases act with
        | send status =>
            change (stage.send status).2.isHeld = false ∧ (stage.send status).2.completion = _
            rw [sent]
            exact ⟨idle, rfl⟩
        | sendReporting status =>
            change (stage.send status).2.isHeld = false ∧ (stage.send status).2.completion = _
            rw [sent]
            exact ⟨idle, rfl⟩
        | release => simp [Stage.carryOut, Stage.perform, Stage.release, isHeld, here, there]
        | write | clear | completeLine | call | reportDecided => exact ⟨idle, rfl⟩
  induction deeds generalizing stage with
  | nil => exact ⟨idle, rfl⟩
  | cons deed deeds ih =>
      obtain ⟨still, same⟩ := one stage deed idle
      obtain ⟨idle, completion⟩ := ih still
      exact ⟨idle, completion.trans same⟩

/-- It sends nothing. -/
theorem sends_of_idle (idle : stage.isHeld = false) (deeds : List Deed) :
    stage.sends deeds = [] := by
  induction deeds generalizing stage with
  | nil => rfl
  | cons deed deeds ih =>
      have here := (Bool.or_eq_false_iff.mp idle).1
      have later := ih (idle_carryOutAll idle [deed]).1
      rw [Stage.sends, here]
      exact later

/-- What it writes depends on nothing but the console and the signal. -/
theorem console_of_idle {other : Stage} (idle : stage.isHeld = false)
    (also : other.isHeld = false) (console : stage.console = other.console)
    (completion : stage.completion = other.completion) (deeds : List Deed) :
    (stage.carryOutAll deeds).console = (other.carryOutAll deeds).console := by
  induction deeds generalizing stage other with
  | nil => exact console
  | cons deed deeds ih =>
      obtain ⟨here, same⟩ := idle_carryOutAll idle [deed]
      obtain ⟨there, same'⟩ := idle_carryOutAll also [deed]
      refine ih here there ?_ (same.trans (completion.trans same'.symm))
      have holds := (Bool.or_eq_false_iff.mp idle).1
      have holds' := (Bool.or_eq_false_iff.mp also).1
      cases deed with
      | spawn shares body => exact console
      | act act =>
          cases act <;>
            simp [Stage.carryOut, Stage.perform, Stage.write, Stage.send, Stage.release, holds,
              holds', console, completion]

/-- Whether what was stirred up on a stage is so: the signal is decided if the supervisor is
told that, and it is shared if a strand was started that holds it. -/
structure Candid (stage : Stage) : Prop where
  decided : .decided ∈ stage.stirs → stage.completion.isDecided = true
  shares : ∀ body, .spawned true body ∈ stage.stirs → stage.shared = true

/-- A signal that is decided stays as it is. -/
theorem completion_carryOutAll (decided : stage.completion.isDecided = true) (deeds : List Deed) :
    (stage.carryOutAll deeds).completion = stage.completion := by
  have sent : ∀ (stage : Stage) (status : Int), stage.completion.isDecided = true →
      (stage.send status).2.completion = stage.completion := by
    intro stage status decided
    rcases stage.send_cases status with same | ⟨-, pending, -⟩
    · rw [same]
    · rw [pending] at decided
      cases decided
  induction deeds generalizing stage with
  | nil => rfl
  | cons deed deeds ih =>
      have same : (stage.carryOut deed).completion = stage.completion := by
        cases deed with
        | spawn shares body => rfl
        | act act =>
            cases act with
            | send status => exact sent stage status decided
            | sendReporting status => exact sent stage status decided
            | release =>
                change stage.release.completion = stage.completion
                rcases stage.release_cases with ⟨same, -⟩ | ⟨-, -, pending, -⟩
                · rw [same]
                · rw [pending] at decided
                  cases decided
            | write | clear | completeLine | call | reportDecided => rfl
      exact (ih (same ▸ decided)).trans same

theorem Candid.carryOut (candid : stage.Candid) (deed : Deed) : (stage.carryOut deed).Candid := by
  have sent : ∀ status, (stage.send status).2.Candid := by
    intro status
    rcases stage.send_cases status with same | ⟨-, -, same⟩
    · rwa [same]
    · rw [same]
      refine ⟨fun _ => rfl, fun body member => candid.shares body ?_⟩
      simpa using member
  cases deed with
  | spawn shares body =>
      refine ⟨fun member => candid.decided ?_, fun other member => ?_⟩
      · simpa [Stage.carryOut, Stage.spawn] using member
      · rcases List.mem_append.mp member with before | now
        · exact Bool.or_eq_true_iff.mpr (.inl (candid.shares other before))
        · obtain ⟨holds, -⟩ := Stir.spawned.inj (List.mem_singleton.mp now)
          exact Bool.or_eq_true_iff.mpr (.inr holds.symm)
  | act act =>
      cases act with
      | send status => exact sent status
      | sendReporting status => exact ⟨(sent status).decided, (sent status).shares⟩
      | release =>
          change stage.release.Candid
          rcases stage.release_cases with ⟨same, -⟩ | ⟨-, -, -, same⟩
          · rw [same]
            exact ⟨candid.decided, candid.shares⟩
          · rw [same]
            refine ⟨fun _ => rfl, fun body member => candid.shares body ?_⟩
            simpa using member
      | write | clear | completeLine | call | reportDecided =>
          exact ⟨candid.decided, candid.shares⟩

/-- Who has stirred up nothing has stirred up nothing that is not so, and that stays true. -/
theorem candid_carryOutAll (calm : stage.stirs = []) (deeds : List Deed) :
    (stage.carryOutAll deeds).Candid := by
  have all : ∀ (deeds : List Deed) (stage : Stage), stage.Candid →
      (stage.carryOutAll deeds).Candid := by
    intro deeds
    induction deeds with
    | nil => exact fun _ candid => candid
    | cons deed deeds ih => exact fun _ candid => ih _ (candid.carryOut deed)
  exact all deeds stage ⟨by simp [calm], by simp [calm]⟩

/-- Whom the signal is shared with is told by nobody but those. -/
theorem shared_carryOutAll (shared : stage.shared = true) (deeds : List Deed) :
    (stage.carryOutAll deeds).shared = true := by
  induction deeds generalizing stage with
  | nil => exact shared
  | cons deed deeds ih =>
      refine ih ?_
      have sent : ∀ status, (stage.send status).2.shared = true := by
        intro status
        rcases stage.send_cases status with same | ⟨-, -, same⟩ <;> rw [same] <;> exact shared
      cases deed with
      | spawn shares body => exact Bool.or_eq_true_iff.mpr (.inl shared)
      | act act =>
          cases act with
          | send status => exact sent status
          | sendReporting status => exact sent status
          | release =>
              change stage.release.shared = true
              rcases stage.release_cases with ⟨same, -⟩ | ⟨-, -, -, same⟩ <;> rw [same] <;>
                exact shared
          | write | clear | completeLine | call | reportDecided => exact shared

end Stage

/-! ### What callbacks send -/

namespace Machine

variable {machine : Machine} {run number : Nat} {state : Run} {strand : Strand} {job : Job}
  {ready : List Job}

/-- What a run finds in a callback that works for it. -/
def sees (machine : Machine) (state : Run) : Job → Stage
  | .resume number =>
      match machine.strands[number]? with
      | some strand => machine.strandStage number strand state
      | none => machine.stage state false false
  | _ => machine.callStage state

/-- What a run sends in a callback that works for it, as long as it is not over. -/
def sent (machine : Machine) (run : Nat) (job : Job) : List Int :=
  match machine.runs[run]? with
  | some state => if state.isOver then [] else (machine.sees state job).sends (machine.deedsOf job)
  | none => []

/-- The console after what a run does in a callback. -/
def actedOn (machine : Machine) (state : Run) (job : Job) : Console :=
  ((machine.sees state job).carryOutAll (machine.deedsOf job)).console

/-- At first a run finds on the console what is there. -/
theorem console_sees (machine : Machine) (state : Run) (job : Job) :
    (machine.sees state job).console = machine.shell.console := by
  cases job with
  | resume number =>
      rw [sees]
      split <;> rfl
  | begin | attend | signalled | expire | conclude | finish | reap | alarm | freed | call => rfl

theorem sent_of_idle (idle : machine.deedsOf job = []) : machine.sent run job = [] := by
  rw [sent, idle]
  split
  · split <;> rfl
  · rfl

theorem append_sent (machine : Machine) (sends : List Int)
    (found : machine.runs[run]? = some state) :
    sends ++ machine.sent run job = if state.isOver then sends else
      sends ++ (machine.sees state job).sends (machine.deedsOf job) := by
  rw [sent, found]
  dsimp only
  split
  · exact List.append_nil sends
  · rfl

/-- What a callback does is decided before it is taken from the queue. -/
theorem deedsOf_pop (turn : Nat) : (machine.pop ready turn).deedsOf job = machine.deedsOf job := by
  cases job <;> rfl

theorem sees_pop (turn : Nat) :
    (machine.pop ready turn).sees state job = machine.sees state job := by
  cases job <;> rfl

theorem sent_pop (turn : Nat) : (machine.pop ready turn).sent run job = machine.sent run job := by
  have runs : (machine.pop ready turn).runs = machine.runs := rfl
  simp only [sent, runs, deedsOf_pop, sees_pop]

theorem actedOn_pop (turn : Nat) :
    (machine.pop ready turn).actedOn state job = machine.actedOn state job := by
  rw [actedOn, deedsOf_pop, sees_pop]
  rfl

theorem console_takeStage (machine : Machine) (run : Nat) (stage : Stage) :
    (machine.takeStage run stage).shell.console = stage.console := by
  rw [takeStage, shell_stirAll]
  rfl

/-! ### Who holds the signal before and after a strand was played -/

/-- A strand that is not over finds the signal held if anybody holds it. -/
theorem isHeld_strandStage (found : machine.strands[number]? = some strand)
    (live : strand.ended = false) (state : Run) :
    (machine.strandStage number strand state).isHeld = machine.isHeld strand.run := by
  have held := machine.isHeld_modifyStrand strand.run number id
  have same : machine.modifyStrand number id = machine := by simp [modifyStrand]
  rw [same, found] at held
  rw [held]
  simp [Stage.isHeld, strandStage, stage, Strand.holdsFor, live, Bool.or_comm]

/-- A strand that is there after strands were started was there before, or is one of them. -/
theorem strands_stirAll_cases {stirs : List Stir} {after : Strand}
    (found : (machine.stirAll run stirs).strands[number]? = some after) :
    machine.strands[number]? = some after ∨ ∃ holds body, .spawned holds body ∈ stirs ∧
      after = { run := run, role := .spawned, rest := body, holds := holds } := by
  induction stirs generalizing machine with
  | nil => exact .inl found
  | cons stir stirs ih =>
      rcases ih found with old | ⟨holds, body, member, same⟩
      · cases stir with
        | decided =>
            left
            change (machine.notify run).strands[number]? = _ at old
            rwa [(machine.runs_notify run).2] at old
        | spawned holds body =>
            rcases getElem?_concat_cases old with before | ⟨-, rfl⟩
            · exact .inl before
            · exact .inr ⟨holds, body, List.mem_cons_self, rfl⟩
      · exact .inr ⟨holds, body, List.mem_cons_of_mem _ member, same⟩

/-- A strand that was played knows whether others hold the signal. -/
theorem isShared_takeStage (found : machine.strands[number]? = some strand) (deeds : List Deed) :
    let stage := (machine.strandStage number strand state).carryOutAll deeds
    (machine.takeStage strand.run stage).isShared strand.run number = stage.shared := by
  intro stage
  have candid : stage.Candid := Stage.candid_carryOutAll rfl deeds
  rw [Bool.eq_iff_iff, isShared_iff]
  constructor
  · rintro ⟨other, living, differs, there, owner, live, holds⟩
    rcases strands_stirAll_cases there with old | ⟨_, body, member, rfl⟩
    · refine Stage.shared_carryOutAll (isShared_iff.mpr ?_) deeds
      exact ⟨other, living, differs, old, owner, live, holds⟩
    · obtain rfl := holds
      exact candid.shares body member
  · exact heldBeside_takeStage found (Stage.becomes_carryOutAll _ deeds)

end Machine

/-! ### Reasons to wake a supervisor -/

/-- Whether something has happened that a supervisor waits for. -/
def Run.HasNews (state : Run) : Prop :=
  state.completion.isDecided = true ∨ state.ending.isSome = true

namespace Docket

variable {docket after : Docket} {called later : List (Nat × Rat)} {sends statuses : List Int}
  {change : Run → Run}

/-- Whether the timeout of a run passes at some time, counted from its call. -/
def Deadline (docket : Docket) (called : List (Nat × Rat)) (due : Rat) : Prop :=
  ∃ moment seconds, (docket.run, moment) ∈ called ∧ docket.limit = some seconds ∧
    due = moment + seconds

/-- Whether the timeout of a run has passed. -/
def Overdue (docket : Docket) (called : List (Nat × Rat)) : Prop :=
  ∃ due, docket.Deadline called due ∧ due ≤ docket.now

/-- What holds of a docket when `sends` were sent while the run was not over: the first of
them has decided the signal, it is given up only if nobody holds it, and whatever is going to
wake the supervisor has a reason. -/
structure Fair (docket : Docket) (called : List (Nat × Rat)) (sends : List Int) : Prop where
  hears : ∀ state, docket.state = some state → state.isOver = false →
    state.completion.Hears sends
  given : ∀ state, docket.state = some state → state.completion = .abandoned →
    docket.held = false
  news : ∀ state, docket.state = some state → docket.told = true → state.HasNews
  woken : ∀ state, docket.state = some state → state.phase = .listening true →
    state.HasNews ∨ docket.Overdue called
  due : docket.due = true → docket.Overdue called
  alarms : ∀ timer, docket.alarms timer →
    timer.job = .expire docket.run ∧ docket.Deadline called timer.due

/-! ### Changes that bring nothing new -/

/-- Whether a docket differs from an earlier one at most by what is left of it, and by the
time. -/
structure Lowers (docket : Docket) (called : List (Nat × Rat)) (after : Docket) : Prop where
  run : after.run = docket.run
  state : after.state = docket.state
  limit : after.limit = docket.limit
  now : docket.now ≤ after.now
  held : after.held = true → docket.held = true
  told : after.told = true → docket.told = true
  due : after.due = true → docket.due = true ∨ after.Overdue called
  alarms : ∀ timer, after.alarms timer → docket.alarms timer

theorem Deadline.mono {due : Rat} (deadline : docket.Deadline called due)
    (run : after.run = docket.run) (limit : after.limit = docket.limit)
    (more : called ⊆ later) : after.Deadline later due := by
  obtain ⟨moment, seconds, member, timeout, same⟩ := deadline
  exact ⟨moment, seconds, more (run ▸ member), limit.trans timeout, same⟩

theorem Overdue.mono (overdue : docket.Overdue called) (run : after.run = docket.run)
    (limit : after.limit = docket.limit) (now : docket.now ≤ after.now) (more : called ⊆ later) :
    after.Overdue later := by
  obtain ⟨due, deadline, passed⟩ := overdue
  exact ⟨due, deadline.mono run limit more, passed.trans now⟩

theorem Fair.lower (fair : docket.Fair called sends) (lowers : docket.Lowers later after)
    (more : called ⊆ later) : after.Fair later sends := by
  have overdue : docket.Overdue called → after.Overdue later := fun overdue =>
    overdue.mono lowers.run lowers.limit lowers.now more
  refine ⟨fun state found => ?_, fun state found given => ?_, fun state found told => ?_,
    fun state found woken => ?_, fun due => ?_, fun timer set => ?_⟩
  · exact fair.hears state (lowers.state ▸ found)
  · have gone := fair.given state (lowers.state ▸ found) given
    exact Bool.eq_false_iff.mpr fun held => by simp [lowers.held held] at gone
  · exact fair.news state (lowers.state ▸ found) (lowers.told told)
  · exact (fair.woken state (lowers.state ▸ found) woken).imp_right overdue
  · exact (lowers.due due).elim (fun before => overdue (fair.due before)) id
  · obtain ⟨job, deadline⟩ := fair.alarms timer (lowers.alarms timer set)
    exact ⟨lowers.run ▸ job, deadline.mono lowers.run lowers.limit more⟩

/-! ### Changes of the run -/

@[simp] theorem state_revise (docket : Docket) (change : Run → Run) :
    (docket.revise change).state = docket.state.map change := rfl

theorem revised {state : Run} (found : docket.state = some state) (change : Run → Run) :
    (docket.revise change).state = some (change state) := by
  rw [state_revise, found]
  rfl

/-- A run may change if what is said of it holds afterwards. -/
theorem Fair.revise (fair : docket.Fair called sends)
    (hears : ∀ state, docket.state = some state → (change state).isOver = false →
      (change state).completion.Hears statuses)
    (given : ∀ state, docket.state = some state → (change state).completion = .abandoned →
      docket.held = false)
    (news : ∀ state, docket.state = some state → state.HasNews → (change state).HasNews)
    (woken : ∀ state, docket.state = some state → (change state).phase = .listening true →
      (change state).HasNews ∨ docket.Overdue called) :
    (docket.revise change).Fair called statuses := by
  have earlier : ∀ after, (docket.revise change).state = some after →
      ∃ state, docket.state = some state ∧ change state = after :=
    fun after found => Option.map_eq_some_iff.mp found
  refine ⟨fun after found => ?_, fun after found => ?_, fun after found told => ?_,
    fun after found => ?_, fair.due, fair.alarms⟩
  · obtain ⟨state, old, rfl⟩ := earlier after found
    exact hears state old
  · obtain ⟨state, old, rfl⟩ := earlier after found
    exact given state old
  · obtain ⟨state, old, rfl⟩ := earlier after found
    exact news state old (fair.news state old told)
  · obtain ⟨state, old, rfl⟩ := earlier after found
    exact woken state old

/-- A change of a run that leaves alone what the supervisor looks at. -/
theorem Fair.revise_of_same (fair : docket.Fair called sends)
    (same : ∀ state, (change state).phase = state.phase ∧
      (change state).completion = state.completion ∧ (change state).ending = state.ending) :
    (docket.revise change).Fair called sends := by
  have news : ∀ state : Run, (change state).HasNews ↔ state.HasNews := by
    intro state
    rw [Run.HasNews, Run.HasNews, (same state).2.1, (same state).2.2]
  refine fair.revise (fun state found going => ?_) (fun state found given => ?_)
    (fun state _ => (news state).mpr) fun state found woken => ?_
  · rw [Run.isOver, (same state).1] at going
    exact (same state).2.1 ▸ fair.hears state found going
  · exact fair.given state found ((same state).2.1 ▸ given)
  · exact (fair.woken state found ((same state).1 ▸ woken)).imp_left (news state).mpr

/-- Others hold the signal, if it was not given up. -/
theorem Fair.handOver (fair : docket.Fair called sends)
    (kept : ∀ state, docket.state = some state → state.completion ≠ .abandoned) (held : Bool) :
    Fair { docket with held := held } called sends :=
  ⟨fair.hears, fun state found given => absurd given (kept state found), fair.news, fair.woken,
    fair.due, fair.alarms⟩

theorem Fair.tell (fair : docket.Fair called sends)
    (news : ∀ state, docket.state = some state → state.HasNews) :
    docket.tell.Fair called sends := by
  unfold Docket.tell
  split
  · exact ⟨fair.hears, fair.given, fun state found _ => news state found, fair.woken, fair.due,
      fair.alarms⟩
  · exact fair

/-- The signal is given up when nobody holds it. -/
theorem Fair.release (fair : docket.Fair called sends) : docket.release.Fair called sends := by
  unfold Docket.release
  split
  · next left =>
      obtain ⟨pending, gone⟩ := Bool.and_eq_true_iff.mp left
      have undecided : ∀ state, docket.state = some state → state.completion = .pending := by
        intro state found
        simpa [found] using pending
      refine Fair.tell (fair.revise (fun state found going => ?_) (fun _ _ _ => by simpa using gone)
        (fun state found _ => ?_) fun state found _ => .inl ?_) fun after found => ?_
      · have hears := fair.hears state found going
        rw [undecided state found] at hears ⊢
        cases sends with
        | nil => exact .inr rfl
        | cons first others => cases hears
      · exact .inl (by rw [undecided state found]; rfl)
      · exact .inl (by rw [undecided state found]; rfl)
      · obtain ⟨state, old, rfl⟩ := Option.map_eq_some_iff.mp found
        exact .inl (by rw [undecided state old]; rfl)
  · exact fair

/-- The program has ended. -/
theorem Fair.noteEnding (fair : docket.Fair called sends) (ending : Ending) :
    (docket.revise fun state => { state with ending := some ending }).tell.Fair called sends := by
  refine Fair.tell (fair.revise fair.hears fair.given (fun _ _ _ => .inr rfl)
    fun _ _ _ => .inl (.inr rfl)) fun after found => ?_
  obtain ⟨state, _, rfl⟩ := Option.map_eq_some_iff.mp found
  exact .inr rfl

/-- The run is over. -/
theorem Fair.close (fair : docket.Fair called sends) (status : Option Int) :
    (docket.revise (·.close status)).Fair called sends := by
  refine fair.revise (fun _ _ going => by cases going) (fun state found given => ?_)
    (fun state _ news => news.imp_left ?_) fun _ _ woken => by cases woken
  · refine fair.given state found ?_
    cases completion : state.completion <;>
      simp [Run.close, completion, Completion.revoke] at given
    rfl
  · cases completion : state.completion <;>
      simp [Run.close, completion, Completion.revoke, Completion.isDecided]

/-- A strand has ended. -/
theorem Fair.lose (fair : docket.Fair called sends) {shared holds : Bool}
    (left : shared = true → docket.held = true) : (docket.lose shared holds).Fair called sends := by
  have lowered : Fair { docket with held := shared } called sends :=
    fair.lower ⟨rfl, rfl, rfl, le_rfl, left, id, .inl, fun _ => id⟩ (List.Subset.refl _)
  unfold Docket.lose
  dsimp only
  split
  · exact lowered.release
  · exact lowered

/-! ### What strands stir up -/

/-- A supervisor is told if the signal was decided, and strands may have been added that hold
it. -/
theorem exists_foldl_stir (stirs : List Stir) (docket : Docket) : ∃ held told,
    stirs.foldl Docket.stir docket = { docket with held := held, told := told } ∧
      (told = true → docket.told = true ∨ .decided ∈ stirs) ∧
        (held = true → docket.held = true ∨ ∃ body, .spawned true body ∈ stirs) := by
  induction stirs generalizing docket with
  | nil => exact ⟨docket.held, docket.told, rfl, .inl, .inl⟩
  | cons stir stirs ih =>
      obtain ⟨held, told, same, reason, holder⟩ := ih (docket.stir stir)
      rw [List.foldl_cons, same]
      refine ⟨held, told, ?_, fun yes => ?_, fun yes => ?_⟩
      · cases stir with
        | spawned holds body => rfl
        | decided =>
            simp only [Docket.stir, tell]
            split <;> rfl
      · cases stir with
        | decided => exact .inr List.mem_cons_self
        | spawned holds body => exact (reason yes).imp_right (List.mem_cons_of_mem _)
      · rcases holder yes with before | ⟨body, member⟩
        · cases stir with
          | decided =>
              left
              simp only [Docket.stir, tell] at before
              split at before <;> exact before
          | spawned holds body =>
              rcases Bool.or_eq_true_iff.mp before with old | new
              · exact .inl old
              · obtain rfl := new
                exact .inr ⟨body, List.mem_cons_self⟩
        · exact .inr ⟨body, List.mem_cons_of_mem _ member⟩

/-- A run is launched of which nothing has been told. -/
theorem Fair.launch (fair : docket.Fair called sends) (untold : docket.told = false)
    (program : Launch) : Fair { docket with state := some { launch := program } } called [] := by
  have only : ∀ state, some ({ launch := program } : Run) = some state →
      state.completion = .pending ∧ state.phase = .starting := by
    intro state same
    obtain rfl := Option.some.inj same
    exact ⟨rfl, rfl⟩
  refine ⟨fun state found _ => .inl (only state found).1, fun state found given => ?_,
    fun _ _ told => ?_, fun state found woken => ?_, fair.due, fair.alarms⟩
  · cases (only state found).1.symm.trans given
  · cases untold.symm.trans told
  · cases (only state found).2.symm.trans woken

/-- A program has been played on a stage, and it is noted who holds the signal now. -/
theorem Fair.takeStage (fair : docket.Fair called sends) {state : Run} {stage : Stage}
    {held told : Bool} (found : docket.state = some state) (candid : stage.Candid)
    (told' : told = true → docket.told = true ∨ .decided ∈ stage.stirs)
    (decided : state.completion.isDecided = true → stage.completion.isDecided = true)
    (given : stage.completion = .abandoned → held = false)
    (hears : state.isOver = false → stage.completion.Hears statuses) :
    Fair { docket.revise fun state => { state with completion := stage.completion } with
      held := held, told := told } called statuses := by
  have only : ∀ after, (docket.revise fun state =>
      { state with completion := stage.completion }).state = some after →
        after = { state with completion := stage.completion } := by
    intro after here
    rw [state_revise, found] at here
    exact (Option.some.inj here).symm
  refine ⟨fun after here going => ?_, fun after here lost => ?_, fun after here yes => ?_,
    fun after here woken => ?_, fair.due, fair.alarms⟩
  · obtain rfl := only after here
    exact hears going
  · obtain rfl := only after here
    exact given lost
  · obtain rfl := only after here
    rcases told' yes with before | now
    · exact (fair.news state found before).imp_left decided
    · exact .inl (candid.decided now)
  · obtain rfl := only after here
    exact (fair.woken state found woken).imp_left (Or.imp_left decided)

/-- The same, if it is known what the program has done there. -/
theorem Fair.play (fair : docket.Fair called sends) {state : Run}
    (found : docket.state = some state) {before : Stage}
    (same : before.completion = state.completion) (calm : before.stirs = [])
    (honest : before.Honest) (deeds : List Deed) {held told : Bool}
    (told' : told = true → docket.told = true ∨ .decided ∈ (before.carryOutAll deeds).stirs)
    (given : (before.carryOutAll deeds).completion = .abandoned → held = false) :
    Fair { docket.revise fun state =>
        { state with completion := (before.carryOutAll deeds).completion } with
      held := held, told := told } called
      (if state.isOver then sends else sends ++ before.sends deeds) := by
  refine fair.takeStage found (Stage.candid_carryOutAll calm deeds) told' (fun decided => ?_) given
    fun going => ?_
  · rw [← same] at decided
    rwa [Stage.completion_carryOutAll decided]
  · rw [going]
    exact Stage.hears_carryOutAll honest (same ▸ fair.hears state found going) deeds

/-- A supervisor begins to wait. -/
theorem Fair.listen (fair : docket.Fair called sends) {state : Run}
    (found : docket.state = some state) (going : state.isOver = false)
    (now : (docket.run, docket.now) ∈ called) : docket.listen.Fair called sends := by
  have revised : (docket.revise fun state => { state with phase := .listening false }).Fair called
      sends := by
    refine fair.revise (fun other there _ => ?_) (fun other there => fair.given other there)
      (fun _ _ => id) fun _ _ woken => by cases woken
    obtain rfl := Option.some.inj (found.symm.trans there)
    exact fair.hears state found going
  refine ⟨revised.hears, revised.given, revised.news, fun other there woken => ?_, revised.due,
    fun timer set => ?_⟩
  · exact revised.woken other there woken
  · rcases set with before | ⟨seconds, limit, rfl⟩
    · exact revised.alarms timer before
    · exact ⟨rfl, docket.now, seconds, now, limit, rfl⟩

end Docket

/-- What a run holds when its program was played: its signal as it is on the stage.  Who holds
it now, and whether the supervisor is going to be told, is seen by what was stirred up. -/
theorem Machine.exists_takeStage (machine : Machine) (run : Nat) (stage : Stage) :
    ∃ held told, (machine.takeStage run stage).docket run =
        { (machine.docket run).revise fun state =>
            { state with completion := stage.completion } with held := held, told := told } ∧
      (told = true → (machine.docket run).told = true ∨ .decided ∈ stage.stirs) ∧
        (held = true →
          (machine.docket run).held = true ∨ ∃ body, .spawned true body ∈ stage.stirs) := by
  rw [machine.docket_takeStage run stage]
  exact Docket.exists_foldl_stir stage.stirs _

end LineShell
