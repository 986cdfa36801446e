/-
Module: LineShell.Proofs.Scheduler.Reports
Purpose: What is reported of internal programs, and with what status their runs end: the verdict
  on a run, and that the callbacks that may end one keep to it.
Main exports: Diagnostic, Run.Blamed, Run.Charged, Run.Verdict, Annals.reports,
  Annals.lawful_reports
-/
import LineShell.Proofs.Scheduler.Annals

namespace LineShell

/-!
A supervisor reports at most once, and then the run is over.  What is reported is compared
with what the program has sent while the run was not over.  Neither is read off the state of
the machine: sends are found among the deeds that are done, and reports on the console, where
they follow what the program writes in the same callback.
-/

/-! ### Reports -/

/-- The report of a failure, and the console on which it is made. -/
structure Diagnostic where
  console : Console
  message : Text

namespace Diagnostic

/-- The console after the report: a dangling line is ended first. -/
def written (report : Diagnostic) : Console :=
  report.console.complete.println (Shell.ownMessage report.message)

theorem pieces_written (report : Diagnostic) : report.written.terminal.pieces =
    lineEnd :: Shell.ownMessage report.message :: report.console.complete.terminal.pieces := by
  rfl

/-- A report shows. -/
theorem written_ne (report : Diagnostic) : report.written ≠ report.console := by
  intro same
  have more : report.console.terminal.pieces.length ≤
      report.console.complete.terminal.pieces.length := by
    unfold Console.complete
    split
    · exact le_rfl
    · exact Nat.le_succ _
  have pieces := congrArg (·.terminal.pieces.length) same
  simp only [pieces_written, List.length_cons] at pieces
  omega

/-- A report can be told from the console. -/
theorem written_injective (one other : Diagnostic) (console : one.console = other.console)
    (written : one.written = other.written) : one = other := by
  obtain ⟨before, message⟩ := one
  obtain ⟨_, other⟩ := other
  cases console
  have pieces := congrArg (·.terminal.pieces) written
  have same : message = other := by
    simpa [pieces_written, Shell.ownMessage] using pieces
  rw [same]

end Diagnostic

/-- A failure as it is reported of a program: an error of the host is put down to it. -/
def Fault.within (name : Text) : Fault → Fault
  | .host kind text => .program name (Fault.host kind text).summary
  | fault => fault

/-! ### Verdicts -/

/-- The failures of which a program that sent nothing is blamed: the timeout has passed, or it
has ended, or it has given its signal up. -/
inductive Run.Blamed (state : Run) (overdue : Prop) : Fault → Prop where
  | timedOut (limit : Numeral) (passed : overdue) :
      Blamed state overdue (.timedOut state.name limit)
  | raised (fault : Fault) (done : state.ending.isSome = true) :
      Blamed state overdue (.program state.name fault.summary)
  | silent (done : state.ending.isSome = true ∨ state.completion = .abandoned) :
      Blamed state overdue (.completion state.name)

/-- With what a run is charged in the callback that reports it, at that time. -/
inductive Run.Charged (state : Run) (timeout : Option Numeral) : Job → Fault → Prop where
  /-- It has failed inside its call, -/
  | inside {run : Nat} (fault : Fault) (fails : state.launch.breach? = some (.failed fault)) :
      Charged state timeout (.begin run) (fault.within state.name)
  /-- or nothing has happened until it was too late, -/
  | late {run : Nat} (idle : ¬ state.HasNews) :
      Charged state timeout (.conclude run) (.timedOut state.name (Machine.reportedTimeout timeout))
  /-- or it has failed before it has sent anything, -/
  | raised {run : Nat} (fault : Fault) (failed : state.ending = some (.failed fault))
      (unsent : ∀ status, state.completion ≠ .sent status) :
      Charged state timeout (.conclude run) (.program state.name fault.summary)
  /-- or it has ended otherwise, or given its signal up. -/
  | silent {run : Nat} (news : state.HasNews) (unsent : ∀ status, state.completion ≠ .sent status)
      (unfailed : ∀ fault, state.ending ≠ some (.failed fault)) :
      Charged state timeout (.conclude run) (.completion state.name)

/-- With what status the run of an internal program ends, and what is reported of it. -/
structure Run.Verdict (state : Run) (overdue : Prop) (sends : List Int) (reports : List Diagnostic)
    (status : Option Int) : Prop where
  /-- The first status that was sent decides, and nothing is reported, -/
  sent : state.launch.breach? = none → ∀ first others, sends = first :: others →
    status = some first ∧ reports = []
  /-- and otherwise one failure is reported, of which the program is to blame. -/
  unsent : state.launch.breach? = none → sends = [] → ∃ console fault,
    state.Blamed overdue fault ∧ status = some fault.status ∧
      reports = [{ console := console, message := fault.message }]
  /-- But what goes wrong inside the call of a program is reported whatever was sent. -/
  failed : ∀ fault, state.launch.breach? = some (.failed fault) → ∃ console,
    status = some (fault.within state.name).status ∧
      reports = [{ console := console, message := (fault.within state.name).message }]
  cancelled : state.launch.breach? = some .cancelled → status = none ∧ reports = []

theorem Run.Verdict.mono {before after : Run} {overdue later : Prop} {sends : List Int}
    {reports : List Diagnostic} {status : Option Int}
    (verdict : before.Verdict overdue sends reports status) (launch : after.launch = before.launch)
    (done : before.ending.isSome = true → after.ending.isSome = true)
    (given : before.completion = .abandoned → after.completion = .abandoned)
    (passed : overdue → later) : after.Verdict later sends reports status := by
  have name : after.name = before.name := congrArg Launch.name launch
  refine ⟨launch ▸ verdict.sent, fun returns nothing => ?_, ?_, launch ▸ verdict.cancelled⟩
  · obtain ⟨console, fault, blamed, exit, told⟩ := verdict.unsent (launch ▸ returns) nothing
    refine ⟨console, fault, ?_, exit, told⟩
    cases blamed with
    | timedOut limit late => exact name ▸ .timedOut limit (passed late)
    | raised fault ended => exact name ▸ .raised fault (done ended)
    | silent left => exact name ▸ .silent (left.imp done given)
  · rw [launch, name]
    exact verdict.failed

theorem Run.verdict_of_sent {state : Run} {overdue : Prop} (returned : state.launch.breach? = none)
    (first : Int) (others : List Int) :
    state.Verdict overdue (first :: others) [] (some first) := by
  refine ⟨fun _ status others same => ?_, nofun, fun fault fails => ?_, fun fails => ?_⟩
  · cases same
    exact ⟨rfl, rfl⟩
  · cases returned.symm.trans fails
  · cases returned.symm.trans fails

theorem Run.verdict_of_blamed {state : Run} {overdue : Prop} {fault : Fault} {report : Diagnostic}
    (returned : state.launch.breach? = none) (blamed : state.Blamed overdue fault)
    (told : report.message = fault.message) :
    state.Verdict overdue [] [report] (some fault.status) := by
  obtain ⟨console, message⟩ := report
  cases told
  refine ⟨nofun, fun _ _ => ⟨console, fault, blamed, rfl, rfl⟩, fun fault fails => ?_,
    fun fails => ?_⟩
  · cases returned.symm.trans fails
  · cases returned.symm.trans fails

theorem Run.verdict_of_failed {state : Run} {overdue : Prop} {fault : Fault} {report : Diagnostic}
    {sends : List Int} (fails : state.launch.breach? = some (.failed fault))
    (told : report.message = (fault.within state.name).message) :
    state.Verdict overdue sends [report] (some (fault.within state.name).status) := by
  obtain ⟨console, message⟩ := report
  cases told
  refine ⟨fun returned => ?_, fun returned => ?_, fun other same => ?_, fun cancelled => ?_⟩
  · cases fails.symm.trans returned
  · cases fails.symm.trans returned
  · cases fails.symm.trans same
    exact ⟨console, rfl, rfl⟩
  · cases fails.symm.trans cancelled

theorem Run.verdict_of_cancelled {state : Run} {overdue : Prop} {sends : List Int}
    (cancelled : state.launch.breach? = some .cancelled) :
    state.Verdict overdue sends [] none := by
  refine ⟨fun returned => ?_, fun returned => ?_, fun fault fails => ?_, fun _ => ⟨rfl, rfl⟩⟩
  · cases cancelled.symm.trans returned
  · cases cancelled.symm.trans returned
  · cases cancelled.symm.trans fails

/-! ### The account -/

namespace Machine

/-- An internal program that fails inside its call is reported, whatever its failure is. -/
theorem failInternal_eq (machine : Machine) (run : Nat) (name : Text) (fault : Fault) :
    ∃ change : Shell → Shell, (∀ shell, (change shell).console = shell.console ∧
      (change shell).options = shell.options) ∧ machine.failInternal run name fault =
        (machine.withShell change).failRun run (fault.within name) (fault.within name).status := by
  cases fault with
  | host kind text =>
      exact ⟨(·.warn ("internal program " ++ name ++ " failed")), fun _ => ⟨rfl, rfl⟩, rfl⟩
  | program | completion | timedOut => exact ⟨id, fun _ => ⟨rfl, rfl⟩, rfl⟩

end Machine

/-- The account that is kept of internal programs: the failures that are reported of them. -/
def Annals.reports : Annals Diagnostic where
  kind := .internal
  before := Diagnostic.console
  written := Diagnostic.written
  Reason machine _ state job _ report := ∃ fault,
    state.Charged machine.shell.options.timeout job fault ∧ report.message = fault.message
  Verdict := Run.Verdict
  shows := Diagnostic.written_ne
  injective := Diagnostic.written_injective
  reason_of_pop _ _ := id
  mono := Run.Verdict.mono

namespace Annals

variable {machine : Machine} {called : List (Nat × Rat)} {sends : List Int}
  {reports : List Diagnostic} {run : Nat} {state next : Run} {job : Job}

/-- A failure is reported, and the run is over. -/
theorem accounts_failRun (before : Machine) {status : Int} {fault : Fault}
    (minds : Annals.reports.Minds (machine.docket run) called sends reports)
    (found : machine.runs[run]? = some state) (internal : state.launch.kind = .internal)
    (going : state.isOver = false)
    (charged : state.Charged machine.shell.options.timeout job fault)
    (performed : machine.perform job = before.failRun run fault status)
    (console : before.shell.console = machine.actedOn state job)
    (fair : (before.docket run).Fair called (sends ++ machine.sent run job))
    (there : before.runs[run]? = some next) (launch : next.launch = state.launch)
    (verdict : ∀ report : Diagnostic, report.message = fault.message →
      (next.close (some status)).Verdict ((before.docket run).Overdue called)
        (sends ++ machine.sent run job) [report] (some status)) :
    Annals.reports.Accounts machine called run sends reports job := by
  have noted : Annals.reports.Notes machine run job
      ((before.withShell (·.report fault)).closeRun run (some status))
      (some { console := machine.actedOn state job, message := fault.message }) := by
    refine .said found internal going rfl ⟨fault, charged, rfl⟩ ?_
    rw [Machine.shell_closeRun, ← console]
    rfl
  exact accounts_close (before.withShell (·.report fault)) minds found going performed noted fair
    there launch (fun external => by cases internal.symm.trans external) (verdict _ rfl)

/-! #### The call of a program -/

/-- The supervisor lets go of the signal, and begins to wait. -/
theorem accounts_awaited (before : Machine) (found : machine.runs[run]? = some state)
    (internal : state.launch.kind = .internal) (returned : state.launch.breach? = none)
    (performed : machine.perform job = (before.releaseCompletion run).listen run)
    (console : before.shell.console = machine.actedOn state job)
    (fair : (before.docket run).Fair called (sends ++ machine.sent run job))
    (there : before.runs[run]? = some next) (launch : next.launch = state.launch)
    (going : next.isOver = false) (now : (run, before.now) ∈ called) :
    Annals.reports.Accounts machine called run sends [] job := by
  obtain ⟨completion, here, time⟩ := Machine.exists_releaseCompletion there
  have released : ((before.releaseCompletion run).docket run).Fair called
      (sends ++ machine.sent run job) := by
    rw [Machine.docket_releaseCompletion]
    exact fair.release
  refine ⟨none, .nothing found internal ?_, fun _ => ?_⟩
  · rw [performed, Machine.shell_listen, Machine.shell_releaseCompletion]
    exact console
  · rw [performed]
    have kind : next.launch.kind = .internal := (congrArg Launch.kind launch).trans internal
    exact minds_listen released here going (launch ▸ returned)
      (fun external => by cases kind.symm.trans external) (time ▸ now)

/-- A program that is to be awaited is handed what it may hold of the signal. -/
theorem fair_startMain {before : Machine} (fair : (before.docket run).Fair called sends)
    (there : before.runs[run]? = some next) (kept : next.completion ≠ .abandoned)
    (body : Script) (holds : Bool) :
    ((before.startMain run body holds).docket run).Fair called sends := by
  have noted : ((before.docket run).revise fun state =>
      { state with main := some before.strands.length }).Fair called sends :=
    fair.revise_of_same fun _ => ⟨rfl, rfl, rfl⟩
  rw [Machine.docket_startMain]
  refine noted.handOver (fun other here => ?_) _
  obtain rfl := Option.some.inj ((Docket.revised there _).symm.trans here)
  exact kept

section Calling

variable (minds : Annals.reports.Minds (machine.docket run) called sends reports)
  (found : machine.runs[run]? = some state) (internal : state.launch.kind = .internal)
  (starting : state.phase = .starting)

include minds found internal starting

/-- The supervisor holds the signal of a program as long as its call lasts, and so it is not
given up meanwhile. -/
theorem fair_called :
    let stage := (machine.callStage state).carryOutAll state.launch.start.deeds
    ((machine.takeStage run stage).docket run).Fair called
        (sends ++ machine.sent run (.begin run)) ∧ stage.completion ≠ .abandoned := by
  intro stage
  have untouched := minds.fresh fun other here => by
    obtain rfl := Option.some.inj (found.symm.trans here)
    exact starting
  have pending := (untouched.state state found).1
  have honest : (machine.callStage state).Honest := fun given => by
    cases pending.symm.trans given
  have kept : stage.completion ≠ .abandoned := by
    intro given
    have nobody := (Bool.or_eq_false_iff.mp (honest.carryOutAll _ given)).2
    have given : (machine.callStage state).shared = true := decide_eq_true internal
    have shared := Stage.shared_carryOutAll given state.launch.start.deeds
    cases nobody.symm.trans shared
  refine ⟨?_, kept⟩
  obtain ⟨held, told, docket, told', -⟩ := machine.exists_takeStage run stage
  have done : machine.deedsOf (.begin run) = state.launch.start.deeds := by
    simp [Machine.deedsOf, found, internal]
  rw [docket, machine.append_sent sends found, done]
  exact minds.fair.play found rfl rfl honest _ told' fun given => absurd given kept

/-- A supervisor calls an internal program. -/
theorem accounts_begin_internal (now : (run, machine.now) ∈ called) :
    Annals.reports.Accounts machine called run sends reports (.begin run) := by
  obtain ⟨fair, kept⟩ := fair_called minds found internal starting
  have going : state.isOver = false := by rw [Run.isOver, starting]
  have performed : machine.perform (.begin run) = _ := machine.begin_of_internal found internal
  have done : machine.deedsOf (.begin run) = state.launch.start.deeds := by
    simp [Machine.deedsOf, found, internal]
  have shown : (machine.takeStage run ((machine.callStage state).carryOutAll
      state.launch.start.deeds)).shell.console = machine.actedOn state (.begin run) := by
    rw [Machine.console_takeStage, Machine.actedOn, done]
    rfl
  dsimp only at performed fair kept
  generalize (machine.callStage state).carryOutAll state.launch.start.deeds = stage at *
  have there := Machine.runs_takeStage found stage
  have time := machine.now_takeStage run stage
  obtain rfl := minds.quiet fun other here => by
    obtain rfl := Option.some.inj (found.symm.trans here)
    exact going
  cases call : state.launch.start.called with
  | deferred shares body =>
      rw [call] at performed
      have handed := fair_startMain fair there kept body (shares && stage.holds)
      have here := Machine.runs_startMain there body (shares && stage.holds)
      exact accounts_awaited _ found internal (by rw [Launch.breach?, call]) performed shown handed
        here rfl going (time ▸ now)
  | ended ending =>
      rw [call] at performed
      cases ending with
      | returned result =>
          exact accounts_awaited _ found internal (by rw [Launch.breach?, call]) performed shown
            fair there rfl going (time.symm ▸ now)
      | failed fault =>
          have fails : state.launch.breach? = some (.failed fault) := by
            rw [Launch.breach?, call]
          obtain ⟨change, silent, same⟩ :=
            (machine.takeStage run stage).failInternal_eq run state.name fault
          have docket : ((machine.takeStage run stage).withShell change).docket run = _ :=
            Machine.docket_withShell _ (silent _).2
          exact accounts_failRun _ minds found internal going (.inside fault fails)
            (performed.trans same) ((silent _).1.trans shown) (docket ▸ fair) there rfl
            fun report told => Run.verdict_of_failed fails told
      | cancelled =>
          refine accounts_close _ minds found going performed (.nothing found internal ?_) fair
            there rfl (fun external => by cases internal.symm.trans external)
            (Run.verdict_of_cancelled (by rw [Run.close, Launch.breach?, call]))
          rw [Machine.shell_closeRun]
          exact shown

end Calling

/-! #### The decision of a supervisor -/

section Concluding

variable (minds : Annals.reports.Minds (machine.docket run) called sends reports)
  (found : machine.runs[run]? = some state) (internal : state.launch.kind = .internal)
  (woken : state.phase = .listening true)

include minds found internal woken

/-- A status was sent. -/
theorem accounts_of_sent {status : Int} (sent : state.completion = .sent status)
    (performed : machine.perform (.conclude run) = machine.concludeInternal run state) :
    Annals.reports.Accounts machine called run sends reports (.conclude run) := by
  have going : state.isOver = false := by rw [Run.isOver, woken]
  have hears := minds.fair.hears state found going
  have idle : machine.sent run (.conclude run) = [] := Machine.sent_of_idle rfl
  let reaping := machine.modifyRun run fun state => { state with reaped := state.main.isSome }
  let reaped := if state.ending.isSome then reaping.queue (.reap run) else reaping
  have same : reaped.shell = machine.shell ∧ reaped.docket run = reaping.docket run := by
    change (if state.ending.isSome then _ else _ : Machine).shell = _ ∧
      (if state.ending.isSome then _ else _ : Machine).docket run = _
    split
    · exact ⟨rfl, reaping.docket_queue rfl⟩
    · exact ⟨rfl, rfl⟩
  obtain ⟨shell, docket⟩ := same
  rw [Machine.docket_modifyRun] at docket
  have there : reaped.runs[run]? = some { state with reaped := state.main.isSome } :=
    (congrArg Docket.state docket).trans (Docket.revised found _)
  unfold Machine.concludeInternal at performed
  rw [sent] at performed
  refine accounts_close reaped minds found going performed (.nothing found internal ?_) ?_ there
    rfl (fun external => by cases internal.symm.trans external) ?_
  · rw [Machine.shell_closeRun, shell]
    rfl
  · rw [docket, idle, List.append_nil]
    exact minds.fair.revise_of_same fun _ => ⟨rfl, rfl, rfl⟩
  · rw [idle, List.append_nil]
    cases sends with
    | nil => rcases hears with same | same <;> cases sent.symm.trans same
    | cons first others =>
        obtain rfl := Completion.sent.inj (sent.symm.trans hears)
        refine Run.verdict_of_sent ?_ status others
        exact minds.calm state found (by simp [woken]) going

/-- Whatever is reported of a program that has sent nothing, the program is to blame. -/
theorem accounts_blamed (nothing : sends = []) (before : Machine) (fault : Fault)
    (charged : state.Charged machine.shell.options.timeout (.conclude run) fault)
    (performed : machine.perform (.conclude run) = before.failRun run fault fault.status)
    (console : before.shell.console = machine.shell.console)
    (docket : before.docket run = machine.docket run)
    (blamed : (state.close (some fault.status)).Blamed ((machine.docket run).Overdue called)
      fault) :
    Annals.reports.Accounts machine called run sends reports (.conclude run) := by
  have going : state.isOver = false := by rw [Run.isOver, woken]
  have all : sends ++ machine.sent run (.conclude run) = [] := by
    rw [nothing, Machine.sent_of_idle rfl]
    rfl
  refine accounts_failRun before minds found internal going charged performed console ?_
    ((congrArg Docket.state docket).trans found) rfl fun report told => ?_
  · rw [docket, all]
    exact nothing ▸ minds.fair
  · rw [docket, all]
    exact Run.verdict_of_blamed (minds.calm state found (by simp [woken]) going) blamed told

/-- The timeout has passed, with no news of the program. -/
theorem accounts_of_late (nothing : sends = []) (idle : ¬ state.HasNews)
    (performed : machine.perform (.conclude run) =
      ((machine.warnTimeout state.name).cancelMain state).failRun run
        (.timedOut state.name (Machine.reportedTimeout machine.shell.options.timeout))
        statusTimeout) :
    Annals.reports.Accounts machine called run sends reports (.conclude run) := by
  have docket : ((machine.warnTimeout state.name).cancelMain state).docket run =
      machine.docket run :=
    (Machine.docket_cancelMain _ state).trans (machine.docket_withShell rfl)
  have console : ((machine.warnTimeout state.name).cancelMain state).shell.console =
      machine.shell.console := by
    rw [Machine.shell_cancelMain]
    rfl
  have overdue := (minds.fair.woken state found woken).resolve_left idle
  exact accounts_blamed minds found internal woken nothing _ _ (.late idle) performed console docket
    (.timedOut _ overdue)

/-- The timeout has passed, or the program has ended or given its signal up. -/
theorem accounts_of_unsent (unsent : ∀ status, state.completion ≠ .sent status)
    (performed : machine.perform (.conclude run) = machine.concludeInternal run state) :
    Annals.reports.Accounts machine called run sends reports (.conclude run) := by
  have hears := minds.fair.hears state found (by rw [Run.isOver, woken])
  have nothing : sends = [] := by
    cases sends with
    | nil => rfl
    | cons first others => exact absurd hears (unsent first)
  have undecided : state.completion = .pending ∨ state.completion = .abandoned := by
    rwa [nothing] at hears
  have blamed := accounts_blamed minds found internal woken nothing
  unfold Machine.concludeInternal at performed
  split at performed
  · next status sent => exact absurd sent (unsent status)
  · split at performed
    · next late =>
        obtain ⟨pending, unended⟩ := Bool.and_eq_true_iff.mp late
        refine accounts_of_late minds found internal woken nothing ?_ performed
        rintro (decided | ended)
        · rw [of_decide_eq_true pending] at decided
          cases decided
        · rw [Option.isNone_iff_eq_none.mp unended] at ended
          cases ended
    · next news =>
        have done : state.ending.isSome = true ∨ state.completion = .abandoned := by
          rcases undecided with pending | given
          · refine .inl ?_
            cases ending : state.ending with
            | some ending => rfl
            | none => simp [pending, ending] at news
          · exact .inr given
        split at performed
        · next fault raised =>
            refine blamed _ _ (.raised fault raised unsent) performed rfl
              (machine.docket_withShell rfl) (.raised fault ?_)
            rw [Run.close, raised]
            rfl
        · next unfailed =>
            have happened : state.HasNews := by
              refine done.symm.imp_left fun given => ?_
              rw [given]
              rfl
            refine blamed _ _ (.silent happened unsent unfailed) performed rfl
              (machine.docket_withShell rfl) (.silent ?_)
            refine done.imp_right fun given => ?_
            rw [Run.close, given]
            rfl

/-- A supervisor decides how the run of an internal program ends. -/
theorem accounts_conclude_internal :
    Annals.reports.Accounts machine called run sends reports (.conclude run) := by
  have performed : machine.perform (.conclude run) = machine.concludeInternal run state := by
    simp only [Machine.perform, Machine.conclude, found, internal, if_pos woken]
  cases completion : state.completion with
  | sent status => exact accounts_of_sent minds found internal woken completion performed
  | pending | abandoned | revoked =>
      exact accounts_of_unsent minds found internal woken (by simp [completion]) performed

end Concluding

/-- Account is kept of every internal program. -/
theorem lawful_reports : Annals.reports.Lawful where
  begins found internal starting now minds :=
    accounts_begin_internal minds found internal starting now
  plays _ _ _ _ internal external := by cases internal.symm.trans external
  concludes found internal woken _ _ minds := accounts_conclude_internal minds found internal woken

end Annals

end LineShell
