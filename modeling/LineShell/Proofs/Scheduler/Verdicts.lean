/-
Module: LineShell.Proofs.Scheduler.Verdicts
Purpose: On every course the first status that an internal program sends decides with what
  status its command ends, and a program that sends none is reported once, unless it fails
  inside its call, which is reported whatever it has sent.
Main exports: Machine.Decides, Reachable.decides, decides_deferred, reported_despite_send
-/
import LineShell.Proofs.Scheduler.Consoles

namespace LineShell

namespace Machine

/-- What is decided about the run of an internal program, when the programs were called that
are given with the times of their calls. -/
structure Decides (machine : Machine) (called : List (Nat × Rat)) (run : Nat) (state : Run)
    (sends : List Int) (reports : List Diagnostic) : Prop where
  /-- Before the run is over nothing is reported. -/
  silent : state.isOver = false → reports = []
  /-- If it is not over when no callback is ready, nothing was sent, and the program is really
  pending. -/
  pends : machine.isQuiet = true → state.isOver = false → sends = [] ∧
    machine.Pends called run state
  verdict : ∀ status, state.phase = .closed status →
    state.Verdict ((machine.docket run).Overdue called) sends reports status
  /-- With its status the shell is put back to work. -/
  recorded : ∀ status move, state.phase = .closed status → machine.handedBack move = some run →
    (machine.make move).shell.status = status.getD statusFailure

variable {machine : Machine} {called : List (Nat × Rat)} {sends : List Int}
  {reports : List Diagnostic} {run : Nat} {state : Run}

theorem decides_of_minds (regular : machine.Regular called)
    (found : machine.runs[run]? = some state) (internal : state.launch.kind = .internal)
    (minds : Annals.reports.Minds (machine.docket run) called sends reports) :
    machine.Decides called run state sends reports := by
  refine ⟨fun going => minds.quiet fun other here => ?_, fun quiet going => ?_,
    fun status closed => minds.closed state status found closed,
    fun status move closed handed => status_of_handedBack found closed handed⟩
  · obtain rfl := Option.some.inj (found.symm.trans here)
    exact going
  · obtain ⟨other, here, pends⟩ :=
      regular.alert.pends regular.sound quiet (running_of_open regular.sound found going).1
    obtain rfl := Option.some.inj (found.symm.trans here)
    refine ⟨?_, pends⟩
    have hears := minds.fair.hears state found going
    rw [(pends.internal internal).1] at hears
    cases sends with
    | nil => rfl
    | cons => cases hears

/-- A run of which three things are known. -/
theorem exists_run_of_view {α : Type} {view : Run → α} {kind : ProgramKind} {seen : α}
    {phase : Phase}
    (shown : machine.runs[run]?.map (fun state => (state.launch.kind, view state, state.phase)) =
      some (kind, seen, phase)) :
    ∃ state, machine.runs[run]? = some state ∧ state.launch.kind = kind ∧ view state = seen ∧
      state.phase = phase := by
  obtain ⟨state, found, same⟩ := Option.map_eq_some_iff.mp shown
  cases same
  exact ⟨state, found, rfl, rfl, rfl⟩

end Machine

/-- How the run of an internal program ends.  The first status that it sends while it is not
over decides, in whatever order else it writes, sends, waits, fails, ends, gives its signal up
or takes too long, and then nothing is reported.  A program that has sent nothing is reported
once, and on a fresh line.  Only what goes wrong inside the call of a program is reported
whatever was sent. -/
theorem Reachable.decides {shell : Shell} (reachable : Reachable (.start shell))
    (moves : List Move) {run : Nat} {state : Run}
    (found : ((Machine.start shell).makeAll moves).runs[run]? = some state)
    (internal : state.launch.kind = .internal) :
    ∃ reports, (∀ others, Annals.reports.Course run (.start shell) moves others ↔
        others = reports) ∧
      ((Machine.start shell).makeAll moves).Decides ((Machine.start shell).calls moves) run state
        ((Machine.start shell).sendsAll run moves) reports ∧
      (∀ report ∈ reports, report.console.complete.terminal.IsFresh) ∧
      ((∀ deed ∈ (Machine.start shell).deedsAll moves, deed.Whole) →
        ∀ report ∈ reports, report.console.complete.terminal.lastLine = []) := by
  obtain ⟨regular, reports, only, minds, fresh, below⟩ :=
    Annals.lawful_reports.exists_course reachable moves found internal
  exact ⟨reports, only, Machine.decides_of_minds regular found internal minds, fresh, below⟩

/-- A shell with one internal program, which does something and then fails. -/
def hastyShell (deferred : Bool) (act : Act) : Shell :=
  let failing : Ending := .failed (.host "ValueError" (some "boom"))
  let program : Program := .internal (.ok fun _ =>
    if deferred then .defer true (.perform act (.stop failing))
    else .perform act (.stop failing))
  .start {} .memory {} { entries := [("p", program)], distinct := List.nodup_singleton _ }

/-- A course on which the program is called and everything happens that can. -/
def callingCourse : List Move :=
  .input "p" :: .input "\r" :: List.replicate 12 .step

/-- If a program fails when its turn comes, a status that it has sent before counts, and nothing
is reported.  If it has not sent one, its failure is reported, below the line it has left
unended.  A program that lets go of the signal is reported, and goes on. -/
theorem decides_deferred :
    (let start := Machine.start (hastyShell true (.send 7));
      start.sendsAll 0 callingCourse = [7] ∧ (start.makeAll callingCourse).exitOf 0 = 7 ∧
        Annals.reports.Course 0 start callingCourse []) ∧
    (let start := Machine.start (hastyShell true (.write "half"));
      start.sendsAll 0 callingCourse = [] ∧ (start.makeAll callingCourse).exitOf 0 = 1 ∧
        ∃ report, Annals.reports.Course 0 start callingCourse [report] ∧
          report.console.complete.terminal.lastLine = []) ∧
    (let start := Machine.start limitedShell;
      start.sendsAll 0 droppingCourse = [] ∧ (start.makeAll droppingCourse).exitOf 0 = 1 ∧
        (start.makeAll droppingCourse).strands.map (·.ended) = [false] ∧
          ∃ report, Annals.reports.Course 0 start droppingCourse [report]) := by
  refine ⟨?_, ?_, ?_⟩
  · intro start
    have reachable : Reachable (.start (hastyShell true (.send 7))) := .start ..
    obtain ⟨state, found, internal, returned, closed⟩ := Machine.exists_run_of_view
      (show (start.makeAll callingCourse).runs[0]?.map (fun state =>
        (state.launch.kind, state.launch.breach?, state.phase)) =
          some (.internal, none, .closed (some 7)) by decide +kernel)
    have sent : start.sendsAll 0 callingCourse = [7] := by decide +kernel
    obtain ⟨reports, told, decides, -⟩ := reachable.decides callingCourse found internal
    have quiet : reports = [] := ((decides.verdict _ closed).sent returned 7 [] sent).2
    exact ⟨sent, by decide +kernel, (told []).mpr quiet.symm⟩
  · intro start
    have reachable : Reachable (.start (hastyShell true (.write "half"))) := .start ..
    obtain ⟨state, found, internal, returned, closed⟩ := Machine.exists_run_of_view
      (show (start.makeAll callingCourse).runs[0]?.map (fun state =>
        (state.launch.kind, state.launch.breach?, state.phase)) =
          some (.internal, none, .closed (some 1)) by decide +kernel)
    have sent : start.sendsAll 0 callingCourse = [] := by decide +kernel
    have deeds : start.deedsAll callingCourse = [.act (.write "half")] := by decide +kernel
    have whole : ∀ deed ∈ start.deedsAll callingCourse, deed.Whole := by
      rw [deeds]
      exact List.forall_mem_singleton.mpr (show endsOutside "half" = true by decide)
    obtain ⟨reports, told, decides, -, below⟩ := reachable.decides callingCourse found internal
    obtain ⟨console, fault, -, -, once⟩ := (decides.verdict _ closed).unsent returned sent
    exact ⟨sent, by decide +kernel, _, (told _).mpr once.symm,
      below whole _ (once ▸ List.mem_singleton_self _)⟩
  · intro start
    have reachable : Reachable (.start limitedShell) := .start ..
    obtain ⟨state, found, internal, returned, closed⟩ := Machine.exists_run_of_view
      (show (start.makeAll droppingCourse).runs[0]?.map (fun state =>
        (state.launch.kind, state.launch.breach?, state.phase)) =
          some (.internal, none, .closed (some 1)) by decide +kernel)
    have sent : start.sendsAll 0 droppingCourse = [] := by decide +kernel
    obtain ⟨reports, told, decides, -⟩ := reachable.decides droppingCourse found internal
    obtain ⟨console, fault, -, -, once⟩ := (decides.verdict _ closed).unsent returned sent
    exact ⟨sent, by decide +kernel, by decide +kernel, _, (told _).mpr once.symm⟩

/-- If it fails inside its call, its failure is reported, and its status is lost. -/
theorem reported_despite_send :
    let start := Machine.start (hastyShell false (.send 7))
    start.sendsAll 0 callingCourse = [7] ∧ (start.makeAll callingCourse).exitOf 0 = 1 ∧
      Shell.ownMessage "p: boom" <:+:
        (start.makeAll callingCourse).shell.console.terminal.recorded := by
  decide +kernel

end LineShell
