/-
Module: LineShell.Proofs.Scheduler.Partings
Purpose: On every course the run of an external program ends with a status that its result, its
  failure or the timeout decides, and with one farewell.
Main exports: Machine.Resolves, Machine.reason_of_closed, Reachable.resolves, resolves_hosting
-/
import LineShell.Proofs.Scheduler.Verdicts

namespace LineShell

namespace Machine

variable {machine : Machine} {called : List (Nat × Rat)} {sends : List Int}
  {farewells : List Farewell} {run : Nat} {state : Run}

/-- No move takes a run away or makes it one of another program. -/
theorem exists_launch_make (found : machine.runs[run]? = some state) (move : Move) :
    ∃ after, (machine.make move).runs[run]? = some after ∧ after.launch = state.launch := by
  have of_admits : ∀ {before after : Machine}, before.runs[run]? = some state →
      (before.docket run).Admits (after.docket run) →
        ∃ next, after.runs[run]? = some next ∧ next.launch = state.launch := by
    intro before after here admits
    rcases admits with same | ⟨absent, -⟩
    · exact ⟨state, (congrArg Docket.state same).trans here, rfl⟩
    · cases absent.symm.trans here
  have touches := machine.touches_make run move
  generalize machine.callback? run move = callback at touches
  generalize machine.callOf move = calls at touches
  generalize machine.make move = after at touches ⊢
  cases touches with
  | admitted admits => exact of_admits found admits
  | elapsed | turned => exact ⟨state, found, rfl⟩
  | @aside job ready turn _ aside =>
      have here : (machine.pop ready turn).runs[run]? = some state := found
      rcases docket_aside (machine.pop ready turn) aside with admits | same
      · exact of_admits here admits
      · refine ⟨{ state with attended := true }, (congrArg Docket.state same).trans ?_, rfl⟩
        exact congrArg (Option.map _) here
  | @owned job ready turn _ own =>
      have here : (machine.pop ready turn).runs[run]? = some state := found
      exact exists_launch (launches_perform (machine.pop ready turn) own) here

/-- What holds of the run of an external program, when the programs were called that are given
with the times of their calls. -/
structure Resolves (machine : Machine) (called : List (Nat × Rat)) (run : Nat) (state : Run)
    (farewells : List Farewell) : Prop where
  /-- Before the run is over nothing is said, and the shell waits for it. -/
  silent : state.isOver = false → farewells = [] ∧ machine.task = some run
  /-- If the shell waits for it when no callback is ready, its program is really pending. -/
  pends : machine.isQuiet = true → machine.task = some run → machine.Pends called run state
  /-- With the end of the run one farewell is said. -/
  parting : ∀ status, state.phase = .closed status → ∃ farewell, farewells = [farewell] ∧
    state.launch.Parting ((machine.docket run).Overdue called) farewell.message? status
  /-- The move that ends the run says it, and for the reason that the program has ended, or that
  it has not when its supervisor decides. -/
  reason : ∀ move after status, state.isOver = false →
    (machine.make move).runs[run]? = some after → after.phase = .closed status →
      ∃ job farewell, machine.callback? run move = some job ∧
        Annals.farewells.Says run machine move (some farewell) ∧
          machine.Reason state job farewell.message? status
  /-- With its status the shell is put back to work. -/
  recorded : ∀ status move, state.phase = .closed status → machine.handedBack move = some run →
    (machine.make move).shell.status = status.getD statusFailure

/-- The move that ends a run says its farewell. -/
theorem reason_of_closed (regular : machine.Regular called) {move : Move} {after : Run}
    {status : Option Int}
    (attests : Annals.farewells.Attests (machine.docket run) called sends [])
    (found : machine.runs[run]? = some state) (external : state.launch.kind = .external)
    (there : (machine.make move).runs[run]? = some after) (closed : after.phase = .closed status) :
    ∃ job farewell, machine.callback? run move = some job ∧
      Annals.farewells.Says run machine move (some farewell) ∧
        machine.Reason state job farewell.message? status := by
  obtain ⟨farewell?, told, attested⟩ :=
    Annals.attests_make Annals.lawful_farewells regular attests move
  obtain ⟨next, here, launch⟩ := exists_launch_make found move
  obtain rfl := Option.some.inj (there.symm.trans here)
  have minds := attested fun other known => by
    obtain rfl := Option.some.inj (there.symm.trans known)
    exact (congrArg Launch.kind launch).trans external
  obtain ⟨farewell, said, -⟩ := minds.closed after status there closed
  obtain rfl : farewell? = some farewell := by
    cases farewell? with
    | none => cases said
    | some other => exact congrArg some (List.cons.inj said).1
  have spoken := told
  unfold Annals.Says at told
  split at told
  · next job callback =>
      cases told with
      | said known _ _ _ reason _ =>
          obtain rfl := Option.some.inj (found.symm.trans known)
          obtain ⟨decided, reason, shut⟩ := reason
          rw [there, Option.map_some, closed] at shut
          obtain rfl := Phase.closed.inj (Option.some.inj shut)
          exact ⟨job, farewell, callback, spoken, reason⟩
  · cases told

theorem resolves_of_minds (regular : machine.Regular called)
    (found : machine.runs[run]? = some state) (external : state.launch.kind = .external)
    (minds : Annals.farewells.Minds (machine.docket run) called sends farewells) :
    machine.Resolves called run state farewells := by
  have only : ∀ other, machine.runs[run]? = some other → state = other :=
    fun other here => Option.some.inj (found.symm.trans here)
  have silent : state.isOver = false → farewells = [] := fun going =>
    minds.quiet fun other here => only other here ▸ going
  refine ⟨fun going => ⟨silent going, (running_of_open regular.sound found going).1⟩,
    fun quiet waited => ?_, fun status => minds.closed state status found,
    fun move after status going there closed => ?_,
    fun status move closed handed => status_of_handedBack found closed handed⟩
  · obtain ⟨other, here, pends⟩ := regular.alert.pends regular.sound quiet waited
    obtain rfl := only other here
    exact pends
  · obtain rfl := silent going
    exact reason_of_closed regular (fun _ => minds) found external there closed

end Machine

/-- How the run of an external program ends: with the status that its result or its failure
stands for, or with that of a timeout which has passed before the program has ended; and with
one farewell, which shows the cursor behind a message about what has gone wrong, if anything
has.  The message starts on a fresh line, and nothing at all stands on it if no text ends
inside a control sequence. -/
theorem Reachable.resolves {shell : Shell} (reachable : Reachable (.start shell))
    (moves : List Move) {run : Nat} {state : Run}
    (found : ((Machine.start shell).makeAll moves).runs[run]? = some state)
    (external : state.launch.kind = .external) :
    ∃ farewells, (∀ others, Annals.farewells.Course run (.start shell) moves others ↔
        others = farewells) ∧
      ((Machine.start shell).makeAll moves).Resolves ((Machine.start shell).calls moves) run state
        farewells ∧
      (∀ farewell ∈ farewells, farewell.console.complete.terminal.IsFresh) ∧
      ((∀ deed ∈ (Machine.start shell).deedsAll moves, deed.Whole) →
        ∀ farewell ∈ farewells, farewell.console.complete.terminal.lastLine = []) := by
  obtain ⟨regular, farewells, only, minds, fresh, below⟩ :=
    Annals.lawful_farewells.exists_course reachable moves found external
  exact ⟨farewells, only, Machine.resolves_of_minds regular found external minds, fresh, below⟩

/-- A shell with one external program. -/
def hostingShell (timeout : Option Numeral) (start : Start) : Shell :=
  .start { timeout := timeout } .memory {}
    { entries := [("p", .external fun _ => start)], distinct := List.nodup_singleton _ }

/-- A program that writes something inside its call, and returns an awaitable, which fails in
the middle of the line. -/
def failingHalfway : Start :=
  let failing : Ending := .failed (.host "ValueError" (some "boom"))
  .perform (.write "half") (.defer false (.awaits [.sleep 0] (.stop failing)))

/-- A program that waits at a gate which is not opened. -/
def waitingForever : Start :=
  .defer false (.awaits [.gate "never"] (.stop (.returned (.number 3))))

/-- A course on which the program is called, and more than the timeout passes. -/
def overdueCourse : List Move :=
  callingCourse ++ .elapse 6 :: List.replicate 12 .step

/-- A failure is told below the line that was left unended, a program that never ends takes too
long, and a truth value is no status. -/
theorem resolves_hosting :
    (let start := Machine.start (hostingShell none failingHalfway);
      (start.makeAll callingCourse).exitOf 0 = 1 ∧
        ∃ farewell, Annals.farewells.Course 0 start callingCourse [farewell] ∧
          farewell.message? = some "boom" ∧
            farewell.console.complete.terminal.lastLine = []) ∧
    (let start := Machine.start (hostingShell (some (.whole 5)) waitingForever);
      (start.makeAll overdueCourse).exitOf 0 = 124 ∧
        ∃ farewell, Annals.farewells.Course 0 start overdueCourse [farewell] ∧
          farewell.message?.isSome ∧ farewell.console.complete.terminal.IsFresh) ∧
    (let start := Machine.start (hostingShell none (.stop (.returned (.truth true))));
      (start.makeAll callingCourse).exitOf 0 = 0 ∧
        ∃ farewell, Annals.farewells.Course 0 start callingCourse [farewell] ∧
          farewell.message? = none) := by
  refine ⟨?_, ?_, ?_⟩
  · intro start
    have reachable : Reachable (.start (hostingShell none failingHalfway)) := .start ..
    obtain ⟨state, found, external, ends, closed⟩ := Machine.exists_run_of_view
      (show (start.makeAll callingCourse).runs[0]?.map (fun state =>
        (state.launch.kind, state.launch.start.called.ending.message?, state.phase)) =
          some (.external, some ("boom" : Text), .closed (some 1)) by decide +kernel)
    have deeds : start.deedsAll callingCourse = [.act (.write "half")] := by decide +kernel
    have whole : ∀ deed ∈ start.deedsAll callingCourse, deed.Whole := by
      rw [deeds]
      exact List.forall_mem_singleton.mpr (show endsOutside "half" = true by decide)
    obtain ⟨farewells, told, resolves, -, below⟩ :=
      reachable.resolves callingCourse found external
    obtain ⟨farewell, rfl, parting⟩ := resolves.parting _ closed
    refine ⟨by decide +kernel, farewell, (told _).mpr rfl, ?_,
      below whole _ (List.mem_singleton_self _)⟩
    generalize farewell.message? = message? at parting ⊢
    generalize shut : some (1 : Int) = status at parting
    cases parting with
    | ended => exact ends
    | late => cases shut
  · intro start
    have reachable : Reachable (.start (hostingShell (some (.whole 5)) waitingForever)) :=
      .start ..
    obtain ⟨state, found, external, ends, closed⟩ := Machine.exists_run_of_view
      (show (start.makeAll overdueCourse).runs[0]?.map (fun state =>
        (state.launch.kind, state.launch.start.called.ending.exit?, state.phase)) =
          some (.external, some 3, .closed (some 124)) by decide +kernel)
    obtain ⟨farewells, told, resolves, fresh, -⟩ := reachable.resolves overdueCourse found external
    obtain ⟨farewell, rfl, parting⟩ := resolves.parting _ closed
    refine ⟨by decide +kernel, farewell, (told _).mpr rfl, ?_,
      fresh _ (List.mem_singleton_self _)⟩
    generalize farewell.message? = message? at parting ⊢
    generalize shut : some (124 : Int) = status at parting
    cases parting with
    | ended => cases shut.trans ends
    | late => rfl
  · intro start
    have reachable : Reachable (.start (hostingShell none (.stop (.returned (.truth true))))) :=
      .start ..
    obtain ⟨state, found, external, ends, closed⟩ := Machine.exists_run_of_view
      (show (start.makeAll callingCourse).runs[0]?.map (fun state =>
        (state.launch.kind, state.launch.start.called.ending.message?, state.phase)) =
          some (.external, none, .closed (some 0)) by decide +kernel)
    obtain ⟨farewells, told, resolves, -⟩ := reachable.resolves callingCourse found external
    obtain ⟨farewell, rfl, parting⟩ := resolves.parting _ closed
    refine ⟨by decide +kernel, farewell, (told _).mpr rfl, ?_⟩
    generalize farewell.message? = message? at parting ⊢
    generalize shut : some (0 : Int) = status at parting
    cases parting with
    | ended => exact ends
    | late => cases shut

end LineShell
