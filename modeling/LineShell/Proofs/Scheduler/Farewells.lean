/-
Module: LineShell.Proofs.Scheduler.Farewells
Purpose: What is written when the run of an external program ends, and with what status it
  ends; and that the callbacks that may end one keep to it.
Main exports: Farewell, Ending.exit?, Ending.message?, Launch.Parting, Machine.Reason,
  Annals.farewells, Annals.lawful_farewells
-/
import LineShell.Proofs.Scheduler.Annals

namespace LineShell

/-!
The supervisor of an external program comes to its decision in four places: inside the call,
in the place of a strand, when it is told of the end of the main strand, and when the timeout
has passed.  Each of them leads to the same farewell.  Like the reports of internal programs,
farewells are not read off the state of the machine but found on the console, behind what the
program writes in the same callback.
-/

/-! ### Farewells -/

/-- What is written when a run ends, and the console to which it is written. -/
structure Farewell where
  console : Console
  /-- What has gone wrong, if anything has. -/
  message? : Option Text

namespace Farewell

/-- The console behind the message: a dangling line is ended first. -/
def told (farewell : Farewell) : Console :=
  match farewell.message? with
  | none => farewell.console
  | some message => farewell.console.complete.println message

/-- The console after the farewell.  The cursor is shown last. -/
def written (farewell : Farewell) : Console :=
  farewell.told.write showCursor

theorem pieces_written (farewell : Farewell) :
    farewell.written.terminal.pieces = showCursor :: farewell.told.terminal.pieces := rfl

theorem pieces_println (console : Console) (message : Text) :
    (console.println message).terminal.pieces = lineEnd ::
      if message = [] then console.terminal.pieces else message :: console.terminal.pieces := by
  cases message <;> rfl

/-- A message shows, even if there is nothing to say. -/
theorem length_message (console : Console) (message : Text) : console.terminal.pieces.length <
    (console.complete.println message).terminal.pieces.length := by
  have completed : console.terminal.pieces.length ≤ console.complete.terminal.pieces.length := by
    unfold Console.complete
    split
    · exact le_rfl
    · exact Nat.le_succ _
  rw [pieces_println]
  split <;> simp only [List.length_cons] <;> omega

/-- A farewell shows. -/
theorem written_ne (farewell : Farewell) : farewell.written ≠ farewell.console := by
  obtain ⟨console, message?⟩ := farewell
  intro same
  have pieces := congrArg (·.terminal.pieces.length) same
  simp only [pieces_written, List.length_cons] at pieces
  cases message? with
  | none => exact absurd pieces (Nat.succ_ne_self _)
  | some message => exact absurd pieces (Nat.lt_succ_of_lt (length_message console message)).ne'

/-- A farewell can be told from the console. -/
theorem written_injective (one other : Farewell) (console : one.console = other.console)
    (written : one.written = other.written) : one = other := by
  obtain ⟨console, one⟩ := one
  obtain ⟨_, other⟩ := other
  cases console
  have pieces := congrArg (·.terminal.pieces) written
  simp only [pieces_written, List.cons.injEq, true_and] at pieces
  have lengths := congrArg List.length pieces
  congr 1
  cases one with
  | none =>
      cases other with
      | none => rfl
      | some message => exact absurd lengths (length_message console message).ne
  | some message =>
      cases other with
      | none => exact absurd lengths (length_message console message).ne'
      | some again =>
          simp only [told, pieces_println, List.cons.injEq, true_and] at pieces
          cases message <;> cases again <;> simp at pieces ⊢
          exact pieces

end Farewell

/-! ### The meaning of an end -/

namespace Ending

/-- The status of a command whose external program ends so: a whole number stands for itself,
unless it is a truth value, and anything else that is returned for success. -/
def exit? : Ending → Option Int
  | .returned (.number value) => some value
  | .returned (.truth _) | .returned .other => some statusSuccess
  | .failed fault => some fault.status
  | .cancelled => none

/-- What is said of an external program that ends so. -/
def message? : Ending → Option Text
  | .failed (.timedOut name seconds) =>
      some (Shell.ownMessage (Fault.timedOut name seconds).message)
  | .failed fault => some (if fault.message.isEmpty then "unknown error" else fault.message)
  | .returned _ | .cancelled => none

end Ending

/-- What is said of an external program that takes too long. -/
def Launch.lateMessage (launch : Launch) (limit : Numeral) : Text :=
  Shell.ownMessage (Fault.timedOut launch.name limit).message

/-- What is said when the run of an external program ends, and with what status it ends. -/
inductive Launch.Parting (launch : Launch) (overdue : Prop) :
    Option Text → Option Int → Prop where
  /-- Its program has ended, -/
  | ended : Parting launch overdue launch.start.called.ending.message?
      launch.start.called.ending.exit?
  /-- or it has left something to be awaited that took too long. -/
  | late (limit : Numeral) (awaited : launch.start.defers = true) (passed : overdue) :
      Parting launch overdue (some (launch.lateMessage limit)) (some statusTimeout)

theorem Launch.Parting.mono {launch : Launch} {overdue later : Prop} {message? : Option Text}
    {status : Option Int} (parting : launch.Parting overdue message? status)
    (passed : overdue → later) : launch.Parting later message? status := by
  cases parting with
  | ended => exact .ended
  | late limit awaited reason => exact .late limit awaited (passed reason)

namespace Machine

/-- Whether a callback plays the program of a run to its end, or finds that it has ended. -/
def Through (machine : Machine) (state : Run) : Job → Prop
  | .begin _ =>
      match state.launch.start.called with
      | .ended _ => True
      | .deferred _ body => body.pauseAt machine.isOpen = .ended state.prospect
  | .resume number => ∃ strand, machine.strands[number]? = some strand ∧ strand.role = .inline ∧
      strand.ahead.pauseAt machine.isOpen = .ended state.prospect
  | .conclude _ => state.ending = some state.prospect
  | _ => False

/-- For what reason a callback ends a run with a message and a status: its program has ended, or
its supervisor decides without having been told so. -/
inductive Reason (machine : Machine) (state : Run) : Job → Option Text → Option Int → Prop where
  | ended (job : Job) (through : machine.Through state job) :
      Reason machine state job state.prospect.message? state.prospect.exit?
  | late (run : Nat) (unended : state.ending = none) :
      Reason machine state (.conclude run)
        (some (state.launch.lateMessage (machine.shell.options.timeout.getD (.whole 0))))
        (some statusTimeout)

theorem Reason.of_pop {machine : Machine} {state : Run} {job : Job} {message? : Option Text}
    {status : Option Int} (ready : List Job) (turn : Nat)
    (reason : (machine.pop ready turn).Reason state job message? status) :
    machine.Reason state job message? status := by
  cases reason with
  | ended _ through => exact .ended job through
  | late run unended => exact .late run unended

end Machine

/-! ### The account -/

/-- The account that is kept of external programs: what is said when their runs end. -/
def Annals.farewells : Annals Farewell where
  kind := .external
  before := Farewell.console
  written := Farewell.written
  Reason machine run state job after farewell := ∃ status,
    machine.Reason state job farewell.message? status ∧
      after.runs[run]?.map Run.phase = some (.closed status)
  Verdict state overdue _ farewells status := ∃ farewell, farewells = [farewell] ∧
    state.launch.Parting overdue farewell.message? status
  shows := Farewell.written_ne
  injective := Farewell.written_injective
  reason_of_pop ready turn := fun ⟨status, reason, closed⟩ =>
    ⟨status, reason.of_pop ready turn, closed⟩
  mono := fun ⟨farewell, told, parting⟩ launch _ _ passed =>
    ⟨farewell, told, launch ▸ parting.mono passed⟩

namespace Machine

variable {machine : Machine} {called : List (Nat × Rat)} {sends : List Int}
  {farewells : List Farewell} {run number : Nat} {state next : Run} {strand : Strand} {job : Job}

/-! #### The end of a run -/

theorem endExternal_eq (machine : Machine) (run : Nat) (name : Text) (ending : Ending) :
    ∃ change : Shell → Shell, (∀ shell, (change shell).console = Farewell.written
      { console := shell.console, message? := ending.message? } ∧
        (change shell).options = shell.options) ∧
      machine.endExternal run name ending = (machine.withShell change).closeRun run
        ending.exit? := by
  let shown : Shell → Shell := (·.withConsole (·.write showCursor))
  cases ending with
  | returned result => cases result <;> exact ⟨shown, fun _ => ⟨rfl, rfl⟩, rfl⟩
  | cancelled => exact ⟨shown, fun _ => ⟨rfl, rfl⟩, rfl⟩
  | failed fault =>
      cases fault with
      | timedOut program seconds =>
          exact ⟨fun shell => shown (shell.report (.timedOut program seconds)),
            fun _ => ⟨rfl, rfl⟩, rfl⟩
      | host | program | completion =>
          exact ⟨fun shell => shown ((shell.warn ("external program " ++ name ++ " failed"))
            |>.withConsole fun console => console.complete.println _), fun _ => ⟨rfl, rfl⟩, rfl⟩

/-- Whether a run was ended just now with a farewell and a status. -/
structure Departs (machine : Machine) (called : List (Nat × Rat)) (run : Nat) (sends : List Int)
    (farewell : Farewell) (status : Option Int) : Prop where
  written : machine.shell.console = farewell.written
  closed : machine.runs[run]?.map Run.phase = some (.closed status)
  minds : Annals.farewells.Minds (machine.docket run) called sends [farewell]

/-- Whatever has become of an external program, one farewell is said and its run is over. -/
theorem departs_endExternal (machine : Machine) (name : Text) {ending : Ending}
    (fair : (machine.docket run).Fair called sends)
    (held : (machine.docket run).held = false) (found : machine.runs[run]? = some state)
    (parting : state.launch.Parting ((machine.docket run).Overdue called) ending.message?
      ending.exit?) :
    (machine.endExternal run name ending).Departs called run sends
      { console := machine.shell.console, message? := ending.message? } ending.exit? := by
  obtain ⟨change, shown, same⟩ := machine.endExternal_eq run name ending
  have docket : (machine.withShell change).docket run = machine.docket run :=
    machine.docket_withShell (shown _).2
  have closed : (machine.endExternal run name ending).docket run =
      (machine.docket run).revise (·.close ending.exit?) := by
    rw [same, docket_closeRun, docket]
  have there : (machine.docket run).state = some state := found
  refine ⟨?_, ?_, ?_⟩
  · rw [same, shell_closeRun]
    exact (shown _).1
  · have shut := congrArg Docket.state closed
    rw [Docket.revised there] at shut
    exact congrArg (Option.map Run.phase) shut
  · rw [closed]
    exact Annals.minds_close fair there (fun _ => held) ⟨_, rfl, parting⟩

/-- A strand that is played in its supervisor's place ends the run. -/
theorem endStrand_inline (machine : Machine) (number : Nat)
    (found : machine.runs[strand.run]? = some state) (role : strand.role = .inline)
    (ending : Ending) :
    machine.endStrand number strand false ending =
      (machine.modifyStrand number fun state => { state with ended := true }).endExternal
        strand.run state.name ending := by
  have there : (machine.modifyStrand number fun state =>
      { state with ended := true }).runs[strand.run]? = some state := found
  unfold endStrand
  simp only [role, there, Bool.false_eq_true, if_false]

/-! #### Playing without a signal -/

/-- What is played where nobody holds the signal leaves it as it was. -/
theorem fair_takeStage (minds : Annals.farewells.Minds (machine.docket run) called sends farewells)
    (found : machine.runs[run]? = some state) (external : state.launch.kind = .external)
    {before : Stage} (same : before.completion = state.completion) (calm : before.stirs = [])
    (idle : before.isHeld = false) (deeds : List Deed) :
    let taken := machine.takeStage run (before.carryOutAll deeds)
    (taken.docket run).Fair called sends ∧ (taken.docket run).held = false ∧
      taken.runs[run]? = some state ∧ (before.carryOutAll deeds).isHeld = false := by
  obtain ⟨unheld, kept⟩ := Stage.idle_carryOutAll idle deeds
  obtain ⟨held, told, docket, told', holder⟩ := machine.exists_takeStage run
    (before.carryOutAll deeds)
  obtain rfl : held = false := by
    refine Bool.eq_false_iff.mpr fun held => ?_
    rcases holder held with here | ⟨body, spawned⟩
    · cases (minds.mute state found external).1.symm.trans here
    · have shared := (Stage.candid_carryOutAll calm deeds).shares body spawned
      cases (Bool.or_eq_false_iff.mp unheld).2.symm.trans shared
  have fair := minds.fair.play found same calm (fun _ => idle) deeds told' fun _ => rfl
  rw [Stage.sends_of_idle idle, List.append_nil, ite_self, ← docket] at fair
  have there := runs_takeStage found (before.carryOutAll deeds)
  rw [kept, same] at there
  exact ⟨fair, congrArg Docket.held docket, there, unheld⟩

/-- An external program sends nothing. -/
theorem sent_of_external (found : machine.runs[run]? = some state)
    (idle : (machine.sees state job).isHeld = false) : machine.sent run job = [] := by
  rw [sent, found]
  dsimp only
  rw [Stage.sends_of_idle idle, ite_self]

/-- An external program is given no signal with its call. -/
theorem isHeld_callStage (machine : Machine) (external : state.launch.kind = .external) :
    (machine.callStage state).isHeld = false := by
  simp [callStage, stage, Stage.isHeld, external]

/-- A program goes on in its supervisor's place up to its next wait, or to its end, which is that
of the run. -/
theorem minds_inline
    (minds : Annals.farewells.Minds (machine.docket strand.run) called sends [])
    (found : machine.runs[strand.run]? = some state) (external : state.launch.kind = .external)
    (inside : state.phase = .inside) (here : machine.strands[number]? = some strand)
    (role : strand.role = .inline) (live : strand.ended = false)
    (leads : strand.ahead.ending = state.prospect) :
    let deeds := strand.ahead.deedsUntil (passesGates machine.isOpen)
    let shown := ((machine.strandStage number strand state).carryOutAll deeds).console
    ((machine.resume number).shell.console = shown ∧ Annals.farewells.Minds
        ((machine.resume number).docket strand.run) called sends []) ∨
      (strand.ahead.pauseAt machine.isOpen = .ended state.prospect ∧
        (machine.resume number).Departs called strand.run sends
          { console := shown, message? := state.prospect.message? } state.prospect.exit?) := by
  intro deeds shown
  have idle := minds.idle found here live external
  have going : state.isOver = false := by rw [Run.isOver, inside]
  have pending := (minds.mute state found external).2 going
  obtain ⟨fair, held, there, unheld⟩ := fair_takeStage minds found external rfl rfl idle deeds
  have known := getElem?_strands_takeStage strand.run
    ((machine.strandStage number strand state).carryOutAll deeds) here
  have console := machine.console_takeStage strand.run
    ((machine.strandStage number strand state).carryOutAll deeds)
  obtain ⟨dropped, shared⟩ := Bool.or_eq_false_iff.mp unheld
  have alone :
      let stage := (machine.strandStage number strand state).carryOutAll deeds
      (machine.takeStage strand.run stage).isShared strand.run number = stage.shared :=
    machine.isShared_takeStage here deeds
  rw [machine.resume_eq here live found, Script.play_eq]
  dsimp only at fair held there alone ⊢
  rw [dropped]
  generalize machine.takeStage strand.run _ = taken at *
  have ends := strand.ahead.ending_play machine.isOpen { console := {} }
  rw [Script.play_eq] at ends
  cases pause : strand.ahead.pauseAt machine.isOpen with
  | waiting wait rest interrupted =>
      left
      refine ⟨(congrArg Shell.console (shell_park wait _)).trans console, ?_⟩
      rw [docket_leave_waiting _ _ rfl known live, alone, shared, Bool.or_false, ← held]
      refine Annals.minds_of_underway fair there (by simp [inside]) going
        (minds.calm state found (by simp [inside]) going) fun _ => ⟨held, fun _ => pending⟩
  | ended ending =>
      right
      rw [pause] at ends
      obtain rfl : ending = state.prospect := ends.trans leads
      let marked := taken.modifyStrand number fun state => { state with ended := true }
      have same : marked.docket strand.run = taken.docket strand.run := by
        refine taken.docket_modifyStrand number fun other there => ?_
        obtain rfl := Option.some.inj (known.symm.trans there)
        have holds := (Bool.or_eq_false_iff.mp idle).1
        simp [Strand.holdsFor, show strand.holds = false from holds]
      rw [← same] at fair held
      have known : marked.runs[strand.run]? = some state := there
      have departs := marked.departs_endExternal state.name fair held known .ended
      have shown : marked.shell.console = _ := console
      rw [shown] at departs
      refine ⟨rfl, ?_⟩
      rw [leave, taken.endStrand_inline number there role]
      exact departs

end Machine

namespace Annals

variable {machine : Machine} {called : List (Nat × Rat)} {sends : List Int}
  {farewells : List Farewell} {run number : Nat} {state : Run} {strand : Strand} {job : Job}

/-- A callback in which the run has departed keeps account of it. -/
theorem accounts_of_departs {after : Machine} {farewell : Farewell} {status : Option Int}
    (minds : Annals.farewells.Minds (machine.docket run) called sends farewells)
    (found : machine.runs[run]? = some state) (external : state.launch.kind = .external)
    (going : state.isOver = false) (silent : machine.sent run job = [])
    (before : farewell.console = machine.actedOn state job)
    (reason : machine.Reason state job farewell.message? status)
    (performed : machine.perform job = after)
    (departs : after.Departs called run sends farewell status) :
    Annals.farewells.Accounts machine called run sends farewells job := by
  subst performed
  obtain rfl := minds.quiet fun other here => by
    obtain rfl := Option.some.inj (found.symm.trans here)
    exact going
  refine ⟨some farewell, .said found external going before ⟨status, reason, departs.closed⟩
    departs.written, fun _ => ?_⟩
  rw [silent, List.append_nil]
  exact departs.minds

/-- The program goes on in its supervisor's place. -/
theorem accounts_inline
    (minds : Annals.farewells.Minds (machine.docket strand.run) called sends farewells)
    (found : machine.runs[strand.run]? = some state) (external : state.launch.kind = .external)
    (inside : state.phase = .inside) (here : machine.strands[number]? = some strand)
    (role : strand.role = .inline) (live : strand.ended = false) (faithful : machine.Faithful) :
    Annals.farewells.Accounts machine called strand.run sends farewells (.resume number) := by
  have going : state.isOver = false := by rw [Run.isOver, inside]
  obtain rfl := minds.quiet fun other here => by
    obtain rfl := Option.some.inj (found.symm.trans here)
    exact going
  obtain ⟨other, known, leads⟩ := faithful.plays number strand here (by simp [role])
  obtain rfl := Option.some.inj (found.symm.trans known)
  obtain ⟨uncancelled, ending⟩ := leads going
  have ahead : strand.ahead.ending = state.prospect := by
    rw [Strand.ahead, uncancelled]
    exact ending
  have sees : machine.sees state (.resume number) = machine.strandStage number strand state := by
    simp [Machine.sees, here]
  have done : machine.deedsOf (.resume number) =
      strand.ahead.deedsUntil (passesGates machine.isOpen) := by
    simp [Machine.deedsOf, here, live]
  have acted : machine.actedOn state (.resume number) =
      ((machine.strandStage number strand state).carryOutAll
        (strand.ahead.deedsUntil (passesGates machine.isOpen))).console := by
    rw [Machine.actedOn, sees, done]
  have silent : machine.sent strand.run (.resume number) = [] := by
    refine Machine.sent_of_external found ?_
    rw [sees]
    exact minds.idle found here live external
  rcases Machine.minds_inline minds found external inside here role live ahead with
    ⟨shown, after⟩ | ⟨through, departs⟩
  · refine ⟨none, .nothing found external (shown.trans acted.symm), fun _ => ?_⟩
    rw [silent, List.append_nil]
    exact after
  · have reason : machine.Reason state (.resume number) state.prospect.message?
        state.prospect.exit? := .ended _ ⟨strand, here, role, through⟩
    exact accounts_of_departs minds found external going silent acted.symm reason rfl departs

/-! #### The call of a program -/

/-- The supervisor leaves its place to what is to be awaited. -/
theorem minds_startInline
    (fair : (machine.docket run).Fair called sends) (held : (machine.docket run).held = false)
    (found : machine.runs[run]? = some state) (external : state.launch.kind = .external)
    (going : state.isOver = false) (pending : state.completion = .pending) {shares : Bool}
    {body : Script} (call : state.launch.start.called = .deferred shares body) :
    let deeds := body.deedsUntil (passesGates machine.isOpen)
    let shown := ((machine.stage state false false).carryOutAll deeds).console
    let after := machine.startInline run body
    (after.shell.console = shown ∧ Annals.farewells.Minds (after.docket run) called sends []) ∨
      (body.pauseAt machine.isOpen = .ended state.prospect ∧ after.Departs called run sends
        { console := shown, message? := state.prospect.message? } state.prospect.exit?) := by
  intro deeds shown after
  let strand : Strand := { run := run, role := .inline, rest := body }
  let inside := machine.modifyRun run fun state => { state with phase := .inside }
  let started : Machine := { inside with strands := machine.strands ++ [strand] }
  have returned : state.launch.breach? = none := by rw [Launch.breach?, call]
  have entered : (inside.docket run).Fair called sends := by
    rw [Machine.docket_modifyRun]
    refine fair.revise (fun other here _ => ?_) fair.given (fun _ _ => id) (by simp)
    obtain rfl := Option.some.inj (found.symm.trans here)
    exact fair.hears state found going
  have here : started.runs[run]? = some { state with phase := .inside } := by
    simp [started, inside, Machine.modifyRun, found]
  have unheld : started.docket run = inside.docket run := by
    have aside : strand.holdsFor run = false := by simp [Strand.holdsFor, strand]
    refine (Machine.docket_append inside).trans ?_
    rw [aside, Bool.or_false]
    rfl
  have nobody : (started.docket run).held = false := by rw [unheld]; exact held
  have minds : Annals.farewells.Minds (started.docket run) called sends [] :=
    minds_of_underway (unheld ▸ entered) here (by simp) rfl returned
      fun _ => ⟨nobody, fun _ => pending⟩
  have there : started.strands[machine.strands.length]? = some strand :=
    List.getElem?_concat_length
  have leads : strand.ahead.ending = state.prospect := by
    rw [Run.prospect, call]
    rfl
  -- What the strand finds differs from the given stage at most in who else holds the signal.
  have console : ((started.strandStage machine.strands.length strand
      { state with phase := .inside }).carryOutAll deeds).console = shown := by
    have idle := Machine.isHeld_strandStage there rfl { state with phase := .inside }
    have alone : (machine.stage state false false).isHeld = false := rfl
    exact Stage.console_of_idle (idle.trans nobody) alone rfl rfl deeds
  let next : Run := { state with phase := .inside }
  have foreign : next.launch.kind = .external := external
  have played := Machine.minds_inline minds here foreign rfl there rfl rfl leads
  dsimp only at played
  rw [show strand.ahead.deedsUntil (passesGates started.isOpen) = deeds from rfl, console] at played
  exact played

/-- The supervisor of what may not take too long waits to be told. -/
theorem minds_startMain (fair : (machine.docket run).Fair called sends)
    (held : (machine.docket run).held = false) (found : machine.runs[run]? = some state)
    (going : state.isOver = false) (returned : state.launch.breach? = none)
    (pending : state.completion = .pending) (now : (run, machine.now) ∈ called) (body : Script) :
    Annals.farewells.Minds (((machine.startMain run body false).listen run).docket run) called sends
      [] := by
  have noted : ((machine.docket run).revise fun state =>
      { state with main := some machine.strands.length }).Fair called sends :=
    fair.revise_of_same fun _ => ⟨rfl, rfl, rfl⟩
  have alone : (machine.isHeld run || false) = false := by
    rw [Bool.or_false]
    exact held
  have started : ((machine.startMain run body false).docket run).Fair called sends ∧
      ((machine.startMain run body false).docket run).held = false := by
    rw [Machine.docket_startMain, alone, ← held]
    exact ⟨noted, rfl⟩
  exact minds_listen started.1 (Machine.runs_startMain found body false) going returned
    (fun _ => ⟨started.2, fun _ => pending⟩) now

/-- Without a timeout, what is acted on with the call goes on with what is to be awaited. -/
theorem actedOn_begin_inline (found : machine.runs[run]? = some state)
    (external : state.launch.kind = .external) {shares : Bool} {body : Script}
    (call : state.launch.start.called = .deferred shares body)
    (timeout : machine.shell.options.timeout = none) {taken : Machine}
    (gates : taken.isOpen = machine.isOpen)
    (console : taken.shell.console =
      ((machine.callStage state).carryOutAll state.launch.start.deeds).console) :
    machine.actedOn state (.begin run) = ((taken.stage state false false).carryOutAll
      (body.deedsUntil (passesGates taken.isOpen))).console := by
  have done : machine.deedsOf (.begin run) = state.launch.start.deeds ++
      body.deedsUntil (passesGates machine.isOpen) := by
    simp [Machine.deedsOf, found, external, call, timeout]
  obtain ⟨unheld, kept⟩ :=
    Stage.idle_carryOutAll (machine.isHeld_callStage external) state.launch.start.deeds
  have alone : (taken.stage state false false).isHeld = false := rfl
  rw [Machine.actedOn, done, gates, Stage.carryOutAll, List.foldl_append]
  exact Stage.console_of_idle unheld alone console.symm kept _

section Calling

variable (minds : Annals.farewells.Minds (machine.docket run) called sends farewells)
  (found : machine.runs[run]? = some state) (external : state.launch.kind = .external)
  (starting : state.phase = .starting)

include minds found external starting

/-- What an external program leaves behind its call is waited for. -/
theorem accounts_begin_deferred (now : (run, machine.now) ∈ called) {shares : Bool} {body : Script}
    (call : state.launch.start.called = .deferred shares body) :
    Annals.farewells.Accounts machine called run sends farewells (.begin run) := by
  have going : state.isOver = false := by rw [Run.isOver, starting]
  obtain rfl := minds.quiet fun other here => by
    obtain rfl := Option.some.inj (found.symm.trans here)
    exact going
  have idle := machine.isHeld_callStage external
  have silent : machine.sent run (.begin run) = [] := Machine.sent_of_external found idle
  have pending := (minds.mute state found external).2 going
  let stage := (machine.callStage state).carryOutAll state.launch.start.deeds
  let taken := machine.takeStage run stage
  obtain ⟨fair, held, there, -⟩ :=
    Machine.fair_takeStage minds found external rfl rfl idle state.launch.start.deeds
  obtain ⟨gates, options⟩ := machine.settings_takeStage run stage
  have console := machine.console_takeStage run stage
  have performed : machine.perform (.begin run) =
      taken.beginExternal run state.name (.deferred shares body) :=
    (machine.begin_of_external found external).trans (by rw [call])
  cases timeout : machine.shell.options.timeout with
  | some limit =>
      have performed : machine.perform (.begin run) =
          (taken.startMain run body false).listen run := by
        rw [performed, Machine.beginExternal, options, timeout]
      have done : machine.deedsOf (.begin run) = state.launch.start.deeds := by
        simp [Machine.deedsOf, found, external, call, timeout]
      refine ⟨none, .nothing found external ?_, fun _ => ?_⟩
      · rw [performed, Machine.shell_listen, Machine.actedOn, done]
        exact console
      · rw [performed, silent, List.append_nil]
        have returned : state.launch.breach? = none := by rw [Launch.breach?, call]
        have time : taken.now = machine.now := machine.now_takeStage run stage
        exact minds_startMain fair held there going returned pending (time ▸ now) body
  | none =>
      have performed : machine.perform (.begin run) = taken.startInline run body := by
        rw [performed, Machine.beginExternal, options, timeout]
      have acted := actedOn_begin_inline found external call timeout gates console
      rcases minds_startInline fair held there external going pending call with
        ⟨shown, after⟩ | ⟨through, departs⟩
      · refine ⟨none, .nothing found external ?_, fun _ => ?_⟩
        · rw [performed, acted]
          exact shown
        · rw [performed, silent, List.append_nil]
          exact after
      · have reason : machine.Reason state (.begin run) state.prospect.message?
            state.prospect.exit? := by
          refine .ended _ ?_
          simp only [Machine.Through, call]
          exact gates ▸ through
        exact accounts_of_departs minds found external going silent acted.symm reason performed
          departs

/-- A supervisor calls an external program. -/
theorem accounts_begin_external (now : (run, machine.now) ∈ called) :
    Annals.farewells.Accounts machine called run sends farewells (.begin run) := by
  cases call : state.launch.start.called with
  | deferred shares body => exact accounts_begin_deferred minds found external starting now call
  | ended ending =>
      have going : state.isOver = false := by rw [Run.isOver, starting]
      have idle := machine.isHeld_callStage external
      obtain ⟨fair, held, there, -⟩ :=
        Machine.fair_takeStage minds found external rfl rfl idle state.launch.start.deeds
      have done : machine.deedsOf (.begin run) = state.launch.start.deeds := by
        simp [Machine.deedsOf, found, external, call]
      obtain rfl : state.prospect = ending := by
        rw [Run.prospect, call]
        rfl
      have performed := machine.begin_of_external found external
      rw [call] at performed
      have departs := Machine.departs_endExternal _ state.name fair held there .ended
      rw [Machine.console_takeStage] at departs
      have reason : machine.Reason state (.begin run) state.prospect.message?
          state.prospect.exit? := by
        refine .ended _ ?_
        simp only [Machine.Through, call]
      refine accounts_of_departs minds found external going
        (Machine.sent_of_external found idle) ?_ reason performed departs
      rw [Machine.actedOn, done]
      rfl

end Calling

/-! #### The decision of a supervisor -/

/-- A supervisor decides how the run of an external program ends. -/
theorem accounts_conclude_external
    (minds : Annals.farewells.Minds (machine.docket run) called sends farewells)
    (found : machine.runs[run]? = some state) (external : state.launch.kind = .external)
    (woken : state.phase = .listening true) (awaited : state.launch.start.defers = true)
    (faithful : machine.Faithful) :
    Annals.farewells.Accounts machine called run sends farewells (.conclude run) := by
  have going : state.isOver = false := by rw [Run.isOver, woken]
  obtain ⟨held, pending⟩ := minds.mute state found external
  have performed : machine.perform (.conclude run) = machine.concludeExternal run state := by
    simp only [Machine.perform, Machine.conclude, found, external, if_pos woken]
  have silent : machine.sent run (.conclude run) = [] := Machine.sent_of_idle rfl
  unfold Machine.concludeExternal at performed
  cases told : state.ending with
  | some ending =>
      rw [told] at performed
      obtain rfl := faithful.ended run state ending found going told
      have departs := machine.departs_endExternal state.name minds.fair held found .ended
      have reason : machine.Reason state (.conclude run) state.prospect.message?
          state.prospect.exit? := .ended _ told
      exact accounts_of_departs minds found external going silent rfl reason performed departs
  | none =>
      rw [told] at performed
      let cancelled := (machine.warnTimeout state.name).cancelMain state
      have docket : cancelled.docket run = machine.docket run :=
        (Machine.docket_cancelMain _ state).trans (machine.docket_withShell rfl)
      have console : cancelled.shell.console = machine.shell.console := by
        rw [Machine.shell_cancelMain]
        rfl
      -- Neither a signal nor an end has woken the supervisor.
      have overdue : (machine.docket run).Overdue called := by
        refine (minds.fair.woken state found woken).resolve_left ?_
        rintro (decided | ended)
        · rw [pending going] at decided
          cases decided
        · rw [told] at ended
          cases ended
      have there := (congrArg Docket.state docket).trans found
      let limit := machine.shell.options.timeout.getD (.whole 0)
      let ending : Ending := .failed (.timedOut state.name limit)
      have parting : state.launch.Parting ((machine.docket run).Overdue called) ending.message?
          ending.exit? := .late limit awaited overdue
      have fair := minds.fair
      rw [← docket] at parting fair held
      have departs := cancelled.departs_endExternal state.name fair held there parting
      rw [console] at departs
      have reason : machine.Reason state (.conclude run) ending.message? ending.exit? :=
        .late run told
      exact accounts_of_departs minds found external going silent rfl reason performed departs

/-- Account is kept of every external program. -/
theorem lawful_farewells : Annals.farewells.Lawful where
  begins found external starting now minds :=
    accounts_begin_external minds found external starting now
  plays here role live found external _ inside faithful minds :=
    accounts_inline minds found external inside here role live faithful
  concludes found external woken awaits faithful minds :=
    accounts_conclude_external minds found external woken (awaits external) faithful

end Annals

end LineShell
