/-
Module: LineShell.Proofs.Scheduler.TypedLines
Purpose: On every course, a line that is typed in whatever pieces and then submitted is
  carried out like one that a caller comes with, up to and including its end.
Main exports: Machine.SameBut, Machine.exists_since, Flight.TypesWhole,
  Reachable.types_whole
-/
import LineShell.Proofs.Scheduler.Onlookers
import LineShell.Proofs.Scheduler.Repaints

namespace LineShell

namespace Machine

/-- Whether two machines are the same but for their callers, and for what was on their
terminals before. -/
structure SameBut (before before' : Terminal) (machine machine' : Machine) : Prop where
  shell : machine.shell.SameBut before before' machine'.shell
  same : machine = { machine' with
    shell := machine.shell
    callers := machine.callers
    waiting := machine.waiting
    finished := machine.finished }

variable {machine : Machine} {line : Text}

theorem sameBut_amid (machine : Machine) (onlookers onlookers' : Onlookers) :
    SameBut onlookers.earlier onlookers'.earlier (machine.amid onlookers)
      (machine.amid onlookers') :=
  ⟨Shell.sameBut_onto _ _ _, rfl⟩

/-! ### Typing -/

/-- Typing text changes nothing but the shell. -/
theorem makeAll_typed (idle : machine.shell.activity = .idle)
    (last : machine.shell.buffer = Buffer.ofText machine.shell.buffer.text) {pieces : List Text}
    (typeable : ∀ piece ∈ pieces, Typeable piece) :
    machine.makeAll (pieces.map .input) =
      { machine with shell := machine.shell.inputAll true pieces } := by
  induction pieces generalizing machine with
  | nil => rfl
  | cons piece pieces ih =>
      obtain ⟨here, there⟩ := List.forall_mem_cons.mp typeable
      obtain ⟨nothing, console, suggestion, -, -, -, typed⟩ :=
        Shell.types_input true idle last here
      let after : Machine := { machine with shell := (machine.shell.input true piece).2 }
      have entered : machine.make (.input piece) = after := machine.input_of_done nothing
      have still : after.shell.activity = .idle :=
        (congrArg Shell.activity typed).trans idle
      have buffer : after.shell.buffer = Buffer.ofText after.shell.buffer.text := by
        rw [show after.shell = _ from typed]
        rfl
      rw [List.map_cons, makeAll, List.foldl_cons, entered]
      exact ih still buffer there

/-! ### Carrying out -/

/-- A caller that comes when the shell is free submits its line. -/
theorem submittedBy_enlist (free : machine.task = none) (line : Text) :
    (machine.enlist line).submittedBy machine.callers.length = some line := by
  simp [submittedBy, enlist, free]

/-- The line that has been typed and the line of a caller come to the same machine, among
different onlookers. -/
theorem exists_since (idle : machine.shell.activity = .idle) (free : machine.task = none)
    (empty : machine.shell.buffer.text = []) {shown : Text} {typed : Shell}
    (types : machine.shell.Types line shown typed) :
    ∃ (since : Machine) (onlookers onlookers' : Onlookers),
      onlookers.earlier = typed.console.terminal ∧
      onlookers'.earlier = machine.shell.console.terminal ∧
      ({ machine with shell := typed } : Machine).input ['\r'] = since.amid onlookers ∧
      machine.make (.carryOut line) = since.amid onlookers' := by
  let whole : Shell := { machine.shell with buffer := Buffer.ofText line }
  have erased : typed.erased.input true ['\r'] = whole.erased.input true ['\r'] :=
    Shell.input_erased_of_types idle empty types (.inl rfl) (.inl rfl)
  let since := ({ machine with shell := whole.erased } : Machine).input ['\r']
  have same : ({ machine with shell := typed.erased } : Machine).input ['\r'] = since := by
    simp only [since, input, erased]
    rfl
  obtain ⟨waiting, finished, called⟩ := (machine.enlist line).call_eq machine.callers.length
  rw [submittedBy_enlist free] at called
  let earlier := machine.shell.console.terminal
  let callers := (machine.enlist line).callers
  let onlookers : Onlookers :=
    ⟨typed.console.terminal, machine.callers, machine.waiting, machine.finished⟩
  let coming : Onlookers := ⟨earlier, callers, machine.waiting, machine.finished⟩
  have entered : ({ machine with shell := typed } : Machine).input ['\r'] = since.amid onlookers :=
    same ▸ input_amid onlookers { machine with shell := typed.erased } ['\r']
  have carried : ((machine.enlist line).withLine line).input ['\r'] = since.amid coming :=
    input_amid coming { machine with shell := whole.erased } ['\r']
  refine ⟨since, onlookers, ⟨earlier, callers.modify machine.callers.length
    fun state => { state with submitted := true }, waiting, finished⟩, rfl, rfl, entered, ?_⟩
  refine called.trans ?_
  simp only [Option.elim_some, submitLine, carried]
  rfl

/-- A caller that comes in a task of its own when nothing is ready to run does the same as one
that carries out its line where it stands. -/
theorem makeAll_exec (quiet : machine.isQuiet = true) (between : machine.turn = 0) (line : Text) :
    machine.makeAll [.exec line, .step, .step] = machine.make (.carryOut line) := by
  rw [isQuiet, Bool.and_eq_true] at quiet
  have none : machine.ready = [] := List.isEmpty_iff.mp quiet.1
  have later : ∀ timer ∈ machine.timers, machine.now < timer.due := by simpa using quiet.2
  have due : machine.timers.filter (·.due ≤ machine.now) = [] :=
    List.filter_eq_nil_iff.mpr fun timer member => by simpa using later timer member
  have kept : machine.timers.filter (machine.now < ·.due) = machine.timers :=
    List.filter_eq_self.mpr fun timer member => by simpa using later timer member
  have begun : (machine.exec line).tick =
      { machine.enlist line with ready := [.call machine.callers.length], turn := 1 } := by
    simp only [tick, exec, queue, between, beginTurn, none, due, kept, List.map_nil,
      List.append_nil, List.nil_append, List.length_singleton, enlist]
  have still : ({ machine.enlist line with ready := [], turn := 0 } : Machine) =
      machine.enlist line := by
    simp only [enlist, none, between]
  change (machine.exec line).tick.tick = (machine.enlist line).call machine.callers.length
  rw [begun, tick]
  exact congrArg (call · machine.callers.length) still

end Machine

/-! ### On all courses -/

/-- Whether to type a line piece by piece and to submit it comes to the same on a flight as
what a caller does that comes with the line. -/
structure Flight.TypesWhole (flight : Flight) (line : Text) (pieces : List Text) : Prop where
  /-- Typing launches nothing, and changes nothing but the line and what is shown. -/
  types : ∀ scheduled,
    (∀ reaction ∈ flight.machine.shell.reactions scheduled pieces, reaction = .done) ∧
    flight.machine.shell.Types line (flight.machine.shell.frames scheduled pieces)
      (flight.machine.shell.inputAll scheduled pieces)
  /-- The key that submits it launches the same program on the same arguments, and leaves the
  same shell. -/
  submits : ∀ scheduled,
    let typed := flight.machine.shell.inputAll scheduled pieces
    let whole : Shell := { flight.machine.shell with buffer := Buffer.ofText line }
    (typed.input scheduled ['\r']).1 = (whole.input scheduled ['\r']).1 ∧
      Shell.SameBut typed.console.terminal flight.machine.shell.console.terminal
        (typed.input scheduled ['\r']).2 (whole.input scheduled ['\r']).2
  /-- A caller that comes with the line submits it, -/
  called : flight.machine.submission (.carryOut line) = some (flight.machine.callers.length, line)
  /-- also in a task of its own, if nothing else is to be done before. -/
  scheduled : flight.machine.isQuiet = true → flight.machine.turn = 0 →
    flight.machine.makeAll [.exec line, .step, .step] = flight.machine.make (.carryOut line)
  /-- It comes to the same machine, among other callers; and so it does behind all moves in
  which no caller has a part until the shell is put back to work. -/
  goesOn : ∀ moves,
    let typed := flight.machine.makeAll (pieces.map .input)
    (typed.input ['\r']).AllUndisturbed moves →
      Machine.SameBut typed.shell.console.terminal flight.machine.shell.console.terminal
        ((typed.input ['\r']).makeAll moves)
        ((flight.machine.make (.carryOut line)).makeAll moves)
  /-- Then it is put back with the same run, and recorded and shown is the same. -/
  ends : ∀ moves move run,
    let typed := flight.machine.makeAll (pieces.map .input)
    let entered := (typed.input ['\r']).makeAll moves
    let carried := (flight.machine.make (.carryOut line)).makeAll moves
    (typed.input ['\r']).AllUndisturbed moves → entered.handedBack move = some run →
      carried.handedBack move = some run ∧ carried.exitOf run = entered.exitOf run ∧
        Shell.SameBut typed.shell.console.terminal flight.machine.shell.console.terminal
          (entered.make move).shell (carried.make move).shell

/-- Typing a line equals submitting it whole: from every idle shell in which nothing has been
typed, however the line is cut into events, the key that submits it does what a caller does
that comes with the line, and only what was shown meanwhile is more. -/
theorem Reachable.types_whole {flight : Flight} (reachable : Reachable flight)
    (idle : flight.machine.shell.activity = .idle) (empty : flight.machine.shell.buffer.text = [])
    {line : Text} (typeable : Typeable line) {pieces : List Text} (cut : pieces.flatten = line) :
    flight.TypesWhole line pieces := by
  have free : flight.machine.task = none := Machine.free_of_idle reachable.sound.machine idle
  have last : flight.machine.shell.buffer = Buffer.ofText flight.machine.shell.buffer.text := by
    have within : flight.machine.shell.buffer.cursor ≤ flight.machine.shell.buffer.text.length :=
      reachable.within
    generalize flight.machine.shell.buffer = buffer at empty within ⊢
    obtain ⟨text, cursor⟩ := buffer
    obtain rfl : text = [] := empty
    obtain rfl : cursor = 0 := Nat.le_zero.mp within
    rfl
  have each : ∀ piece ∈ pieces, Typeable piece := fun piece member c inside =>
    typeable c (cut ▸ List.mem_flatten.mpr ⟨piece, member, inside⟩)
  have types : ∀ scheduled,
      (∀ reaction ∈ flight.machine.shell.reactions scheduled pieces, reaction = .done) ∧
      flight.machine.shell.Types line (flight.machine.shell.frames scheduled pieces)
        (flight.machine.shell.inputAll scheduled pieces) := fun scheduled =>
    cut ▸ Shell.types_inputAll scheduled idle last each
  have typed := Machine.makeAll_typed idle last each
  obtain ⟨since, onlookers, onlookers', here, there, entered, carried⟩ :=
    Machine.exists_since idle free empty (types true).2
  rw [← typed] at entered
  have terminal : (flight.machine.makeAll (pieces.map .input)).shell.console.terminal =
      onlookers.earlier := by
    rw [typed, here]
  have lockstep : ∀ moves,
      ((flight.machine.makeAll (pieces.map .input)).input ['\r']).AllUndisturbed moves →
        ((flight.machine.makeAll (pieces.map .input)).input ['\r']).makeAll moves =
            (since.makeAll moves).amid onlookers ∧
          (flight.machine.make (.carryOut line)).makeAll moves =
            (since.makeAll moves).amid onlookers' := by
    intro moves undisturbed
    have alone := (entered ▸ undisturbed).of_amid
    rw [entered, carried]
    exact ⟨Machine.makeAll_amid alone, Machine.makeAll_amid alone⟩
  refine ⟨types, fun scheduled => ?_, ?_, fun quiet between => ?_, fun moves => ?_,
    fun moves move run => ?_⟩
  · exact Shell.sameBut_of_types idle empty (types scheduled).2 (.inl rfl) (.inl rfl)
  · rw [Machine.submission, Machine.submittedBy_enlist free]
    rfl
  · exact Machine.makeAll_exec quiet between line
  · intro typed undisturbed
    obtain ⟨same, same'⟩ := lockstep moves undisturbed
    rw [same, same', terminal, ← there]
    exact Machine.sameBut_amid _ _ _
  · intro typed submitted carriedOut undisturbed handed
    obtain ⟨same, same'⟩ := lockstep moves undisturbed
    have handed : (since.makeAll moves).handedBack move = some run := by
      rw [show submitted = _ from same] at handed
      exact handed
    rw [show submitted = _ from same, show carriedOut = _ from same']
    refine ⟨handed, rfl, ?_⟩
    rw [Machine.shell_handBack_amid handed, Machine.shell_handBack_amid handed, terminal, ← there]
    exact Shell.sameBut_onto _ _ _

/-- A shell with a program that greets, in which nothing has been typed. -/
def Flight.greeting : Flight :=
  let greets : Program := .internal (.ok fun _ =>
    .defer true (.perform (.send 3) (.stop (.returned .other))))
  .start (.start {} .memory {} { entries := [("greet", greets)] })

theorem types_whole_greeting :
    let typed := Flight.greeting.machine.shell.inputAll true ["gre", "", "et $?"]
    Flight.greeting.TypesWhole "greet $?" ["gre", "", "et $?"] ∧
      (typed.input true ['\r']).1.launch?.map Launch.name = some "greet" := by
  have reachable : Reachable Flight.greeting := .start ..
  exact ⟨reachable.types_whole rfl rfl (by decide) (by decide), by decide +kernel⟩

end LineShell
