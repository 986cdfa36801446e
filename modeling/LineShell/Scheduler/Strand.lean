/-
Module: LineShell.Scheduler.Strand
Purpose: How the strands of a program start, wait, go on and end.
Main exports: Machine.notify, Machine.addStrand, Machine.park, Machine.cancelStrand,
  Machine.takeStage, Machine.releaseCompletion
-/
import LineShell.Scheduler.Machine

namespace LineShell.Machine

/-- Tells the supervisor of a run, if it is waiting, that something has happened. -/
def notify (machine : Machine) (run : Nat) : Machine :=
  match machine.runs[run]? with
  | some state => if state.phase = .listening false then machine.queue (.signalled run) else machine
  | none => machine

/-- Starts a strand, which goes on in a later turn. -/
def addStrand (machine : Machine) (strand : Strand) : Machine :=
  { machine.queue (.resume machine.strands.length) with
    strands := machine.strands ++ [strand] }

/-- Lets a strand wait that has changed.  A sleep of no time lets others go first. -/
def park (machine : Machine) (strand : Nat) (wait : Wait) (change : Strand → Strand) : Machine :=
  match wait with
  | .gate gate =>
      { machine.modifyStrand strand fun state => { change state with parked := true } with
        atGates := machine.atGates ++ [(gate, strand)] }
  | .sleep seconds =>
      if seconds ≤ 0 then (machine.modifyStrand strand change).queue (.resume strand)
      else
        (machine.modifyStrand strand fun state => { change state with parked := true }).after
          seconds (.alarm strand)

/-- A parked strand goes on in a later turn. -/
def unpark (machine : Machine) (strand : Nat) : Machine :=
  (machine.modifyStrand strand fun state => { state with parked := false }).queue (.resume strand)

/-- Interrupts a strand where it is.  If it waits it waits no longer. -/
def cancelStrand (machine : Machine) (strand : Nat) : Machine :=
  let marked := machine.modifyStrand strand fun state => { state with cancelled := true }
  match machine.strands[strand]? with
  | some state =>
      if state.parked && !state.ended then
        { (marked.cancelTimer (.alarm strand)).unpark strand with
          atGates := machine.atGates.filter (·.2 ≠ strand) }
      else marked
  | none => marked

/-- Whether some strand holds the completion signal of a run. -/
def isHeld (machine : Machine) (run : Nat) : Bool :=
  machine.strands.any fun strand => strand.run = run && strand.holds && !strand.ended

/-- Whether the completion signal of a run is held by another strand than a given one. -/
def isShared (machine : Machine) (run strand : Nat) : Bool :=
  (machine.modifyStrand strand fun state => { state with holds := false }).isHeld run

/-- If nobody holds the completion signal of a run any more, nobody can send it. -/
def releaseCompletion (machine : Machine) (run : Nat) : Machine :=
  match machine.runs[run]? with
  | some state =>
      if state.completion = .pending && !machine.isHeld run then
        (machine.modifyRun run fun state =>
          { state with completion := state.completion.abandon }).notify run
      else machine
  | none => machine

/-- What a program sees of the machine. -/
def stage (machine : Machine) (run : Run) (holds shared : Bool) : Stage :=
  { console := machine.shell.console
    completion := run.completion
    holds := holds
    shared := shared
    calls := machine.shell.journal.calls }

/-- What a strand of a run sees when it goes on. -/
def strandStage (machine : Machine) (strand : Nat) (state : Strand) (run : Run) : Stage :=
  machine.stage run state.holds (machine.isShared state.run strand)

/-- What a program sees inside its call.  An internal program is given the completion
signal, which the supervisor holds, too. -/
def callStage (machine : Machine) (run : Run) : Stage :=
  let given : Bool := run.launch.kind = .internal
  machine.stage run given given

/-- Passes on what a strand has stirred up. -/
def stir (machine : Machine) (run : Nat) : Stir → Machine
  | .decided => machine.notify run
  | .spawned holds body =>
      machine.addStrand { run := run, role := .spawned, rest := body, holds := holds }

/-- Takes over what a strand left on its stage. -/
def takeStage (machine : Machine) (run : Nat) (stage : Stage) : Machine :=
  let shown := machine.withShell fun shell =>
    { shell with
      console := stage.console
      journal := { shell.journal with calls := stage.calls } }
  stage.stirs.foldl (fun machine stir => machine.stir run stir)
    (shown.modifyRun run fun state => { state with completion := stage.completion })

end LineShell.Machine
