/-
Module: LineShell.Scheduler.Step
Purpose: What the host can do to a machine between two callbacks, and what a
  callback does.
Main exports: Machine.start, Machine.input, Machine.exec, Machine.release,
  Machine.perform, Machine.tick
-/
import LineShell.Scheduler.Supervisor

namespace LineShell.Machine

/-- A machine in which nothing runs. -/
def start (shell : Shell) : Machine :=
  { shell := shell }

/-! ### The shell and its programs -/

/-- Starts to run a program: the supervisor first, then the attendant. -/
def launch (machine : Machine) (launch : Launch) : Machine :=
  let run := machine.runs.length
  { machine.queueAll [.begin run, .attend run] with
    runs := machine.runs ++ [{ launch := launch }]
    task := some run }

/-- Takes over what an input event came to. -/
def takeOver (machine : Machine) (reaction : Reaction) (shell : Shell) : Machine :=
  let after := { machine with shell := shell }
  match reaction with
  | .launched program => after.launch program
  | .done | .raised _ => after

/-- An input event. -/
def input (machine : Machine) (event : Text) : Machine :=
  let (reaction, shell) := machine.shell.input true event
  machine.takeOver reaction shell

/-- The failure that an input event raises. -/
def failure? (machine : Machine) (event : Text) : Option Fault :=
  (machine.shell.input true event).1.fault?

/-- Puts the shell back to work: it records the status, ends a dangling line, and
shows the prompt.  All callers that wait are told. -/
def handBack (machine : Machine) (status : Option Int) : Machine :=
  let idle := machine.withShell fun shell =>
    (({ shell with activity := .idle }.setStatus (status.getD statusFailure)).withConsole
      Console.complete).repaint
  { idle.queueAll (machine.waiting.map .freed) with task := none, waiting := [] }

/-- The attendant starts to wait for the supervisor, unless that is done already. -/
def attend (machine : Machine) (run : Nat) : Machine :=
  match machine.runs[run]? with
  | none => machine
  | some state =>
      match state.phase with
      | .closed status => machine.handBack status
      | _ => machine.modifyRun run fun state => { state with attended := true }

/-- The attendant takes note that the supervisor is done. -/
def finish (machine : Machine) (run : Nat) : Machine :=
  match machine.runs[run]? with
  | none => machine
  | some state =>
      match state.phase with
      | .closed status => machine.handBack status
      | _ => machine

/-! ### Callers -/

/-- Someone wants a line carried out. -/
def exec (machine : Machine) (line : Text) : Machine :=
  { machine.queue (.call machine.callers.length) with
    callers := machine.callers ++ [{ line := line }] }

/-- A caller begins to wait for the end of the program in flight. -/
def wait (machine : Machine) (caller : Nat) : Machine :=
  { machine with waiting := machine.waiting ++ [caller] }

/-- A caller is done. -/
def dismiss (machine : Machine) (caller : Nat) (outcome : Except Fault Int) : Machine :=
  { machine with finished := machine.finished ++ [(caller, outcome)] }

/-- A caller is told the status of the last command. -/
def answer (machine : Machine) (caller : Nat) : Machine :=
  machine.dismiss caller (.ok machine.shell.status)

/-- The machine with a line to be submitted. -/
def withLine (machine : Machine) (line : Text) : Machine :=
  machine.withShell fun shell => { shell with buffer := Buffer.ofText line }

/-- A caller that has found the shell free submits its line. -/
def submitLine (machine : Machine) (caller : Nat) (line : Text) : Machine :=
  ((machine.withLine line).input ['\r']).modifyCaller caller fun state =>
    { state with submitted := true }

/-- A caller looks whether the shell is free.  The first time that it is, the line
is submitted; the next time, the line has finished.  A failure that the line raises ends
the caller. -/
def call (machine : Machine) (caller : Nat) : Machine :=
  match machine.callers[caller]? with
  | none => machine
  | some state =>
      if machine.task.isSome then machine.wait caller
      else if state.submitted then machine.answer caller
      else
        let submitted := machine.submitLine caller state.line
        match (machine.withLine state.line).failure? ['\r'] with
        | some fault => submitted.dismiss caller (.error fault)
        | none =>
            if submitted.task.isSome then submitted.wait caller else submitted.answer caller

/-! ### Gates -/

/-- Opens a gate for good; the strands that wait at it go on. -/
def release (machine : Machine) (gate : Text) : Machine :=
  let through := (machine.atGates.filter (·.1 = gate)).map (·.2)
  let opened :=
    { machine with
      openGates := machine.openGates ++ [gate]
      atGates := machine.atGates.filter (·.1 ≠ gate) }
  through.foldl unpark opened

/-! ### Callbacks -/

/-- What a callback does. -/
def perform (machine : Machine) : Job → Machine
  | .begin run => machine.begin run
  | .attend run => machine.attend run
  | .signalled run => machine.signalled run
  | .expire run => machine.expire run
  | .conclude run => machine.conclude run
  | .finish run => machine.finish run
  | .reap run => machine.reap run
  | .resume strand => machine.resume strand
  | .alarm strand => machine.alarm strand
  | .freed caller => machine.queue (.call caller)
  | .call caller => machine.call caller

/-- Begins a turn: timers that are due join the queue, and all that is in the queue
now belongs to the turn. -/
def beginTurn (machine : Machine) : Machine :=
  let due := machine.timers.filter (·.due ≤ machine.now)
  let ready := machine.ready ++ due.map (·.job)
  { machine with
    timers := machine.timers.filter (machine.now < ·.due)
    ready := ready
    turn := ready.length }

/-- One step of the machine: a callback of the current turn, or the beginning of the
next turn. -/
def tick (machine : Machine) : Machine :=
  match machine.turn, machine.ready with
  | turn + 1, job :: ready => { machine with ready := ready, turn := turn }.perform job
  | _, _ => machine.beginTurn

/-- Whether no callback is ready and no timer is due. -/
def isQuiet (machine : Machine) : Bool :=
  machine.ready.isEmpty && machine.timers.all (machine.now < ·.due)

end LineShell.Machine
