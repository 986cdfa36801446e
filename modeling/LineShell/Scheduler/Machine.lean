/-
Module: LineShell.Scheduler.Machine
Purpose: A shell together with everything that runs beside it: the programs in
  flight, the callers that wait for them, and the callbacks that are due.
Main exports: Strand, Phase, Run, Caller, Job, Timer, Machine
-/
import LineShell.Shell.Input

namespace LineShell

/-!
Programs beside the shell run one callback at a time.  Callbacks that are ready
form a queue, and are run in turns: a turn takes those that are ready when it
begins, and what they queue waits for the next turn.  At the beginning of a turn
the timers that are due join the queue.  Between any two callbacks the host may
give the shell input, so every state between two callbacks is a state of the
machine.

Each launched program is a run.  Two watchers belong to it: the supervisor calls
the program and decides with what status the run ends, and the attendant waits for
the supervisor and then puts the shell back to work.  What the program does by
itself is done by its strands.
-/

/-! ### Strands -/

/-- What the end of a strand means to its run. -/
inductive Role where
  /-- The program itself, watched by the supervisor. -/
  | main
  /-- The program itself, in place of the supervisor. -/
  | inline
  /-- Something that the program started. -/
  | spawned
deriving DecidableEq, Repr, Inhabited

/-- A line of execution of a program. -/
structure Strand where
  /-- The number of the run that it belongs to. -/
  run : Nat
  role : Role
  /-- What it still has to do. -/
  rest : Script
  /-- What it does instead if it is cancelled where it is. -/
  interrupted : Script := .stop .cancelled
  /-- Whether it holds the completion signal of its run. -/
  holds : Bool := false
  /-- Whether it waits for a gate or a time, and so no callback of it is queued. -/
  parked : Bool := false
  /-- Whether it is to go on as one that was interrupted. -/
  cancelled : Bool := false
  ended : Bool := false
deriving DecidableEq, Repr, Inhabited

/-- What a strand does when it goes on. -/
def Strand.ahead (strand : Strand) : Script :=
  if strand.cancelled then strand.interrupted else strand.rest

/-! ### Runs -/

/-- How far the supervisor of a run has come. -/
inductive Phase where
  /-- The program has not been called. -/
  | starting
  /-- The program runs in the supervisor's place. -/
  | inside
  /-- The supervisor waits for a signal, the end of the program, or the timeout; it
  may have been woken already. -/
  | listening (woken : Bool)
  /-- The run is over, with a status unless it was cancelled. -/
  | closed (status : Option Int)
deriving DecidableEq, Repr, Inhabited

/-- A launched program. -/
structure Run where
  launch : Launch
  completion : Completion := .pending
  phase : Phase := .starting
  /-- The number of the main strand, if the program has one. -/
  main : Option Nat := none
  /-- How the main strand ended. -/
  ending : Option Ending := none
  /-- Whether the attendant waits for the supervisor. -/
  attended : Bool := false
  /-- Whether the end of the main strand is still of interest after the signal. -/
  reaped : Bool := false
deriving Inhabited

/-- The name under which the program was called. -/
def Run.name (run : Run) : Text :=
  run.launch.name

/-- Whether the supervisor is done. -/
def Run.isOver (run : Run) : Bool :=
  match run.phase with
  | .closed _ => true
  | _ => false

/-! ### Callers -/

/-- Someone who wants a whole line carried out and waits for its status. -/
structure Caller where
  line : Text
  submitted : Bool := false
deriving DecidableEq, Repr, Inhabited

/-! ### Callbacks -/

/-- A callback.  Runs, strands and callers are named by their numbers. -/
inductive Job where
  /-- The supervisor calls the program. -/
  | begin (run : Nat)
  /-- The attendant starts to wait for the supervisor. -/
  | attend (run : Nat)
  /-- Something that the supervisor waits for has happened. -/
  | signalled (run : Nat)
  /-- The timeout has passed. -/
  | expire (run : Nat)
  /-- The supervisor decides how the run ends. -/
  | conclude (run : Nat)
  /-- The attendant puts the shell back to work. -/
  | finish (run : Nat)
  /-- The end of a main strand is looked at after the signal. -/
  | reap (run : Nat)
  /-- A strand goes on. -/
  | resume (strand : Nat)
  /-- A sleeping strand is woken. -/
  | alarm (strand : Nat)
  /-- A waiting caller is told that a program has finished. -/
  | freed (caller : Nat)
  /-- A caller looks whether the shell is free. -/
  | call (caller : Nat)
deriving DecidableEq, Repr, Inhabited

/-- A callback for a later time. -/
structure Timer where
  due : Rat
  job : Job
deriving DecidableEq, Repr, Inhabited

/-! ### The machine -/

/-- A shell with all that runs beside it. -/
structure Machine where
  shell : Shell
  /-- The time in seconds. -/
  now : Rat := 0
  /-- Callbacks that are ready, the next one first. -/
  ready : List Job := []
  /-- How many of them belong to the current turn. -/
  turn : Nat := 0
  /-- Callbacks for later, by time. -/
  timers : List Timer := []
  runs : List Run := []
  strands : List Strand := []
  callers : List Caller := []
  /-- The run that the shell waits for. -/
  task : Option Nat := none
  /-- The callers that wait for the end of that run, in the order in which they
  began to wait. -/
  waiting : List Nat := []
  openGates : List Text := []
  /-- The strands that wait at gates, in the order in which they came there. -/
  atGates : List (Text × Nat) := []
  /-- The callers whose lines have finished, with the status that each was told or the
  failure that its line raised. -/
  finished : List (Nat × Except Fault Int) := []
deriving Inhabited

namespace Machine

/-- Puts a callback at the end of the queue. -/
def queue (machine : Machine) (job : Job) : Machine :=
  { machine with ready := machine.ready ++ [job] }

/-- Puts callbacks at the end of the queue. -/
def queueAll (machine : Machine) (jobs : List Job) : Machine :=
  { machine with ready := machine.ready ++ jobs }

/-- A timer among others, behind those that are due no later. -/
def insertTimer (timer : Timer) : List Timer → List Timer
  | [] => [timer]
  | first :: others =>
      if timer.due < first.due then timer :: first :: others
      else first :: insertTimer timer others

/-- Puts a callback off by some seconds. -/
def after (machine : Machine) (seconds : Rat) (job : Job) : Machine :=
  { machine with
    timers := insertTimer { due := machine.now + seconds, job := job } machine.timers }

/-- Forgets a callback that was put off. -/
def cancelTimer (machine : Machine) (job : Job) : Machine :=
  { machine with timers := machine.timers.filter (·.job ≠ job) }

/-- Changes the shell. -/
def withShell (machine : Machine) (change : Shell → Shell) : Machine :=
  { machine with shell := change machine.shell }

/-- Changes a run. -/
def modifyRun (machine : Machine) (run : Nat) (change : Run → Run) : Machine :=
  { machine with runs := machine.runs.modify run change }

/-- Changes a strand. -/
def modifyStrand (machine : Machine) (strand : Nat) (change : Strand → Strand) : Machine :=
  { machine with strands := machine.strands.modify strand change }

/-- Changes a caller. -/
def modifyCaller (machine : Machine) (caller : Nat) (change : Caller → Caller) : Machine :=
  { machine with callers := machine.callers.modify caller change }

/-- Whether a gate is open. -/
def isOpen (machine : Machine) (gate : Text) : Bool :=
  machine.openGates.contains gate

end Machine

end LineShell
