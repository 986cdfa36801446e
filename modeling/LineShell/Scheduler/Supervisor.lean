/-
Module: LineShell.Scheduler.Supervisor
Purpose: How the supervisor of a run calls the program, waits for it, and decides
  with what status the run ends.
Main exports: Machine.closeRun, Machine.endExternal, Machine.endStrand,
  Machine.resume, Machine.begin, Machine.conclude, Machine.reap
-/
import LineShell.Scheduler.Strand

namespace LineShell.Machine

/-- Ends a run.  Nobody listens to its completion signal from here on. -/
def closeRun (machine : Machine) (run : Nat) (status : Option Int) : Machine :=
  let closed := machine.modifyRun run fun state =>
    { state with phase := .closed status, completion := state.completion.revoke }
  match machine.runs[run]? with
  | some state => if state.attended then closed.queue (.finish run) else closed
  | none => closed

/-- Ends a run with a failure that is reported. -/
def failRun (machine : Machine) (run : Nat) (fault : Fault) (status : Int) : Machine :=
  (machine.withShell (·.report fault)).closeRun run (some status)

/-! ### External programs -/

/-- Ends the run of an external program.  Whatever happened, the cursor is shown. -/
def closeExternal (machine : Machine) (run : Nat) (status : Option Int) : Machine :=
  (machine.withShell fun shell => shell.withConsole (·.write showCursor)).closeRun run status

/-- What the ending of an external program means. -/
def endExternal (machine : Machine) (run : Nat) (name : Text) : Ending → Machine
  | .returned result => machine.closeExternal run (some result.status)
  | .cancelled => machine.closeExternal run none
  | .failed (.timedOut program seconds) =>
      (machine.withShell (·.report (.timedOut program seconds))).closeExternal run
        (some statusTimeout)
  | .failed fault =>
      let message := if fault.message.isEmpty then ("unknown error" : Text) else fault.message
      (machine.withShell fun shell =>
        (shell.warn ("external program " ++ name ++ " failed")).withConsole fun console =>
          console.complete.println message).closeExternal run (some statusFailure)

/-! ### Internal programs -/

/-- What it means that an internal program failed inside its call. -/
def failInternal (machine : Machine) (run : Nat) (name : Text) (fault : Fault) : Machine :=
  match fault with
  | .timedOut program seconds => machine.failRun run (.timedOut program seconds) statusTimeout
  | .program program message => machine.failRun run (.program program message) statusFailure
  | .completion program => machine.failRun run (.completion program) statusFailure
  | .host kind text =>
      (machine.withShell (·.warn ("internal program " ++ name ++ " failed"))).failRun run
        (.program name (Fault.host kind text).summary) statusFailure

/-! ### The end of a strand -/

/-- Ends a strand.  It lets go of the completion signal if it still holds it. -/
def endStrand (machine : Machine) (strand : Nat) (state : Strand) (holds : Bool)
    (ending : Ending) : Machine :=
  let marked := machine.modifyStrand strand fun state => { state with ended := true }
  let released := if holds then marked.releaseCompletion state.run else marked
  match state.role, released.runs[state.run]? with
  | .main, some run =>
      let told := (released.modifyRun state.run fun run =>
        { run with ending := some ending }).notify state.run
      if run.reaped then told.queue (.reap state.run) else told
  | .inline, some run => released.endExternal state.run run.name ending
  | _, _ => released

/-- Leaves a strand where it has come to. -/
def leave (machine : Machine) (strand : Nat) (state : Strand) (holds : Bool) : Pause → Machine
  | .ended ending => machine.endStrand strand state holds ending
  | .waiting wait rest interrupted =>
      machine.park strand wait fun state =>
        { state with
          rest := rest
          interrupted := interrupted
          holds := holds
          cancelled := false }

/-- A strand goes on up to where it waits or ends, from where it was interrupted if it
was. -/
def resume (machine : Machine) (strand : Nat) : Machine :=
  match machine.strands[strand]? with
  | none => machine
  | some state =>
      if state.ended then machine
      else
        match machine.runs[state.run]? with
        | none => machine
        | some run =>
            let (pause, stage) :=
              state.ahead.play machine.isOpen (machine.strandStage strand state run)
            (machine.takeStage state.run stage).leave strand state stage.holds pause

/-- Wakes a sleeping strand. -/
def alarm (machine : Machine) (strand : Nat) : Machine :=
  match machine.strands[strand]? with
  | some state => if state.parked then machine.unpark strand else machine
  | none => machine

/-! ### Calling the program -/

/-- The supervisor waits: for the completion signal, for the end of the main strand,
and for the timeout if there is one. -/
def listen (machine : Machine) (run : Nat) : Machine :=
  let listening := machine.modifyRun run fun state => { state with phase := .listening false }
  let timed :=
    match machine.shell.options.timeout.bind Numeral.value? with
    | some seconds => listening.after seconds (.expire run)
    | none => listening
  match machine.runs[run]? with
  | some state => if state.completion.isDecided then timed.notify run else timed
  | none => timed

/-- Starts the main strand of a run. -/
def startMain (machine : Machine) (run : Nat) (script : Script) (holds : Bool) : Machine :=
  (machine.modifyRun run fun state =>
      { state with main := some machine.strands.length }).addStrand
    { run := run, role := .main, rest := script, holds := holds }

/-- Plays an external program in the supervisor's place. -/
def startInline (machine : Machine) (run : Nat) (script : Script) : Machine :=
  let strand : Strand := { run := run, role := .inline, rest := script }
  let inside : Machine := machine.modifyRun run fun state => { state with phase := .inside }
  let started : Machine := { inside with strands := machine.strands ++ [strand] }
  started.resume machine.strands.length

/-- What the call of an internal program leads to.  The supervisor holds the completion
signal until the call has returned, and then lets go of it. -/
def beginInternal (machine : Machine) (run : Nat) (name : Text) (holds : Bool) :
    Called → Machine
  | .ended (.returned _) => (machine.releaseCompletion run).listen run
  | .ended (.failed fault) => machine.failInternal run name fault
  | .ended .cancelled => machine.closeRun run none
  | .deferred shares body =>
      ((machine.startMain run body (shares && holds)).releaseCompletion run).listen run

/-- What the call of an external program leads to.  Without a timeout what is to be
awaited is played in the supervisor's place. -/
def beginExternal (machine : Machine) (run : Nat) (name : Text) : Called → Machine
  | .ended ending => machine.endExternal run name ending
  | .deferred _ body =>
      match machine.shell.options.timeout with
      | none => machine.startInline run body
      | some _ => (machine.startMain run body false).listen run

/-- The supervisor calls the program. -/
def begin (machine : Machine) (run : Nat) : Machine :=
  match machine.runs[run]? with
  | none => machine
  | some state =>
      let (called, stage) := state.launch.start.play (machine.callStage state)
      let played := machine.takeStage run stage
      match state.launch.kind with
      | .internal => played.beginInternal run state.name stage.holds called
      | .external => played.beginExternal run state.name called

/-! ### Waking up -/

/-- Something has happened that the supervisor waits for. -/
def signalled (machine : Machine) (run : Nat) : Machine :=
  match machine.runs[run]? with
  | some state =>
      if state.phase = .listening false then
        ((machine.cancelTimer (.expire run)).modifyRun run fun state =>
          { state with phase := .listening true }).queue (.conclude run)
      else machine
  | none => machine

/-- The timeout has passed. -/
def expire (machine : Machine) (run : Nat) : Machine :=
  match machine.runs[run]? with
  | some state =>
      if state.phase = .listening false then
        (machine.modifyRun run fun state => { state with phase := .listening true }).queue
          (.conclude run)
      else machine
  | none => machine

/-- The warning that a program took too long. -/
def warnTimeout (machine : Machine) (name : Text) : Machine :=
  let timeout := machine.shell.options.timeout.getD (.whole 0)
  machine.withShell (·.warn (name ++ " timed out after " ++ timeout.plain ++ "s"))

/-- Cancels the main strand of a run. -/
def cancelMain (machine : Machine) (run : Run) : Machine :=
  match run.main with
  | some strand => machine.cancelStrand strand
  | none => machine

/-- The timeout as a message names it; any zero is named as the whole number. -/
def reportedTimeout (timeout : Option Numeral) : Numeral :=
  match timeout with
  | none => .whole 0
  | some (.decimal _ 0 _) => .whole 0
  | some timeout => timeout

/-- Decides how the run of an internal program ends.  A status that was sent in
time decides, whatever else has happened. -/
def concludeInternal (machine : Machine) (run : Nat) (state : Run) : Machine :=
  match state.completion with
  | .sent status =>
      let reaping := machine.modifyRun run fun state => { state with reaped := state.main.isSome }
      (if state.ending.isSome then reaping.queue (.reap run) else reaping).closeRun run
        (some status)
  | completion =>
      if completion = .pending && state.ending.isNone then
        ((machine.warnTimeout state.name).cancelMain state).failRun run
          (.timedOut state.name (reportedTimeout machine.shell.options.timeout)) statusTimeout
      else
        match state.ending with
        | some (.failed fault) =>
            (machine.withShell
              (·.warn ("internal program " ++ state.name ++ " raised " ++ fault.display))).failRun
              run (.program state.name fault.summary) statusFailure
        | _ =>
            (machine.withShell
              (·.warn (state.name ++ " finished without signalling completion"))).failRun run
              (.completion state.name) statusFailure

/-- Decides how the run of an external program ends that was waited for. -/
def concludeExternal (machine : Machine) (run : Nat) (state : Run) : Machine :=
  match state.ending with
  | some ending => machine.endExternal run state.name ending
  | none =>
      ((machine.warnTimeout state.name).cancelMain state).endExternal run state.name
        (.failed (.timedOut state.name (machine.shell.options.timeout.getD (.whole 0))))

/-- The supervisor decides how the run ends. -/
def conclude (machine : Machine) (run : Nat) : Machine :=
  match machine.runs[run]? with
  | none => machine
  | some state =>
      if state.phase = .listening true then
        match state.launch.kind with
        | .internal => machine.concludeInternal run state
        | .external => machine.concludeExternal run state
      else machine

/-- Warns if a program failed after its signal. -/
def reap (machine : Machine) (run : Nat) : Machine :=
  match machine.runs[run]? with
  | none => machine
  | some state =>
      match state.ending with
      | some (.failed _) =>
          machine.withShell (·.warn (state.name ++ " failed after signalling completion"))
      | _ => machine

end LineShell.Machine
