/-
Module: LineShell.Proofs.Scheduler.Onlookers
Purpose: What happens on a machine while nobody else comes or looks does not depend on who
  waits there, nor on what was on the terminal before.
Main exports: Onlookers, Machine.amid, Machine.perform_amid, Machine.Undisturbed,
  Machine.makeAll_amid, Machine.shell_handBack_amid
-/
import LineShell.Proofs.Scheduler.Wakeful
import LineShell.Proofs.Shell.Typing

namespace LineShell

/-!
The same programs may run on two machines that differ in their callers and in what was
written to the terminal before.  As long as no caller looks whether the shell is free, neither
difference is noticed: every move does the same on both.  To put the shell back to work tells
those who wait, but does the same to the shell.
-/

/-- What was on the terminal of a machine, and those who have lines carried out there. -/
structure Onlookers where
  earlier : Terminal
  callers : List Caller
  waiting : List Nat
  finished : List (Nat × Except Fault Int)

/-- A stage of a program whose terminal has something before. -/
def Stage.onto (earlier : Terminal) (stage : Stage) : Stage :=
  { stage with console := stage.console.onto earlier }

/-! ### Programs -/

section Playing

variable (earlier : Terminal) (stage : Stage)

theorem Stage.write_onto (text : Text) :
    (stage.onto earlier).write text = (stage.write text).onto earlier :=
  congrArg (fun console => { stage with console := console })
    (stage.console.write_onto earlier text)

/-- The signal has nothing to do with the terminal. -/
theorem Stage.send_onto (status : Int) :
    (stage.onto earlier).send status = Prod.map id (Stage.onto earlier) (stage.send status) := by
  cases holds : stage.holds <;> simp [Stage.send, Stage.onto, holds]

/-- No act looks at what is on the terminal. -/
theorem Stage.perform_onto (act : Act) :
    (stage.onto earlier).perform act = (stage.perform act).onto earlier := by
  cases act with
  | write text => exact stage.write_onto earlier text
  | clear =>
      exact congrArg (fun console => { stage with console := console })
        (stage.console.clear_onto earlier)
  | completeLine =>
      exact congrArg (fun console => { stage with console := console })
        (stage.console.complete_onto earlier)
  | call | release => rfl
  | send status => exact congrArg Prod.snd (stage.send_onto earlier status)
  | sendReporting status =>
      simp only [Stage.perform, Stage.send_onto]
      exact Stage.write_onto earlier (stage.send status).2 _
  | reportDecided => exact stage.write_onto earlier _

theorem Stage.carryOutAll_onto (deeds : List Deed) :
    (stage.onto earlier).carryOutAll deeds = (stage.carryOutAll deeds).onto earlier := by
  refine List.foldl_hom (Stage.onto earlier) fun stage deed => ?_
  cases deed with
  | act act => exact stage.perform_onto earlier act
  | spawn shares body => rfl

/-- A program does the same on either terminal. -/
theorem Script.play_onto (isOpen : Text → Bool) (script : Script) :
    script.play isOpen (stage.onto earlier) =
      Prod.map id (Stage.onto earlier) (script.play isOpen stage) := by
  rw [play_eq, play_eq, Stage.carryOutAll_onto]
  rfl

theorem Start.play_onto (start : Start) : start.play (stage.onto earlier) =
    Prod.map id (Stage.onto earlier) (start.play stage) := by
  rw [play_eq, play_eq, Stage.carryOutAll_onto]
  rfl

end Playing

namespace Machine

/-- A machine with other onlookers, on whose terminal something was before. -/
def amid (onlookers : Onlookers) (machine : Machine) : Machine :=
  { machine with
    shell := machine.shell.onto onlookers.earlier
    callers := onlookers.callers
    waiting := onlookers.waiting
    finished := onlookers.finished }

variable (onlookers : Onlookers) (machine : Machine)

/-! ### Runs and strands -/

/-- A change of the shell that does not look at the terminal. -/
theorem withShell_amid {change : Shell → Shell}
    (blind : change (machine.shell.onto onlookers.earlier) =
      (change machine.shell).onto onlookers.earlier) :
    (machine.amid onlookers).withShell change = (machine.withShell change).amid onlookers :=
  congrArg (fun shell => { machine.amid onlookers with shell := shell }) blind

theorem notify_amid (run : Nat) :
    (machine.amid onlookers).notify run = (machine.notify run).amid onlookers := by
  have runs : (machine.amid onlookers).runs = machine.runs := rfl
  unfold notify
  rw [runs]
  split
  · split <;> rfl
  · rfl

theorem park_amid (strand : Nat) (wait : Wait) (change : Strand → Strand) :
    (machine.amid onlookers).park strand wait change =
      (machine.park strand wait change).amid onlookers := by
  cases wait with
  | gate name => rfl
  | sleep seconds =>
      unfold park
      dsimp only
      split <;> rfl

theorem cancelStrand_amid (strand : Nat) :
    (machine.amid onlookers).cancelStrand strand =
      (machine.cancelStrand strand).amid onlookers := by
  have strands : (machine.amid onlookers).strands = machine.strands := rfl
  unfold cancelStrand
  dsimp only
  rw [strands]
  split
  · split <;> rfl
  · rfl

theorem releaseCompletion_amid (run : Nat) :
    (machine.amid onlookers).releaseCompletion run =
      (machine.releaseCompletion run).amid onlookers := by
  have runs : (machine.amid onlookers).runs = machine.runs := rfl
  have held : (machine.amid onlookers).isHeld run = machine.isHeld run := rfl
  unfold releaseCompletion
  rw [runs, held]
  split
  · split
    · exact notify_amid onlookers (machine.modifyRun run _) run
    · rfl
  · rfl

/-- What a program has left on its stage is taken over on either machine. -/
theorem takeStage_amid (run : Nat) (stage : Stage) :
    (machine.amid onlookers).takeStage run (stage.onto onlookers.earlier) =
      (machine.takeStage run stage).amid onlookers := by
  have stirred : ∀ (machine : Machine) (stir : Stir),
      (machine.amid onlookers).stir run stir = (machine.stir run stir).amid onlookers := by
    intro machine stir
    cases stir with
    | decided => exact machine.notify_amid onlookers run
    | spawned holds body => rfl
  have stirredAll : ∀ (stirs : List Stir) (machine : Machine),
      stirs.foldl (fun machine stir => machine.stir run stir) (machine.amid onlookers) =
        (stirs.foldl (fun machine stir => machine.stir run stir) machine).amid onlookers :=
    fun stirs machine => List.foldl_hom (amid onlookers) stirred
  let shown := machine.withShell fun shell => { shell with
    console := stage.console
    journal := { shell.journal with calls := stage.calls } }
  exact stirredAll stage.stirs
    (shown.modifyRun run fun state => { state with completion := stage.completion })

/-! ### The end of a run -/

theorem closeRun_amid (run : Nat) (status : Option Int) :
    (machine.amid onlookers).closeRun run status =
      (machine.closeRun run status).amid onlookers := by
  have runs : (machine.amid onlookers).runs = machine.runs := rfl
  unfold closeRun
  dsimp only
  rw [runs]
  split
  · split <;> rfl
  · rfl

theorem failRun_amid (run : Nat) (fault : Fault) (status : Int) :
    (machine.amid onlookers).failRun run fault status =
      (machine.failRun run fault status).amid onlookers := by
  rw [failRun, withShell_amid onlookers machine (machine.shell.report_onto _ fault), closeRun_amid]
  rfl

theorem closeExternal_amid (run : Nat) (status : Option Int) :
    (machine.amid onlookers).closeExternal run status =
      (machine.closeExternal run status).amid onlookers := by
  have shows : (machine.shell.onto onlookers.earlier).withConsole (·.write showCursor) = _ :=
    machine.shell.withConsole_onto _ fun console => console.write_onto _ showCursor
  rw [closeExternal, withShell_amid onlookers machine shows, closeRun_amid]
  rfl

/-- However an external program ends, its run ends in the same way. -/
theorem endExternal_amid (run : Nat) (name : Text) (ending : Ending) :
    (machine.amid onlookers).endExternal run name ending =
      (machine.endExternal run name ending).amid onlookers := by
  cases ending with
  | returned result => exact closeExternal_amid onlookers machine run _
  | cancelled => exact closeExternal_amid onlookers machine run none
  | failed fault =>
      have fails : ∀ message : Text,
          ((machine.shell.onto onlookers.earlier).warn
              ("external program " ++ name ++ " failed")).withConsole
            (fun console => console.complete.println message) =
          ((machine.shell.warn ("external program " ++ name ++ " failed")).withConsole
            (fun console => console.complete.println message)).onto onlookers.earlier := by
        intro message
        refine Shell.withConsole_onto _ (machine.shell.warn _) fun console => ?_
        rw [Console.complete_onto, Console.println_onto]
      cases fault with
      | timedOut program seconds =>
          rw [endExternal, withShell_amid onlookers machine (machine.shell.report_onto _ _),
            closeExternal_amid]
          rfl
      | host | program | completion =>
          refine Eq.trans (congrArg (closeExternal · run (some statusFailure))
            (withShell_amid onlookers machine (fails _))) ?_
          exact closeExternal_amid onlookers _ run _

theorem failInternal_amid (run : Nat) (name : Text) (fault : Fault) :
    (machine.amid onlookers).failInternal run name fault =
      (machine.failInternal run name fault).amid onlookers := by
  cases fault with
  | host kind text => exact failRun_amid onlookers (machine.withShell (·.warn _)) run _ _
  | timedOut | program | completion => exact failRun_amid onlookers machine run _ _

/-! ### Strands -/

theorem ended_amid (strand run : Nat) (holds : Bool) :
    (machine.amid onlookers).ended strand run holds =
      (machine.ended strand run holds).amid onlookers := by
  unfold Machine.ended
  dsimp only
  split
  · exact releaseCompletion_amid onlookers
      (machine.modifyStrand strand fun state => { state with ended := true }) run
  · rfl

theorem endStrand_amid (strand : Nat) (state : Strand) (holds : Bool) (ending : Ending) :
    (machine.amid onlookers).endStrand strand state holds ending =
      (machine.endStrand strand state holds ending).amid onlookers := by
  rw [endStrand_eq, endStrand_eq, ended_amid]
  generalize machine.ended strand state.run holds = released
  have runs : (released.amid onlookers).runs = released.runs := rfl
  dsimp only
  rw [runs]
  split
  · next run _ _ =>
      have told := notify_amid onlookers
        (released.modifyRun state.run fun run => { run with ending := some ending }) state.run
      split
      · exact congrArg (queue · (.reap state.run)) told
      · exact told
  · exact endExternal_amid onlookers released state.run _ ending
  · rfl

/-- A strand goes on up to where it waits or ends, and no onlooker can tell. -/
theorem resume_amid (strand : Nat) :
    (machine.amid onlookers).resume strand = (machine.resume strand).amid onlookers := by
  have strands : (machine.amid onlookers).strands = machine.strands := rfl
  have runs : (machine.amid onlookers).runs = machine.runs := rfl
  unfold resume
  rw [strands, runs]
  split
  · rfl
  · next state _ =>
      split
      · rfl
      · split
        · rfl
        · next run _ =>
            have stage : (machine.amid onlookers).strandStage strand state run =
                (machine.strandStage strand state run).onto onlookers.earlier := rfl
            have gates : (machine.amid onlookers).isOpen = machine.isOpen := rfl
            rw [stage, gates, Script.play_onto]
            obtain ⟨pause, left⟩ :=
              state.ahead.play machine.isOpen (machine.strandStage strand state run)
            dsimp only [Prod.map, id]
            rw [takeStage_amid]
            cases pause with
            | ended ending => exact endStrand_amid onlookers _ strand state _ ending
            | waiting wait rest interrupted => exact park_amid onlookers _ strand wait _

theorem alarm_amid (strand : Nat) :
    (machine.amid onlookers).alarm strand = (machine.alarm strand).amid onlookers := by
  have strands : (machine.amid onlookers).strands = machine.strands := rfl
  unfold alarm
  rw [strands]
  split
  · split <;> rfl
  · rfl

/-! ### The supervisor -/

theorem timed_amid (run : Nat) :
    (machine.amid onlookers).timed run = (machine.timed run).amid onlookers := by
  have options : (machine.amid onlookers).shell.options = machine.shell.options := rfl
  unfold timed
  dsimp only
  rw [options]
  split <;> rfl

theorem listen_amid (run : Nat) :
    (machine.amid onlookers).listen run = (machine.listen run).amid onlookers := by
  have timed := machine.timed_amid onlookers run
  cases found : machine.runs[run]? with
  | none =>
      have same : ∀ machine : Machine, machine.runs[run]? = none →
          machine.listen run = machine.timed run := by
        intro machine absent
        unfold listen
        rw [absent]
        rfl
      have absent : (machine.amid onlookers).runs[run]? = none := found
      rw [same _ absent, same _ found, timed]
  | some state =>
      have here : (machine.amid onlookers).runs[run]? = some state := found
      rw [listen_eq here, listen_eq found, timed, notify_amid]
      split <;> rfl

theorem startInline_amid (run : Nat) (script : Script) :
    (machine.amid onlookers).startInline run script =
      (machine.startInline run script).amid onlookers := by
  let inside := machine.modifyRun run fun state => { state with phase := .inside }
  let strand : Strand := { run := run, role := .inline, rest := script }
  exact resume_amid onlookers { inside with strands := machine.strands ++ [strand] }
    machine.strands.length

theorem beginInternal_amid (run : Nat) (name : Text) (holds : Bool) (called : Called) :
    (machine.amid onlookers).beginInternal run name holds called =
      (machine.beginInternal run name holds called).amid onlookers := by
  cases called with
  | deferred shares body =>
      have released := releaseCompletion_amid onlookers
        (machine.startMain run body (shares && holds)) run
      exact (congrArg (listen · run) released).trans (listen_amid onlookers _ run)
  | ended ending =>
      cases ending with
      | returned result =>
          have released := releaseCompletion_amid onlookers machine run
          exact (congrArg (listen · run) released).trans (listen_amid onlookers _ run)
      | failed fault => exact failInternal_amid onlookers _ run _ fault
      | cancelled => exact closeRun_amid onlookers _ run none

theorem beginExternal_amid (run : Nat) (name : Text) (called : Called) :
    (machine.amid onlookers).beginExternal run name called =
      (machine.beginExternal run name called).amid onlookers := by
  have options : (machine.amid onlookers).shell.options = machine.shell.options := rfl
  cases called with
  | ended ending => exact endExternal_amid onlookers _ run _ _
  | deferred shares body =>
      unfold beginExternal
      dsimp only
      rw [options]
      split
      · exact startInline_amid onlookers machine run _
      · exact listen_amid onlookers (machine.startMain run _ _) run

/-- The call of a program does the same on either machine. -/
theorem begin_amid (run : Nat) :
    (machine.amid onlookers).begin run = (machine.begin run).amid onlookers := by
  have runs : (machine.amid onlookers).runs = machine.runs := rfl
  unfold begin
  rw [runs]
  split
  · rfl
  · next state found =>
      have stage : (machine.amid onlookers).callStage state =
          (machine.callStage state).onto onlookers.earlier := rfl
      rw [stage, Start.play_onto]
      obtain ⟨called, left⟩ := state.launch.start.play (machine.callStage state)
      dsimp only [Prod.map, id]
      rw [takeStage_amid]
      split
      · exact beginInternal_amid onlookers _ run _ _ called
      · exact beginExternal_amid onlookers _ run _ called

theorem cancelMain_amid (state : Run) :
    (machine.amid onlookers).cancelMain state = (machine.cancelMain state).amid onlookers := by
  unfold cancelMain
  split
  · exact cancelStrand_amid onlookers machine _
  · rfl

theorem warnTimeout_amid (name : Text) :
    (machine.amid onlookers).warnTimeout name = (machine.warnTimeout name).amid onlookers :=
  rfl

/-- A supervisor decides about an internal program alike. -/
theorem concludeInternal_amid (run : Nat) (state : Run) :
    (machine.amid onlookers).concludeInternal run state =
      (machine.concludeInternal run state).amid onlookers := by
  have fails : ∀ (warning : Text) (fault : Fault),
      ((machine.amid onlookers).withShell (·.warn warning)).failRun run fault statusFailure =
        ((machine.withShell (·.warn warning)).failRun run fault statusFailure).amid onlookers :=
    fun warning fault => failRun_amid onlookers (machine.withShell (·.warn warning)) run fault _
  have expires : ((machine.amid onlookers).warnTimeout state.name).cancelMain state =
      ((machine.warnTimeout state.name).cancelMain state).amid onlookers := by
    rw [warnTimeout_amid, cancelMain_amid]
  unfold concludeInternal
  split
  · next status _ =>
      dsimp only
      have closes := closeRun_amid onlookers
        (machine.modifyRun run fun state => { state with reaped := state.main.isSome }) run
        (some status)
      have closes' := closeRun_amid onlookers
        ((machine.modifyRun run fun state => { state with reaped := state.main.isSome }).queue
          (.reap run)) run (some status)
      split
      · exact closes'
      · exact closes
  · split
    · rw [expires]
      exact failRun_amid onlookers _ run _ _
    · split
      · exact fails _ _
      · exact fails _ _

/-- A supervisor decides about an external program alike. -/
theorem concludeExternal_amid (run : Nat) (state : Run) :
    (machine.amid onlookers).concludeExternal run state =
      (machine.concludeExternal run state).amid onlookers := by
  unfold concludeExternal
  split
  · exact endExternal_amid onlookers machine run _ _
  · rw [warnTimeout_amid, cancelMain_amid]
    exact endExternal_amid onlookers _ run _ _

theorem conclude_amid (run : Nat) :
    (machine.amid onlookers).conclude run = (machine.conclude run).amid onlookers := by
  have runs : (machine.amid onlookers).runs = machine.runs := rfl
  unfold conclude
  rw [runs]
  split
  · rfl
  · next state _ =>
      split
      · split
        · exact concludeInternal_amid onlookers machine run state
        · exact concludeExternal_amid onlookers machine run state
      · rfl

/-- What a supervisor does when it is woken, and what is done after the end of a run. -/
theorem wake_amid (run : Nat) :
    (machine.amid onlookers).signalled run = (machine.signalled run).amid onlookers ∧
      (machine.amid onlookers).expire run = (machine.expire run).amid onlookers ∧
      (machine.amid onlookers).reap run = (machine.reap run).amid onlookers := by
  have runs : (machine.amid onlookers).runs = machine.runs := rfl
  unfold signalled expire reap
  rw [runs]
  refine ⟨?_, ?_, ?_⟩
  · split
    · split <;> rfl
    · rfl
  · split
    · split <;> rfl
    · rfl
  · split
    · rfl
    · split <;> rfl

/-! ### Moves -/

/-- An attendant that does not find the supervisor done. -/
theorem attendant_amid {run : Nat} {job : Job} (attendant : job = .attend run ∨ job = .finish run)
    (engaged : machine.handedBackBy job = none) :
    (machine.amid onlookers).perform job = (machine.perform job).amid onlookers := by
  have runs : (machine.amid onlookers).runs = machine.runs := rfl
  have open' : ∀ state status, machine.runs[run]? = some state → state.phase ≠ .closed status := by
    intro state status found closed
    have done : state.isOver = true := by rw [Run.isOver, closed]
    rcases attendant with rfl | rfl <;> simp [handedBackBy, found, done] at engaged
  rcases attendant with rfl | rfl
  · simp only [perform, attend, runs]
    split
    · rfl
    · next state found =>
        split
        · next status closed => exact absurd closed (open' state status found)
        · rfl
  · simp only [perform, finish, runs]
    split
    · rfl
    · next state found =>
        split
        · next status closed => exact absurd closed (open' state status found)
        · rfl

/-- A callback that is neither the look of a caller nor the end of a run for the shell. -/
theorem perform_amid {job : Job} (nobody : ∀ caller, job ≠ .call caller)
    (engaged : machine.handedBackBy job = none) :
    (machine.amid onlookers).perform job = (machine.perform job).amid onlookers := by
  cases job with
  | begin run => exact begin_amid onlookers machine run
  | attend run => exact attendant_amid onlookers machine (.inl rfl) engaged
  | signalled run => exact (wake_amid onlookers machine run).1
  | expire run => exact (wake_amid onlookers machine run).2.1
  | conclude run => exact conclude_amid onlookers machine run
  | finish run => exact attendant_amid onlookers machine (.inr rfl) engaged
  | reap run => exact (wake_amid onlookers machine run).2.2
  | resume strand => exact resume_amid onlookers machine strand
  | alarm strand => exact alarm_amid onlookers machine strand
  | freed caller => rfl
  | call caller => exact absurd rfl (nobody caller)

/-- An input event does the same whatever was on the terminal. -/
theorem input_amid (event : Text) :
    (machine.amid onlookers).input event = (machine.input event).amid onlookers := by
  have entered : (machine.amid onlookers).shell.input true event = _ :=
    machine.shell.input_onto onlookers.earlier true event
  unfold input
  rw [entered]
  rcases machine.shell.input true event with ⟨reaction, after⟩
  cases reaction <;> rfl

/-- Strands that wait at a gate are let through on either machine. -/
theorem release_amid (gate : Text) :
    (machine.amid onlookers).release gate = (machine.release gate).amid onlookers := by
  have woken : ∀ (strands : List Nat) (machine : Machine),
      strands.foldl unpark (machine.amid onlookers) =
        (strands.foldl unpark machine).amid onlookers :=
    fun strands machine => List.foldl_hom (amid onlookers) fun machine strand => rfl
  exact woken _ { machine with
    openGates := machine.openGates ++ [gate]
    atGates := machine.atGates.filter (·.1 ≠ gate) }

/-- Whether no caller has a part in a move, and the shell is not put back to work with it. -/
def Undisturbed (machine : Machine) (move : Move) : Prop :=
  move.line? = none ∧ (move = .step → ∀ caller, machine.next? ≠ some (.call caller)) ∧
    machine.handedBack move = none

/-- Whether that is so for moves in order. -/
def AllUndisturbed (machine : Machine) : List Move → Prop
  | [] => True
  | move :: moves => machine.Undisturbed move ∧ (machine.make move).AllUndisturbed moves

variable {machine} {onlookers}

/-- A move without callers does the same on either machine. -/
theorem make_amid {move : Move} (undisturbed : machine.Undisturbed move) :
    (machine.amid onlookers).make move = (machine.make move).amid onlookers := by
  obtain ⟨nobody, silent, engaged⟩ := undisturbed
  cases move with
  | input event => exact input_amid onlookers machine event
  | exec line | carryOut line => cases nobody
  | release gate => exact release_amid onlookers machine gate
  | elapse moment => rfl
  | step =>
      change (machine.amid onlookers).tick = machine.tick.amid onlookers
      have turn : (machine.amid onlookers).turn = machine.turn := rfl
      have ready : (machine.amid onlookers).ready = machine.ready := rfl
      unfold tick
      rw [turn, ready]
      split
      · next turn job ready some first =>
          have next : machine.next? = .some job := by
            rw [next?, some, first]
            rfl
          rw [handedBack, next] at engaged
          exact perform_amid onlookers { machine with ready := ready, turn := turn }
            (fun caller same => silent rfl caller (same ▸ next)) engaged
      · rfl

/-- Onlookers are left as they are by moves in which no caller has a part. -/
theorem makeAll_amid {moves : List Move} (undisturbed : machine.AllUndisturbed moves) :
    (machine.amid onlookers).makeAll moves = (machine.makeAll moves).amid onlookers := by
  induction moves generalizing machine with
  | nil => rfl
  | cons move moves ih =>
      obtain ⟨here, there⟩ := undisturbed
      rw [makeAll, List.foldl_cons, make_amid here]
      exact ih there

/-- Onlookers do not disturb. -/
theorem AllUndisturbed.of_amid {moves : List Move}
    (undisturbed : (machine.amid onlookers).AllUndisturbed moves) :
    machine.AllUndisturbed moves := by
  induction moves generalizing machine with
  | nil => trivial
  | cons move moves ih =>
      obtain ⟨here, there⟩ := undisturbed
      have here : machine.Undisturbed move := here
      rw [make_amid here] at there
      exact ⟨here, ih there⟩

/-- To put the shell back to work does the same to the shell whoever waits. -/
theorem shell_handBack_amid {move : Move} {run : Nat}
    (handed : machine.handedBack move = some run) :
    ((machine.amid onlookers).make move).shell =
      (machine.make move).shell.onto onlookers.earlier := by
  have handed' : (machine.amid onlookers).handedBack move = some run := handed
  let ended := { machine.shell with activity := .idle }.setStatus (machine.exitOf run)
  have relieves : (machine.shell.onto onlookers.earlier).relieved (machine.exitOf run) =
      (machine.shell.relieved (machine.exitOf run)).onto onlookers.earlier :=
    ended.withConsole_onto onlookers.earlier fun console => console.complete_onto _
  rw [(treats_make _ move).of_handedBack handed, (treats_make _ move).of_handedBack handed']
  exact (congrArg Shell.repaint relieves).trans (Shell.repaint_onto _ _)

end Machine

end LineShell
