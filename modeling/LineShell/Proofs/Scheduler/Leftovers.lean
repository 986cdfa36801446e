/-
Module: LineShell.Proofs.Scheduler.Leftovers
Purpose: What the prompt erases when it is shown after a command: nothing that a program
  beside the shell has written, and nothing that the shell itself has, but what a builtin
  program that returns leaves of a line.
Main exports: Deed.Whole, Machine.deeds, Machine.Tidy, Machine.poised_make, Shell.dangling,
  Shell.Erases, Reachable.erases
-/
import LineShell.Proofs.Scheduler.Playing
import LineShell.Proofs.Scheduler.Submissions
import LineShell.Proofs.Terminal.LastLine

namespace LineShell

/-!
Showing the prompt begins with erasing the line on which the cursor is.  After a program
that runs beside the shell a dangling line is ended first, and so it is in front of every
report of a failure.  Both rely on what the console knows about itself, so it has to be
truthful from the launch of the program until the shell is put back to work, whatever is
written meanwhile, and by whichever program.  Where a builtin program returns nothing ends
its last line.
-/

/-! ### What programs write -/

/-- Whether an act leaves no control sequence unfinished. -/
def Act.Whole : Act → Prop
  | .write text => endsOutside text = true
  | .clear | .completeLine | .call _ | .send _ | .sendReporting _ | .reportDecided
  | .release => True

/-- The start of another strand writes nothing. -/
def Deed.Whole : Deed → Prop
  | .act given => given.Whole
  | .spawn _ _ => True

section Playing

variable {stage : Stage}

theorem endsOutside_truthText (value : Bool) : endsOutside (truthText value) = true := by
  cases value <;> decide

/-- A console that tells the truth does so after every act that writes whole sequences. -/
theorem truthful_perform (truthful : stage.console.Truthful) {act : Act} (whole : act.Whole) :
    (stage.perform act).console.Truthful := by
  cases act with
  | write text => exact truthful.write whole
  | clear => exact Console.truthful_of_lastLine (Console.lastLine_clear _)
  | completeLine => exact Console.truthful_of_lastLine truthful.lastLine_complete
  | call | release => exact truthful
  | send status =>
      have silent : (stage.perform (.send status)).console = stage.console :=
        (stage.send_silent status).2
      rwa [silent]
  | sendReporting status =>
      have silent : (stage.send status).2.console = stage.console := (stage.send_silent status).2
      rw [← silent] at truthful
      exact truthful.write (endsOutside_truthText _)
  | reportDecided => exact truthful.write (endsOutside_truthText _)

theorem truthful_carryOutAll (truthful : stage.console.Truthful) {deeds : List Deed}
    (whole : ∀ deed ∈ deeds, deed.Whole) : (stage.carryOutAll deeds).console.Truthful := by
  induction deeds generalizing stage with
  | nil => exact truthful
  | cons deed deeds ih =>
      obtain ⟨here, later⟩ := List.forall_mem_cons.mp whole
      refine ih ?_ later
      cases deed with
      | act act => exact truthful_perform truthful here
      | spawn shares body => exact truthful

end Playing

namespace Machine

/-- What programs do in a callback. -/
def deedsOf (machine : Machine) : Job → List Deed
  | .resume strand =>
      match machine.strands[strand]? with
      | none => []
      | some state =>
          if state.ended then [] else state.ahead.deedsUntil (passesGates machine.isOpen)
  | .begin run =>
      match machine.runs[run]? with
      | none => []
      | some state =>
          let start := state.launch.start
          start.deeds ++
            match state.launch.kind, start.called, machine.shell.options.timeout with
            | .external, .deferred _ body, none => body.deedsUntil (passesGates machine.isOpen)
            | _, _, _ => []
  | _ => []

/-- What programs do in a move, builtin programs apart. -/
def deeds (machine : Machine) : Move → List Deed
  | .step =>
      match machine.next? with
      | some job => machine.deedsOf job
      | none => []
  | _ => []

/-- What programs do on a course. -/
def deedsAll (machine : Machine) : List Move → List Deed
  | [] => []
  | move :: moves => machine.deeds move ++ (machine.make move).deedsAll moves

/-- Whether the console of a machine knows about a dangling line. -/
def Tidy (machine : Machine) : Prop :=
  machine.shell.console.Truthful

variable {machine after : Machine} {run strand : Nat}

/-! ### Operations that write nothing -/

section Silent

/-- Tidiness is a matter of the shell only. -/
theorem Tidy.of_shell (tidy : machine.Tidy) (same : after.shell = machine.shell) : after.Tidy := by
  rw [Tidy, same]
  exact tidy

@[simp] theorem shell_queue (job : Job) : (machine.queue job).shell = machine.shell := rfl

@[simp] theorem shell_modifyRun (change : Run → Run) :
    (machine.modifyRun run change).shell = machine.shell := rfl

@[simp] theorem shell_modifyStrand (change : Strand → Strand) :
    (machine.modifyStrand strand change).shell = machine.shell := rfl

@[simp] theorem shell_unpark : (machine.unpark strand).shell = machine.shell := rfl

@[simp] theorem shell_notify : (machine.notify run).shell = machine.shell := by
  unfold notify
  split
  · split <;> rfl
  · rfl

@[simp] theorem shell_park (wait : Wait) (change : Strand → Strand) :
    (machine.park strand wait change).shell = machine.shell := by
  cases wait with
  | gate name => rfl
  | sleep seconds =>
      rw [park]
      split <;> rfl

@[simp] theorem shell_cancelStrand : (machine.cancelStrand strand).shell = machine.shell := by
  unfold cancelStrand
  dsimp only
  split
  · split <;> rfl
  · rfl

@[simp] theorem shell_cancelMain (state : Run) :
    (machine.cancelMain state).shell = machine.shell := by
  unfold cancelMain
  split
  · exact shell_cancelStrand
  · rfl

@[simp] theorem shell_releaseCompletion :
    (machine.releaseCompletion run).shell = machine.shell := by
  unfold releaseCompletion
  split
  · split
    · rw [shell_notify, shell_modifyRun]
    · rfl
  · rfl

@[simp] theorem shell_closeRun (status : Option Int) :
    (machine.closeRun run status).shell = machine.shell := by
  unfold closeRun
  dsimp only
  split
  · split <;> rfl
  · rfl

theorem shell_stirAll (stirs : List Stir) :
    (stirs.foldl (fun machine stir => machine.stir run stir) machine).shell = machine.shell := by
  induction stirs generalizing machine with
  | nil => rfl
  | cons stir stirs ih =>
      rw [List.foldl_cons, ih]
      cases stir with
      | decided => exact shell_notify
      | spawned holds body => rfl

theorem shell_listen : (machine.listen run).shell = machine.shell := by
  unfold listen
  cases machine.shell.options.timeout.bind Numeral.value? with
  | none | some seconds =>
      dsimp only
      split
      · split
        · exact shell_notify
        · rfl
      · rfl

theorem shell_signalled : (machine.signalled run).shell = machine.shell := by
  unfold signalled
  split
  · split <;> rfl
  · rfl

theorem shell_expire : (machine.expire run).shell = machine.shell := by
  unfold expire
  split
  · split <;> rfl
  · rfl

theorem shell_alarm : (machine.alarm strand).shell = machine.shell := by
  unfold alarm
  split
  · split <;> rfl
  · rfl

/-- A caller that looks at a shell in which a program is in flight waits. -/
theorem shell_call_of_task (engaged : machine.task.isSome) (caller : Nat) :
    (machine.call caller).shell = machine.shell := by
  have silent : machine.submittedBy caller = none := by
    unfold submittedBy
    split
    · rfl
    · rw [engaged, Bool.true_or, if_pos rfl]
  rw [shell_call, silent]

theorem shell_release (gate : Text) : (machine.release gate).shell = machine.shell := by
  have woken : ∀ (strands : List Nat) (machine : Machine),
      (strands.foldl unpark machine).shell = machine.shell := by
    intro strands
    induction strands with
    | nil => exact fun _ => rfl
    | cons strand others ih => exact fun machine => (ih _).trans shell_unpark
  exact woken _ _

end Silent

/-! ### Operations that write -/

section Writing

/-- What a strand has left on its stage is taken over. -/
theorem tidy_takeStage {stage : Stage} (truthful : stage.console.Truthful) :
    (machine.takeStage run stage).Tidy := by
  have shown : (machine.takeStage run stage).shell.console = stage.console := by
    rw [takeStage, shell_stirAll]
    rfl
  rwa [Tidy, shown]

/-- Whatever a failure says, its report ends with the end of a line. -/
theorem tidy_report (fault : Fault) : (machine.withShell (·.report fault)).Tidy :=
  Console.truthful_of_lastLine (Console.lastLine_println _ _)

theorem tidy_failRun (fault : Fault) (status : Int) : (machine.failRun run fault status).Tidy :=
  (tidy_report fault).of_shell (shell_closeRun _)

theorem Tidy.closeExternal (tidy : machine.Tidy) (status : Option Int) :
    (machine.closeExternal run status).Tidy := by
  have shown : (machine.withShell fun shell =>
      shell.withConsole (·.write showCursor)).Tidy := Console.Truthful.write tidy (by decide)
  exact shown.of_shell (shell_closeRun _)

/-- The message about a failure is a line of its own, and ends it. -/
theorem Tidy.endExternal (tidy : machine.Tidy) (name : Text) (ending : Ending) :
    (machine.endExternal run name ending).Tidy := by
  unfold Machine.endExternal
  split
  · exact tidy.closeExternal _
  · exact tidy.closeExternal _
  · exact Tidy.closeExternal (tidy_report _) _
  · refine Tidy.closeExternal ?_ _
    exact Console.truthful_of_lastLine (Console.lastLine_println _ _)

theorem tidy_failInternal (name : Text) (fault : Fault) :
    (machine.failInternal run name fault).Tidy := by
  unfold failInternal
  split <;> exact tidy_failRun _ _

theorem Tidy.endStrand (tidy : machine.Tidy) (state : Strand) (holds : Bool) (ending : Ending) :
    (machine.endStrand strand state holds ending).Tidy := by
  have released : (machine.ended strand state.run holds).Tidy := by
    refine tidy.of_shell ?_
    unfold ended
    split
    · rw [shell_releaseCompletion, shell_modifyStrand]
    · rfl
  rw [endStrand_eq]
  dsimp only
  split
  · split <;> exact released.of_shell (by simp)
  · exact released.endExternal _ _
  · exact released

/-- A strand writes what it does up to its next wait. -/
theorem Tidy.resume (tidy : machine.Tidy)
    (whole : ∀ deed ∈ machine.deedsOf (.resume strand), deed.Whole) :
    (machine.resume strand).Tidy := by
  cases found : machine.strands[strand]? with
  | none => exact tidy.of_shell (by rw [Machine.resume, found])
  | some state =>
      cases ended : state.ended with
      | true => exact tidy.of_shell (by simp [Machine.resume, found, ended])
      | false =>
          cases owned : machine.runs[state.run]? with
          | none => exact tidy.of_shell (by simp [Machine.resume, found, owned])
          | some run =>
              rw [deedsOf, found] at whole
              simp only [ended, Bool.false_eq_true, if_false] at whole
              have truthful : (machine.strandStage strand state run).console.Truthful := tidy
              have played := truthful_carryOutAll truthful whole
              rw [← Script.stage_play] at played
              rw [machine.resume_eq found ended owned]
              generalize state.ahead.play machine.isOpen _ = outcome at played
              obtain ⟨pause, stage⟩ := outcome
              have taken : (machine.takeStage state.run stage).Tidy := tidy_takeStage played
              cases pause with
              | ended ending => exact taken.endStrand _ _ _
              | waiting wait rest interrupted => exact taken.of_shell (shell_park _ _)

theorem Tidy.startInline (tidy : machine.Tidy) {script : Script}
    (whole : ∀ deed ∈ script.deedsUntil (passesGates machine.isOpen), deed.Whole) :
    (machine.startInline run script).Tidy := by
  let strand : Strand := { run := run, role := .inline, rest := script }
  let started : Machine :=
    { machine.modifyRun run fun state => { state with phase := .inside } with
      strands := machine.strands ++ [strand] }
  have same : started.Tidy := tidy
  have deeds : started.deedsOf (.resume machine.strands.length) =
      script.deedsUntil (passesGates machine.isOpen) := by
    have found : started.strands[machine.strands.length]? = some strand := by simp [started]
    rw [deedsOf, found]
    rfl
  exact same.resume (deeds ▸ whole)

/-- What is taken over of a stage opens no gate, and leaves the shell set up as it is. -/
theorem settings_takeStage (machine : Machine) (run : Nat) (stage : Stage) :
    (machine.takeStage run stage).isOpen = machine.isOpen ∧
      (machine.takeStage run stage).shell.options = machine.shell.options := by
  have ext := extends_stirAll ((machine.withShell fun shell =>
    { shell with
      console := stage.console
      journal := { shell.journal with calls := stage.calls } }).modifyRun run fun state =>
        { state with completion := stage.completion }) run stage.stirs
  have gates : (machine.takeStage run stage).openGates = machine.openGates := ext.openGates
  refine ⟨?_, ext.options⟩
  funext gate
  rw [isOpen, gates]
  rfl

theorem Tidy.begin (tidy : machine.Tidy)
    (whole : ∀ deed ∈ machine.deedsOf (.begin run), deed.Whole) : (machine.begin run).Tidy := by
  cases found : machine.runs[run]? with
  | none => exact tidy.of_shell (by rw [Machine.begin, found])
  | some state =>
      have truthful : (machine.callStage state).console.Truthful := tidy
      rw [deedsOf, found] at whole
      obtain ⟨inside, behind⟩ := List.forall_mem_append.mp whole
      have played := truthful_carryOutAll truthful inside
      have taken : (machine.takeStage run _).Tidy := tidy_takeStage played
      generalize stage : (machine.callStage state).carryOutAll state.launch.start.deeds = after
        at taken
      obtain ⟨gates, options⟩ := machine.settings_takeStage run after
      cases kind : state.launch.kind with
      | internal =>
          rw [machine.begin_of_internal found kind, stage]
          unfold beginInternal
          split
          · exact taken.of_shell (by rw [shell_listen, shell_releaseCompletion])
          · exact tidy_failInternal _ _
          · exact taken.of_shell (shell_closeRun _)
          · exact taken.of_shell (by rw [shell_listen, shell_releaseCompletion]; rfl)
      | external =>
          rw [machine.begin_of_external found kind, stage]
          dsimp only
          unfold beginExternal
          split
          · exact taken.endExternal _ _
          · next shares body called =>
              rw [options]
              split
              · next unlimited =>
                  rw [kind, called, unlimited] at behind
                  exact taken.startInline (gates ▸ behind)
              · exact taken.of_shell (by rw [shell_listen]; rfl)

/-- A warning for the log does not reach the console. -/
theorem Tidy.warnTimeout (tidy : machine.Tidy) {name : Text} : (machine.warnTimeout name).Tidy :=
  tidy

theorem Tidy.conclude (tidy : machine.Tidy) : (machine.conclude run).Tidy := by
  unfold Machine.conclude
  split
  · exact tidy
  · split
    · split
      · unfold concludeInternal
        split
        · dsimp only
          split <;> exact tidy.of_shell (by simp)
        · split
          · exact tidy_failRun _ _
          · split <;> exact tidy_failRun _ _
      · unfold concludeExternal
        split
        · exact tidy.endExternal _ _
        · exact Tidy.endExternal (tidy.warnTimeout.of_shell (shell_cancelMain _)) _ _
    · exact tidy

theorem Tidy.reap (tidy : machine.Tidy) : (machine.reap run).Tidy := by
  unfold Machine.reap
  split
  · exact tidy
  · split
    · exact tidy
    · exact tidy

end Writing

end Machine

/-! ### What is erased -/

/-- Showing the line of a shell `before` anew leads to the shell `after`, and `text` stands
on the line that is erased for it. -/
structure Shell.Erases (before : Shell) (text : Text) (after : Shell) : Prop where
  repainted : after = before.repaint
  erased : before.console.terminal.lastLine = text

namespace Shell

variable {shell : Shell} {scheduled : Bool} {event : Text}

/-- What a builtin program that returns leaves of a line, if the line being typed calls
one. -/
def dangling (shell : Shell) (scheduled : Bool) : Text :=
  match shell.verdict scheduled with
  | .builtin _ script =>
      match script.play shell.environment with
      | (.ok _, left) => left.console.terminal.lastLine
      | (.error _, _) => []
  | _ => []

/-- When a program is launched, the line that called it has just been ended. -/
theorem exists_println_typed (idle : shell.activity = .idle)
    (running : (shell.typed scheduled event).2.activity = .running) : ∃ console text,
      (shell.typed scheduled event).2.console = Console.println console text := by
  unfold typed at running ⊢
  split at running
  · next key _ =>
      have outcome := shell.outcome_press scheduled idle key
      cases key with
      | submit =>
          rw [press, submit_eq] at running ⊢
          rw [activity_carriedOut] at running
          cases verdict : shell.verdict scheduled with
          | launched program => exact ⟨_, _, rfl⟩
          | blank | rejected | unknown | refused | unmade | builtin =>
              rw [verdict] at running
              cases running.symm.trans idle
      | right =>
          cases outcome with
          | done still => cases running.symm.trans still
      | _ => cases running.symm.trans idle
  · dsimp only at running
    split at running <;> cases running.symm.trans idle

theorem exists_println_input (idle : shell.activity = .idle)
    (running : (shell.input scheduled event).2.activity = .running) : ∃ console text,
      (shell.input scheduled event).2.console = Console.println console text := by
  have typed := fun active : (shell.typed scheduled event).2.activity = .running =>
    exists_println_typed idle active
  have outcome := shell.outcome_typed scheduled idle event
  rw [input_of_idle idle, outcome.showAnew_eq] at running ⊢
  generalize shell.typed scheduled event = result at *
  cases outcome with
  | done still => cases running.symm.trans still
  | launched => exact typed running
  | raised still => cases running.symm.trans still

/-- Whatever a submitted line comes to at once, nothing is erased but what a builtin program
has left. -/
theorem erases_input (idle : shell.activity = .idle) (submits : event = ['\r'] ∨ event = ['\n'])
    (quiet : (shell.input scheduled event).1.fault? = none)
    (still : (shell.input scheduled event).2.activity = .idle) :
    (shell.typed scheduled event).2.Erases (shell.dangling scheduled)
      (shell.input scheduled event).2 := by
  rw [input_of_idle idle, typed_submit submits, submit_eq, showAnew_carriedOut idle]
    at quiet still ⊢
  unfold dangling
  cases verdict : shell.verdict scheduled with
  | launched program =>
      rw [verdict] at still
      cases still
  | unmade fault =>
      rw [verdict] at quiet
      cases quiet
  | blank | rejected | unknown | refused => exact ⟨rfl, Console.lastLine_println _ _⟩
  | builtin name script =>
      refine ⟨rfl, ?_⟩
      have console := (shell.left_runBuiltin name script).2.2
      change (shell.committed.runBuiltin name script).2.console.terminal.lastLine = _
      rw [console]
      dsimp only
      generalize script.play shell.environment = played
      obtain ⟨result, left⟩ := played
      cases result with
      | ok status => rfl
      | error fault => exact Console.lastLine_println _ _

end Shell

/-! ### On all courses -/

namespace Machine

variable {machine : Machine}

/-- Whether the console knows about a dangling line if a program is in flight. -/
def Poised (machine : Machine) : Prop :=
  machine.shell.activity = .running → machine.Tidy

/-- A shell at work is poised, as no program is in flight. -/
theorem poised_of_idle (idle : machine.shell.activity = .idle) : machine.Poised :=
  fun running => by cases running.symm.trans idle

theorem Tidy.poised (tidy : machine.Tidy) : machine.Poised :=
  fun _ => tidy

/-- The attendant puts the shell back to work, or it leaves it alone. -/
theorem shell_attendant {job : Job} {run : Nat}
    (attendant : job = .attend run ∨ job = .finish run) :
    (machine.perform job).shell = machine.shell ∨
      (machine.perform job).shell.activity = .idle := by
  rcases attendant with rfl | rfl
  · simp only [Machine.perform, attend]
    split
    · exact .inl rfl
    · split
      · exact .inr rfl
      · exact .inl rfl
  · simp only [Machine.perform, finish]
    split
    · exact .inl rfl
    · split
      · exact .inr rfl
      · exact .inl rfl

/-- The shell is put back to work behind a line that has been ended. -/
theorem Tidy.attendant (tidy : machine.Tidy) {job : Job} {run : Nat}
    (attendant : job = .attend run ∨ job = .finish run) : (machine.perform job).Poised :=
  (shell_attendant attendant).elim (fun same => (tidy.of_shell same).poised) poised_of_idle

/-- A callback keeps the console informed until the shell is put back to work. -/
theorem Tidy.perform (tidy : machine.Tidy) (engaged : machine.task.isSome) {job : Job}
    (whole : ∀ deed ∈ machine.deedsOf job, deed.Whole) : (machine.perform job).Poised := by
  cases job with
  | begin run => exact (tidy.begin whole).poised
  | resume strand => exact (tidy.resume whole).poised
  | conclude run => exact tidy.conclude.poised
  | attend run => exact tidy.attendant (.inl rfl)
  | finish run => exact tidy.attendant (.inr rfl)
  | freed caller => exact tidy.poised
  | call caller => exact (tidy.of_shell (shell_call_of_task engaged caller)).poised
  | signalled run => exact (tidy.of_shell shell_signalled).poised
  | expire run => exact (tidy.of_shell shell_expire).poised
  | alarm strand => exact (tidy.of_shell shell_alarm).poised
  | reap run => exact tidy.reap.poised

/-- Nothing but the launch of a program makes an idle shell run. -/
theorem exists_println_make (active : machine.shell.activity = .idle) {move : Move}
    (running : (machine.make move).shell.activity = .running) : ∃ console text,
      (machine.make move).shell.console = Console.println console text := by
  have treats := machine.treats_make move
  generalize (machine.make move).shell = after at treats running ⊢
  cases treats with
  | aside bare =>
      have same : after.activity = machine.shell.activity := congrArg (·.activity) bare
      cases running.symm.trans (same.trans active)
  | typed event => exact Shell.exists_println_input active running
  | submitted caller line => exact Shell.exists_println_input active running
  | putBack run => cases running

/-- Every move keeps the console informed while a program is in flight. -/
theorem poised_make (sound : machine.front.Sound none) (poised : machine.Poised) {move : Move}
    (whole : ∀ deed ∈ machine.deeds move, deed.Whole) : (machine.make move).Poised := by
  cases active : machine.shell.activity with
  | idle =>
      intro running
      obtain ⟨console, text, same⟩ := exists_println_make active running
      refine Console.truthful_of_lastLine ?_
      rw [same]
      exact Console.lastLine_println console text
  | running =>
      have tidy : machine.Tidy := poised active
      have engaged : machine.task.isSome := sound.active.mp active
      cases move with
      | input event =>
          have same := machine.input_of_running active event
          exact (tidy.of_shell (congrArg Machine.shell same)).poised
      | exec line => exact tidy.poised
      | carryOut line =>
          have same := shell_call_of_task (show (machine.enlist line).task.isSome from engaged)
          exact (tidy.of_shell (same machine.callers.length)).poised
      | release gate => exact (tidy.of_shell (shell_release gate)).poised
      | elapse moment => exact tidy.poised
      | step =>
          change machine.tick.Poised
          rcases machine.tick_cases with ⟨job, ready, turn, -, shown, ticked⟩ | ⟨-, ticked⟩
          · rw [deeds, shown] at whole
            have popped : (machine.pop ready turn).Tidy := tidy
            rw [ticked]
            exact popped.perform engaged whole
          · rw [ticked]
            exact tidy.poised

theorem sound_makeAll (sound : machine.front.Sound none) (moves : List Move) :
    (machine.makeAll moves).front.Sound none := by
  induction moves generalizing machine with
  | nil => exact sound
  | cons move moves ih => exact ih (sound_make sound move)

/-- Only a running shell is put back to work. -/
theorem running_of_handedBack (sound : machine.front.Sound none) {move : Move} {run : Nat}
    (handed : machine.handedBack move = some run) : machine.shell.activity = .running := by
  have change := change_make sound move
  rw [handed] at change
  cases change with
  | freed _ waited => exact sound.active.mpr (Option.isSome_of_eq_some waited)

/-- So does every course. -/
theorem poised_makeAll (sound : machine.front.Sound none) (poised : machine.Poised)
    {moves : List Move} (whole : ∀ deed ∈ machine.deedsAll moves, deed.Whole) :
    (machine.makeAll moves).Poised := by
  induction moves generalizing machine with
  | nil => exact poised
  | cons move moves ih =>
      have now : ∀ deed ∈ machine.deeds move, deed.Whole := fun deed member =>
        whole deed (List.mem_append_left _ member)
      have later : ∀ deed ∈ (machine.make move).deedsAll moves, deed.Whole := fun deed member =>
        whole deed (List.mem_append_right _ member)
      exact ih (sound_make sound move) (poised_make sound poised now) later

end Machine

/-- What is erased when the prompt is shown after a command.  Of a command that ends at once
it is what a builtin program that returns has left of a line, and nothing if there was no
such program, or if it failed; a failure to make the program shows no prompt.  Of a program
beside the shell it is nothing, however it ends, as long as no program writes a part of a
control sequence meanwhile. -/
theorem Reachable.erases {flight : Flight} (reachable : Reachable flight)
    (idle : flight.machine.shell.activity = .idle) :
    (∀ scheduled event, event = ['\r'] ∨ event = ['\n'] →
      (flight.machine.shell.input scheduled event).1.fault? = none →
      (flight.machine.shell.input scheduled event).2.activity = .idle →
        (flight.machine.shell.typed scheduled event).2.Erases
          (flight.machine.shell.dangling scheduled)
          (flight.machine.shell.input scheduled event).2) ∧
    (∀ move caller line, flight.machine.submission move = some (caller, line) →
      (flight.machine.withLine line).failure? ['\r'] = none →
      (flight.next move).machine.shell.activity = .idle →
        let typed : Shell := { flight.machine.shell with buffer := Buffer.ofText line }
        (typed.typed true ['\r']).2.Erases (typed.dangling true)
          (flight.next move).machine.shell) ∧
    ∀ moves, (∀ deed ∈ flight.machine.deedsAll moves, deed.Whole) →
      ∀ move run, (flight.machine.makeAll moves).handedBack move = some run →
        let before := flight.machine.makeAll moves
        (before.shell.relieved (before.exitOf run)).Erases [] (before.make move).shell := by
  refine ⟨fun scheduled event submits quiet still =>
    Shell.erases_input idle submits quiet still, ?_, ?_⟩
  · intro move caller line given quiet still
    have same : (flight.next move).machine.shell =
        ({ flight.machine.shell with buffer := Buffer.ofText line }.input true ['\r']).2 :=
      (Machine.treats_make _ move).of_submission given
    rw [same] at still ⊢
    exact Shell.erases_input idle (.inl rfl) quiet still
  · intro moves whole move run handed before
    have sound : before.front.Sound none := Machine.sound_makeAll reachable.sound.machine moves
    have poised : before.Poised :=
      Machine.poised_makeAll reachable.sound.machine (Machine.poised_of_idle idle) whole
    have truthful : before.shell.console.Truthful :=
      poised (Machine.running_of_handedBack sound handed)
    exact ⟨(before.treats_make move).of_handedBack handed, truthful.lastLine_complete⟩

/-- A shell with a builtin program and an external one that both return in the middle of a
line, after the name of one of them was typed. -/
def Flight.halfway (name : Text) : Flight :=
  let builtin : Program :=
    .builtin (.ok fun _ _ => { acts := [.write "partial"], ending := .ok 0 })
  let external : Program :=
    .external fun _ => .perform (.write "partial") (.stop (.returned (.number 0)))
  let programs : Programs := { entries := [("inside", builtin), ("beside", external)] }
  (Flight.start (.start {} .memory {} programs)).next (.input name)

/-- What the external program has written stays. -/
theorem erases_beside :
    let before := (Flight.halfway "beside").machine.makeAll [.input "\r", .step, .step]
    before.shell.console.terminal.lastLine = "partial" ∧
      (before.shell.relieved (before.exitOf 0)).Erases [] (before.make .step).shell := by
  have reachable : Reachable (Flight.halfway "beside") := .next _ (.start ..)
  have idle : (Flight.halfway "beside").machine.shell.activity = .idle := by decide +kernel
  have deeds : (Flight.halfway "beside").machine.deedsAll [.input "\r", .step, .step] =
      [.act (.write "partial")] := by decide +kernel
  have whole : ∀ deed ∈ (Flight.halfway "beside").machine.deedsAll [.input "\r", .step, .step],
      deed.Whole := by
    rw [deeds]
    exact List.forall_mem_singleton.mpr (show endsOutside "partial" = true by decide)
  have handed : ((Flight.halfway "beside").machine.makeAll
      [.input "\r", .step, .step]).handedBack .step = some 0 := by decide +kernel
  have written : ((Flight.halfway "beside").machine.makeAll
      [.input "\r", .step, .step]).shell.console.terminal.lastLine = "partial" := by
    decide +kernel
  exact ⟨written, (reachable.erases idle).2.2 _ whole _ _ handed⟩

/-- What the builtin program has written is erased, though it is no part of a control
sequence. -/
theorem erases_inside :
    let shell := (Flight.halfway "inside").machine.shell
    endsOutside "partial" = true ∧
      (shell.typed true "\r").2.Erases "partial" (shell.input true "\r").2 := by
  intro shell
  have idle : shell.activity = .idle := by decide +kernel
  have still : (shell.input true "\r").2.activity = .idle := by decide +kernel
  have left : shell.dangling true = "partial" := by decide +kernel
  have erases : (shell.typed true "\r").2.Erases (shell.dangling true) (shell.input true "\r").2 :=
    Shell.erases_input idle (.inl rfl) (by decide +kernel) still
  exact ⟨by decide, left ▸ erases⟩

end LineShell
