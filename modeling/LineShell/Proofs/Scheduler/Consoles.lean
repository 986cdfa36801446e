/-
Module: LineShell.Proofs.Scheduler.Consoles
Purpose: Whatever programs write, what their supervisors write behind it starts on a fresh line.
Main exports: Machine.Prepared, Machine.prepared_make, Annals.Course.isFresh_complete,
  Annals.Lawful.exists_course
-/
import LineShell.Proofs.Scheduler.Farewells
import LineShell.Proofs.Scheduler.Reports

namespace LineShell

/-!
A supervisor ends a dangling line before its message if the console does not claim to stand
where a line starts.  The console judges each text by itself, and so, whatever programs write,
no text that shows anything stands between the last end of a line and the message.  That a
text may show more behind another one, which ended inside a control sequence, is left out of
this view.
-/

/-- Whatever programs do, a console stays mindful. -/
theorem Stage.mindful_carryOutAll {stage : Stage} (mindful : stage.console.Mindful)
    (deeds : List Deed) : (stage.carryOutAll deeds).console.Mindful := by
  induction deeds generalizing stage with
  | nil => exact mindful
  | cons deed deeds ih =>
      have sent : ∀ status, (stage.send status).2.console.Mindful := fun status =>
        (stage.send_silent status).2 ▸ mindful
      refine ih ?_
      cases deed with
      | spawn shares body => exact mindful
      | act act =>
          cases act with
          | write text => exact mindful.write text
          | clear => exact stage.console.mindful_clear
          | completeLine => exact mindful.complete
          | call | release => exact mindful
          | send status => exact sent status
          | sendReporting status => exact (sent status).write _
          | reportDecided => exact mindful.write _

theorem Farewell.mindful_written {farewell : Farewell} (mindful : farewell.console.Mindful) :
    farewell.written.Mindful := by
  unfold written told
  split
  · exact mindful.write _
  · exact (Console.mindful_println _ _).write _

namespace Machine

variable {machine : Machine} {called : List (Nat × Rat)} {run : Nat} {state : Run} {job : Job}

theorem mindful_actedOn (mindful : machine.shell.console.Mindful) (state : Run) (job : Job) :
    (machine.actedOn state job).Mindful := by
  refine Stage.mindful_carryOutAll ?_ _
  rwa [console_sees]

/-- A callback writes what its program does, and what is noted of it. -/
theorem mindful_of_notes {Note : Type} {annals : Annals Note} {after : Machine}
    {note : Option Note} (notes : annals.Notes machine run job after note)
    (writes : ∀ note, (annals.before note).Mindful → (annals.written note).Mindful)
    (found : machine.runs[run]? = some state) (kind : state.launch.kind = annals.kind)
    (mindful : machine.shell.console.Mindful) : after.shell.console.Mindful := by
  cases notes with
  | foreign foreign => exact absurd kind (foreign state found)
  | nothing _ _ same => exact same ▸ mindful_actedOn mindful _ _
  | said _ _ _ before _ same => exact same ▸ writes _ (before ▸ mindful_actedOn mindful _ _)

/-- A callback that works for no run leaves the shell alone, or puts it back to work. -/
theorem shell_of_unowned (engaged : machine.task.isSome) (unowned : machine.ward job = none) :
    (machine.perform job).shell = machine.shell ∨
      (machine.perform job).shell.activity = .idle := by
  cases job with
  | begin | signalled | expire | conclude | reap => cases unowned
  | resume number =>
      have absent : machine.strands[number]? = none := Option.map_eq_none_iff.mp unowned
      exact .inl (by simp [perform, resume, absent])
  | attend run => exact shell_attendant (.inl rfl)
  | finish run => exact shell_attendant (.inr rfl)
  | alarm strand => exact .inl shell_alarm
  | freed caller => exact .inl rfl
  | call caller => exact .inl (shell_call_of_task engaged caller)

/-- What holds of a machine on all courses: account is kept of all runs, and the console is
mindful if a program is in flight. -/
structure Prepared (machine : Machine) (called : List (Nat × Rat)) : Prop where
  regular : machine.Regular called
  reports : ∀ run, ∃ sends reports,
    Annals.reports.Attests (machine.docket run) called sends reports
  farewells : ∀ run, ∃ sends farewells,
    Annals.farewells.Attests (machine.docket run) called sends farewells
  mindful : machine.shell.activity = .running → machine.shell.console.Mindful

theorem prepared_start {shell : Shell} (sound : (Machine.start shell).front.Sound none) :
    (Machine.start shell).Prepared [] :=
  ⟨regular_start sound, fun run => ⟨[], [], Annals.attests_start _ shell run⟩,
    fun run => ⟨[], [], Annals.attests_start _ shell run⟩,
    fun running => absurd (sound.active.mp running) Bool.false_ne_true⟩

/-- A callback that works for a run. -/
theorem mindful_of_owned (prepared : machine.Prepared called)
    (mindful : machine.shell.console.Mindful)
    (callback : machine.callback? run .step = some job)
    (found : machine.runs[run]? = some state) : machine.tick.shell.console.Mindful := by
  cases kind : state.launch.kind with
  | internal =>
      obtain ⟨sends, reports, attests⟩ := prepared.reports run
      obtain ⟨report, told, -⟩ :=
        Annals.attests_make Annals.lawful_reports prepared.regular attests .step
      rw [Annals.Says, callback] at told
      exact mindful_of_notes told (fun _ _ => Console.mindful_println _ _) found kind mindful
  | external =>
      obtain ⟨sends, farewells, attests⟩ := prepared.farewells run
      obtain ⟨farewell, told, -⟩ :=
        Annals.attests_make Annals.lawful_farewells prepared.regular attests .step
      rw [Annals.Says, callback] at told
      exact mindful_of_notes told (fun _ => Farewell.mindful_written) found kind mindful

theorem mindful_tick (prepared : machine.Prepared called)
    (mindful : machine.shell.console.Mindful) (engaged : machine.task.isSome)
    (running : machine.tick.shell.activity = .running) : machine.tick.shell.console.Mindful := by
  rcases machine.tick_cases with ⟨job, ready, turn, next, shown, ticked⟩ | ⟨-, ticked⟩
  · let popped := machine.pop ready turn
    cases own : machine.ward job with
    | none =>
        have engaged' : popped.task.isSome := engaged
        have unowned : popped.ward job = none := own
        rw [ticked] at running ⊢
        rcases shell_of_unowned engaged' unowned with same | idle
        · exact same ▸ mindful
        · cases running.symm.trans idle
    | some run =>
        cases found : machine.runs[run]? with
        | some state =>
            have callback : machine.callback? run .step = some job := by
              simp [callback?, shown, own]
            exact mindful_of_owned prepared mindful callback found
        | none =>
            rw [ticked, (perform_of_absent prepared.regular.alert found own turn).1]
            exact mindful
  · rw [ticked]
    exact mindful

/-- Every move keeps the console mindful while a program is in flight. -/
theorem prepared_make (prepared : machine.Prepared called) (move : Move) :
    (machine.make move).Prepared (called ++ machine.callOf move) := by
  have regular := prepared.regular
  refine ⟨regular_make regular move, fun run => ?_, fun run => ?_, fun running => ?_⟩
  · obtain ⟨sends, reports, attests⟩ := prepared.reports run
    obtain ⟨report, -, after⟩ := Annals.attests_make Annals.lawful_reports regular attests move
    exact ⟨_, _, after⟩
  · obtain ⟨sends, farewells, attests⟩ := prepared.farewells run
    obtain ⟨farewell, -, after⟩ := Annals.attests_make Annals.lawful_farewells regular attests move
    exact ⟨_, _, after⟩
  · cases active : machine.shell.activity with
    | idle =>
        obtain ⟨console, text, same⟩ := exists_println_make active running
        exact same ▸ console.mindful_println text
    | running =>
        have mindful := prepared.mindful active
        have engaged : machine.task.isSome := regular.sound.active.mp active
        cases move with
        | input event =>
            rw [show machine.make (.input event) = machine from
              machine.input_of_running active event]
            exact mindful
        | exec line | elapse moment => exact mindful
        | carryOut line =>
            have waits : (machine.enlist line).task.isSome := engaged
            have same : (machine.make (.carryOut line)).shell = machine.shell :=
              shell_call_of_task waits machine.callers.length
            exact same ▸ mindful
        | release gate =>
            have same : (machine.make (.release gate)).shell = machine.shell := shell_release gate
            exact same ▸ mindful
        | step => exact mindful_tick prepared mindful engaged running

end Machine

namespace Annals

/-- What is noted starts on a fresh line. -/
theorem Course.isFresh_complete {Note : Type} {annals : Annals Note} {machine : Machine}
    {called : List (Nat × Rat)} {run : Nat} {moves : List Move} {notes : List Note}
    (course : annals.Course run machine moves notes) (prepared : machine.Prepared called) :
    ∀ note ∈ notes, (annals.before note).complete.terminal.IsFresh := by
  refine course.forall_mem (fun machine _ => ∃ called, machine.Prepared called)
    (fun note => (annals.before note).complete.terminal.IsFresh) ?_ ?_ prepared.regular
    ⟨called, prepared⟩
  · rintro machine - move moves - ⟨called, prepared⟩
    exact ⟨_, Machine.prepared_make prepared move⟩
  · rintro machine - move moves note - ⟨called, prepared⟩ told
    obtain ⟨running, state, job, -, before⟩ := told.exists_actedOn prepared.regular
    rw [before]
    exact (Machine.mindful_actedOn (prepared.mindful running) state job).isFresh_complete

/-- What is noted of a run on a course from the start: it is determined by the course, account of
the run is kept by it, and it starts on a fresh line, on which nothing at all stands if no text
ends inside a control sequence. -/
theorem Lawful.exists_course {Note : Type} {annals : Annals Note} {shell : Shell} {run : Nat}
    {state : Run} (lawful : annals.Lawful) (reachable : Reachable (.start shell))
    (moves : List Move)
    (found : ((Machine.start shell).makeAll moves).runs[run]? = some state)
    (kind : state.launch.kind = annals.kind) :
    ((Machine.start shell).makeAll moves).Regular ((Machine.start shell).calls moves) ∧
      ∃ notes, (∀ others, annals.Course run (.start shell) moves others ↔ others = notes) ∧
        annals.Minds (((Machine.start shell).makeAll moves).docket run)
          ((Machine.start shell).calls moves) ((Machine.start shell).sendsAll run moves) notes ∧
        (∀ note ∈ notes, (annals.before note).complete.terminal.IsFresh) ∧
        ((∀ deed ∈ (Machine.start shell).deedsAll moves, deed.Whole) →
          ∀ note ∈ notes, (annals.before note).complete.terminal.lastLine = []) := by
  have start := reachable.sound.machine
  have regular := Machine.regular_start start
  have poised : (Machine.start shell).Poised := fun running =>
    absurd (start.active.mp running) Bool.false_ne_true
  obtain ⟨notes, course, attests⟩ :=
    attests_makeAll lawful regular (attests_start annals shell run) moves
  have minds := attests fun other here => by
    obtain rfl := Option.some.inj (found.symm.trans here)
    exact kind
  exact ⟨Machine.regular_makeAll regular moves, notes,
    fun others => ⟨fun told => told.unique course, fun same => same ▸ course⟩, minds,
    course.isFresh_complete (Machine.prepared_start start),
    course.lastLine_complete regular poised⟩

end Annals

end LineShell
