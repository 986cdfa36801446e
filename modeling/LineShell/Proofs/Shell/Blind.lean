/-
Module: LineShell.Proofs.Shell.Blind
Purpose: A shell is blind: nothing that it does depends on what is on its terminal.
Main exports: Terminal.onto, Console.onto, Shell.onto, Terminal.recordedSince_onto,
  Shell.submit_onto, Shell.input_onto
-/
import LineShell.Proofs.Shell.Submission

namespace LineShell

/-!
What was written to a terminal is never read again.  So a shell can be cut off from what was
on its terminal before an event, and the event comes to the same on top of anything else.
-/

/-- A terminal on which `earlier` stood before all that was written to it.  If the memory
has been wiped since, that is gone as well. -/
def Terminal.onto (terminal earlier : Terminal) : Terminal :=
  { terminal with
    pieces := if terminal.wipes = 0 then terminal.pieces ++ earlier.pieces else terminal.pieces
    wipes := earlier.wipes + terminal.wipes }

/-- A console whose terminal has something before. -/
def Console.onto (earlier : Terminal) (console : Console) : Console :=
  { console with terminal := console.terminal.onto earlier }

/-- A shell whose terminal has something before. -/
def Shell.onto (earlier : Terminal) (shell : Shell) : Shell :=
  { shell with console := shell.console.onto earlier }

/-- A shell on a terminal of the same kind to which nothing was written. -/
def Shell.erased (shell : Shell) : Shell :=
  { shell with
    console := { shell.console with terminal := { sink := shell.console.terminal.sink } } }

namespace Terminal

variable (earlier terminal : Terminal)

theorem write_onto (text : Text) :
    (terminal.onto earlier).write text = (terminal.write text).onto earlier := by
  by_cases kept : terminal.wipes = 0
  · simp [onto, write, kept]
  · simp [onto, write, kept]

/-- A terminal of the memory kind is wiped, and then nothing stands before. -/
theorem clear_onto : (terminal.onto earlier).clear = terminal.clear.onto earlier := by
  obtain ⟨sink, pieces, wipes⟩ := terminal
  cases sink with
  | memory => rfl
  | stream => exact write_onto _ _ _

/-- What was written since is what is on the terminal that has nothing before. -/
theorem recordedSince_onto : (terminal.onto earlier).recordedSince earlier = terminal.recorded := by
  unfold recordedSince
  by_cases kept : terminal.wipes = 0
  · rw [if_pos (by simp [onto, kept])]
    simp [onto, kept, recorded]
  · rw [if_neg (by simpa [onto] using kept)]
    simp [onto, kept, recorded]

end Terminal

namespace Console

variable (earlier : Terminal) (console : Console)

theorem write_onto (text : Text) :
    (console.onto earlier).write text = (console.write text).onto earlier := by
  unfold write
  split
  · rfl
  · simp only [onto, Terminal.write_onto]

/-- A console judges each text by itself, so what stood before has no part in it. -/
theorem println_onto (text : Text) :
    (console.onto earlier).println text = (console.println text).onto earlier := by
  rw [println, println, write_onto, write_onto]

theorem clear_onto : (console.onto earlier).clear = console.clear.onto earlier := by
  simp only [clear, onto, Terminal.clear_onto]

theorem reset_onto : (console.onto earlier).reset = console.reset.onto earlier := by
  simp only [reset, onto, Terminal.write_onto]

theorem showPrompt_onto : (console.onto earlier).showPrompt = console.showPrompt.onto earlier :=
  console.write_onto earlier _

/-- Whether a line is dangling is known to the console, and not looked up on the terminal. -/
theorem complete_onto : (console.onto earlier).complete = console.complete.onto earlier := by
  unfold complete
  rw [println_onto]
  exact (apply_ite (onto earlier) _ _ _).symm

/-- Shows a suggestion, if there is one. -/
def suggest (console : Console) (suggestion : Option Text) : Console :=
  suggestion.elim console fun rest => console.write (paint rest .grey)

theorem suggest_onto (suggestion : Option Text) :
    (console.onto earlier).suggest suggestion = (console.suggest suggestion).onto earlier := by
  cases suggestion with
  | none => rfl
  | some rest => exact console.write_onto earlier (paint rest .grey)

/-- Puts the cursor in its place in the line. -/
def place (console : Console) (cursor : Nat) : Console :=
  (console.write cursorLeftEdge).write (cursorRight (console.promptWidth + cursor : Nat))

theorem place_onto (cursor : Nat) :
    (console.onto earlier).place cursor = (console.place cursor).onto earlier := by
  simp only [place, write_onto]
  rfl

end Console

/-! ### Builtin programs -/

namespace Environment

/-- An environment whose terminal has something before. -/
def onto (earlier : Terminal) (environment : Environment) : Environment :=
  { environment with console := environment.console.onto earlier }

variable (earlier : Terminal) (environment : Environment)

/-- What an act of a builtin program does, and whether it fails, is the same on any terminal. -/
theorem perform_onto (act : BuiltinAct) :
    (environment.onto earlier).perform act = (environment.perform act).map (onto earlier) := by
  cases act with
  | write text =>
      exact congrArg (fun console => Except.ok { environment with console := console })
        (environment.console.write_onto earlier text)
  | clear =>
      exact congrArg (fun console => Except.ok { environment with console := console })
        (environment.console.clear_onto earlier)
  | completeLine =>
      exact congrArg (fun console => Except.ok { environment with console := console })
        (environment.console.complete_onto earlier)
  | aliasProgram name target =>
      simp only [perform, onto]
      cases environment.programs.get? target <;> rfl
  | setVariable | unsetVariable | removeProgram | call => rfl

/-- The first act that fails is the same one on any terminal. -/
theorem performAll_onto (acts : List BuiltinAct) :
    (environment.onto earlier).performAll acts =
      Prod.map id (onto earlier) (environment.performAll acts) := by
  induction acts generalizing environment with
  | nil => rfl
  | cons act others ih =>
      rw [performAll, performAll, perform_onto]
      cases environment.perform act with
      | ok next => exact ih next
      | error fault => rfl

end Environment

theorem BuiltinScript.play_onto (script : BuiltinScript) (earlier : Terminal)
    (environment : Environment) :
    script.play (environment.onto earlier) =
      Prod.map id (Environment.onto earlier) (script.play environment) := by
  rw [play, play, Environment.performAll_onto]
  rcases environment.performAll script.acts with ⟨_ | fault, left⟩
  · rfl
  · rfl

namespace Shell

variable (earlier : Terminal) (shell : Shell)

/-! ### Showing the line -/

theorem withConsole_onto {change : Console → Console}
    (blind : ∀ console, change (console.onto earlier) = (change console).onto earlier) :
    (shell.onto earlier).withConsole change = (shell.withConsole change).onto earlier :=
  congrArg (fun console => { shell with console := console }) (blind shell.console)

theorem report_onto (fault : Fault) :
    (shell.onto earlier).report fault = (shell.report fault).onto earlier := by
  refine shell.withConsole_onto earlier fun console => ?_
  rw [Console.complete_onto, Console.println_onto]

theorem writeLine_onto : (shell.onto earlier).writeLine = shell.writeLine.onto earlier :=
  shell.withConsole_onto earlier fun _ =>
    List.foldl_hom (Console.onto earlier) fun console text => console.write_onto earlier text

/-- The prompt and the line behind it. -/
theorem shown_onto :
    ((shell.onto earlier).withConsole fun console => console.reset.showPrompt).writeLine =
      (shell.withConsole fun console => console.reset.showPrompt).writeLine.onto earlier := by
  rw [← writeLine_onto]
  refine congrArg writeLine (shell.withConsole_onto earlier fun console => ?_)
  rw [Console.reset_onto, Console.showPrompt_onto]

/-- A line is painted first, and then a suggestion is looked for and shown behind it. -/
theorem repaint_eq (shell : Shell) :
    let shown := (shell.withConsole fun console => console.reset.showPrompt).writeLine
    let suggestion := suggestionFor shell.options shell.history shell.buffer.text
    shell.repaint = ({ shown.withConsole (·.suggest suggestion) with
      suggestion := suggestion } : Shell).withConsole (·.place shell.buffer.cursor) := by
  unfold repaint
  cases suggestionFor shell.options shell.history shell.buffer.text <;> rfl

/-- The frame of a line is painted from the line, and not from what is on the terminal. -/
theorem repaint_onto : (shell.onto earlier).repaint = shell.repaint.onto earlier := by
  let suggestion := suggestionFor shell.options shell.history shell.buffer.text
  let suggests : Console → Console := (·.suggest suggestion)
  let places : Console → Console := (·.place shell.buffer.cursor)
  let shown := (shell.withConsole fun console => console.reset.showPrompt).writeLine
  have suggested := (congrArg (withConsole · suggests) (shell.shown_onto earlier)).trans
    (shown.withConsole_onto earlier fun console => console.suggest_onto earlier suggestion)
  rw [repaint_eq, repaint_eq]
  refine Eq.trans (congrArg (fun painted : Shell =>
    withConsole { painted with suggestion := suggestion } places) suggested) ?_
  exact withConsole_onto earlier { shown.withConsole suggests with suggestion := suggestion }
    fun console => console.place_onto earlier _

theorem endLine_onto : (shell.onto earlier).endLine = shell.endLine.onto earlier := by
  unfold endLine
  dsimp only
  rw [shown_onto, withConsole_onto earlier _ fun console => console.println_onto earlier _]
  rfl

/-! ### Carrying out a line -/

theorem runBuiltin_onto (name : Text) (script : BuiltinScript) :
    (shell.onto earlier).runBuiltin name script =
      Prod.map id (onto earlier) (shell.runBuiltin name script) := by
  have played := script.play_onto earlier
    { console := shell.console, store := shell.store, programs := shell.programs,
      calls := shell.journal.calls }
  simp only [runBuiltin, onto, Environment.onto] at played ⊢
  rw [played]
  generalize script.play _ = played
  obtain ⟨result, left⟩ := played
  cases result with
  | ok status => rfl
  | error fault =>
      let ran : Shell := { shell with
        console := left.console
        store := left.store
        programs := left.programs
        journal := { shell.journal with calls := left.calls } }
      exact congrArg (Prod.mk _) (report_onto earlier (ran.warn _) _)

theorem refuse_onto (name : Text) :
    (shell.onto earlier).refuse name = Prod.map id (onto earlier) (shell.refuse name) :=
  congrArg (Prod.mk _)
    (report_onto earlier
      (shell.warn ("cannot start " ++ name ++ " without a running event loop")) _)

/-- Carrying out a verdict on the line being typed. -/
theorem carriedOut_onto (verdict : Verdict) :
    (shell.onto earlier).carriedOut verdict =
      Prod.map id (onto earlier) (shell.carriedOut verdict) := by
  have committed : (shell.onto earlier).committed = shell.committed.onto earlier := by
    rw [Shell.committed, endLine_onto]
    rfl
  have prints : ∀ text, (shell.committed.onto earlier).withConsole (·.println text) =
      (shell.committed.withConsole (·.println text)).onto earlier := fun text =>
    shell.committed.withConsole_onto earlier fun console => console.println_onto earlier text
  cases verdict with
  | blank => exact congrArg (Prod.mk _) (shell.endLine_onto earlier)
  | rejected fault =>
      rw [carriedOut, carriedOut, committed, prints]
      rfl
  | unknown name =>
      rw [carriedOut, carriedOut, committed, prints]
      rfl
  | refused name =>
      rw [carriedOut, carriedOut, committed, refuse_onto]
      rfl
  | unmade fault => exact congrArg (Prod.mk _) committed
  | builtin name script =>
      rw [carriedOut, carriedOut, committed, runBuiltin_onto]
      rfl
  | launched launch =>
      rw [carriedOut, carriedOut, committed]
      rfl

/-- A line that is submitted comes to the same on any terminal. -/
theorem submit_onto (scheduled : Bool) :
    (shell.onto earlier).submit scheduled =
      Prod.map id (onto earlier) (shell.submit scheduled) := by
  rw [submit_eq, submit_eq]
  exact shell.carriedOut_onto earlier _

/-! ### Input events -/

/-- So does every other key. -/
theorem press_onto (scheduled : Bool) (key : Key) :
    (shell.onto earlier).press scheduled key =
      Prod.map id (onto earlier) (shell.press scheduled key) := by
  cases key with
  | submit => exact shell.submit_onto earlier scheduled
  | right =>
      refine congrArg (Prod.mk _) ?_
      have suggestion : (shell.onto earlier).suggestion = shell.suggestion := rfl
      have buffer : (shell.onto earlier).buffer = shell.buffer := rfl
      unfold moveRightOrAccept
      rw [suggestion, buffer]
      split
      · rfl
      · cases shell.suggestion <;> rfl
  | escape | backspace | left | up | down | delete | home | last | doubleQuote
  | singleQuote => rfl

theorem showAnew_onto (reaction : Reaction) (after : Shell) :
    showAnew (reaction, after.onto earlier) =
      Prod.map id (onto earlier) (showAnew (reaction, after)) := by
  have kept : (after.onto earlier).activity = after.activity := rfl
  unfold showAnew
  dsimp only
  rw [kept, repaint_onto]
  cases reaction <;> cases after.activity <;> rfl

/-- An input event comes to the same whatever is on the terminal. -/
theorem input_onto (scheduled : Bool) (event : Text) :
    (shell.onto earlier).input scheduled event =
      Prod.map id (onto earlier) (shell.input scheduled event) := by
  have same : (shell.onto earlier).typed scheduled event =
      Prod.map id (onto earlier) (shell.typed scheduled event) := by
    unfold typed
    split
    · exact shell.press_onto earlier scheduled _
    · refine congrArg (Prod.mk _) ?_
      split <;> rfl
  cases active : shell.activity with
  | running =>
      have still : (shell.onto earlier).activity = .running := active
      rw [input_of_running _ _ active, input_of_running _ _ still]
      rfl
  | idle =>
      have still : (shell.onto earlier).activity = .idle := active
      rw [input_of_idle active, input_of_idle still, same]
      rcases shell.typed scheduled event with ⟨reaction, after⟩
      exact showAnew_onto earlier reaction after

end Shell

end LineShell
