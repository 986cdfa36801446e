/-
Module: LineShell.Proofs.Shell.Repaint
Purpose: What is written when the line being typed is shown anew, and that the cursor is
  put where it stands in the line.
Main exports: Shell.segment, Shell.frame, Shell.recorded_repaint, Buffer.Within,
  Shell.within_input, Shell.LinesUp, Shell.linesUp
-/
import LineShell.Proofs.Editor.Layout
import LineShell.Proofs.Shell.Activity
import LineShell.Proofs.Terminal.Written

namespace LineShell

namespace Shell

variable (shell : Shell)

/-! ### Showing the line anew -/

/-- The line being typed as it is written, in colours as far as it can be read. -/
def segment : Text :=
  (lineSegments shell.programs shell.buffer.text).flatten

/-- The suggestion as it is written, if there is one. -/
def suggested : Text :=
  match suggestionFor shell.options shell.history shell.buffer.text with
  | none => []
  | some rest => paint rest .grey

/-- What is written when the line is shown anew. -/
def frame : Text :=
  cursorLeftEdge ++ eraseLine ++ paint shell.console.prompt.shown .purple ++ shell.segment ++
    shell.suggested ++ cursorLeftEdge ++
    cursorRight (shell.console.promptWidth + shell.buffer.cursor : Nat)

/-- The prompt and the line behind it, at the left edge. -/
theorem recorded_writeLine :
    (shell.withConsole fun console => console.reset.showPrompt).writeLine.console.terminal.recorded =
      shell.console.terminal.recorded ++
        (cursorLeftEdge ++ eraseLine ++ paint shell.console.prompt.shown .purple ++
          shell.segment) := by
  simp only [writeLine, withConsole, Console.recorded_foldl_write, Console.recorded_showPrompt,
    Console.recorded_reset, Console.prompt_reset, List.append_assoc, segment]

theorem prompt_writeLine :
    (shell.withConsole fun console => console.reset.showPrompt).writeLine.console.prompt =
      shell.console.prompt := by
  simp only [writeLine, withConsole, Console.prompt_foldl_write, Console.prompt_showPrompt,
    Console.prompt_reset]

/-- Painting the line anew writes its frame, and nothing else. -/
theorem recorded_repaint :
    shell.repaint.console.terminal.recorded = shell.console.terminal.recorded ++ shell.frame := by
  have shown := shell.recorded_writeLine
  have prompt := shell.prompt_writeLine
  rw [repaint]
  dsimp only [withConsole] at shown prompt ⊢
  rw [frame, suggested]
  cases suggestionFor shell.options shell.history shell.buffer.text with
  | none =>
      simp only [Console.recorded_write, Console.promptWidth, prompt, shown, List.append_assoc,
        List.nil_append]
  | some rest =>
      simp only [Console.recorded_write, Console.prompt_write, Console.promptWidth, prompt, shown,
        List.append_assoc]

theorem prompt_repaint : shell.repaint.console.prompt = shell.console.prompt := by
  have prompt := shell.prompt_writeLine
  rw [repaint]
  dsimp only [withConsole] at prompt ⊢
  rw [Console.prompt_write, Console.prompt_write]
  cases suggestionFor shell.options shell.history shell.buffer.text with
  | none => exact prompt
  | some rest => exact (Console.prompt_write _ _).trans prompt

/-- Showing the line a second time writes the same. -/
theorem frame_repaint : shell.repaint.frame = shell.frame := by
  rw [frame, frame, Console.promptWidth, Console.promptWidth, prompt_repaint]
  rfl

end Shell

/-! ### The cursor in the line -/

/-- Whether the cursor stands in the line or at its end. -/
def Buffer.Within (buffer : Buffer) : Prop :=
  buffer.cursor ≤ buffer.text.length

namespace Buffer

variable {buffer : Buffer}

theorem within_ofText (text : Text) : (ofText text).Within :=
  Nat.le_refl _

/-- What is inserted stands in front of the cursor. -/
theorem Within.insert (within : buffer.Within) (data : Text) : (buffer.insert data).Within := by
  simp only [Within, Buffer.insert, insertBehind, List.length_append, List.length_take,
    List.length_drop] at within ⊢
  omega

theorem Within.moveRight (within : buffer.Within) : buffer.moveRight.Within := by
  unfold Buffer.moveRight
  split
  · next inside => exact inside
  · exact within

theorem Within.insertPair (within : buffer.Within) (pair : Text) :
    (buffer.insertPair pair).Within := by
  refine Within.moveRight ?_
  simp only [Within, insertBehind, List.length_append, List.length_take, List.length_drop]
    at within ⊢
  omega

theorem Within.deleteLeft (within : buffer.Within) : buffer.deleteLeft.Within := by
  unfold Buffer.deleteLeft
  split
  · simp only [Within, List.length_append, List.length_take, List.length_drop] at within ⊢
    omega
  · exact within

theorem Within.deleteRight (within : buffer.Within) : buffer.deleteRight.Within := by
  unfold Buffer.deleteRight
  split
  · simp only [Within, List.length_append, List.length_take, List.length_drop] at within ⊢
    omega
  · exact within

end Buffer

namespace Shell

variable {shell : Shell}

/-! ### Input keeps the cursor in the line -/

/-- A line that is submitted leaves nothing behind in the buffer. -/
theorem buffer_submit (shell : Shell) (scheduled : Bool) :
    (shell.submit scheduled).2.buffer = Buffer.empty := by
  unfold submit
  dsimp only
  split
  · rfl
  · split
    · exact (leaves_execute _ scheduled _).2
    · rfl

/-- A suggestion is accepted with the cursor behind it. -/
theorem within_moveRightOrAccept (within : shell.buffer.Within) :
    shell.moveRightOrAccept.buffer.Within := by
  unfold moveRightOrAccept
  split
  · exact within.moveRight
  · split
    · exact within
    · exact within.insert _

theorem within_historyUp (within : shell.buffer.Within) : shell.historyUp.buffer.Within := by
  unfold historyUp
  dsimp only
  split
  · exact Buffer.within_ofText _
  · exact within

theorem within_historyDown : shell.historyDown.buffer.Within := by
  unfold historyDown
  dsimp only
  split
  · exact Buffer.within_ofText _
  · exact Nat.le_refl _

/-- No key moves the cursor out of the line. -/
theorem within_press (within : shell.buffer.Within) (scheduled : Bool) (key : Key) :
    (shell.press scheduled key).2.buffer.Within := by
  cases key with
  | submit =>
      rw [press, buffer_submit]
      exact Nat.le_refl _
  | escape => exact within
  | backspace => exact within.deleteLeft
  | left => exact Nat.le_trans (Nat.sub_le _ _) within
  | right => exact within_moveRightOrAccept within
  | up => exact within_historyUp within
  | down => exact within_historyDown
  | delete => exact within.deleteRight
  | home => exact Nat.zero_le _
  | last => exact Nat.le_refl _
  | doubleQuote => exact within.insertPair _
  | singleQuote => exact within.insertPair _

theorem within_typed (within : shell.buffer.Within) (scheduled : Bool) (event : Text) :
    (shell.typed scheduled event).2.buffer.Within := by
  unfold typed
  split
  · exact within_press within scheduled _
  · dsimp only
    split
    · exact within
    · exact within.insert event

/-- Neither does any event. -/
theorem within_input (within : shell.buffer.Within) (scheduled : Bool) (event : Text) :
    (shell.input scheduled event).2.buffer.Within := by
  cases active : shell.activity with
  | running => rwa [shell.input_of_running scheduled active]
  | idle =>
      have kept := within_typed within scheduled event
      rw [input_of_idle active]
      rcases showAnew_cases (shell.typed scheduled event) with same | same
      · rwa [same]
      · rw [same]
        exact kept

/-! ### The line and the buffer -/

/-- What holds of a shell whose line is shown anew, if no control sequence begins in its
buffer: what is written, where the cursor is put, and that the line is shown column by
column. -/
structure LinesUp (shell : Shell) : Prop where
  written : shell.repaint.console.terminal.recorded = shell.console.terminal.recorded ++
    (cursorLeftEdge ++ eraseLine ++ paint shell.console.prompt.shown .purple ++ shell.segment ++
      (shell.repaint.suggestion.elim [] (paint · .grey)) ++ cursorLeftEdge ++
      cursorRight (shell.console.prompt.width + shell.buffer.cursor : Nat))
  cursor : shell.buffer.cursor ≤ shell.buffer.text.length
  /-- As many characters are shown as there are in the buffer, -/
  length : (visible shell.segment).length = shell.buffer.text.length
  /-- and they are those of the buffer, but for white space between parameters. -/
  columns : ∀ (index : Nat) (c : Char), shell.buffer.text[index]? = some c →
    (visible shell.segment)[index]? = some c ∨
      (isBlank c = true ∧ (visible shell.segment)[index]? = some ' ' ∧
        shell.buffer.text.InGap index)
  /-- A highlighted command takes the columns up to where highlighting it ends. -/
  width : ∀ command rest, parse shell.buffer.text = .ok (command, rest) →
    visibleWidth (Highlight.command shell.programs.contains command) = Highlight.stop command

/-- Whenever the line is shown anew, it lines up with the buffer. -/
theorem linesUp (within : shell.buffer.Within) (plain : Plain shell.buffer.text) :
    shell.LinesUp := by
  have tracks := tracks_lineSegments shell.programs plain
  refine ⟨?_, within, tracks.length_eq, fun index c found => ?_,
    fun command rest parses => visibleWidth_highlight _ plain parses⟩
  · have suggestion : shell.repaint.suggestion =
        suggestionFor shell.options shell.history shell.buffer.text := rfl
    rw [recorded_repaint, frame, suggested, suggestion, Console.promptWidth]
    cases suggestionFor shell.options shell.history shell.buffer.text <;> rfl
  · have shown := tracks.getElem? found
    rwa [Nat.zero_add] at shown

end Shell

end LineShell
