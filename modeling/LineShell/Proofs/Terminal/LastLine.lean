/-
Module: LineShell.Proofs.Terminal.LastLine
Purpose: What stands on the line on which the cursor is, and that a console which claims to
  stand where a line starts has nothing there.
Main exports: Terminal.shown, Terminal.lastLine, Console.Truthful, Console.Truthful.write,
  Console.lastLine_println, Console.Truthful.lastLine_complete, Terminal.IsFresh,
  Console.Mindful.isFresh_complete
-/
import LineShell.Proofs.Terminal.Sequences
import LineShell.Terminal.Console

namespace LineShell

/-!
A console does not remember what it has written; one bit tells it whether the last of it
ended a line.  The bit is set and cleared by whole writes: it looks at the width of a text
and at its last character alone.  That suffices as long as no text ends inside a control
sequence, since then the last character is shown.
-/

/-! ### The last line -/

/-- The part of a text behind its last newline. -/
def Text.behindNewline (text : Text) : Text :=
  (text.reverse.takeWhile (· ≠ '\n')).reverse

/-- The visible characters of pieces, newest first, since the last one that wiped the
terminal.  A stream is wiped by a piece that erases the screen. -/
def shownBy (sink : Sink) : List Text → Text
  | [] => []
  | piece :: older =>
      if sink = .stream ∧ piece = eraseScreen then [] else shownBy sink older ++ visible piece

/-- The visible characters that were written since the terminal was wiped. -/
def Terminal.shown (terminal : Terminal) : Text :=
  shownBy terminal.sink terminal.pieces

/-- The visible characters that were written since the last newline or wipe. -/
def Terminal.lastLine (terminal : Terminal) : Text :=
  terminal.shown.behindNewline

theorem behindNewline_concat (text : Text) : (text ++ ['\n']).behindNewline = [] := by
  simp [Text.behindNewline]

/-- Nothing stands behind a newline at the end. -/
theorem behindNewline_of_getLast? {text : Text} (newline : text.getLast? = some '\n') :
    text.behindNewline = [] := by
  obtain ⟨front, rfl⟩ := List.getLast?_eq_some_iff.mp newline
  exact behindNewline_concat front

/-- What ends with a newline outside control sequences ends with it for the eye, too. -/
theorem getLast?_visible {text : Text} (whole : endsOutside text = true)
    (newline : text.getLast? = some '\n') : (visible text).getLast? = some '\n' := by
  induction text using unit_induction with
  | nil => cases newline
  | single c rest single ih =>
      rw [visible_single single]
      rw [endsOutside_single single] at whole
      cases rest with
      | nil => exact newline
      | cons d rest =>
          rw [List.getLast?_cons_cons] at newline
          have shown : ([c] ++ visible (d :: rest)).getLast? = some '\n' :=
            getLast?_append_of_getLast? (ih whole newline)
          exact shown
  | sequence body final rest inside ends ih =>
      rw [visible_controlSequence body final inside ends]
      rw [endsOutside_sequence inside ends] at whole
      exact ih whole (getLast?_of_sequence ends (by decide) newline)
  | unfinished body inside =>
      rw [endsOutside_unfinished inside] at whole
      cases whole

namespace Terminal

variable {terminal : Terminal} {text : Text}

theorem shown_write : (terminal.write text).shown =
    if terminal.sink = .stream ∧ text = eraseScreen then [] else terminal.shown ++ visible text :=
  rfl

/-- Nothing stands behind a newline. -/
theorem lastLine_write_of_newline (newline : (visible text).getLast? = some '\n') :
    (terminal.write text).lastLine = [] := by
  rw [lastLine, shown_write]
  split
  · rfl
  · exact behindNewline_of_getLast? (getLast?_append_of_getLast? newline)

/-- What is not visible leaves an empty line empty. -/
theorem lastLine_write_of_hidden (hidden : visible text = []) (none : terminal.lastLine = []) :
    (terminal.write text).lastLine = [] := by
  rw [lastLine, shown_write]
  split
  · rfl
  · rw [hidden, List.append_nil]
    exact none

@[simp] theorem lastLine_clear (terminal : Terminal) : terminal.clear.lastLine = [] := by
  obtain ⟨sink, pieces, wipes⟩ := terminal
  cases sink with
  | memory => rfl
  | stream =>
      change Terminal.lastLine (Terminal.write _ eraseScreen) = []
      rw [lastLine, shown_write, if_pos ⟨rfl, rfl⟩]
      rfl

end Terminal

/-! ### Consoles -/

namespace Console

variable {console : Console} {text : Text}

/-- Whether nothing stands on the line if a console claims to stand where a line starts. -/
def Truthful (console : Console) : Prop :=
  console.atLineStart = true → console.terminal.lastLine = []

theorem truthful_of_lastLine (none : console.terminal.lastLine = []) : console.Truthful :=
  fun _ => none

/-- A text that does not end inside a control sequence keeps a console truthful. -/
theorem Truthful.write (truthful : console.Truthful) (whole : endsOutside text = true) :
    (console.write text).Truthful := by
  unfold Console.write
  split
  · exact truthful
  · intro claims
    dsimp only at claims ⊢
    split at claims
    · next hidden =>
        rw [← length_visible] at hidden
        exact Terminal.lastLine_write_of_hidden (List.length_eq_zero_iff.mp hidden)
          (truthful claims)
    · exact Terminal.lastLine_write_of_newline (getLast?_visible whole (by simpa using claims))

/-- A line that has been ended leaves nothing, whatever was written. -/
@[simp] theorem lastLine_println (console : Console) (text : Text) :
    (console.println text).terminal.lastLine = [] :=
  Terminal.lastLine_write_of_newline rfl

@[simp] theorem lastLine_clear (console : Console) : console.clear.terminal.lastLine = [] :=
  console.terminal.lastLine_clear

/-- A dangling line is ended. -/
theorem Truthful.lastLine_complete (truthful : console.Truthful) :
    console.complete.terminal.lastLine = [] := by
  unfold complete
  split
  · next claims => exact truthful claims
  · exact console.lastLine_println []

end Console

/-! ### Text by text -/

/-- Whether a text that is sent to a terminal ends a line, or wipes the terminal. -/
def Sink.endsLine (sink : Sink) (text : Text) : Bool :=
  text.getLast? == some '\n' || (sink == .stream && text == eraseScreen)

namespace Terminal

variable {terminal : Terminal} {text : Text}

/-- The texts that were sent to a terminal since the last one that ended a line or wiped it. -/
def sinceNewline (terminal : Terminal) : List Text :=
  terminal.pieces.takeWhile fun text => !terminal.sink.endsLine text

/-- Whether none of them shows anything. -/
def IsFresh (terminal : Terminal) : Prop :=
  ∀ text ∈ terminal.sinceNewline, visible text = []

theorem sinceNewline_write : (terminal.write text).sinceNewline =
    if terminal.sink.endsLine text then [] else text :: terminal.sinceNewline := by
  cases ends : terminal.sink.endsLine text <;> simp [sinceNewline, write, ends]

theorem isFresh_write_of_endsLine (ends : terminal.sink.endsLine text = true) :
    (terminal.write text).IsFresh := by
  rw [IsFresh, sinceNewline_write, if_pos ends]
  exact fun _ member => absurd member List.not_mem_nil

/-- What is not visible leaves a line fresh. -/
theorem IsFresh.write (fresh : terminal.IsFresh) (hidden : visible text = []) :
    (terminal.write text).IsFresh := by
  rw [IsFresh, sinceNewline_write]
  split
  · exact fun _ member => absurd member List.not_mem_nil
  · exact List.forall_mem_cons.mpr ⟨hidden, fresh⟩

theorem isFresh_clear (terminal : Terminal) : terminal.clear.IsFresh := by
  obtain ⟨sink, pieces, wipes⟩ := terminal
  cases sink with
  | memory => exact fun _ member => absurd member List.not_mem_nil
  | stream => exact isFresh_write_of_endsLine rfl

end Terminal

namespace Console

variable {console : Console} {text : Text}

/-- Whether a line is fresh if a console claims to stand where a line starts. -/
def Mindful (console : Console) : Prop :=
  console.atLineStart = true → console.terminal.IsFresh

/-- Whatever is written, a console stays mindful. -/
theorem Mindful.write (mindful : console.Mindful) (text : Text) : (console.write text).Mindful := by
  unfold Console.write
  split
  · exact mindful
  · intro claims
    dsimp only at claims ⊢
    split at claims
    · next hidden =>
        rw [← length_visible] at hidden
        exact (mindful claims).write (List.length_eq_zero_iff.mp hidden)
    · exact Terminal.isFresh_write_of_endsLine (by rw [Sink.endsLine, claims, Bool.true_or])

theorem isFresh_println (console : Console) (text : Text) :
    (console.println text).terminal.IsFresh :=
  Terminal.isFresh_write_of_endsLine rfl

theorem mindful_println (console : Console) (text : Text) : (console.println text).Mindful :=
  fun _ => console.isFresh_println text

theorem mindful_clear (console : Console) : console.clear.Mindful :=
  fun _ => console.terminal.isFresh_clear

/-- A dangling line is ended. -/
theorem Mindful.isFresh_complete (mindful : console.Mindful) :
    console.complete.terminal.IsFresh := by
  unfold complete
  split
  · next claims => exact mindful claims
  · exact console.isFresh_println []

theorem Mindful.complete (mindful : console.Mindful) : console.complete.Mindful :=
  fun _ => mindful.isFresh_complete

end Console

end LineShell
