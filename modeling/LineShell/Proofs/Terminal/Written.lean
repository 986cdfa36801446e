/-
Module: LineShell.Proofs.Terminal.Written
Purpose: What each operation of a console adds to the record of its terminal.
Main exports: Console.recorded_write, Console.recorded_println, Console.recorded_foldl_write
-/
import LineShell.Terminal.Console

namespace LineShell

namespace Console

variable (console : Console)

/-- What is written is recorded behind what was written before. -/
@[simp] theorem recorded_write (text : Text) :
    (console.write text).terminal.recorded = console.terminal.recorded ++ text := by
  cases text with
  | nil => exact (List.append_nil _).symm
  | cons c text => exact console.terminal.recorded_write (c :: text)

@[simp] theorem prompt_write (text : Text) : (console.write text).prompt = console.prompt := by
  cases text <;> rfl

@[simp] theorem recorded_println (text : Text) :
    (console.println text).terminal.recorded = console.terminal.recorded ++ (text ++ lineEnd) := by
  rw [println, recorded_write, recorded_write, List.append_assoc]

/-- Two control sequences put the cursor at the start of its line and empty that line. -/
@[simp] theorem recorded_reset :
    console.reset.terminal.recorded =
      console.terminal.recorded ++ (cursorLeftEdge ++ eraseLine) := by
  simp [reset]

@[simp] theorem prompt_reset : console.reset.prompt = console.prompt := rfl

@[simp] theorem recorded_showPrompt :
    console.showPrompt.terminal.recorded =
      console.terminal.recorded ++ paint console.prompt.shown .purple :=
  console.recorded_write _

@[simp] theorem prompt_showPrompt : console.showPrompt.prompt = console.prompt :=
  console.prompt_write _

/-- Texts that are written one by one are recorded as if they were one. -/
theorem recorded_foldl_write (pieces : List Text) :
    (pieces.foldl write console).terminal.recorded =
      console.terminal.recorded ++ pieces.flatten := by
  induction pieces generalizing console with
  | nil => exact (List.append_nil _).symm
  | cons piece pieces ih => rw [List.foldl_cons, ih, recorded_write, List.flatten_cons,
      List.append_assoc]

theorem prompt_foldl_write (pieces : List Text) :
    (pieces.foldl write console).prompt = console.prompt := by
  induction pieces generalizing console with
  | nil => rfl
  | cons piece pieces ih => rw [List.foldl_cons, ih, prompt_write]

/-- A console that has ended a line stands where a line starts. -/
theorem complete_println (text : Text) :
    (console.println text).complete = console.println text := by
  have ended : (console.println text).atLineStart = true := rfl
  rw [complete, if_pos ended]

end Console

end LineShell
