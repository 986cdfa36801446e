/-
Module: LineShell.Proofs.Shell.Typing
Purpose: A line that is typed in whatever pieces and then submitted comes to the same as the
  line submitted whole, but for what was shown while it was typed.
Main exports: Typeable, Shell.reactions, Shell.frames, Shell.Types, Shell.SameBut,
  Shell.types_inputAll, Shell.sameBut_of_types
-/
import LineShell.CommandLine.Session
import LineShell.Proofs.Shell.Blind

namespace LineShell

/-!
The shell in which a line has been typed differs from the one that is given the line whole
in what is on the terminal, in the suggestion, and in whether a line starts at the cursor.  To
end a line forgets the last two, and nothing depends on the first.
-/

/-! ### Text without keys -/

/-- Whether no character of a text does anything but stand for itself when it is typed. -/
def Typeable (text : Text) : Prop :=
  ∀ c ∈ text, c ∉ ['\r', '\n', '\x1b', '\x7f', '"', '\x27']

instance {text : Text} : Decidable (Typeable text) :=
  List.decidableBAll (fun c => c ∉ ['\r', '\n', '\x1b', '\x7f', '"', '\x27']) text

theorem ofText?_of_typeable {event : Text} (typeable : Typeable event) :
    Key.ofText? event = none := by
  cases event with
  | nil => rfl
  | cons c rest =>
      have first := typeable c List.mem_cons_self
      simp only [List.mem_cons, List.not_mem_nil, or_false, not_or] at first
      simp only [Key.ofText?, controlSequence, escape, List.cons.injEq, first, false_and, or_self,
        if_false]

theorem Console.sink_write (console : Console) (text : Text) :
    (console.write text).terminal.sink = console.terminal.sink := by
  unfold write
  split <;> rfl

namespace Shell

/-! ### Many events -/

/-- What events lead to that are given to a shell one after the other. -/
def reactions (shell : Shell) (scheduled : Bool) : List Text → List Reaction
  | [] => []
  | event :: events =>
      let (reaction, after) := shell.input scheduled event
      reaction :: after.reactions scheduled events

/-- What is written while pieces of text are typed one after the other: the line is shown
anew after each of them. -/
def frames (shell : Shell) (scheduled : Bool) : List Text → Text
  | [] => []
  | piece :: pieces =>
      let after := (shell.input scheduled piece).2
      after.frame ++ after.frames scheduled pieces

/-- A text has been typed at the end of the line, and nothing else has happened but that the
line was shown. -/
def Types (before : Shell) (text shown : Text) (after : Shell) : Prop :=
  ∃ console suggestion,
    console.prompt = before.console.prompt ∧
    console.terminal.sink = before.console.terminal.sink ∧
    console.terminal.recorded = before.console.terminal.recorded ++ shown ∧
    after = { before with
      console := console
      buffer := Buffer.ofText (before.buffer.text ++ text)
      suggestion := suggestion }

variable {shell : Shell} {scheduled : Bool}

theorem insert_ofText (text piece : Text) :
    (Buffer.ofText text).insert piece = Buffer.ofText (text ++ piece) := by
  simp [Buffer.insert, Buffer.insertBehind, Buffer.ofText]

theorem typed_of_typeable {piece : Text} (typeable : Typeable piece) :
    shell.typed scheduled piece = (.done, shell.edit (·.insert piece)) := by
  rw [typed, ofText?_of_typeable typeable]
  dsimp only
  cases piece with
  | nil =>
      have same : shell.buffer.insert [] = shell.buffer := by
        simp [Buffer.insert, Buffer.insertBehind]
      exact congrArg (fun buffer => (Reaction.done, { shell with buffer := buffer })) same.symm
  | cons c rest => rw [if_neg (by simp)]

theorem input_of_typeable (idle : shell.activity = .idle) {piece : Text}
    (typeable : Typeable piece) :
    shell.input scheduled piece = (.done, (shell.edit (·.insert piece)).repaint) := by
  have still : (shell.edit (·.insert piece)).activity = .idle := idle
  rw [input_of_idle idle, typed_of_typeable typeable, showAnew, still]

theorem sink_repaint (shell : Shell) :
    shell.repaint.console.terminal.sink = shell.console.terminal.sink := by
  have kept : ∀ (pieces : List Text) (console : Console),
      (pieces.foldl Console.write console).terminal.sink = console.terminal.sink := by
    intro pieces
    induction pieces with
    | nil => exact fun console => rfl
    | cons piece pieces ih => exact fun console => (ih _).trans (console.sink_write piece)
  simp only [repaint, writeLine, withConsole]
  cases suggestionFor shell.options shell.history shell.buffer.text with
  | none => simp only [Console.sink_write, kept, Console.showPrompt]; rfl
  | some rest => simp only [Console.sink_write, kept, Console.showPrompt]; rfl

/-- Typing one piece of text at the end of the line. -/
theorem types_input (scheduled : Bool) (idle : shell.activity = .idle)
    (last : shell.buffer = Buffer.ofText shell.buffer.text) {piece : Text}
    (typeable : Typeable piece) :
    (shell.input scheduled piece).1 = .done ∧
      shell.Types piece (shell.input scheduled piece).2.frame (shell.input scheduled piece).2 := by
  rw [input_of_typeable idle typeable]
  refine ⟨rfl, (shell.edit (·.insert piece)).repaint.console,
    (shell.edit (·.insert piece)).repaint.suggestion, ?_, ?_, ?_, ?_⟩
  · exact prompt_repaint _
  · exact sink_repaint _
  · dsimp only
    rw [frame_repaint]
    exact recorded_repaint _
  · have inserted : shell.buffer.insert piece = Buffer.ofText (shell.buffer.text ++ piece) := by
      rw [← insert_ofText, ← last]
    rw [← inserted]
    rfl

/-- Typing pieces of text at the end of the line. -/
theorem types_inputAll (scheduled : Bool) (idle : shell.activity = .idle)
    (last : shell.buffer = Buffer.ofText shell.buffer.text) {pieces : List Text}
    (typeable : ∀ piece ∈ pieces, Typeable piece) :
    (∀ reaction ∈ shell.reactions scheduled pieces, reaction = .done) ∧
      shell.Types pieces.flatten (shell.frames scheduled pieces)
        (shell.inputAll scheduled pieces) := by
  induction pieces generalizing shell with
  | nil =>
      refine ⟨nofun, shell.console, shell.suggestion, rfl, rfl, (List.append_nil _).symm, ?_⟩
      rw [List.flatten_nil, List.append_nil, ← last]
      rfl
  | cons piece pieces ih =>
      obtain ⟨here, there⟩ := List.forall_mem_cons.mp typeable
      have first := types_input scheduled idle last here
      rw [reactions, frames, inputAll, List.foldl_cons]
      dsimp only
      generalize shell.input scheduled piece = result at first ⊢
      obtain ⟨reaction, after⟩ := result
      obtain ⟨rfl, console, suggestion, prompt, sink, written, rfl⟩ := first
      let typed : Shell := { shell with
        console := console
        suggestion := suggestion
        buffer := Buffer.ofText (shell.buffer.text ++ piece) }
      have still : typed.activity = .idle := idle
      obtain ⟨nothing, console', suggestion', prompt', sink', written', last'⟩ := ih still rfl there
      refine ⟨List.forall_mem_cons.mpr ⟨rfl, nothing⟩, console', suggestion', prompt'.trans prompt,
        sink'.trans sink, ?_, ?_⟩
      · rw [written', written, List.append_assoc]
      · rw [List.flatten_cons, ← List.append_assoc]
        exact last'

/-! ### Submitting -/

/-- Whether two shells are the same but for what was on their terminals before. -/
structure SameBut (before before' : Terminal) (shell shell' : Shell) : Prop where
  same : shell = { shell' with
    console := { shell'.console with terminal := shell.console.terminal } }
  /-- The same was written from there on. -/
  written : shell.console.terminal.recordedSince before =
    shell'.console.terminal.recordedSince before'

theorem sameBut_onto (before before' : Terminal) (shell : Shell) :
    SameBut before before' (shell.onto before) (shell.onto before') :=
  ⟨rfl, (Terminal.recordedSince_onto _ _).trans (Terminal.recordedSince_onto _ _).symm⟩

/-- Of the shell in which a line is submitted only the line and what is left when it has been
ended matter. -/
theorem input_congr {other : Shell} (idle : shell.activity = .idle)
    (idle' : other.activity = .idle) {event event' : Text}
    (submits : event = ['\r'] ∨ event = ['\n']) (submits' : event' = ['\r'] ∨ event' = ['\n'])
    (text : shell.buffer.text = other.buffer.text) (ended : shell.endLine = other.endLine) :
    shell.input scheduled event = other.input scheduled event' := by
  have same : shell.submit scheduled = other.submit scheduled := by
    unfold submit
    rw [text, ended]
  rw [input_of_idle idle, input_of_idle idle', typed_submit submits, typed_submit submits', same]

/-- Cut off from what was on the terminal, the line that has been typed and the line that is
given whole come to the very same. -/
theorem input_erased_of_types (idle : shell.activity = .idle) (empty : shell.buffer.text = [])
    {line shown : Text} {typed : Shell} (types : shell.Types line shown typed)
    {event event' : Text} (submits : event = ['\r'] ∨ event = ['\n'])
    (submits' : event' = ['\r'] ∨ event' = ['\n']) :
    typed.erased.input scheduled event =
      { shell with buffer := Buffer.ofText line }.erased.input scheduled event' := by
  obtain ⟨⟨terminal, prompt, started⟩, suggestion, rfl, sink, -, rfl⟩ := types
  let whole : Shell := { shell with buffer := Buffer.ofText line }
  let typed : Shell := { shell with
    console := { terminal := terminal, prompt := shell.console.prompt, atLineStart := started }
    buffer := Buffer.ofText (shell.buffer.text ++ line)
    suggestion := suggestion }
  have still : typed.erased.activity = .idle := idle
  have still' : whole.erased.activity = .idle := idle
  have text : typed.erased.buffer.text = whole.erased.buffer.text := by
    change shell.buffer.text ++ line = line
    rw [empty]
    rfl
  -- To show the line once more starts a line, and what was suggested is forgotten.
  have ended : typed.erased.endLine = whole.erased.endLine := by
    have sink : terminal.sink = shell.console.terminal.sink := sink
    simp only [typed, whole, erased, sink, empty, List.nil_append]
    rfl
  exact input_congr still still' submits submits' text ended

/-- The line that has been typed and the line that is given whole come to the same. -/
theorem sameBut_of_types (idle : shell.activity = .idle) (empty : shell.buffer.text = [])
    {line shown : Text} {typed : Shell} (types : shell.Types line shown typed)
    {event event' : Text} (submits : event = ['\r'] ∨ event = ['\n'])
    (submits' : event' = ['\r'] ∨ event' = ['\n']) :
    let whole : Shell := { shell with buffer := Buffer.ofText line }
    (typed.input scheduled event).1 = (whole.input scheduled event').1 ∧
      SameBut typed.console.terminal shell.console.terminal (typed.input scheduled event).2
        (whole.input scheduled event').2 := by
  intro whole
  have since : typed.input scheduled event = _ :=
    typed.erased.input_onto typed.console.terminal scheduled event
  have since' : whole.input scheduled event' = _ :=
    whole.erased.input_onto shell.console.terminal scheduled event'
  rw [since, since', input_erased_of_types idle empty types submits submits']
  exact ⟨rfl, sameBut_onto _ _ _⟩

end Shell

end LineShell
