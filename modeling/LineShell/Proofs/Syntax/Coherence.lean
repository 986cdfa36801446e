/-
Module: LineShell.Proofs.Syntax.Coherence
Purpose: Line, column and index of a position never get out of step: wherever reading has gone
  on, failed or gone back, every position that it shows is counted right in the text.
Main exports: LastLineFeed, Position.Coherent, Position.On, Position.On.coherent,
  Identifier.spans .. Comment.spans, ReadingCall, called, Reader.InStep, StaysInStep, Marks,
  positions_coherent
-/
import LineShell.Proofs.Syntax.Recovery

namespace LineShell

/-!
Nobody computes a line or a column from an index.  The three numbers are counted together when
the cursor goes on, put back together when a rule is given up, and remembered together with an
error.  So it is enough that every position that there is has once been that of a cursor in this
text: the text up to it was passed over character by character from the first position on.
-/

/-! ### Positions in a text -/

/-- Whether a line feed is the last one in front of an index. -/
structure LastLineFeed (text : Text) (index last : Nat) : Prop where
  before : last < index
  found : text[last]? = some '\n'
  latest : ∀ later, last < later → later < index → text[later]? ≠ some '\n'

namespace Position

/-- Whether line and column of a position are those of its index. -/
structure Coherent (text : Text) (position : Position) : Prop where
  bounded : position.index ≤ text.length
  line : position.line = 1 + (text.take position.index).count '\n'
  column : (∃ last, LastLineFeed text position.index last ∧
      position.column = position.index - last) ∨
    '\n' ∉ text.take position.index ∧ position.column = position.index + 1

/-- Whether a position is the place behind some front of a text. -/
def On (text : Text) (position : Position) : Prop :=
  ∃ front, front <+: text ∧ position = after {} front

/-- Every line feed that is passed over is one line more. -/
theorem after_line (position : Position) (piece : Text) :
    (position.after piece).line = position.line + piece.count '\n' := by
  induction piece generalizing position with
  | nil => rfl
  | cons c piece ih =>
      rw [after_cons, ih, advance, List.count_cons]
      by_cases newline : c = '\n'
      · subst newline
        simp
        omega
      · simp [newline]

/-- Within a line every character is one column. -/
theorem after_column {piece : Text} (plain : '\n' ∉ piece) (position : Position) :
    (position.after piece).column = position.column + piece.length := by
  induction piece generalizing position with
  | nil => rfl
  | cons c piece ih =>
      obtain ⟨other, plain⟩ := List.ne_and_not_mem_of_not_mem_cons plain
      have next : (position.advance c).column = position.column + 1 := by
        rw [advance, if_neg (Ne.symm other)]
      rw [after_cons, ih plain, next, List.length_cons, Nat.add_assoc, Nat.add_comm 1]

/-- A text without a line feed, or one split at its last. -/
theorem plain_or_split (text : Text) :
    '\n' ∉ text ∨ ∃ lines rest, text = lines ++ '\n' :: rest ∧ '\n' ∉ rest := by
  by_cases plain : '\n' ∈ text
  · obtain ⟨rest, lines, split, plain⟩ :=
      List.eq_append_cons_of_mem (List.mem_reverse.mpr plain)
    refine .inr ⟨lines.reverse, rest.reverse, ?_, ?_⟩
    · rw [← List.reverse_reverse text, split]
      simp
    · rwa [List.mem_reverse]
  · exact .inl plain

/-- What was counted on the way is what can be counted afterwards. -/
theorem On.coherent {text : Text} {position : Position} (on : position.On text) :
    position.Coherent text := by
  obtain ⟨front, ⟨rest, rfl⟩, rfl⟩ := on
  have index : (after {} front).index = front.length := by simp
  refine ⟨?_, ?_, ?_⟩
  · rw [index, List.length_append]
    exact Nat.le_add_right _ _
  · rw [index, List.take_left, after_line]
  · rw [index, List.take_left]
    -- The column starts anew behind the last line feed, so the front is split there.
    rcases plain_or_split front with plain | ⟨lines, last, rfl, plain⟩
    · exact .inr ⟨plain, by rw [after_column plain, Nat.add_comm]⟩
    · refine .inl ⟨lines.length, ⟨?_, ?_, ?_⟩, ?_⟩
      · simp
      · simp
      · intro later behind before found
        rw [List.getElem?_append_left before,
          List.getElem?_append_right (Nat.le_of_lt behind)] at found
        obtain ⟨more, gap⟩ : ∃ more, later - lines.length = more + 1 :=
          ⟨later - lines.length - 1, by omega⟩
        rw [gap, List.getElem?_cons_succ] at found
        exact plain (List.mem_of_getElem? found)
      · have first : ((after {} lines).advance '\n').column = 1 := by rw [advance, if_pos rfl]
        rw [after_append, after_cons, after_column plain, first, List.length_append,
          List.length_cons]
        omega

end Position

/-! ### Stretches of a tree -/

/-! All stretches that a node and the nodes in it record. -/

def Identifier.spans (id : Identifier) : List Span :=
  [id.span]

def Reference.spans (mention : Reference) : List Span :=
  mention.span :: mention.id.spans

def Literal.spans (run : Literal) : List Span :=
  [run.span]

def Part.spans : Part → List Span
  | .literal run => run.spans
  | .reference mention => mention.spans

def Body.spans (body : Body) : List Span :=
  body.span :: body.parts.flatMap Part.spans

def RawText.spans (raw : RawText) : List Span :=
  [raw.span]

def Template.spans : Template → List Span
  | .unquoted body => body.spans
  | .singleQuoted raw => raw.spans
  | .doubleQuoted body => body.spans

def Switch.spans (switch : Switch) : List Span :=
  switch.span :: (switch.name.spans ++ switch.value.toList.flatMap Template.spans)

def Param.spans : Param → List Span
  | .literal template span => span :: template.spans
  | .shortSwitch switch => switch.spans
  | .longSwitch switch => switch.spans

def Parameter.spans (parameter : Parameter) : List Span :=
  parameter.span :: parameter.param.spans

def Parameters.spans (parameters : Parameters) : List Span :=
  parameters.span :: parameters.params.flatMap Parameter.spans

def ProgramName.spans (program : ProgramName) : List Span :=
  program.span :: program.id.spans

def Command.spans (command : Command) : List Span :=
  command.span :: (command.program.spans ++ command.parameters.toList.flatMap Parameters.spans)

def Comment.spans (comment : Comment) : List Span :=
  [comment.span]

/-! ### Calls -/

/-- A call of a reader: of a primitive step, of a rule of the grammar, of one of the two ways of
reading, of two calls one behind the other, or of a call that is put back if it fails. -/
inductive ReadingCall where
  | advance
  | expect (c : Char)
  | fail (expectation : Expectation)
  | skipBlanks
  | identifier
  | looseIdentifier
  | reference
  | templateLiteral (quoted : Bool)
  | singleDollar
  | templatePart (quoted : Bool)
  | templateBody (quoted : Bool)
  | rawText
  | singleQuoted
  | doubleQuoted
  | unquoted
  | template
  | switch
  | shortSwitch
  | longSwitch
  | literal
  | parameter
  | parameters
  | programName
  | command
  | comment
  | leadingCommand
  | wholeCommand
  | both (first second : ReadingCall)
  | attempt (call : ReadingCall)
  | restoring (call : ReadingCall)
deriving DecidableEq, Repr, Inhabited

/-- What is called.  Of the node that it yields only the stretches are kept. -/
def called : ReadingCall → Rule (List Span)
  | .advance => (fun _ => []) <$> advance
  | .expect c => (fun _ => []) <$> expect c
  | .fail expectation => fail expectation
  | .skipBlanks => (fun _ => []) <$> skipBlanks
  | .identifier => Identifier.spans <$> identifier
  | .looseIdentifier => Identifier.spans <$> looseIdentifier
  | .reference => Reference.spans <$> reference
  | .templateLiteral quoted => Literal.spans <$> templateLiteral quoted
  | .singleDollar => Literal.spans <$> singleDollar
  | .templatePart quoted => Part.spans <$> templatePart quoted
  | .templateBody quoted => Body.spans <$> templateBody quoted
  | .rawText => RawText.spans <$> rawText
  | .singleQuoted => Template.spans <$> singleQuoted
  | .doubleQuoted => Template.spans <$> doubleQuoted
  | .unquoted => Template.spans <$> unquoted
  | .template => Template.spans <$> template
  | .switch => Switch.spans <$> switch
  | .shortSwitch => Param.spans <$> shortSwitch
  | .longSwitch => Param.spans <$> longSwitch
  | .literal => Param.spans <$> literal
  | .parameter => Parameter.spans <$> parameter
  | .parameters => Parameters.spans <$> parameters
  | .programName => ProgramName.spans <$> programName
  | .command => Command.spans <$> command
  | .comment => Comment.spans <$> comment
  | .leadingCommand => Command.spans <$> leadingCommand
  | .wholeCommand => Command.spans <$> wholeCommand
  | .both first second => do return (← called first) ++ (← called second)
  | .attempt call => (fun found => found.getD []) <$> attempt (called call)
  | .restoring call => restoring (called call)

/-- The position that a fault speaks about, if it is about the text. -/
def ReadFault.position? : ReadFault → Option Position
  | .malformed error => some error.position
  | .pastEnd => none

/-- The positions that are shown to the caller: those of the stretches, or that of the error. -/
def shown : Except ReadFault (List Span) → List Position
  | .ok spans => spans.flatMap fun span => [span.start, span.stop]
  | .error fault => fault.position?.toList

namespace Reader

/-- What a call answers, and the reader behind it, whether the call succeeded or failed. -/
def answer (reader : Reader) (call : ReadingCall) : Except ReadFault (List Span) × Reader :=
  match called call reader with
  | .ok spans after => (.ok spans, after)
  | .error fault after => (.error fault, after)

/-- The reader behind any calls one after the other. -/
def calls (reader : Reader) (calls : List ReadingCall) : Reader :=
  calls.foldl (fun reader call => (reader.answer call).2) reader

end Reader

/-! ### Readers in step -/

/-- Whether a reader stands at a place of a text, and remembers an error at a place of it. -/
structure Reader.InStep (text : Text) (reader : Reader) : Prop where
  cursor : ∃ index, reader.At text index
  furthest : ∀ error ∈ reader.furthest, error.position.On text

/-- Whether a stretch runs from a place of a text to a place of it. -/
def Span.On (text : Text) (span : Span) : Prop :=
  span.start.On text ∧ span.stop.On text

namespace Reader.InStep

variable {text : Text} {reader before after : Reader}

/-- Reading starts at the first position, and has met no error. -/
theorem start (text : Text) : (Reader.start text).InStep text :=
  ⟨⟨0, [], rfl, rfl, rfl⟩, fun _ none => nomatch none⟩

/-- The cursor stands in the text. -/
theorem on (inStep : reader.InStep text) : reader.position.On text := by
  obtain ⟨⟨index, front, split, -, place⟩, -⟩ := inStep
  exact ⟨front, ⟨_, split.symm⟩, place⟩

/-- The index of the cursor is where reading stands. -/
theorem rest (inStep : reader.InStep text) : reader.rest = text.drop reader.position.index := by
  obtain ⟨⟨index, at'⟩, -⟩ := inStep
  exact at'.index_eq ▸ at'.rest

/-- Going on keeps a reader in step as long as it notes no error. -/
theorem onward (inStep : before.InStep text) (onward : before.Onward after)
    (same : after.furthest = before.furthest) : after.InStep text := by
  obtain ⟨⟨index, at'⟩, furthest⟩ := inStep
  obtain ⟨stop, -, -, behind⟩ := at'.onward onward
  exact ⟨⟨stop, behind⟩, same ▸ furthest⟩

/-- An error that is noted is remembered with its place. -/
theorem noteError {error : SyntaxError} (inStep : reader.InStep text)
    (on : error.position.On text) : (reader.noteError error).InStep text := by
  obtain ⟨⟨index, at'⟩, furthest⟩ := inStep
  refine ⟨⟨index, at'.stays (stays_noteError reader error)⟩, ?_⟩
  unfold Reader.noteError
  split
  · rintro _ ⟨⟩
    exact on
  · split
    · rintro _ ⟨⟩
      exact on
    · exact furthest

/-- Going back is to a place of the text, too, and forgets no error. -/
theorem back (inStep : before.InStep text) (later : after.InStep text) :
    (before.putBack after).InStep text :=
  ⟨inStep.cursor, later.furthest⟩

end Reader.InStep

/-! ### Rules that stay in step -/

/-- How a rule ends in step with a text: with a value that is good, or with an error at a place
of the text, and in both cases with a reader in step. -/
def EndsInStep {α : Type} (text : Text) (good : α → Prop) :
    EStateM.Result ReadFault Reader α → Prop
  | .ok value after => good value ∧ after.InStep text
  | .error fault after => (∀ position ∈ fault.position?, position.On text) ∧ after.InStep text

/-- Whether a rule that is called on a reader in step with a text ends in step with it. -/
def StaysInStep {α : Type} (text : Text) (good : α → Prop) (rule : Rule α) : Prop :=
  ∀ before : Reader, before.InStep text → EndsInStep text good (rule before)

/-- Whether a rule stays in step, and all stretches in what it yields are in the text. -/
abbrev Marks {α : Type} (text : Text) (spans : α → List Span) (rule : Rule α) : Prop :=
  StaysInStep text (fun value => ∀ span ∈ spans value, span.On text) rule

/-- Whether a rule stays in step, whatever it yields. -/
abbrev Moves {α : Type} (text : Text) (rule : Rule α) : Prop :=
  StaysInStep text (fun _ => True) rule

section Composition

variable {α β : Type} {text : Text} {good : α → Prop} {rule : Rule α}

/-- What one rule has yielded may be used by the next. -/
theorem StaysInStep.bind {fine : β → Prop} {next : α → Rule β} (first : StaysInStep text good rule)
    (second : ∀ value, good value → StaysInStep text fine (next value)) :
    StaysInStep text fine (rule >>= next) :=
  fun before inStep => result_bind (first before inStep)
    (fun value between ends => second value ends.1 between ends.2) fun _ _ ends => ends

theorem StaysInStep.map {fine : β → Prop} {change : α → β}
    (stays : StaysInStep text (fun value => fine (change value)) rule) :
    StaysInStep text fine (change <$> rule) :=
  fun before inStep => result_map (stays before inStep) (fun _ _ ends => ends) fun _ _ ends => ends

theorem StaysInStep.mono {fine : α → Prop} (stays : StaysInStep text good rule)
    (weaker : ∀ value, good value → fine value) : StaysInStep text fine rule :=
  fun before inStep => result_mono (stays before inStep)
    (fun value _ ends => ⟨weaker value ends.1, ends.2⟩) fun _ _ ends => ends

theorem StaysInStep.discard (stays : StaysInStep text good rule) : Moves text (discard rule) := by
  have moves : StaysInStep text (fun _ => True) rule := stays.mono fun _ _ => trivial
  exact moves.map

/-- A value without stretches marks nothing. -/
theorem Moves.unmarked (moves : Moves text rule) : Marks text id ((fun _ => []) <$> rule) :=
  StaysInStep.map (moves.mono fun _ _ _ none => nomatch none)

theorem inStep_pure {value : α} (fine : good value) : StaysInStep text good (pure value : Rule α) :=
  fun _ inStep => ⟨fine, inStep⟩

/-- A failure that speaks about a place in the text is in step. -/
theorem inStep_throw {fault : ReadFault} (on : ∀ position ∈ fault.position?, position.On text) :
    StaysInStep text good (throw fault : Rule α) :=
  fun _ inStep => ⟨on, inStep⟩

/-- A place that is remembered, to begin a node there, is one in the text. -/
theorem inStep_from_here {next : Position → Rule α}
    (stays : ∀ position, position.On text → StaysInStep text good (next position)) :
    StaysInStep text good (here >>= next) :=
  fun before inStep => stays before.position inStep.on before inStep

theorem inStep_from_get {next : Reader → Rule α}
    (stays : ∀ reader : Reader, reader.InStep text → StaysInStep text good (next reader)) :
    StaysInStep text good (get >>= next) :=
  fun before inStep => stays before inStep before inStep

theorem inStep_from_peek {next : Option Char → Rule α}
    (stays : ∀ first, StaysInStep text good (next first)) : StaysInStep text good (peek >>= next) :=
  fun before => stays before.rest.head? before

/-- A node ends at the cursor. -/
theorem inStep_node {node : Span → α} {start : Position} (on : start.On text)
    (fine : ∀ span, span.On text → good (node span)) :
    StaysInStep text good (do return node (← spanFrom start)) :=
  fun _ inStep => ⟨fine _ ⟨on, inStep.on⟩, inStep⟩

/-! ### Primitive rules -/

/-- A rule that gives up notes the error at the cursor. -/
theorem inStep_fail (expectation : Expectation) :
    StaysInStep text good (fail expectation : Rule α) := by
  intro before inStep
  refine ⟨?_, inStep.noteError inStep.on⟩
  rintro _ ⟨⟩
  exact inStep.on

theorem moves_advance : Moves text advance := by
  rintro ⟨rest, position, furthest⟩ inStep
  cases rest with
  | nil => exact ⟨fun _ none => (nomatch none), inStep⟩
  | cons c rest => exact ⟨trivial, inStep.onward ⟨[c], rfl, rfl⟩ rfl⟩

theorem moves_expect (c : Char) : Moves text (expect c) := by
  refine inStep_from_peek fun first => ?_
  split
  · exact moves_advance.discard
  · exact inStep_fail (.char c)

/-- A run is passed over character by character, however it is taken. -/
theorem moves_takeWhile (test : Char → Bool) : Moves text (takeWhile test) :=
  fun _ inStep =>
    ⟨trivial, inStep.onward ⟨_, List.takeWhile_append_dropWhile.symm, rfl⟩ rfl⟩

theorem moves_skipBlanks : Moves text skipBlanks :=
  (moves_takeWhile isBlank).bind fun _ _ => inStep_pure trivial

/-! ### Backtracking -/

/-- A rule that goes back does so to where it was called. -/
theorem StaysInStep.restoring (stays : StaysInStep text good rule) :
    StaysInStep text good (restoring rule) :=
  fun before inStep => result_restoring (stays before inStep) (fun _ _ ends => ends)
    fun _ _ ends => ⟨ends.1, inStep.back ends.2⟩

/-- A rule that is tried yields what is good, if it yields anything. -/
theorem StaysInStep.attempt (stays : StaysInStep text good rule) :
    StaysInStep text (fun found => ∀ value ∈ found, good value) (attempt rule) := by
  intro before inStep
  refine result_attempt (stays before inStep) (fun value _ ends => ⟨?_, ends.2⟩)
    (fun _ _ ends => ⟨fun _ none => (nomatch none), inStep.back ends.2⟩)
    fun _ ends => ⟨ends.1, inStep.back ends.2⟩
  rintro _ ⟨⟩
  exact ends.1

/-- Every alternative begins where the ones before were given up. -/
theorem inStep_firstOf (expectation : Expectation) {rules : List (Rule α)}
    (each : ∀ rule ∈ rules, StaysInStep text good rule) :
    StaysInStep text good (firstOf expectation rules) := by
  induction rules with
  | nil => exact inStep_fail expectation
  | cons rule others ih =>
      obtain ⟨first, each⟩ := List.forall_mem_cons.mp each
      refine first.attempt.bind fun found fine => ?_
      cases found with
      | none => exact ih each
      | some value => exact inStep_pure (fine value rfl)

end Composition

/-! ### The rules of the grammar -/

section Grammar

variable {text : Text}

theorem marks_nameOf (test : Char → Bool) (expectation : Expectation) :
    Marks text Identifier.spans (nameOf test expectation) := by
  refine inStep_from_here fun start on => (moves_takeWhile test).bind fun name _ => ?_
  split
  · exact inStep_fail expectation
  · exact inStep_node on fun span on => List.forall_mem_singleton.mpr on

theorem marks_reference : Marks text Reference.spans reference := by
  refine StaysInStep.restoring (inStep_from_here fun start on => ?_)
  refine (moves_expect '$').bind fun _ _ => ?_
  refine (marks_nameOf isNameChar .identifier).bind fun id marked => ?_
  exact inStep_node on fun span on => List.forall_mem_cons.mpr ⟨on, marked⟩

theorem marks_templateLiteral (quoted : Bool) :
    Marks text Literal.spans (templateLiteral quoted) := by
  refine inStep_from_here fun start on =>
    (moves_takeWhile (continuesRun quoted)).bind fun run _ => ?_
  split
  · exact inStep_fail .text
  · exact inStep_node on fun span on => List.forall_mem_singleton.mpr on

theorem marks_singleDollar : Marks text Literal.spans singleDollar :=
  inStep_from_here fun _ on => (moves_expect '$').bind fun _ _ =>
    inStep_node on fun _ on => List.forall_mem_singleton.mpr on

theorem marks_templatePart (quoted : Bool) : Marks text Part.spans (templatePart quoted) := by
  refine inStep_firstOf .templatePart (forall_mem_three ?_ ?_ ?_)
  · exact (marks_templateLiteral quoted).map
  · exact marks_reference.map
  · exact marks_singleDollar.map

/-- By induction on the rounds: each of the parts was found in step. -/
theorem marks_templateParts (quoted : Bool) (limit : Nat) :
    Marks text (List.flatMap Part.spans) (templateParts quoted limit) := by
  induction limit with
  | zero => exact inStep_pure fun _ none => nomatch none
  | succ limit ih =>
      refine (marks_templatePart quoted).attempt.bind fun found marked => ?_
      cases found with
      | none => exact inStep_pure fun _ none => nomatch none
      | some part =>
          refine ih.bind fun parts others => inStep_pure ?_
          exact List.forall_mem_append.mpr ⟨marked part rfl, others⟩

theorem marks_templateBody (quoted : Bool) : Marks text Body.spans (templateBody quoted) := by
  refine inStep_from_here fun start on => inStep_from_get fun reader _ => ?_
  refine (marks_templateParts quoted _).bind fun parts marked => ?_
  split
  · exact inStep_fail .template
  · exact inStep_node on fun span on => List.forall_mem_cons.mpr ⟨on, marked⟩

theorem marks_rawText : Marks text RawText.spans rawText :=
  inStep_from_here fun _ on => (moves_takeWhile _).bind fun _ _ =>
    inStep_node on fun _ on => List.forall_mem_singleton.mpr on

theorem marks_singleQuoted : Marks text Template.spans singleQuoted := by
  refine StaysInStep.restoring ((moves_expect '\x27').bind fun _ _ => ?_)
  refine marks_rawText.bind fun raw marked => ?_
  exact (moves_expect '\x27').bind fun _ _ => inStep_pure marked

theorem marks_doubleQuoted : Marks text Template.spans doubleQuoted := by
  refine StaysInStep.restoring ((moves_expect '"').bind fun _ _ => ?_)
  refine (marks_templateBody true).bind fun body marked => ?_
  exact (moves_expect '"').bind fun _ _ => inStep_pure marked

theorem marks_unquoted : Marks text Template.spans unquoted :=
  (marks_templateBody false).map

theorem marks_template : Marks text Template.spans template := by
  refine inStep_firstOf .template (forall_mem_three ?_ ?_ ?_)
  · exact marks_singleQuoted
  · exact marks_doubleQuoted
  · exact marks_unquoted

/-- Without a value the rule fails behind the equals sign, and is still in step there. -/
theorem marks_switch : Marks text Switch.spans switch := by
  refine inStep_from_here fun start on => ?_
  refine (marks_nameOf isLooseNameChar .name).bind fun name marked => ?_
  refine inStep_from_peek fun first => ?_
  split
  · refine moves_advance.discard.bind fun _ _ => marks_template.bind fun value marked' => ?_
    refine inStep_node on fun span on => List.forall_mem_cons.mpr ⟨on, ?_⟩
    refine List.forall_mem_append.mpr ⟨marked, ?_⟩
    rwa [Option.toList_some, List.flatMap_singleton]
  · refine inStep_node on fun span on => List.forall_mem_cons.mpr ⟨on, ?_⟩
    exact List.forall_mem_append.mpr ⟨marked, fun _ none => nomatch none⟩

theorem marks_shortSwitch : Marks text Param.spans shortSwitch := by
  refine StaysInStep.restoring ((moves_expect '-').bind fun _ _ => inStep_from_peek fun first => ?_)
  split
  · exact inStep_fail .switchName
  · exact marks_switch.bind fun switch marked => inStep_pure marked

theorem marks_longSwitch : Marks text Param.spans longSwitch := by
  refine StaysInStep.restoring ((moves_expect '-').bind fun _ _ => ?_)
  refine (moves_expect '-').bind fun _ _ => ?_
  exact marks_switch.bind fun switch marked => inStep_pure marked

theorem marks_literal : Marks text Param.spans literal :=
  inStep_from_here fun _ on => marks_template.bind fun _ marked =>
    inStep_node on fun _ on => List.forall_mem_cons.mpr ⟨on, marked⟩

theorem marks_parameter : Marks text Parameter.spans parameter := by
  refine inStep_from_here fun start on => ?_
  have marks : Marks text Param.spans (firstOf .parameter [shortSwitch, longSwitch, literal]) := by
    refine inStep_firstOf .parameter (forall_mem_three ?_ ?_ ?_)
    · exact marks_shortSwitch
    · exact marks_longSwitch
    · exact marks_literal
  exact marks.bind fun param marked =>
    inStep_node on fun span on => List.forall_mem_cons.mpr ⟨on, marked⟩

theorem marks_moreParameters (limit : Nat) :
    Marks text (List.flatMap Parameter.spans) (moreParameters limit) := by
  induction limit with
  | zero => exact inStep_pure fun _ none => nomatch none
  | succ limit ih =>
      refine moves_skipBlanks.bind fun blanks _ => ?_
      split
      · exact inStep_pure fun _ none => nomatch none
      · refine marks_parameter.attempt.bind fun found marked => ?_
        cases found with
        | none => exact inStep_pure fun _ none => nomatch none
        | some first =>
            refine ih.bind fun params others => inStep_pure ?_
            exact List.forall_mem_append.mpr ⟨marked first rfl, others⟩

theorem marks_parameters : Marks text Parameters.spans parameters := by
  refine inStep_from_here fun start on => marks_parameter.bind fun first marked => ?_
  refine inStep_from_get fun reader _ => (marks_moreParameters _).bind fun others marked' => ?_
  refine inStep_node on fun span on => List.forall_mem_cons.mpr ⟨on, ?_⟩
  exact List.forall_mem_append.mpr ⟨marked, marked'⟩

theorem marks_programName : Marks text ProgramName.spans programName :=
  inStep_from_here fun _ on => (marks_nameOf isLooseNameChar .name).bind fun _ marked =>
    inStep_node on fun _ on => List.forall_mem_cons.mpr ⟨on, marked⟩

theorem marks_command : Marks text Command.spans command := by
  refine inStep_from_here fun start on => marks_programName.bind fun program marked => ?_
  refine moves_skipBlanks.discard.bind fun _ _ => ?_
  refine marks_parameters.attempt.bind fun found marked' => ?_
  refine inStep_node on fun span on => List.forall_mem_cons.mpr ⟨on, ?_⟩
  refine List.forall_mem_append.mpr ⟨marked, ?_⟩
  cases found with
  | none => exact fun _ none => nomatch none
  | some parameters =>
      rw [Option.toList_some, List.flatMap_singleton]
      exact marked' parameters rfl

theorem marks_comment : Marks text Comment.spans comment :=
  (moves_expect '#').bind fun _ _ => inStep_from_here fun _ on =>
    (moves_takeWhile _).bind fun _ _ =>
      inStep_node on fun _ on => List.forall_mem_singleton.mpr on

theorem marks_leadingCommand : Marks text Command.spans leadingCommand := by
  refine moves_skipBlanks.discard.bind fun _ _ => marks_command.bind fun command marked => ?_
  exact marks_comment.attempt.discard.bind fun _ _ => inStep_pure marked

/-- The error that was met furthest into the text is one of those that were remembered. -/
theorem marks_wholeCommand : Marks text Command.spans wholeCommand := by
  refine marks_leadingCommand.bind fun command marked => ?_
  refine moves_skipBlanks.discard.bind fun _ _ => inStep_from_get fun reader inStep => ?_
  have plain (found : Char) : ∀ position ∈ (ReadFault.malformed
      { position := reader.position, found := some found, expected := none }).position?,
      position.On text := by
    rintro _ ⟨⟩
    exact inStep.on
  split
  · exact inStep_pure marked
  · next found rest left =>
      split
      · exact inStep_throw (plain found)
      · next furthest known =>
          split
          · refine inStep_throw ?_
            rintro _ ⟨⟩
            exact inStep.furthest furthest known
          · exact inStep_throw (plain found)

/-- Whatever is called stays in step. -/
theorem marks_called (call : ReadingCall) : Marks text id (called call) := by
  induction call with
  | advance => exact moves_advance.unmarked
  | expect c => exact (moves_expect c).unmarked
  | fail expectation => exact inStep_fail expectation
  | skipBlanks => exact moves_skipBlanks.unmarked
  | identifier => exact (marks_nameOf isNameChar .identifier).map
  | looseIdentifier => exact (marks_nameOf isLooseNameChar .name).map
  | reference => exact marks_reference.map
  | templateLiteral quoted => exact (marks_templateLiteral quoted).map
  | singleDollar => exact marks_singleDollar.map
  | templatePart quoted => exact (marks_templatePart quoted).map
  | templateBody quoted => exact (marks_templateBody quoted).map
  | rawText => exact marks_rawText.map
  | singleQuoted => exact marks_singleQuoted.map
  | doubleQuoted => exact marks_doubleQuoted.map
  | unquoted => exact marks_unquoted.map
  | template => exact marks_template.map
  | switch => exact marks_switch.map
  | shortSwitch => exact marks_shortSwitch.map
  | longSwitch => exact marks_longSwitch.map
  | literal => exact marks_literal.map
  | parameter => exact marks_parameter.map
  | parameters => exact marks_parameters.map
  | programName => exact marks_programName.map
  | command => exact marks_command.map
  | comment => exact marks_comment.map
  | leadingCommand => exact marks_leadingCommand.map
  | wholeCommand => exact marks_wholeCommand.map
  | both first second ih ih' =>
      refine ih.bind fun spans marked => ih'.bind fun more marked' => inStep_pure ?_
      exact List.forall_mem_append.mpr ⟨marked, marked'⟩
  | attempt call ih =>
      refine StaysInStep.map (ih.attempt.mono fun found marked => ?_)
      cases found with
      | none => exact fun _ none => nomatch none
      | some spans => exact marked spans rfl
  | restoring call ih => exact ih.restoring

end Grammar

/-! ### Whole runs -/

section Runs

variable {text : Text} {reader : Reader}

/-- What a call shows is in the text, and the reader behind it is in step. -/
theorem inStep_answer (inStep : reader.InStep text) (call : ReadingCall) :
    (∀ position ∈ shown (reader.answer call).1, position.On text) ∧
      (reader.answer call).2.InStep text := by
  have ends := marks_called call reader inStep
  unfold Reader.answer
  cases ran : called call reader with
  | ok spans after =>
      rw [ran] at ends
      refine ⟨?_, ends.2⟩
      simp only [shown, List.forall_mem_flatMap, List.forall_mem_cons]
      exact fun span member => ⟨(ends.1 span member).1, (ends.1 span member).2, nofun⟩
  | error fault after =>
      rw [ran] at ends
      exact ⟨fun position member => ends.1 position (Option.mem_toList.mp member), ends.2⟩

/-- By induction on the calls, each of which ends in step. -/
theorem inStep_calls (inStep : reader.InStep text) (calls : List ReadingCall) :
    (reader.calls calls).InStep text := by
  induction calls generalizing reader with
  | nil => exact inStep
  | cons call calls ih => exact ih (inStep_answer inStep call).2

/-- What is read by a rule is what its call answers, as far as the stretches go. -/
theorem read_eq_answer {α β : Type} {rule : Rule α} {spans : α → List Span} {call : ReadingCall}
    {read : Except ReadFault β} {marks : β → List Span} (calls : called call = spans <$> rule)
    (ok : ∀ value after, rule.run reader = .ok value after →
      read.map marks = .ok (spans value))
    (error : ∀ fault after, rule.run reader = .error fault after → read.map marks = .error fault) :
    read.map marks = (reader.answer call).1 := by
  rw [Reader.answer, calls]
  cases ran : rule reader with
  | ok value after =>
      rw [run_map_ok ran]
      exact ok value after ran
  | error fault after =>
      rw [run_map_error ran]
      exact error fault after ran

/-- Reading as far as it goes is a call at the start of the text, and what is shown of it is
the command. -/
theorem parse_eq_answer (text : Text) :
    (parse text).map (fun read => read.1.spans) =
      ((Reader.start text).answer .leadingCommand).1 := by
  refine read_eq_answer rfl (fun command after ran => ?_) fun fault after ran => ?_ <;>
  · rw [parse, ran]
    rfl

theorem parseStrict_eq_answer (text : Text) :
    (parseStrict text).map Command.spans = ((Reader.start text).answer .wholeCommand).1 := by
  refine read_eq_answer rfl (fun command after ran => ?_) fun fault after ran => ?_ <;>
  · rw [parseStrict, ran]
    rfl

end Runs

/-- Behind any calls, whether they succeeded, failed or were put back, the cursor is coherent and
its index is where reading stands, and every position is coherent that one more call shows in
the stretches of its node or in its error.  The same holds for the two ways of reading a whole
text. -/
theorem positions_coherent (text : Text) (calls : List ReadingCall) (call : ReadingCall) :
    let reader := (Reader.start text).calls calls
    reader.position.Coherent text ∧ reader.rest = text.drop reader.position.index ∧
      (∀ position ∈ shown (reader.answer call).1, position.Coherent text) ∧
      (∀ position ∈ shown ((parse text).map fun read => read.1.spans), position.Coherent text) ∧
      ∀ position ∈ shown ((parseStrict text).map Command.spans), position.Coherent text := by
  have start := Reader.InStep.start text
  have inStep := inStep_calls start calls
  refine ⟨inStep.on.coherent, inStep.rest, ?_, ?_, ?_⟩
  · exact fun position member => ((inStep_answer inStep call).1 position member).coherent
  · rw [parse_eq_answer]
    exact fun position member => ((inStep_answer start .leadingCommand).1 position member).coherent
  · rw [parseStrict_eq_answer]
    exact fun position member => ((inStep_answer start .wholeCommand).1 position member).coherent

/-- A switch without a value leaves the cursor behind its equals sign, and a quote that is closed
only in the second line is a node of two lines. -/
example :
    let reader := (Reader.start "x='a\nb' #").calls [.both .looseIdentifier (.expect '='), .switch]
    reader.position = { line := 1, column := 3, index := 2 } ∧
      shown (reader.answer .template).1 =
        [{ line := 1, column := 4, index := 3 }, { line := 2, column := 2, index := 6 }] ∧
      shown (reader.answer .wholeCommand).1 = [{ line := 1, column := 3, index := 2 }] := by
  decide

end LineShell
