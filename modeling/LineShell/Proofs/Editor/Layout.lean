/-
Module: LineShell.Proofs.Editor.Layout
Purpose: A highlighted line is shown in the columns in which it was typed: every character
  in its place, but for white space between the parameters, which is shown as blanks.
Main exports: renders_template, renders_param, levelled, Tracks, Command.InGap,
  tracks_lineSegments, visibleWidth_highlight
-/
import LineShell.Proofs.Syntax.Placement
import LineShell.Proofs.Terminal.Visible
import LineShell.Shell.Basic

namespace LineShell

/-!
Highlighting goes by the fields of the tree, and it lays the nodes out by their stretches.
The characters that it shows are those that printing the fields gives, with as many blanks
between them as the white space takes.  Since a tree is a picture of the text it was read
from, these are the characters of the line.
-/

/-! ### What highlighting shows -/

namespace Highlight

theorem renders_reference (mention : Reference) : Renders (reference mention) mention.print :=
  renders_paint _ _

theorem renders_quotedPart (part : Part) : Renders (quotedPart part) part.print := by
  cases part with
  | literal run => exact renders_paint _ _
  | reference mention => exact renders_reference mention

theorem renders_barePart (part : Part) : Renders (barePart part) part.print := by
  cases part with
  | literal run => exact renders_self _
  | reference mention => exact renders_reference mention

theorem renders_firstBarePart (part : Part) : Renders (firstBarePart part) part.print := by
  cases part with
  | literal run =>
      rw [firstBarePart]
      split
      · next dash =>
          rw [Part.print, dash]
          exact renders_paint _ _
      · exact renders_self _
  | reference mention => exact renders_reference mention

theorem renders_template (value : Template) : Renders (template value) value.print := by
  cases value with
  | singleQuoted raw => exact renders_paint _ _
  | doubleQuoted body =>
      have quote : Renders (paint ['"'] .yellow) ['"'] := renders_paint _ _
      exact (quote.append (renders_flatMap fun part _ => renders_quotedPart part)).append quote
  | unquoted body =>
      rw [template, Template.print, Body.print]
      cases body.parts with
      | nil => exact renders_nil
      | cons first others =>
          rw [List.flatMap_cons]
          exact (renders_firstBarePart first).append
            (renders_flatMap fun part _ => renders_barePart part)

theorem renders_switch (s : Switch) : Renders (switch s) s.print := by
  have name : Renders (paint s.name.name .switch) s.name.name := renders_paint _ _
  rw [switch, Switch.print]
  cases s.value with
  | none =>
      have behind := name.append renders_nil
      rwa [List.append_nil s.name.name] at behind
  | some value =>
      exact name.append ((renders_paint ['='] _).append (renders_template value))

theorem renders_param (value : Param) : Renders (param value) value.print := by
  cases value with
  | literal value span => exact renders_template value
  | shortSwitch s => exact (renders_paint ['-'] _).append (renders_switch s)
  | longSwitch s => exact (renders_paint ['-', '-'] _).append (renders_switch s)

end Highlight

/-- The text of tokens, each behind as many blanks as there are characters in its gap. -/
def levelled : List (Text × Token) → Text
  | [] => []
  | (gap, token) :: items => Highlight.gap gap.length ++ (token.text ++ levelled items)

section Levelled

variable {position : Position} {name pad : Text} {items : List (Text × Token)}

theorem renders_params (position : Position) (items : List (Text × Token)) :
    Renders (Highlight.params position.index (nodesFrom position items)) (levelled items) := by
  induction items generalizing position with
  | nil => exact renders_nil
  | cons item items ih =>
      obtain ⟨gap, token⟩ := item
      have width : (position.after gap).index - position.index = gap.length := by
        rw [Position.after_index, Nat.add_sub_cancel_left]
      have shown := Highlight.renders_param (token.param (position.after gap))
      rw [token.print_param] at shown
      rw [nodesFrom, Highlight.params, levelled, Token.node, width, List.append_assoc]
      exact (renders_self _).append (shown.append (ih _))

/-- What is shown of a command: its name and its tokens, with blanks for white space. -/
theorem renders_command (known : Text → Bool) (position : Position) (name : Text)
    (items : List (Text × Token)) (pad : Text) :
    Renders (Highlight.command known (commandNode position name items pad))
      (Highlight.gap position.index ++ name ++ levelled items) := by
  rw [Highlight.command, params_commandNode]
  exact ((renders_self _).append (renders_paint _ _)).append (renders_params _ _)

theorem stop_nodesFrom (position : Position) (items : List (Text × Token)) :
    ((nodesFrom position items).getLast?.map (·.span.stop.index)).getD position.index =
      position.index + (spell items).length := by
  induction items generalizing position with
  | nil => rfl
  | cons item items ih =>
      obtain ⟨gap, token⟩ := item
      have behind := ih ((position.after gap).after token.text)
      rw [nodesFrom, List.getLast?_cons, spell]
      rw [Position.after_index, Position.after_index] at behind
      simp only [List.length_append, Option.map_some, Option.getD_some]
      cases last : (nodesFrom ((position.after gap).after token.text) items).getLast? with
      | none =>
          rw [last] at behind
          simp only [Option.map_none, Option.getD_none, Token.node, Position.after_index]
            at behind ⊢
          omega
      | some parameter =>
          rw [last] at behind
          simp only [Option.map_some, Option.getD_some] at behind ⊢
          omega

/-- Where highlighting a command ends. -/
theorem stop_commandNode (position : Position) (name : Text) (items : List (Text × Token))
    (pad : Text) :
    Highlight.stop (commandNode position name items pad) =
      position.index + name.length + (spell items).length := by
  have stops := stop_nodesFrom (position.after name) items
  rw [Position.after_index] at stops
  rw [← stops, Highlight.stop, params_commandNode]
  cases (nodesFrom (position.after name) items).getLast? with
  | none => simp [commandNode]
  | some parameter => rfl

end Levelled

/-! ### Column by column -/

/-- Whether one text is shown for another one, from an index on: the same characters, or a
blank for white space at the indices where that is allowed. -/
inductive Tracks (allowed : Nat → Prop) : Nat → Text → Text → Prop where
  | nil {index : Nat} : Tracks allowed index [] []
  | cons {index : Nat} {c d : Char} {text shown : Text}
      (here : d = c ∨ (isBlank c = true ∧ d = ' ' ∧ allowed index))
      (others : Tracks allowed (index + 1) text shown) :
      Tracks allowed index (c :: text) (d :: shown)

namespace Tracks

variable {allowed : Nat → Prop} {index : Nat} {text text' shown shown' : Text}

theorem refl (allowed : Nat → Prop) (index : Nat) (text : Text) :
    Tracks allowed index text text := by
  induction text generalizing index with
  | nil => exact .nil
  | cons c text ih => exact .cons (.inl rfl) (ih _)

theorem append (front : Tracks allowed index text shown)
    (behind : Tracks allowed (index + text.length) text' shown') :
    Tracks allowed index (text ++ text') (shown ++ shown') := by
  induction front with
  | nil => exact behind
  | cons here others ih =>
      refine .cons here (ih ?_)
      rw [List.length_cons] at behind
      rwa [Nat.add_right_comm, Nat.add_assoc]

/-- White space is shown as blanks where that is allowed. -/
theorem gap (blank : IsBlank text)
    (within : ∀ place, index ≤ place → place < index + text.length → allowed place) :
    Tracks allowed index text (Highlight.gap text.length) := by
  induction text generalizing index with
  | nil => exact .nil
  | cons c text ih =>
      obtain ⟨here, others⟩ := List.forall_mem_cons.mp blank
      rw [List.length_cons] at within
      refine .cons (.inr ⟨here, rfl, within index (Nat.le_refl _) (by omega)⟩) (ih others ?_)
      exact fun place after before => within place (by omega) (by omega)

theorem mono {wider : Nat → Prop} (tracks : Tracks allowed index text shown)
    (weaker : ∀ place, allowed place → wider place) : Tracks wider index text shown := by
  induction tracks with
  | nil => exact .nil
  | cons here others ih =>
      exact .cons (here.imp_right fun ⟨blank, same, gap⟩ => ⟨blank, same, weaker _ gap⟩) ih

theorem length_eq (tracks : Tracks allowed index text shown) : shown.length = text.length := by
  induction tracks with
  | nil => rfl
  | cons here others ih => rw [List.length_cons, List.length_cons, ih]

theorem getElem? (tracks : Tracks allowed index text shown) {place : Nat} {c : Char}
    (found : text[place]? = some c) :
    shown[place]? = some c ∨
      (isBlank c = true ∧ shown[place]? = some ' ' ∧ allowed (index + place)) := by
  induction tracks generalizing place with
  | nil => simp at found
  | cons here others ih =>
      cases place with
      | zero =>
          obtain rfl := Option.some.inj found
          simpa using here
      | succ place =>
          have behind := ih found
          rw [Nat.add_right_comm, Nat.add_assoc] at behind
          exact behind

/-- Blanks for white space begin no control sequence. -/
theorem plain (tracks : Tracks allowed index text shown) (plain : Plain text) :
    Plain shown := by
  rintro ⟨before, behind, split⟩
  have escapeAt : shown[before.length]? = some escape := by
    rw [← split]
    simp
  have bracketAt : shown[before.length + 1]? = some '[' := by
    rw [← split]
    simp
  have same : ∀ (place : Nat) (d : Char), d ≠ ' ' → shown[place]? = some d →
      text[place]? = some d := by
    intro place d other found
    have bound := (List.getElem?_eq_some_iff.mp found).1
    rw [tracks.length_eq] at bound
    obtain ⟨c, met⟩ : ∃ c, text[place]? = some c := ⟨_, List.getElem?_eq_getElem bound⟩
    rcases tracks.getElem? met with kept | ⟨-, replaced, -⟩
    · rw [met, ← kept, found]
    · rw [found] at replaced
      exact absurd (Option.some.inj replaced) other
  have first := same _ _ (by decide) escapeAt
  have second := same _ _ (by decide) bracketAt
  obtain ⟨bound, here⟩ := List.getElem?_eq_some_iff.mp first
  obtain ⟨bound', next⟩ := List.getElem?_eq_some_iff.mp second
  refine plain ⟨text.take before.length, text.drop (before.length + 2), ?_⟩
  rw [List.append_assoc, List.cons_append, List.singleton_append, ← next,
    List.getElem_cons_drop bound', ← here, List.getElem_cons_drop bound, List.take_append_drop]

end Tracks

/-- Whether an index is in front of where highlighting a command ends, and outside the name
of the program and every parameter. -/
structure Command.InGap (command : Command) (index : Nat) : Prop where
  before : index < Highlight.stop command
  program : index < command.program.span.start.index ∨ command.program.span.stop.index ≤ index
  params : ∀ parameter ∈ command.params,
    index < parameter.span.start.index ∨ parameter.span.stop.index ≤ index

section Lines

variable {allowed : Nat → Prop} {position : Position} {items : List (Text × Token)}
  {text rest : Text} {command : Command}

theorem le_start_of_mem (items : List (Text × Token)) (position : Position) :
    ∀ parameter ∈ nodesFrom position items, position.index ≤ parameter.span.start.index := by
  induction items generalizing position with
  | nil => exact fun parameter none => absurd none List.not_mem_nil
  | cons item items ih =>
      refine List.forall_mem_cons.mpr ⟨by simp [Token.node], fun parameter member => ?_⟩
      refine Nat.le_trans ?_ (ih _ parameter member)
      simp only [Position.after_index]
      omega

/-- Tokens are shown in their columns, and the white space in front of them as blanks. -/
theorem tracks_levelled (gaps : ∀ item ∈ items, IsBlank item.1)
    (outside : ∀ place, position.index ≤ place → place < position.index + (spell items).length →
      (∀ parameter ∈ nodesFrom position items,
        place < parameter.span.start.index ∨ parameter.span.stop.index ≤ place) →
      allowed place) :
    Tracks allowed position.index (spell items) (levelled items) := by
  induction items generalizing position with
  | nil => exact .nil
  | cons item items ih =>
      obtain ⟨gap, token⟩ := item
      obtain ⟨blank, others⟩ := List.forall_mem_cons.mp gaps
      let behind := (position.after gap).after token.text
      have stop : behind.index = position.index + gap.length + token.text.length := by
        simp [behind]
      have length : (spell ((gap, token) :: items)).length =
          gap.length + token.text.length + (spell items).length := by
        simp [spell]
        omega
      refine Tracks.append (Tracks.gap blank fun place after before => ?_)
        (Tracks.append (Tracks.refl _ _ _) ?_)
      · refine outside place after (by omega) (List.forall_mem_cons.mpr ⟨.inl ?_, ?_⟩)
        · simpa [Token.node] using before
        · intro parameter member
          have later := le_start_of_mem items behind parameter member
          exact .inl (by omega)
      · rw [← stop]
        refine ih others fun place after before apart => ?_
        refine outside place (by omega) (by omega) (List.forall_mem_cons.mpr ⟨.inr ?_, apart⟩)
        exact after

/-- The line in front of the last blanks, and what is shown of it. -/
theorem tracks_commandNode {lead name pad rest' : Text} {open' : Nat}
    (leads : Leads text lead name items pad rest' open') :
    Tracks (commandNode (Position.after {} lead) name items pad).InGap 0
      (lead ++ name ++ spell items)
      (Highlight.gap (Position.after {} lead).index ++ name ++ levelled items) := by
  let start := Position.after {} lead
  have index : start.index = lead.length := by simp [start]
  have gaps := leads.chain.blank_gaps.1
  have stops := stop_commandNode start name items pad
  have program : (commandNode start name items pad).program.span =
      { start := start, stop := start.after name } := rfl
  have params := params_commandNode start name items pad
  have starts := le_start_of_mem items (start.after name)
  have stop : (start.after name).index = lead.length + name.length := by
    rw [Position.after_index, index]
  rw [index]
  refine Tracks.append (Tracks.append (Tracks.gap leads.blank fun place _ before => ?_)
    (Tracks.refl _ _ _)) ?_
  · refine ⟨by rw [stops]; omega, .inl (by rw [program, index]; omega),
      fun parameter member => ?_⟩
    rw [params] at member
    have later := starts parameter member
    exact .inl (by omega)
  · rw [Nat.zero_add, List.length_append, ← stop]
    refine tracks_levelled gaps fun place after before apart => ?_
    refine ⟨by rw [stops]; omega, .inr (by rw [program]; exact after), ?_⟩
    rw [params]
    exact apart

/-- Where the text in front of the last blanks ends, highlighting ends. -/
theorem stop_highlight (lead name : Text) (items : List (Text × Token)) (pad : Text) :
    (lead ++ name ++ spell items).length =
      Highlight.stop (commandNode (Position.after {} lead) name items pad) := by
  rw [stop_commandNode, Position.after_index]
  simp [Nat.add_assoc]

/-- A line that is highlighted as far as it can be read is shown in its columns. -/
theorem tracks_of_parse (known : Text → Bool) (parses : parse text = .ok (command, rest)) :
    ∃ front behind shown, text = front ++ behind ∧ front.length = Highlight.stop command ∧
      Renders (Highlight.command known command) shown ∧
        Tracks command.InGap 0 front shown := by
  obtain ⟨lead, name, items, pad, rest', open', remark, leads, trails, rfl⟩ :=
    exists_leads_of_parse parses
  refine ⟨lead ++ name ++ spell items, pad ++ rest', _, ?_, stop_highlight lead name items pad,
    renders_command known _ name items pad, tracks_commandNode leads⟩
  rw [leads.split]
  simp

/-- Where a line may be shown as a blank instead of the white space that is there. -/
def Text.InGap (line : Text) (index : Nat) : Prop :=
  ∃ command rest, parse line = .ok (command, rest) ∧ command.InGap index

/-- A plain line is shown in its columns, however far it can be read. -/
theorem tracks_lineSegments (programs : Programs) {line : Text} (plain : Plain line) :
    Tracks line.InGap 0 line (visible (Shell.lineSegments programs line).flatten) := by
  rw [Shell.lineSegments]
  cases parses : parse line with
  | error fault =>
      dsimp only
      rw [List.flatten_singleton, (renders_self line).visible plain]
      exact Tracks.refl _ _ _
  | ok result =>
      obtain ⟨command, rest⟩ := result
      obtain ⟨front, behind, shown, split, length, renders, tracks⟩ :=
        tracks_of_parse programs.contains parses
      have inGap : ∀ index, command.InGap index → line.InGap index :=
        fun index gap => ⟨command, rest, parses, gap⟩
      have whole : Tracks line.InGap 0 line (shown ++ behind) := by
        rw [split]
        exact (tracks.mono (split ▸ inGap)).append (Tracks.refl _ _ _)
      have left : line.drop (Highlight.stop command) = behind := by
        rw [split, ← length, List.drop_left]
      dsimp only
      rw [List.flatten_cons, List.flatten_singleton, left,
        (renders.append (renders_self behind)).visible (whole.plain plain)]
      exact whole

/-- A highlighted command takes the columns up to where highlighting it ends. -/
theorem visibleWidth_highlight (known : Text → Bool) (plain : Plain text)
    (parses : parse text = .ok (command, rest)) :
    visibleWidth (Highlight.command known command) = Highlight.stop command := by
  obtain ⟨front, behind, shown, split, length, renders, tracks⟩ := tracks_of_parse known parses
  have front_plain : Plain front := by
    rw [split] at plain
    exact fun inside => plain (inside.trans (List.prefix_append _ _).isInfix)
  rw [← length_visible, renders.visible (tracks.plain front_plain), tracks.length_eq, length]

end Lines

end LineShell
