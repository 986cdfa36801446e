/-
Module: LineShell.Proofs.Editor.Colouring
Purpose: Every character of a highlighted line is shown in the colour of its part in the
  syntax, and none of these colours is still selected behind the line.
Main exports: Template.colour, Param.colour, Command.colour, Command.ShownInColour,
  shownInColour_of_parse
-/
import LineShell.Proofs.Editor.Layout
import LineShell.Proofs.Terminal.Screen

namespace LineShell

/-!
Highlighting paints pieces and puts them one behind the other, and which pieces these are is up
to the fields of the tree.  The colour that a character should have is up to the stretches of
the nodes alone.  The two meet where the stretches of neighbours touch: a part of a template
begins where the one before it ends, a value begins behind its equals sign, and a parameter
behind its gap.
-/

/-! ### The colour of an index -/

/-- Whether a stretch takes the character at an index. -/
def Span.holds (index : Nat) (span : Span) : Bool :=
  span.start.index ≤ index && index < span.stop.index

/-- Whether a stretch or one of the two quotes around it takes the character at an index. -/
def Span.quotes (index : Nat) (span : Span) : Bool :=
  span.start.index ≤ index + 1 && index ≤ span.stop.index

/-- Whether an index is in a variable, or at its dollar sign. -/
def Part.refers (index : Nat) : Part → Bool
  | .literal _ => false
  | .reference mention => mention.span.holds index

/-- Whether an index is at a dash that is all of the first part. -/
def Body.dashes (index : Nat) (body : Body) : Bool :=
  match body.parts with
  | .literal run :: _ => run.value == ['-'] && run.span.holds index
  | _ => false

/-- The colour of an index in a template. -/
def Template.colour (index : Nat) : Template → Option Colour
  | .unquoted body =>
      if body.parts.any (·.refers index) then some .reference
      else if body.dashes index then some .switch
      else none
  | .singleQuoted raw => if raw.span.quotes index then some .yellow else none
  | .doubleQuoted body =>
      if body.parts.any (·.refers index) then some .reference
      else if body.span.quotes index then some .yellow
      else none

/-- Whether an index in a switch is in front of its value: at a dash, in the name, or at the
equals sign. -/
def Switch.marks (index : Nat) (switch : Switch) : Bool :=
  index < switch.name.span.stop.index ||
    (switch.value.isSome && index == switch.name.span.stop.index)

/-- The colour of an index in a switch. -/
def Switch.colour (index : Nat) (switch : Switch) : Option Colour :=
  if switch.marks index then some .switch else switch.value.bind (·.colour index)

/-- The colour of an index in a parameter. -/
def Param.colour (index : Nat) : Param → Option Colour
  | .literal template _ => template.colour index
  | .shortSwitch switch | .longSwitch switch => switch.colour index

/-- The colour of an index in a line that is read as a command. -/
def Command.colour (known : Text → Bool) (command : Command) (index : Nat) : Option Colour :=
  if command.program.span.holds index then
    some (if known command.name then .green else .red)
  else
    (command.params.find? (·.span.holds index)).bind (·.param.colour index)

section Stretches

variable {index : Nat} {span : Span}

theorem holds_iff :
    span.holds index = true ↔ span.start.index ≤ index ∧ index < span.stop.index := by
  simp [Span.holds]

theorem holds_eq_false_iff :
    span.holds index = false ↔ index < span.start.index ∨ span.stop.index ≤ index := by
  simp [Span.holds]
  omega

end Stretches

/-! ### Templates -/

/-- The stretch of a part. -/
def Part.span : Part → Span
  | .literal run => run.span
  | .reference mention => mention.span

/-- Whether parts stand one behind the other from an index on, each where it is printed. -/
def Tiled (index : Nat) : List Part → Prop
  | [] => True
  | part :: others =>
      part.span.start.index = index ∧ part.span.stop.index = index + part.print.length ∧
        Tiled (index + part.print.length) others

section Templates

variable {role : Nat → Option Colour} {index place : Nat} {part : Part} {parts : List Part}
  {quoted : Bool} {position : Position} {text : Text}

theorem tiled_cutParts (quoted : Bool) (position : Position) (text : Text) :
    Tiled position.index (cutParts quoted position text) := by
  fun_induction cutParts quoted position text with
  | case1 => trivial
  | case2 position text name unnamed start ih =>
      exact ⟨rfl, by simp [Part.span, Part.print, start], by simpa [start, Part.print] using ih⟩
  | case3 position text name named start stop ih =>
      have length : stop.index = position.index + (name.length + 1) := by
        simp [stop, start]
        omega
      exact ⟨rfl, length, length ▸ ih⟩
  | case4 position c text plain run stop ih =>
      have length : stop.index = position.index + run.length := by simp [stop]
      exact ⟨rfl, length, length ▸ ih⟩

/-- No part stands in front of the first one. -/
theorem Tiled.refers_of_lt (tiled : Tiled index parts) (before : place < index) :
    parts.any (·.refers place) = false := by
  induction parts generalizing index with
  | nil => rfl
  | cons part parts ih =>
      obtain ⟨start, stop, others⟩ := tiled
      rw [List.any_cons, ih others (by omega), Bool.or_false]
      cases part with
      | literal run => rfl
      | reference mention => exact holds_eq_false_iff.mpr (.inl (start ▸ before))

/-- No part reaches behind the end of all of them. -/
theorem Tiled.refers_of_le (tiled : Tiled index parts)
    (behind : index + (parts.flatMap Part.print).length ≤ place) :
    parts.any (·.refers place) = false := by
  induction parts generalizing index with
  | nil => rfl
  | cons part parts ih =>
      obtain ⟨start, stop, others⟩ := tiled
      rw [List.flatMap_cons, List.length_append] at behind
      rw [List.any_cons, ih others (by omega), Bool.or_false]
      cases part with
      | literal run => rfl
      | reference mention =>
          have past : (Part.reference mention).span.stop.index ≤ place := by omega
          exact holds_eq_false_iff.mpr (.inr past)

/-- In front of the second part only the first one counts. -/
theorem Tiled.refers_head (tiled : Tiled index (part :: parts))
    (before : place < index + part.print.length) :
    (part :: parts).any (·.refers place) = part.refers place := by
  obtain ⟨start, stop, others⟩ := tiled
  rw [List.any_cons, others.refers_of_lt before, Bool.or_false]

/-- Behind the first part it does not count. -/
theorem Tiled.refers_tail (tiled : Tiled index (part :: parts))
    (behind : index + part.print.length ≤ place) :
    (part :: parts).any (·.refers place) = parts.any (·.refers place) := by
  obtain ⟨start, stop, others⟩ := tiled
  have past : part.refers place = false := by
    cases part with
    | literal run => rfl
    | reference mention => exact holds_eq_false_iff.mpr (.inr (stop ▸ behind))
  rw [List.any_cons, past, Bool.false_or]

theorem Tiled.refers_reference {mention : Reference}
    (tiled : Tiled index (.reference mention :: parts)) (after : index ≤ place)
    (before : place < index + mention.print.length) :
    (Part.reference mention :: parts).any (·.refers place) = true := by
  obtain ⟨start, stop, others⟩ := tiled
  have here : mention.span.holds place = true := holds_iff.mpr ⟨start ▸ after, stop ▸ before⟩
  exact Bool.or_eq_true_iff.mpr (.inl here)

/-- Parts that are painted where they refer to variables are shown in the colour of references
there, and elsewhere in the colour that their literals are shown in. -/
theorem draws_parts {base : Option Colour} {view : Part → Text} (tiled : Tiled index parts)
    (clean : escape ∉ parts.flatMap Part.print)
    (literal : ∀ (run : Literal) (index : Nat), escape ∉ run.value →
      (∀ place, index ≤ place → place < index + run.value.length → role place = base) →
        Draws role index (view (.literal run)) run.value)
    (reference : ∀ mention, view (.reference mention) = Highlight.reference mention)
    (roles : ∀ place, index ≤ place → place < index + (parts.flatMap Part.print).length →
      role place = if parts.any (·.refers place) then some .reference else base) :
    Draws role index (parts.flatMap view) (parts.flatMap Part.print) := by
  induction parts generalizing index with
  | nil => exact draws_nil
  | cons part parts ih =>
      rw [List.flatMap_cons, List.length_append] at roles
      rw [List.flatMap_cons, List.mem_append, not_or] at clean
      rw [List.flatMap_cons, List.flatMap_cons]
      refine Draws.append ?_ (ih tiled.2.2 clean.2 fun place after before => ?_)
      · cases part with
        | literal run =>
            refine literal run index clean.1 fun place after before => ?_
            have here : place < index + (Part.literal run).print.length := before
            rw [roles place after (by omega), tiled.refers_head here]
            rfl
        | reference mention =>
            rw [reference]
            refine draws_paint clean.1 (by simp) fun place after before => ?_
            have here : place < index + (Part.reference mention).print.length := before
            rw [roles place after (by omega), tiled.refers_reference after before]
            rfl
      · rw [roles place (by omega) (by omega), tiled.refers_tail after]

/-- No dash that counts stands behind the first part. -/
theorem Tiled.dashes_tail {span : Span} (tiled : Tiled index (part :: parts))
    (behind : index + part.print.length ≤ place) :
    Body.dashes place { parts := part :: parts, span := span } = false := by
  cases part with
  | literal run =>
      have past : run.span.holds place = false :=
        holds_eq_false_iff.mpr (.inr (tiled.2.1 ▸ behind))
      simp [Body.dashes, past]
  | reference mention => rfl

/-- The first part of an unquoted template.  A dash that is all of it is painted. -/
theorem draws_firstBarePart {span : Span} (tiled : Tiled index (part :: parts))
    (clean : escape ∉ part.print)
    (roles : ∀ place, index ≤ place → place < index + part.print.length →
      role place = (Template.unquoted { parts := part :: parts, span := span }).colour place) :
    Draws role index (Highlight.firstBarePart part) part.print := by
  cases part with
  | literal run =>
      have own : ∀ place, index ≤ place → place < index + run.value.length →
          role place = if run.value = ['-'] then some .switch else none := by
        intro place after before
        have here : place < index + (Part.literal run).print.length := before
        have holds : run.span.holds place = true :=
          holds_iff.mpr ⟨tiled.1 ▸ after, Nat.lt_of_lt_of_eq here tiled.2.1.symm⟩
        rw [roles place after here, Template.colour, tiled.refers_head here]
        simp [Part.refers, Body.dashes, holds]
      rw [Highlight.firstBarePart]
      split
      · next dash =>
          rw [Part.print, dash] at clean ⊢
          exact draws_paint clean (by simp) (by simpa [dash] using own)
      · next other => exact draws_plain clean (by simpa [other] using own)
  | reference mention =>
      refine draws_paint clean (by simp) fun place after before => ?_
      rw [roles place after before]
      exact if_pos (tiled.refers_reference after before)

theorem draws_bareParts {body : Body} (tiled : Tiled index body.parts)
    (clean : escape ∉ body.print)
    (roles : ∀ place, index ≤ place → place < index + body.print.length →
      role place = (Template.unquoted body).colour place) :
    Draws role index (Highlight.bareParts body.parts) body.print := by
  obtain ⟨parts, span⟩ := body
  cases parts with
  | nil => exact draws_nil
  | cons first others =>
      rw [Body.print, List.flatMap_cons] at clean roles ⊢
      rw [List.length_append] at roles
      rw [List.mem_append, not_or] at clean
      have front : Draws role index (Highlight.firstBarePart first) first.print :=
        draws_firstBarePart tiled clean.1 fun place after before => roles place after (by omega)
      refine front.append (draws_parts tiled.2.2 clean.2 (fun _ _ clean => draws_plain clean)
        (fun _ => rfl) fun place after before => ?_)
      rw [roles place (by omega) (by omega), Template.colour, tiled.refers_tail after,
        tiled.dashes_tail after]
      rfl

/-- The parts of a template in double quotes, with the quotes. -/
theorem draws_quotedParts (tiled : Tiled (index + 1) parts)
    (clean : escape ∉ parts.flatMap Part.print)
    (roles : ∀ place, index ≤ place →
      place < index + 1 + (parts.flatMap Part.print).length + 1 →
        role place = if parts.any (·.refers place) then some .reference else some .yellow) :
    Draws role index
      (paint ['"'] .yellow ++ parts.flatMap Highlight.quotedPart ++ paint ['"'] .yellow)
      (['"'] ++ parts.flatMap Part.print ++ ['"']) := by
  have opening : Draws role index (paint ['"'] .yellow) ['"'] := by
    refine draws_paint (by decide) (by simp) fun place after before => ?_
    have before : place < index + 1 := before
    rw [roles place after (by omega), tiled.refers_of_lt before]
    rfl
  have middle : Draws role (index + 1) (parts.flatMap Highlight.quotedPart)
      (parts.flatMap Part.print) :=
    draws_parts tiled clean (fun run _ clean => draws_paint clean (by simp)) (fun _ => rfl)
      fun place after before => roles place (by omega) (by omega)
  have closing : Draws role (index + (1 + (parts.flatMap Part.print).length))
      (paint ['"'] .yellow) ['"'] := by
    refine draws_paint (by decide) (by simp) fun place after before => ?_
    have before : place < index + (1 + (parts.flatMap Part.print).length) + 1 := before
    rw [roles place (by omega) (by omega), tiled.refers_of_le (by omega)]
    rfl
  exact (opening.append middle).append (by simpa [Nat.add_comm] using closing)

/-- A template is shown in the colours that its stretches give it. -/
theorem draws_template {value : Value} (clean : escape ∉ value.text)
    (roles : ∀ place, position.index ≤ place → place < position.index + value.text.length →
      role place = (value.node position).colour place) :
    Draws role position.index (Highlight.template (value.node position)) value.text := by
  cases value with
  | bare word =>
      have print : (bodyNode false position word).print = word :=
        flatMap_print_cutParts false position word
      have drawn : Draws role position.index (Highlight.bareParts _)
          (bodyNode false position word).print :=
        draws_bareParts (tiled_cutParts false position word) (by rwa [print])
          (by rwa [print])
      rwa [print] at drawn
  | single raw =>
      refine draws_paint clean (by simp) fun place after before => ?_
      rw [roles place after before]
      refine if_pos ?_
      simp only [List.length_cons, List.length_append, List.length_nil] at before
      simp [Span.quotes]
      omega
  | double body =>
      have print : (bodyNode true (position.advance '"') body).parts.flatMap Part.print = body :=
        flatMap_print_cutParts true (position.advance '"') body
      have tiled := tiled_cutParts true (position.advance '"') body
      rw [Position.advance_index] at tiled
      have drawn : Draws role position.index
          (Highlight.template ((Value.double body).node position))
          (['"'] ++ (bodyNode true (position.advance '"') body).parts.flatMap Part.print ++
            ['"']) := by
        refine draws_quotedParts tiled ?_ fun place after before => ?_
        · rw [print]
          exact fun among => clean (by simp [Value.text, among])
        · rw [print] at before
          have quotes : (bodyNode true (position.advance '"') body).span.quotes place = true := by
            simp [Span.quotes, bodyNode]
            omega
          have within : place < position.index + (Value.double body).text.length := by
            simp [Value.text]
            omega
          rw [roles place after within, Value.node, Template.colour, quotes]
          rfl
      rwa [print] at drawn

end Templates

/-! ### Parameters -/

section Parameters

variable {role : Nat → Option Colour} {position : Position} {name : Text}
  {items : List (Text × Token)}

/-- A switch is shown in its colours, and its value in those of the value. -/
theorem draws_switch {value : Option Value}
    (clean : escape ∉ (switchNode position name value).print)
    (roles : ∀ place, position.index ≤ place →
      place < position.index + (switchNode position name value).print.length →
        role place = (switchNode position name value).colour place) :
    Draws role position.index (Highlight.switch (switchNode position name value))
      (switchNode position name value).print := by
  rw [print_switchNode] at clean roles ⊢
  cases value with
  | none =>
      have named : Draws role position.index (paint name .switch) name := by
        refine draws_paint clean (by simp) fun place after before => ?_
        rw [roles place after before]
        refine if_pos ?_
        simpa [Switch.marks, switchNode] using before
      have whole := named.append draws_nil
      rw [List.append_nil name] at whole
      exact whole
  | some value =>
      have length : (name ++ '=' :: value.text).length = name.length + 1 + value.text.length := by
        simp
        omega
      dsimp only at clean roles ⊢
      rw [length] at roles
      have stop : (position.after name).index = position.index + name.length :=
        Position.after_index _ _
      have marked : ∀ place, position.index ≤ place → place < position.index + name.length + 1 →
          role place = some .switch := by
        intro place after before
        rw [roles place after (by omega)]
        refine if_pos ?_
        simp [Switch.marks, switchNode]
        omega
      have named : Draws role position.index (paint name .switch) name :=
        draws_paint (by simp_all) (by simp) fun place after before =>
          marked place after (by omega)
      have equals : Draws role (position.index + name.length) (paint ['='] .switch) ['='] :=
        draws_paint (by decide) (by simp) fun place after before =>
          marked place (by omega) before
      have valued : Draws role ((position.after name).advance '=').index
          (Highlight.template (value.node ((position.after name).advance '='))) value.text := by
        refine draws_template (by simp_all) fun place after before => ?_
        rw [Position.advance_index, stop] at after before
        rw [roles place (by omega) (by omega)]
        refine if_neg ?_
        simp [Switch.marks, switchNode]
        omega
      rw [Position.advance_index, stop] at valued
      exact named.append (equals.append valued)

theorem draws_dashedSwitch {long : Bool} {value : Option Value}
    (clean : escape ∉ (switchNode (position.after (dashes long)) name value).print)
    (roles : ∀ place, position.index ≤ place →
      place < position.index + ((dashes long).length +
        (switchNode (position.after (dashes long)) name value).print.length) →
      role place = (switchNode (position.after (dashes long)) name value).colour place) :
    Draws role position.index
      (paint (dashes long) .switch ++
        Highlight.switch (switchNode (position.after (dashes long)) name value))
      (dashes long ++ (switchNode (position.after (dashes long)) name value).print) := by
  have start : (position.after (dashes long)).index = position.index + (dashes long).length :=
    Position.after_index _ _
  refine Draws.append (draws_paint ?_ (by simp) fun place after before => ?_) ?_
  · cases long <;> decide
  · rw [roles place after (by omega)]
    refine if_pos ?_
    simp [Switch.marks, switchNode]
    omega
  · rw [← start]
    exact draws_switch clean fun place after before => roles place (by omega) (by omega)

/-- A token is shown in the colours of the parameter that it is read as. -/
theorem draws_token {token : Token} (clean : escape ∉ token.text)
    (roles : ∀ place, position.index ≤ place → place < position.index + token.text.length →
      role place = (token.param position).colour place) :
    Draws role position.index (Highlight.param (token.param position)) token.text := by
  cases token with
  | literal value => exact draws_template clean roles
  | switch long name value =>
      have text : (Token.switch long name value).text =
          dashes long ++ (switchNode (position.after (dashes long)) name value).print := by
        rw [print_switchNode]
        cases value <;> rfl
      have piece : Highlight.param ((Token.switch long name value).param position) =
          paint (dashes long) .switch ++
            Highlight.switch (switchNode (position.after (dashes long)) name value) := by
        cases long <;> rfl
      have colour : ∀ place, ((Token.switch long name value).param position).colour place =
          (switchNode (position.after (dashes long)) name value).colour place := by
        intro place
        cases long <;> rfl
      simp only [text, colour, List.length_append] at roles
      rw [text, List.mem_append, not_or] at clean
      rw [text, piece]
      exact draws_dashedSwitch clean.2 roles

theorem length_gap (columns : Nat) : (Highlight.gap columns).length = columns :=
  List.length_replicate

theorem clean_gap (columns : Nat) : escape ∉ Highlight.gap columns := fun among =>
  absurd (List.eq_of_mem_replicate among) (by decide)

/-- No parameter stands in front of where the first of them can. -/
theorem find?_nodesFrom_of_lt {place : Nat} (before : place < position.index) :
    (nodesFrom position items).find? (·.span.holds place) = none := by
  refine List.find?_eq_none.mpr fun parameter member => ?_
  have later := le_start_of_mem items position parameter member
  simp [holds_eq_false_iff.mpr (.inl (Nat.lt_of_lt_of_le before later))]

/-- Which parameter takes an index: none in front of the first one, that one up to its end, and
one of the others behind it. -/
theorem find?_nodesFrom_cons {gap : Text} {token : Token} {place : Nat} :
    (nodesFrom position ((gap, token) :: items)).find? (·.span.holds place) =
      if place < (position.after gap).index then none
      else if place < ((position.after gap).after token.text).index then
        some (token.node (position.after gap))
      else (nodesFrom ((position.after gap).after token.text) items).find?
        (·.span.holds place) := by
  rw [nodesFrom, List.find?_cons]
  by_cases before : place < (position.after gap).index
  · have outside : (token.node (position.after gap)).span.holds place = false :=
      holds_eq_false_iff.mpr (.inl before)
    rw [outside, if_pos before]
    exact find?_nodesFrom_of_lt (by rw [Position.after_index]; omega)
  · rw [if_neg before]
    by_cases within : place < ((position.after gap).after token.text).index
    · have inside : (token.node (position.after gap)).span.holds place = true :=
        holds_iff.mpr ⟨Nat.le_of_not_lt before, within⟩
      rw [inside, if_pos within]
    · have outside : (token.node (position.after gap)).span.holds place = false :=
        holds_eq_false_iff.mpr (.inr (Nat.le_of_not_lt within))
      rw [outside, if_neg within]

/-- Parameters are shown in their colours, and the gaps in front of them in the default one. -/
theorem draws_params (clean : escape ∉ spell items)
    (roles : ∀ place, position.index ≤ place →
      role place =
        ((nodesFrom position items).find? (·.span.holds place)).bind (·.param.colour place)) :
    Draws role position.index (Highlight.params position.index (nodesFrom position items))
      (levelled items) := by
  induction items generalizing position with
  | nil => exact draws_nil
  | cons item items ih =>
      obtain ⟨gap, token⟩ := item
      have start : (position.after gap).index = position.index + gap.length :=
        Position.after_index _ _
      have stop : ((position.after gap).after token.text).index =
          (position.after gap).index + token.text.length := Position.after_index _ _
      have width : (token.node (position.after gap)).span.start.index - position.index =
          gap.length := by
        rw [Token.node, start, Nat.add_sub_cancel_left]
      rw [spell, List.mem_append, not_or, List.mem_append, not_or] at clean
      rw [nodesFrom, Highlight.params, levelled, List.append_assoc, width]
      have before : Draws role position.index (Highlight.gap gap.length)
          (Highlight.gap gap.length) := by
        refine draws_plain (clean_gap _) fun place after before => ?_
        rw [length_gap, ← start] at before
        rw [roles place after, find?_nodesFrom_cons, if_pos before]
        rfl
      have here : Draws role (position.after gap).index
          (Highlight.param (token.param (position.after gap))) token.text := by
        refine draws_token clean.2.1 fun place after before => ?_
        rw [roles place (by omega), find?_nodesFrom_cons, if_neg (Nat.not_lt_of_le after),
          if_pos (stop ▸ before)]
        rfl
      have others : Draws role ((position.after gap).after token.text).index
          (Highlight.params ((position.after gap).after token.text).index
            (nodesFrom ((position.after gap).after token.text) items)) (levelled items) := by
        refine ih clean.2.2 fun place after => ?_
        have past : ¬ place < (position.after gap).index := by omega
        rw [roles place (by omega), find?_nodesFrom_cons, if_neg past,
          if_neg (Nat.not_lt_of_le after)]
      refine before.append ?_
      rw [length_gap, ← start]
      refine here.append ?_
      rw [← stop]
      exact others

/-- A command is shown in its colours, and its name in one that tells whether it is known. -/
theorem draws_command (known : Text → Bool) {pad : Text} (clean : escape ∉ name ++ spell items) :
    Draws ((commandNode position name items pad).colour known) 0
      (Highlight.command known (commandNode position name items pad))
      (Highlight.gap position.index ++ name ++ levelled items) := by
  have stop : (position.after name).index = position.index + name.length :=
    Position.after_index _ _
  have params := params_commandNode position name items pad
  have program : (commandNode position name items pad).program.span =
      { start := position, stop := position.after name } := rfl
  rw [List.mem_append, not_or] at clean
  rw [Highlight.command, params]
  have before : Draws ((commandNode position name items pad).colour known) 0
      (Highlight.gap position.index) (Highlight.gap position.index) := by
    refine draws_plain (clean_gap _) fun place after before => ?_
    rw [length_gap, Nat.zero_add] at before
    have outside : (commandNode position name items pad).program.span.holds place = false :=
      holds_eq_false_iff.mpr (.inl before)
    rw [Command.colour, outside, params, find?_nodesFrom_of_lt (by omega)]
    rfl
  have named : Draws ((commandNode position name items pad).colour known) position.index
      (paint name (if known name then .green else .red)) name := by
    refine draws_paint clean.1 (by split <;> simp) fun place after before => ?_
    exact if_pos (holds_iff.mpr ⟨after, Nat.lt_of_lt_of_eq before stop.symm⟩)
  have others : Draws ((commandNode position name items pad).colour known)
      (position.after name).index
      (Highlight.params (position.after name).index (nodesFrom (position.after name) items))
      (levelled items) := by
    refine draws_params clean.2 fun place after => ?_
    have outside : (commandNode position name items pad).program.span.holds place = false :=
      holds_eq_false_iff.mpr (.inr after)
    rw [Command.colour, outside, params]
    rfl
  refine Draws.append (before.append ?_) ?_
  · rw [length_gap, Nat.zero_add]
    exact named
  · rw [List.length_append, length_gap, Nat.zero_add, ← stop]
    exact others

end Parameters

/-! ### Lines -/

/-- Whether a terminal to which a command is written shows the text that it was read from in
its colours, and is left in its default colour. -/
structure Command.ShownInColour (known : Text → Bool) (command : Command) (text : Text)
    (screen : Screen) : Prop where
  /-- There is one character for each index. -/
  length : screen.cells.length = Highlight.stop command
  /-- Every character has the colour of its index.  It is that of the text, or a blank for
  white space between the parameters. -/
  cells : ∀ index < Highlight.stop command, ∃ c d, text[index]? = some c ∧
    screen.cells[index]? = some (d, command.colour known index) ∧
      (d = c ∨ isBlank c = true ∧ d = ' ' ∧ command.InGap index)
  /-- Whatever is written behind it has the default colour. -/
  colour : screen.colour = none
  pending : screen.pending = .none

/-- A line that is highlighted is shown in colours, each character in that of its part in the
syntax, and none of them leaks. -/
theorem shownInColour_of_parse {text rest : Text} {command : Command} (known : Text → Bool)
    (clean : escape ∉ text) (parses : parse text = .ok (command, rest)) :
    command.ShownInColour known text
      (({} : Screen).write (Highlight.command known command)) := by
  obtain ⟨lead, name, items, pad, rest', open', remark, leads, trails, rfl⟩ :=
    exists_leads_of_parse parses
  have split : text = (lead ++ name ++ spell items) ++ (pad ++ rest') := by
    rw [leads.split]
    simp
  have unescaped : escape ∉ name ++ spell items := by
    rw [split] at clean
    simp_all
  have drawn : Draws _ 0
      (Highlight.command known (commandNode (Position.after {} lead) name items pad)) _ :=
    draws_command known unescaped
  have written := drawn [] rfl
  have stop := stop_highlight lead name items pad
  have tracks := tracks_commandNode leads
  rw [List.nil_append] at written
  rw [written]
  refine ⟨?_, fun index before => ?_, rfl, rfl⟩
  · rw [length_coloured, tracks.length_eq, stop]
  · rw [← stop] at before
    obtain ⟨c, found⟩ : ∃ c, (lead ++ name ++ spell items)[index]? = some c :=
      ⟨_, List.getElem?_eq_getElem before⟩
    have there : text[index]? = some c := by
      rw [split, List.getElem?_append_left before, found]
    dsimp only
    rw [getElem?_coloured, Nat.zero_add]
    rcases tracks.getElem? found with kept | ⟨blank, replaced, gap⟩
    · exact ⟨c, c, there, by rw [kept]; rfl, .inl rfl⟩
    · rw [Nat.zero_add] at gap
      exact ⟨c, ' ', there, by rw [replaced]; rfl, .inr ⟨blank, rfl, gap⟩⟩

/-- Two switches, one of them with a value in double quotes that holds a variable, single
quotes around what looks like one, and a dash that is no switch yet. -/
theorem shownInColour_of_parse_values :
    let text : Text := "p\t-x=\"a$b\" --y '$c' $d -"
    ∃ command, escape ∉ text ∧ parse text = .ok (command, []) ∧
      command.ShownInColour (fun _ => true) text
        (({} : Screen).write (Highlight.command (fun _ => true) command)) ∧
      (List.range 24).map (command.colour fun _ => true) =
        [some .green, none, some .switch, some .switch, some .switch, some .yellow,
          some .yellow, some .reference, some .reference, some .yellow, none, some .switch,
          some .switch, some .switch, none, some .yellow, some .yellow, some .yellow,
          some .yellow, none, some .reference, some .reference, none, some .switch] := by
  intro text
  have clean : escape ∉ text := by decide
  have parses : parse text = .ok (commandNode {} "p"
      [("\t", .switch false "x" (some (.double "a$b"))), (" ", .switch true "y" none),
        (" ", .literal (.single "$c")), (" ", .literal (.bare "$d")),
        (" ", .literal (.bare ['-']))] [], []) := by
    decide +kernel
  exact ⟨_, clean, parses, shownInColour_of_parse _ clean parses, by decide +kernel⟩

end LineShell
