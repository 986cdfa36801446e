/-
Module: LineShell.Proofs.Syntax.Placement
Purpose: Where the nodes of a tree stand in the text it was read from: each inside its
  parent, at exactly the text that it is printed as, with nothing but white space left
  between the parameters.
Main exports: Span.Inside, Span.Depicts, Command.Depicts, Spread, Placed, depicts_of_parse
-/
import LineShell.Proofs.Syntax.Printing

namespace LineShell

/-!
Whoever shows a line in colors, or moves the cursor through it, goes by the stretches of
the nodes and not by their texts.  A tree is a picture of its text if each stretch takes
the very characters that the fields of its node are printed as.  The quotes and dashes of
a parameter belong to the parameter; the body between the quotes does not take them.
-/

/-! ### Stretches -/

/-- The characters of a text from one place up to another one. -/
def Text.between (text : Text) (start stop : Position) : Text :=
  (text.take stop.index).drop start.index

/-- The stretch of a whole text. -/
def Text.span (text : Text) : Span :=
  { start := {}, stop := Position.after {} text }

/-- A stretch that runs forward, inside another one and inside the text. -/
structure Span.Inside (text : Text) (span outer : Span) : Prop where
  starts : outer.start.index ≤ span.start.index
  forward : span.start.index ≤ span.stop.index
  stops : span.stop.index ≤ outer.stop.index
  bounded : span.stop.index ≤ text.length

/-- The stretch of a node that is printed as the text that stands there. -/
structure Span.Depicts (text : Text) (span outer : Span) (printed : Text) : Prop extends
    Span.Inside text span outer where
  shows : text.between span.start span.stop = printed

/-! ### Trees -/

section Depicting

variable (text : Text) (outer : Span)

/-! Whether a node and all nodes in it stand where they are printed.  The stretch `outer`
is that of the parent. -/

def Identifier.Depicts (id : Identifier) : Prop :=
  id.span.Depicts text outer id.name

def Literal.Depicts (run : Literal) : Prop :=
  run.span.Depicts text outer run.value

def RawText.Depicts (raw : RawText) : Prop :=
  raw.span.Depicts text outer raw.text

def Reference.Depicts (mention : Reference) : Prop :=
  mention.span.Depicts text outer mention.print ∧ mention.id.Depicts text mention.span

def Part.Depicts : Part → Prop
  | .literal run => run.Depicts text outer
  | .reference mention => mention.Depicts text outer

def Body.Depicts (body : Body) : Prop :=
  body.span.Depicts text outer body.print ∧
    ∀ part ∈ body.parts, part.Depicts text body.span

/-- A template has no stretch of its own, and its quotes are not part of what is in it. -/
def Template.Depicts : Template → Prop
  | .unquoted body => body.Depicts text outer
  | .singleQuoted raw => raw.Depicts text outer
  | .doubleQuoted body => body.Depicts text outer

def Switch.Depicts (switch : Switch) : Prop :=
  switch.span.Depicts text outer switch.print ∧ switch.name.Depicts text switch.span ∧
    ∀ value ∈ switch.value, value.Depicts text switch.span

/-- Switches stand in their parameter behind its dashes. -/
def Param.Depicts : Param → Prop
  | .literal template span =>
      span.Depicts text outer template.print ∧ template.Depicts text span
  | .shortSwitch switch => switch.Depicts text outer
  | .longSwitch switch => switch.Depicts text outer

def Parameter.Depicts (parameter : Parameter) : Prop :=
  parameter.span.Depicts text outer parameter.param.print ∧
    parameter.param.Depicts text parameter.span

/-- The white space in a list of parameters is in none of them, so only where the list
stands is asked.  No list is empty. -/
def Parameters.Depicts (parameters : Parameters) : Prop :=
  parameters.span.Inside text outer ∧ parameters.params ≠ [] ∧
    ∀ parameter ∈ parameters.params, parameter.Depicts text parameters.span

def ProgramName.Depicts (program : ProgramName) : Prop :=
  program.span.Depicts text outer program.id.name ∧ program.id.Depicts text program.span

end Depicting

/-- Whether parameters follow each other from one place to another one with nothing but
white space in front of each, and behind the last. -/
def Spread (text : Text) (start : Position) (params : List Parameter) (stop : Position) :
    Prop :=
  match params with
  | [] => start.index ≤ stop.index ∧ IsBlank (text.between start stop)
  | parameter :: others =>
      start.index ≤ parameter.span.start.index ∧
        IsBlank (text.between start parameter.span.start) ∧
        Spread text parameter.span.stop others stop

/-- Whether the tree of a command is a picture of a text. -/
structure Command.Depicts (text : Text) (command : Command) : Prop where
  inside : command.span.Inside text text.span
  program : command.program.Depicts text command.span
  parameters : ∀ parameters ∈ command.parameters, parameters.Depicts text command.span
  spread : Spread text command.program.span.stop command.params command.span.stop
  ordered : command.params.Pairwise fun first second =>
    first.span.stop.index ≤ second.span.start.index

/-! ### Pieces of a text -/

/-- Whether a piece of text stands at a place, inside a stretch. -/
structure Placed (text : Text) (outer : Span) (position : Position) (piece : Text) : Prop where
  starts : outer.start.index ≤ position.index
  stops : position.index + piece.length ≤ outer.stop.index
  bounded : position.index + piece.length ≤ text.length
  found : piece <+: text.drop position.index

namespace Placed

variable {text piece first second : Text} {outer : Span} {position : Position} {c : Char}

theorem between (placed : Placed text outer position piece) :
    text.between position (position.after piece) = piece := by
  rw [Text.between, List.drop_take, Position.after_index, Nat.add_sub_cancel_left]
  exact (List.prefix_iff_eq_take.mp placed.found).symm

theorem inside (placed : Placed text outer position piece) :
    Span.Inside text { start := position, stop := position.after piece } outer where
  starts := placed.starts
  forward := by simp
  stops := by simpa using placed.stops
  bounded := by simpa using placed.bounded

/-- The stretch of a piece that is placed shows that piece. -/
theorem depicts (placed : Placed text outer position piece) :
    Span.Depicts text { start := position, stop := position.after piece } outer piece :=
  { placed.inside with shows := placed.between }

/-- A piece stands inside its own stretch. -/
theorem own (placed : Placed text outer position piece) :
    Placed text { start := position, stop := position.after piece } position piece where
  starts := Nat.le_refl _
  stops := by simp
  bounded := placed.bounded
  found := placed.found

theorem left (placed : Placed text outer position (first ++ second)) :
    Placed text outer position first := by
  obtain ⟨starts, stops, bounded, found⟩ := placed
  rw [List.length_append] at stops bounded
  exact ⟨starts, by omega, by omega, (List.prefix_append _ _).trans found⟩

theorem right (placed : Placed text outer position (first ++ second)) :
    Placed text outer (position.after first) second := by
  obtain ⟨starts, stops, bounded, rest, split⟩ := placed
  rw [List.length_append] at stops bounded
  refine ⟨?_, ?_, ?_, rest, ?_⟩
  · rw [Position.after_index]
    omega
  · rw [Position.after_index]
    omega
  · rw [Position.after_index]
    omega
  · rw [Position.after_index, ← List.drop_drop, ← split, List.append_assoc, List.drop_left]

theorem tail (placed : Placed text outer position (c :: piece)) :
    Placed text outer (position.advance c) piece := by
  have split : Placed text outer position ([c] ++ piece) := placed
  exact split.right

/-- A piece stands where it is found. -/
theorem of_split (before piece rest : Text) (outer : Span)
    (starts : outer.start.index ≤ before.length)
    (stops : before.length + piece.length ≤ outer.stop.index) :
    Placed (before ++ (piece ++ rest)) outer (Position.after {} before) piece where
  starts := by simpa using starts
  stops := by simpa using stops
  bounded := by simp
  found := by simp

end Placed

/-! ### Nodes of a parameter -/

section Nodes

variable {text piece name pad : Text} {outer : Span} {position : Position} {quoted : Bool}

theorem depicts_cutParts (placed : Placed text outer position piece) :
    ∀ part ∈ cutParts quoted position piece, part.Depicts text outer := by
  fun_induction cutParts quoted position piece with
  | case1 => exact fun part none => absurd none List.not_mem_nil
  | case2 position piece name unnamed start ih =>
      have split : Placed text outer position (['$'] ++ piece) := placed
      rw [List.forall_mem_cons]
      exact ⟨split.left.depicts, ih split.right⟩
  | case3 position piece name named start stop ih =>
      have split : '$' :: piece = ('$' :: name) ++ piece.dropWhile isNameChar :=
        congrArg ('$' :: ·) List.takeWhile_append_dropWhile.symm
      rw [split] at placed
      rw [List.forall_mem_cons]
      exact ⟨⟨placed.left.depicts, placed.left.own.tail.depicts⟩, ih placed.right⟩
  | case4 position c piece plain run stop ih =>
      have split : c :: piece = run ++ piece.dropWhile (continuesRun quoted) :=
        congrArg (c :: ·) List.takeWhile_append_dropWhile.symm
      rw [split] at placed
      rw [List.forall_mem_cons]
      exact ⟨placed.left.depicts, ih placed.right⟩

theorem depicts_bodyNode (placed : Placed text outer position piece) :
    (bodyNode quoted position piece).Depicts text outer := by
  refine ⟨?_, depicts_cutParts placed.own⟩
  rw [Body.print, bodyNode, flatMap_print_cutParts]
  exact placed.depicts

theorem Value.depicts_node {value : Value} (placed : Placed text outer position value.text) :
    (value.node position).Depicts text outer := by
  cases value with
  | bare word => exact depicts_bodyNode placed
  | single raw => exact placed.tail.left.depicts
  | double body => exact depicts_bodyNode placed.tail.left

theorem depicts_switchNode {value : Option Value}
    (placed : Placed text outer position (switchNode position name value).print) :
    (switchNode position name value).Depicts text outer := by
  cases value with
  | none => exact ⟨placed.depicts, placed.own.depicts, fun _ none => nomatch none⟩
  | some value =>
      have printed := print_switchNode position name (some value)
      rw [printed] at placed
      have stop : ((position.after name).advance '=').after value.text =
          position.after (name ++ '=' :: value.text) := by
        rw [Position.after_append, Position.after_cons]
      refine ⟨?_, ?_, ?_⟩
      · rw [printed, switchNode, stop]
        exact placed.depicts
      · rw [switchNode, stop]
        exact placed.own.left.depicts
      · rintro - ⟨⟩
        rw [switchNode, stop]
        exact Value.depicts_node placed.own.right.tail

theorem Token.depicts_node {token : Token} (placed : Placed text outer position token.text) :
    (token.node position).Depicts text outer := by
  have printed := token.print_param position
  have own : Placed text (token.node position).span position (token.param position).print := by
    rw [printed]
    exact placed.own
  refine ⟨?_, ?_⟩
  · rw [node, printed]
    exact placed.depicts
  · cases token with
    | literal value =>
        refine ⟨?_, Value.depicts_node placed.own.own⟩
        rw [value.print_node]
        exact placed.own.depicts
    | switch long name value =>
        cases long with
        | false => exact depicts_switchNode own.tail
        | true => exact depicts_switchNode own.tail.tail

/-! ### Parameters -/

variable {items : List (Text × Token)}

/-- By induction on the tokens, each of which is placed behind the ones before. -/
theorem depicts_nodesFrom (placed : Placed text outer position (spell items)) :
    ∀ parameter ∈ nodesFrom position items, parameter.Depicts text outer := by
  induction items generalizing position with
  | nil => exact fun parameter none => absurd none List.not_mem_nil
  | cons item items ih =>
      rw [nodesFrom, List.forall_mem_cons]
      exact ⟨Token.depicts_node placed.right.left, ih placed.right.right⟩

theorem spread_nodesFrom (placed : Placed text outer position (spell items ++ pad))
    (gaps : ∀ item ∈ items, IsBlank item.1) (blank : IsBlank pad) :
    Spread text position (nodesFrom position items) (position.after (spell items ++ pad)) := by
  induction items generalizing position with
  | nil =>
      refine ⟨by simp, ?_⟩
      rw [placed.between]
      exact blank
  | cons item items ih =>
      obtain ⟨gap, token⟩ := item
      obtain ⟨before, others⟩ := List.forall_mem_cons.mp gaps
      rw [spell, List.append_assoc, List.append_assoc] at placed ⊢
      have stop : position.after (gap ++ (token.text ++ (spell items ++ pad))) =
          ((position.after gap).after token.text).after (spell items ++ pad) := by
        rw [Position.after_append, Position.after_append]
      rw [stop]
      refine ⟨by simp [Token.node], ?_, ih placed.right.right others⟩
      rw [Token.node, placed.left.between]
      exact before

theorem Spread.starts {start stop : Position} {params : List Parameter}
    (spread : Spread text start params stop)
    (forward : ∀ parameter ∈ params, parameter.span.start.index ≤ parameter.span.stop.index) :
    ∀ parameter ∈ params, start.index ≤ parameter.span.start.index := by
  induction params generalizing start with
  | nil => exact fun parameter none => absurd none List.not_mem_nil
  | cons parameter others ih =>
      obtain ⟨before, -, behind⟩ := spread
      obtain ⟨forth, forward⟩ := List.forall_mem_cons.mp forward
      refine List.forall_mem_cons.mpr ⟨before, fun other member => ?_⟩
      have later := ih behind forward other member
      omega

/-- Parameters with white space between them are in order and do not overlap. -/
theorem Spread.ordered {start stop : Position} {params : List Parameter}
    (spread : Spread text start params stop)
    (forward : ∀ parameter ∈ params, parameter.span.start.index ≤ parameter.span.stop.index) :
    params.Pairwise fun first second => first.span.stop.index ≤ second.span.start.index := by
  induction params generalizing start with
  | nil => exact .nil
  | cons parameter others ih =>
      obtain ⟨-, -, behind⟩ := spread
      obtain ⟨-, forward⟩ := List.forall_mem_cons.mp forward
      exact .cons (behind.starts forward) (ih behind forward)

/-- Nothing but white space stands in front of the tokens of a chain and behind them. -/
theorem Chain.blank_gaps {first : Bool} {rest : Text} {open' : Nat}
    (chain : Chain first items pad rest open') :
    (∀ item ∈ items, IsBlank item.1) ∧ IsBlank pad := by
  induction chain with
  | adjacent stops => simp [IsBlank]
  | done gap ends => exact ⟨by simp, gap.blank⟩
  | opened gap opened => exact ⟨by simp, gap.blank⟩
  | stuck before named opened =>
      exact ⟨List.forall_mem_singleton.mpr before.blank, by simp [IsBlank]⟩
  | cons before stands others ih =>
      exact ⟨List.forall_mem_cons.mpr ⟨before.blank, ih.1⟩, ih.2⟩

end Nodes

/-! ### Commands -/

section Pictures

variable {text name pad rest : Text} {items : List (Text × Token)} {position : Position}
  {command : Command}

/-- A list of parameters stands from the first of them on, without the white space in
front of that. -/
theorem depicts_parameters {gap : Text} {token : Token} {outer : Span}
    (placed : Placed text outer position (spell ((gap, token) :: items) ++ pad)) :
    Parameters.Depicts text outer
      { params := nodesFrom position ((gap, token) :: items)
        span :=
          { start := position.after gap
            stop := position.after (spell ((gap, token) :: items) ++ pad) } } := by
  have split : spell ((gap, token) :: items) ++ pad =
      gap ++ (token.text ++ spell items ++ pad) := by simp [spell]
  have stop : position.after (spell ((gap, token) :: items) ++ pad) =
      (position.after gap).after (token.text ++ spell items ++ pad) := by
    rw [split, Position.after_append]
  rw [split] at placed
  rw [stop, nodesFrom]
  refine ⟨placed.right.inside, List.cons_ne_nil _ _, List.forall_mem_cons.mpr ⟨?_, ?_⟩⟩
  · exact Token.depicts_node placed.right.own.left.left
  · exact depicts_nodesFrom placed.right.own.left.right

/-- Where the text of a command stands, its tree is a picture of the text. -/
theorem depicts_commandNode
    (placed : Placed text text.span position (name ++ (spell items ++ pad)))
    (gaps : ∀ item ∈ items, IsBlank item.1) (blank : IsBlank pad) :
    (commandNode position name items pad).Depicts text := by
  have inside := placed.inside
  have own := placed.own
  rw [Position.after_append] at inside own
  have spread := spread_nodesFrom own.right gaps blank
  have params := depicts_nodesFrom own.right.left
  have forward : ∀ parameter ∈ nodesFrom (position.after name) items,
      parameter.span.start.index ≤ parameter.span.stop.index :=
    fun parameter member => (params parameter member).1.forward
  rw [← params_commandNode position name items pad] at spread forward
  refine ⟨inside, ⟨own.left.depicts, own.left.own.depicts⟩, ?_, spread,
    spread.ordered forward⟩
  cases items with
  | nil => exact fun _ none => nomatch none
  | cons item items =>
      rintro - ⟨⟩
      exact depicts_parameters own.right

/-- The tree of a command is a lossless picture of the text it was read from: every node
stands inside its parent and inside the text, at exactly the characters it is printed as,
and the parameters are in order with nothing but white space around them. -/
theorem depicts_of_parse (parses : parse text = .ok (command, rest)) :
    command.Depicts text := by
  obtain ⟨lead, name, items, pad, behind, open', remark, leads, trails, rfl⟩ :=
    exists_leads_of_parse parses
  obtain ⟨gaps, blank⟩ := leads.chain.blank_gaps
  have split : text = lead ++ ((name ++ (spell items ++ pad)) ++ behind) := by
    rw [leads.split]
    simp
  refine depicts_commandNode ?_ gaps blank
  have placed := Placed.of_split lead (name ++ (spell items ++ pad)) behind text.span
    (Nat.zero_le _) (by rw [Text.span, Position.after_index, split]; simp)
  rwa [← split] at placed

/-- The first parameter touches the name, and the second one has quotes inside it. -/
theorem depicts_of_parse_touching :
    ∃ command, parse " a$b  -x=\"c $d\" 'e" = .ok (command, "'e") ∧
      command.Depicts " a$b  -x=\"c $d\" 'e" := by
  have parses : parse " a$b  -x=\"c $d\" 'e" = .ok (commandNode (Position.after {} " ") "a"
      [([], .literal (.bare "$b")), ("  ", .switch false "x" (some (.double "c $d")))] " ",
      "'e") := by decide +kernel
  exact ⟨_, parses, depicts_of_parse parses⟩

end Pictures

end LineShell
