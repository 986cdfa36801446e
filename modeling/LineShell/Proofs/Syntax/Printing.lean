/-
Module: LineShell.Proofs.Syntax.Printing
Purpose: Printing a command from the fields of its tree, and reading what was printed.
Main exports: Template.print, Param.print, Command.print, Command.unplaced,
  print_commandNode, unplaced_commandNode, Chain.spaced, parseStrict_print
-/
import LineShell.Proofs.Syntax.Remainder

namespace LineShell

/-!
A tree holds what has been read, without the white space between parameters.  Printing
puts back the marks that are not in the fields: quotes, dashes, dollar and equals signs.
The printed form of a parameter is the text it was read from, and one space in front of
it is a gap as good as the one that was there.  So the printed command is read as the
same command, at other places.
-/

/-! ### Printing -/

/-- A variable with its dollar sign. -/
def Reference.print (mention : Reference) : Text :=
  '$' :: mention.id.name

def Part.print : Part → Text
  | .literal run => run.value
  | .reference mention => mention.print

/-- The parts of a body one behind the other. -/
def Body.print (body : Body) : Text :=
  body.parts.flatMap Part.print

/-- A value with its quotes. -/
def Template.print : Template → Text
  | .unquoted body => body.print
  | .singleQuoted raw => '\x27' :: (raw.text ++ ['\x27'])
  | .doubleQuoted body => '"' :: (body.print ++ ['"'])

/-- A switch without its dashes. -/
def Switch.print (switch : Switch) : Text :=
  match switch.value with
  | none => switch.name.name
  | some value => switch.name.name ++ '=' :: value.print

/-- A parameter with its quotes or dashes. -/
def Param.print : Param → Text
  | .literal template _ => template.print
  | .shortSwitch switch => '-' :: switch.print
  | .longSwitch switch => '-' :: '-' :: switch.print

/-- The name of the program, and each of the parameters behind one space. -/
def Command.print (command : Command) : Text :=
  command.name ++ command.params.flatMap fun parameter => ' ' :: parameter.param.print

/-! ### Trees without places -/

/-- The stretch that stands for any other one. -/
def Span.nowhere : Span :=
  { start := {}, stop := {} }

def Identifier.unplaced (id : Identifier) : Identifier :=
  { id with span := .nowhere }

def Reference.unplaced (mention : Reference) : Reference :=
  { id := mention.id.unplaced, span := .nowhere }

def Literal.unplaced (run : Literal) : Literal :=
  { run with span := .nowhere }

def Part.unplaced : Part → Part
  | .literal run => .literal run.unplaced
  | .reference mention => .reference mention.unplaced

def Body.unplaced (body : Body) : Body :=
  { parts := body.parts.map Part.unplaced, span := .nowhere }

def RawText.unplaced (raw : RawText) : RawText :=
  { raw with span := .nowhere }

def Template.unplaced : Template → Template
  | .unquoted body => .unquoted body.unplaced
  | .singleQuoted raw => .singleQuoted raw.unplaced
  | .doubleQuoted body => .doubleQuoted body.unplaced

def Switch.unplaced (switch : Switch) : Switch :=
  { name := switch.name.unplaced
    value := switch.value.map Template.unplaced
    span := .nowhere }

def Param.unplaced : Param → Param
  | .literal template _ => .literal template.unplaced .nowhere
  | .shortSwitch switch => .shortSwitch switch.unplaced
  | .longSwitch switch => .longSwitch switch.unplaced

def Parameter.unplaced (parameter : Parameter) : Parameter :=
  { param := parameter.param.unplaced, span := .nowhere }

def Parameters.unplaced (parameters : Parameters) : Parameters :=
  { params := parameters.params.map Parameter.unplaced, span := .nowhere }

def ProgramName.unplaced (program : ProgramName) : ProgramName :=
  { id := program.id.unplaced, span := .nowhere }

/-- A command with every stretch forgotten.  Commands that are equal then are equal but
for the places of their nodes. -/
def Command.unplaced (command : Command) : Command :=
  { program := command.program.unplaced
    parameters := command.parameters.map Parameters.unplaced
    span := .nowhere }

/-! ### What was read is printed -/

section Printed

variable {quoted : Bool} {position : Position} {text : Text}

/-- However a body is cut into parts, nothing of it is lost. -/
theorem flatMap_print_cutParts (quoted : Bool) (position : Position) (text : Text) :
    (cutParts quoted position text).flatMap Part.print = text := by
  fun_induction cutParts quoted position text with
  | case1 => rfl
  | case2 position text name unnamed start ih =>
      rw [List.flatMap_cons, ih]
      rfl
  | case3 position text name named start stop ih =>
      rw [List.flatMap_cons, ih]
      exact congrArg ('$' :: ·) List.takeWhile_append_dropWhile
  | case4 position c text plain run stop ih =>
      rw [List.flatMap_cons, ih]
      exact congrArg (c :: ·) List.takeWhile_append_dropWhile

/-- Where the parts of a body stand makes no difference to what they are. -/
theorem map_unplaced_cutParts (quoted : Bool) (position position' : Position) (text : Text) :
    (cutParts quoted position text).map Part.unplaced =
      (cutParts quoted position' text).map Part.unplaced := by
  fun_induction cutParts quoted position text generalizing position' with
  | case1 => rw [cutParts]
  | case2 position text name unnamed start ih =>
      rw [List.map_cons, ih (position'.advance '$'), cutParts, if_pos rfl, if_pos unnamed]
      rfl
  | case3 position text name named start stop ih =>
      rw [List.map_cons, ih ((position'.advance '$').after name), cutParts, if_pos rfl,
        if_neg named]
      rfl
  | case4 position c text plain run stop ih =>
      rw [List.map_cons, ih (position'.after run), cutParts, if_neg plain]
      rfl

theorem Value.print_node (value : Value) (position : Position) :
    (value.node position).print = value.text := by
  cases value with
  | bare word => exact flatMap_print_cutParts false position word
  | single raw => rfl
  | double body =>
      have printed := flatMap_print_cutParts true (position.advance '"') body
      exact congrArg (fun inside => '"' :: (inside ++ ['"'])) printed

theorem Value.unplaced_node (value : Value) (position position' : Position) :
    (value.node position).unplaced = (value.node position').unplaced := by
  have body : ∀ quoted position position' text, (bodyNode quoted position text).unplaced =
      (bodyNode quoted position' text).unplaced := by
    intro quoted position position' text
    simp only [Body.unplaced, bodyNode, map_unplaced_cutParts quoted position position' text]
  cases value with
  | bare word => exact congrArg Template.unquoted (body ..)
  | single raw => rfl
  | double inside => exact congrArg Template.doubleQuoted (body ..)

theorem print_switchNode (position : Position) (name : Text) (value : Option Value) :
    (switchNode position name value).print =
      match value with
      | none => name
      | some value => name ++ '=' :: value.text := by
  cases value with
  | none => rfl
  | some value =>
      exact congrArg (fun printed => name ++ '=' :: printed) (value.print_node _)

theorem unplaced_switchNode (position position' : Position) (name : Text)
    (value : Option Value) :
    (switchNode position name value).unplaced = (switchNode position' name value).unplaced := by
  cases value with
  | none => rfl
  | some value =>
      simp only [Switch.unplaced, switchNode, Identifier.unplaced, Option.map_some]
      rw [value.unplaced_node]

theorem Token.print_param (token : Token) (position : Position) :
    (token.param position).print = token.text := by
  cases token with
  | literal value => exact value.print_node position
  | switch long name value =>
      cases long with
      | false =>
          rw [param, Param.print, print_switchNode]
          cases value <;> rfl
      | true =>
          rw [param, Param.print, print_switchNode]
          cases value <;> rfl

theorem Token.unplaced_param (token : Token) (position position' : Position) :
    (token.param position).unplaced = (token.param position').unplaced := by
  cases token with
  | literal value =>
      exact congrArg (Param.literal · .nowhere) (value.unplaced_node position position')
  | switch long name value =>
      cases long with
      | false => exact congrArg Param.shortSwitch (unplaced_switchNode ..)
      | true => exact congrArg Param.longSwitch (unplaced_switchNode ..)

end Printed

/-! ### Commands with single spaces -/

/-- Tokens with a single space in front of each. -/
def spaced (items : List (Text × Token)) : List (Text × Token) :=
  items.map fun item => ([' '], item.2)

section Spaced

variable {first : Bool} {position : Position} {text name pad rest : Text}
  {items : List (Text × Token)} {open' : Nat}

theorem print_nodesFrom (position : Position) (items : List (Text × Token)) :
    (nodesFrom position items).flatMap (fun parameter => ' ' :: parameter.param.print) =
      spell (spaced items) := by
  induction items generalizing position with
  | nil => rfl
  | cons item items ih =>
      obtain ⟨gap, token⟩ := item
      rw [nodesFrom, List.flatMap_cons, ih, Token.node, token.print_param]
      rfl

theorem unplaced_nodesFrom (position position' : Position) (items : List (Text × Token)) :
    (nodesFrom position items).map Parameter.unplaced =
      (nodesFrom position' (spaced items)).map Parameter.unplaced := by
  induction items generalizing position position' with
  | nil => rfl
  | cons item items ih =>
      obtain ⟨gap, token⟩ := item
      simp only [spaced, List.map_cons, nodesFrom] at ih ⊢
      rw [ih _ ((position'.after [' ']).after token.text)]
      simp only [Parameter.unplaced, Token.node, token.unplaced_param (position.after gap)
        (position'.after [' '])]

theorem params_commandNode (position : Position) (name : Text) (items : List (Text × Token))
    (pad : Text) :
    (commandNode position name items pad).params = nodesFrom (position.after name) items := by
  cases items with
  | nil => rfl
  | cons item items => rfl

/-- A command is printed as its name and its tokens with single spaces. -/
theorem print_commandNode (position : Position) (name : Text) (items : List (Text × Token))
    (pad : Text) :
    (commandNode position name items pad).print = name ++ spell (spaced items) := by
  rw [Command.print, params_commandNode, print_nodesFrom]
  rfl

/-- Gaps and places make no difference to what a command is. -/
theorem unplaced_commandNode (position position' : Position) (name : Text)
    (items : List (Text × Token)) (pad pad' : Text) :
    (commandNode position name items pad).unplaced =
      (commandNode position' name (spaced items) pad').unplaced := by
  cases items with
  | nil => rfl
  | cons item items =>
      have params := unplaced_nodesFrom (position.after name) (position'.after name)
        (item :: items)
      exact congrArg (fun params =>
        { program := { id := { name := name, span := .nowhere }, span := .nowhere }
          parameters := some { params := params, span := .nowhere }
          span := .nowhere : Command }) params

/-- A token that is read somewhere is read in the same way where no value can begin
behind it. -/
theorem Token.Stands.behind {token : Token} {rest' : Text} (stands : token.Stands rest)
    (ends : Stops startsValue rest') : token.Stands rest' := by
  cases stands with
  | quoted fits marks => exact .quoted fits marks
  | word fits _ plain => exact .word fits (stops_of_startsValue ends) plain
  | dangling named _ => exact .dangling named ends
  | flag named _ _ =>
      refine .flag named (stops_name_of_startsValue ends) fun first => ?_
      exact absurd (ends _ first) (by decide)
  | @assigned long name value _ named fits _ =>
      refine .assigned named fits ?_
      cases value with
      | bare word => exact stops_of_startsValue ends
      | single raw => trivial
      | double body => trivial

theorem stops_spell_spaced (items : List (Text × Token)) :
    Stops startsValue (spell (spaced items)) := by
  cases items with
  | nil => exact stops_nil
  | cons item items => exact stops_cons.mpr (by decide)

theorem gap_space (first : Bool) : Gap first [' '] :=
  ⟨List.forall_mem_singleton.mpr (by decide), fun _ => List.cons_ne_nil _ _⟩

theorem chain_nil (first : Bool) : Chain first [] [] [] 0 := by
  cases first with
  | false => exact .adjacent stops_nil
  | true => exact .done ⟨by simp, fun no => Bool.noConfusion no⟩ stops_nil

/-- With single spaces in front of them the same tokens are read. -/
theorem Chain.spaced (chain : Chain first items pad rest open') (first' : Bool) :
    Chain first' (spaced items) [] [] 0 := by
  induction chain generalizing first' with
  | adjacent stops => exact chain_nil first'
  | done gap ends => exact chain_nil first'
  | opened gap opened => exact chain_nil first'
  | stuck before named opened =>
      exact .cons (gap_space first') (.dangling named stops_nil) (chain_nil false)
  | @cons first gap token items pad rest open' before stands others ih =>
      have ends := stops_spell_spaced items
      rw [← List.append_nil (spell _)] at ends
      exact .cons (gap_space first') (stands.behind ends) (ih false)

/-- What was read as a command is read again when it is printed. -/
theorem Leads.parses_print {lead : Text} (leads : Leads text lead name items pad rest open') :
    parseStrict (name ++ spell (spaced items)) =
      .ok (commandNode {} name (spaced items) []) := by
  have printed : Leads (name ++ spell (spaced items)) [] name
      (spaced items) [] [] 0 :=
    { split := by simp
      blank := by simp
      some := leads.some
      all := leads.all
      stops := by
        rw [List.append_nil, List.append_nil]
        exact stops_name_of_startsValue (stops_spell_spaced items)
      chain := leads.chain.spaced true }
  exact (Outcome.accepted printed (.inl rfl)).accepts

/-- Printing is stable: whatever command is read at the front of a line, its printed form
is one command as a whole, and that is the same command but for the places of its
nodes. -/
theorem parseStrict_print {command : Command} (parses : parse text = .ok (command, rest)) :
    ∃ again, parseStrict command.print = .ok again ∧ again.unplaced = command.unplaced := by
  obtain ⟨lead, name, items, pad, behind, open', remark, leads, trails, rfl⟩ :=
    exists_leads_of_parse parses
  refine ⟨_, ?_, (unplaced_commandNode (Position.after {} lead) {} name items pad []).symm⟩
  rw [print_commandNode]
  exact leads.parses_print

/-- The first parameter touches the name, and the value of the second one is a quote that
is not closed. -/
theorem parseStrict_print_touching :
    ∃ command again, parse "a$b  -x='c" = .ok (command, "'c") ∧ command.print = "a $b -x=" ∧
      parseStrict "a $b -x=" = .ok again ∧ again.unplaced = command.unplaced := by
  have parses : parse "a$b  -x='c" = .ok (commandNode {} "a"
      [([], .literal (.bare "$b")), ("  ", .unvalued false "x")] [], "'c") := by decide +kernel
  have printed := print_commandNode {} "a"
    [([], .literal (.bare "$b")), ("  ", .unvalued false "x")] []
  obtain ⟨again, parses', same⟩ := parseStrict_print parses
  rw [printed] at parses'
  exact ⟨_, again, parses, printed, parses', same⟩

end Spaced

end LineShell
