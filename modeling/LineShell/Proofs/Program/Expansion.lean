/-
Module: LineShell.Proofs.Program.Expansion
Purpose: The arguments of a command as they can be read off the text of its line, without the
  tree.
Main exports: Text.expand, readValue, readSwitch, readArgument, flatMap_expand_cutParts,
  Token.argument_param, arguments_of_parse
-/
import LineShell.Proofs.Syntax.Placement
import LineShell.Program.Argument

namespace LineShell

/-!
Which arguments a program is given can be told from the stretches of its parameters alone.
Single quotes protect everything between them; elsewhere one scan from left to right
replaces the references.  The tree is in between: reading cuts a value into parts, and
each part is expanded by itself.  That the parts are those which the scan finds is what is
to be shown, and the rest is where a stretch begins and ends.
-/

/-! ### Reading a value off its text -/

/-- A text with every reference replaced by the value of the variable.  A reference is a
dollar sign and the longest run of name characters behind it; a dollar sign without one is
copied like any other character, and no value is scanned again. -/
def Text.expand (store : Variables) : Text → Text
  | [] => []
  | c :: text =>
      let name := text.takeWhile isNameChar
      if c = '$' ∧ name ≠ [] then
        store.lookup name ++ expand store (text.dropWhile isNameChar)
      else c :: expand store text
termination_by text => text.length
decreasing_by
  · exact Nat.lt_succ_of_le (List.dropWhile_suffix _).length_le
  · exact Nat.lt_succ_self _

/-- What a value stands for that is written as `slice`. -/
def readValue (store : Variables) (slice : Text) : Text :=
  match slice with
  | '\x27' :: inside => inside.dropLast
  | '"' :: inside => Text.expand store inside.dropLast
  | _ => Text.expand store slice

/-- The value of a switch, from what stands behind its name: nothing, or an equals sign
and the value. -/
def readAssigned (store : Variables) : Text → Option Text
  | [] => none
  | _ :: value => some (readValue store value)

/-- A switch that is written as `slice`: its dashes, its name up to the first equals sign,
and the value behind that sign if there is one. -/
def readSwitch (store : Variables) (slice : Text) : Argument :=
  let long := ['-', '-'].isPrefixOf slice
  let body := slice.drop (if long then 2 else 1)
  .switch (body.takeWhile (· ≠ '=')) (readAssigned store (body.dropWhile (· ≠ '='))) long

/-- The argument that a parameter of a kind is, if it is written as `slice`. -/
def readArgument (store : Variables) (slice : Text) : ParamKind → Argument
  | .literal => .text (readValue store slice)
  | .shortSwitch | .longSwitch => readSwitch store slice

section Scanning

variable {store : Variables} {text rest : Text}

@[simp] theorem expand_nil : Text.expand store [] = [] := by
  rw [Text.expand]

theorem expand_cons_of_ne {c : Char} (plain : c ≠ '$') :
    Text.expand store (c :: text) = c :: Text.expand store text := by
  rw [Text.expand, if_neg fun both => plain both.1]

theorem expand_dollar (unnamed : text.takeWhile isNameChar = []) :
    Text.expand store ('$' :: text) = '$' :: Text.expand store text := by
  rw [Text.expand, if_neg fun both => both.2 unnamed]

theorem expand_reference (named : text.takeWhile isNameChar ≠ []) :
    Text.expand store ('$' :: text) =
      store.lookup (text.takeWhile isNameChar) ++
        Text.expand store (text.dropWhile isNameChar) := by
  rw [Text.expand, if_pos ⟨rfl, named⟩]

/-- A run without dollar signs is copied. -/
theorem expand_append (plain : ∀ c ∈ text, c ≠ '$') :
    Text.expand store (text ++ rest) = text ++ Text.expand store rest := by
  induction text with
  | nil => rfl
  | cons c text ih =>
      obtain ⟨here, others⟩ := List.forall_mem_cons.mp plain
      rw [List.cons_append, expand_cons_of_ne here, ih others, List.cons_append]

/-- No dollar sign stands in a run. -/
theorem ne_dollar_of_continuesRun {quoted : Bool} {c : Char}
    (plain : continuesRun quoted c = true) : c ≠ '$' := by
  rintro rfl
  rw [continuesRun_dollar] at plain
  exact Bool.noConfusion plain

/-- However a body is cut into parts, expanding them one by one is one scan of the body. -/
theorem flatMap_expand_cutParts (quoted : Bool) (position : Position) (text : Text) :
    (cutParts quoted position text).flatMap (Part.expand store) = Text.expand store text := by
  fun_induction cutParts quoted position text with
  | case1 => exact expand_nil.symm
  | case2 position text name unnamed start ih =>
      rw [expand_dollar (List.isEmpty_iff.mp unnamed), List.flatMap_cons, ih]
      rfl
  | case3 position text name named start stop ih =>
      rw [expand_reference (mt List.isEmpty_iff.mpr named), List.flatMap_cons, ih]
      rfl
  | case4 position c text plain run stop ih =>
      have whole : c :: text = run ++ text.dropWhile (continuesRun quoted) :=
        congrArg (c :: ·) List.takeWhile_append_dropWhile.symm
      have copied : ∀ d ∈ run, d ≠ '$' :=
        List.forall_mem_cons.mpr
          ⟨plain, fun d member => ne_dollar_of_continuesRun (mem_takeWhile member)⟩
      rw [whole, expand_append copied, List.flatMap_cons, ih]
      rfl

end Scanning

/-! ### Values and switches -/

section Tokens

variable {store : Variables} {position : Position} {long : Bool} {name : Text}

theorem Value.expand_node {value : Value} (fits : value.Fits) :
    (value.node position).expand store = readValue store value.text := by
  cases value with
  | bare word =>
      obtain ⟨c, more, rfl⟩ := List.exists_cons_of_ne_nil fits.1
      have inside := fits.2 c List.mem_cons_self
      have marks : c ≠ '\x27' ∧ c ≠ '"' := by
        constructor <;> (rintro rfl; exact absurd inside (by decide))
      refine (flatMap_expand_cutParts false position (c :: more)).trans ?_
      rw [Value.text, readValue]
      · rintro inside ⟨⟩
        exact marks.1 rfl
      · rintro inside ⟨⟩
        exact marks.2 rfl
  | single raw => exact List.dropLast_concat.symm
  | double body =>
      refine (flatMap_expand_cutParts true (position.advance '"') body).trans ?_
      exact congrArg (Text.expand store) List.dropLast_concat.symm

/-- The dashes of a switch tell whether it is a long one. -/
theorem isPrefixOf_dashes (named : Named long name) (behind : Text) :
    ['-', '-'].isPrefixOf (dashes long ++ (name ++ behind)) = long := by
  cases long with
  | true => rfl
  | false =>
      obtain ⟨c, more, rfl⟩ := List.exists_cons_of_ne_nil named.some
      have other : c ≠ '-' := fun same => named.short rfl (congrArg some same)
      simpa [dashes, List.isPrefixOf] using Ne.symm other

/-- The name of a switch ends where an equals sign stands. -/
theorem Named.run_equals (named : Named long name) {behind : Text}
    (ends : Stops (· ≠ '=') behind) :
    (name ++ behind).takeWhile (· ≠ '=') = name ∧
      (name ++ behind).dropWhile (· ≠ '=') = behind := by
  refine takeWhile_run (fun c member => ?_) ends
  rw [decide_eq_true_eq]
  rintro rfl
  exact absurd (named.all _ member) (by decide)

theorem readSwitch_dashes (named : Named long name) {behind : Text}
    (ends : Stops (· ≠ '=') behind) :
    readSwitch store (dashes long ++ (name ++ behind)) =
      .switch name (readAssigned store behind) long := by
  have dropped : (dashes long ++ (name ++ behind)).drop (if long then 2 else 1) =
      name ++ behind := by
    cases long <;> rfl
  obtain ⟨taken, left⟩ := named.run_equals ends
  rw [readSwitch, isPrefixOf_dashes named, dropped, taken, left]

/-- Whether the parts of a token can be told apart in its text. -/
def Token.Fits : Token → Prop
  | .literal value => value.Fits
  | .switch long name value => Named long name ∧ ∀ given ∈ value, given.Fits

theorem Token.Stands.fits {token : Token} {rest : Text} (stands : token.Stands rest) :
    token.Fits := by
  cases stands with
  | quoted fits marks => exact fits
  | word fits ends plain => exact fits
  | dangling named ends => exact fits_dangling named
  | flag named ends unassigned => exact ⟨named, fun _ none => nomatch none⟩
  | assigned named fits ends => exact ⟨named, fun _ same => Option.some.inj same ▸ fits⟩

/-- What a switch is as an argument. -/
theorem argument_switchNode {value : Option Value} (fits : ∀ given ∈ value, given.Fits) :
    (switchNode position name value).argument store long =
      .switch name (value.map fun given => readValue store given.text) long := by
  cases value with
  | none => rfl
  | some given =>
      have expanded : (given.node ((position.after name).advance '=')).expand store =
          readValue store given.text := Value.expand_node (fits given rfl)
      exact congrArg (fun value => Argument.switch name (some value) long) expanded

/-- A token is the argument that can be read off its text. -/
theorem Token.argument_param {token : Token} (fits : token.Fits) :
    (token.param position).argument store =
      readArgument store token.text (token.param position).kind := by
  cases token with
  | literal value => exact congrArg Argument.text (Value.expand_node fits)
  | switch long name value =>
      obtain ⟨named, fits⟩ := fits
      have read : readSwitch store (Token.switch long name value).text =
          .switch name (value.map fun given => readValue store given.text) long := by
        cases value with
        | none =>
            have whole : readSwitch store (dashes long ++ (name ++ [])) = _ :=
              readSwitch_dashes named stops_nil
            rwa [List.append_nil] at whole
        | some given => exact readSwitch_dashes named (stops_cons.mpr (by decide))
      cases long with
      | false => exact (argument_switchNode fits).trans read.symm
      | true => exact (argument_switchNode fits).trans read.symm

end Tokens

/-! ### Commands -/

section Commands

variable {text name pad rest : Text} {items : List (Text × Token)} {position : Position}
  {command : Command} {first : Bool} {open' : Nat}

theorem Chain.fits (chain : Chain first items pad rest open') :
    ∀ item ∈ items, item.2.Fits := by
  induction chain with
  | adjacent | done | opened => simp
  | stuck before named opened => exact List.forall_mem_singleton.mpr (fits_dangling named)
  | cons before stands others ih => exact List.forall_mem_cons.mpr ⟨stands.fits, ih⟩

/-- Every parameter of a command is the node of a token. -/
theorem exists_token_of_mem_nodesFrom {parameter : Parameter}
    (member : parameter ∈ nodesFrom position items) :
    ∃ item ∈ items, ∃ start, parameter = item.2.node start := by
  induction items generalizing position with
  | nil => cases member
  | cons item items ih =>
      rcases List.mem_cons.mp member with rfl | member
      · exact ⟨item, List.mem_cons_self, _, rfl⟩
      · obtain ⟨other, among, start, same⟩ := ih member
        exact ⟨other, List.mem_cons_of_mem _ among, start, same⟩

/-- The arguments of a command are those that can be read off the line: one for each
parameter, in order, from the very characters that the parameter takes. -/
theorem arguments_of_parse (parses : parse text = .ok (command, rest)) (store : Variables) :
    command.arguments store = command.params.map fun parameter =>
      readArgument store (text.between parameter.span.start parameter.span.stop)
        parameter.param.kind := by
  have picture := depicts_of_parse parses
  obtain ⟨lead, name, items, pad, behind, open', remark, leads, trails, rfl⟩ :=
    exists_leads_of_parse parses
  refine List.map_congr_left fun parameter member => ?_
  have slice : text.between parameter.span.start parameter.span.stop = parameter.param.print := by
    rw [Command.params] at member
    split at member
    · next parameters found =>
        exact ((picture.parameters parameters found).2.2 parameter member).1.shows
    · cases member
  rw [params_commandNode] at member
  obtain ⟨item, among, start, rfl⟩ := exists_token_of_mem_nodesFrom member
  rw [slice, Token.node, Token.print_param]
  exact Token.argument_param (leads.chain.fits item among)

/-- Values of all kinds; the value of one variable looks like a reference to another one. -/
theorem arguments_of_parse_values :
    ∃ command, parse "echo \"$a $\" '$a' $a$b$ -x=\"$b\" --y=$a -z= -w 'e" = .ok (command, "'e") ∧
      command.arguments { entries := [("a", "$b"), ("b", "'2")] } =
        [.text "$b $", .text "$a", .text "$b'2$", .switch "x" (some "'2") false,
          .switch "y" (some "$b") true, .text "-z=", .switch "w" none false] := by
  have parses : parse "echo \"$a $\" '$a' $a$b$ -x=\"$b\" --y=$a -z= -w 'e" =
      .ok (commandNode {} "echo"
        [(" ", .literal (.double "$a $")), (" ", .literal (.single "$a")),
          (" ", .literal (.bare "$a$b$")), (" ", .switch false "x" (some (.double "$b"))),
          (" ", .switch true "y" (some (.bare "$a"))), (" ", .unvalued false "z"),
          (" ", .switch false "w" none)] " ", "'e") := by decide +kernel
  refine ⟨_, parses, (arguments_of_parse parses _).trans ?_⟩
  decide +kernel

end Commands

end LineShell
