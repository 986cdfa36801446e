/-
Module: LineShell.Proofs.Program.Quoting
Purpose: Strings that are put in quotes come back as they were: a line made of a name and
  such strings is accepted, and its arguments are the strings, whatever the variables hold.
Main exports: Quotes, Quoted, Quoted.Sound, quotedLine, Quoted.expand_node,
  arguments_quoted, chain_quoted, leads_quotedLine, quoting_round_trip
-/
import LineShell.Proofs.Program.Flattening
import LineShell.Proofs.Syntax.TokenLanguage

namespace LineShell

/-!
Nothing that stands in quotes is looked at by any other rule: not a dash at the front, an
equals sign, the mark of a comment, the other kind of quotes, nor, in single quotes, a
dollar sign.  A kind of quotes is barred only to strings with the few characters that mean
something inside of it, and no string needs to be quoted character by character.
-/

/-! ### Strings in quotes -/

/-- The two kinds of quotes. -/
inductive Quotes where
  | single
  | double
deriving DecidableEq, Repr

/-- The character that opens and closes. -/
def Quotes.mark : Quotes → Char
  | .single => '\x27'
  | .double => '"'

/-- The characters that a string in such quotes cannot have. -/
def Quotes.barred : Quotes → List Char
  | .single => ['\x27']
  | .double => ['"', '$', '\n']

/-- A string, the quotes that it is put in, and the white space in front of them. -/
structure Quoted where
  gap : Text
  quotes : Quotes
  content : Text
deriving DecidableEq, Repr

namespace Quoted

/-- Whether there is white space, and the quotes can hold the string. -/
structure Sound (quoted : Quoted) : Prop where
  some : quoted.gap ≠ []
  blank : IsBlank quoted.gap
  held : ∀ c ∈ quoted.quotes.barred, c ∉ quoted.content

instance (quoted : Quoted) : Decidable quoted.Sound :=
  decidable_of_iff (quoted.gap ≠ [] ∧ IsBlank quoted.gap ∧
      quoted.quotes.barred.all (fun c => c ∉ quoted.content) = true)
    ⟨fun all => ⟨all.1, all.2.1, by simpa using all.2.2⟩,
      fun sound => ⟨sound.some, sound.blank, by simpa using sound.held⟩⟩

/-- The string with its quotes. -/
def wrapped (quoted : Quoted) : Text :=
  quoted.quotes.mark :: (quoted.content ++ [quoted.quotes.mark])

/-- What stands on the line. -/
def spelled (quoted : Quoted) : Text :=
  quoted.gap ++ quoted.wrapped

/-- The string as a value of the grammar. -/
def value (quoted : Quoted) : Value :=
  match quoted.quotes with
  | .single => .single quoted.content
  | .double => .double quoted.content

/-- The string as a token. -/
def item (quoted : Quoted) : Text × Token :=
  (quoted.gap, .literal quoted.value)

end Quoted

/-- A name, strings in quotes with white space in front of each, and what ends the line. -/
def quotedLine (name : Text) (strings : List Quoted) (pad comment : Text) : Text :=
  name ++ (strings.flatMap Quoted.spelled ++ (pad ++ comment))

section Strings

variable {quoted : Quoted} {strings : List Quoted} {store : Variables} {position : Position}

namespace Quoted

theorem text_value (quoted : Quoted) : quoted.value.text = quoted.wrapped := by
  obtain ⟨gap, quotes, content⟩ := quoted
  cases quotes <;> rfl

/-- Outside of it no character of the string is looked at. -/
theorem value_ne_bare (quoted : Quoted) (word : Text) : quoted.value ≠ .bare word := by
  obtain ⟨gap, quotes, content⟩ := quoted
  cases quotes <;> simp [value]

theorem not_mem_of_single {gap content : Text} (sound : Sound ⟨gap, .single, content⟩) :
    '\x27' ∉ content := by
  simpa [Quotes.barred] using sound.held

theorem not_mem_of_double {gap content : Text} (sound : Sound ⟨gap, .double, content⟩) :
    '"' ∉ content ∧ '$' ∉ content ∧ '\n' ∉ content := by
  simpa [Quotes.barred] using sound.held

theorem Sound.fits (sound : quoted.Sound) : quoted.value.Fits := by
  obtain ⟨gap, quotes, content⟩ := quoted
  cases quotes with
  | single => exact fits_single_iff.mpr (not_mem_of_single sound)
  | double =>
      obtain ⟨quote, -, line⟩ := not_mem_of_double sound
      exact fits_double_iff.mpr ⟨quote, line⟩

/-- The string is a token wherever it stands. -/
theorem Sound.stands (sound : quoted.Sound) (rest : Text) : quoted.item.2.Stands rest :=
  .quoted sound.fits quoted.value_ne_bare

theorem Sound.isToken (sound : quoted.Sound) : IsToken quoted.wrapped := by
  rw [← text_value]
  exact .quoted (Value.isQuoted sound.fits quoted.value_ne_bare)

/-- In neither kind of quotes anything is replaced. -/
theorem Sound.expand_node (sound : quoted.Sound) :
    (quoted.value.node position).expand store = quoted.content := by
  rw [Value.expand_node sound.fits, text_value]
  obtain ⟨gap, quotes, content⟩ := quoted
  cases quotes with
  | single => exact List.dropLast_concat
  | double =>
      have plain : ∀ c ∈ content, c ≠ '$' := by
        rintro c member rfl
        exact (not_mem_of_double sound).2.1 member
      have copied : Text.expand store (content ++ []) = content ++ Text.expand store [] :=
        expand_append plain
      rw [List.append_nil, expand_nil, List.append_nil] at copied
      exact (congrArg (Text.expand store) List.dropLast_concat).trans copied

end Quoted

/-! ### Lines of such strings -/

theorem spell_quoted (strings : List Quoted) :
    spell (strings.map Quoted.item) = strings.flatMap Quoted.spelled := by
  induction strings with
  | nil => rfl
  | cons quoted strings ih =>
      rw [List.map_cons, List.flatMap_cons, Quoted.item, spell, ih, Token.text,
        quoted.text_value, Quoted.spelled, List.append_assoc]

/-- However a parameter is turned into an argument, as long as a value stands for its text,
the arguments are the strings. -/
theorem arguments_quoted (read : Param → Argument)
    (reads : ∀ template span, read (.literal template span) = .text (template.expand store))
    (sound : ∀ quoted ∈ strings, quoted.Sound) (position : Position) :
    (nodesFrom position (strings.map Quoted.item)).map (fun parameter => read parameter.param) =
      strings.map fun quoted => .text quoted.content := by
  induction strings generalizing position with
  | nil => rfl
  | cons quoted strings ih =>
      obtain ⟨here, others⟩ := List.forall_mem_cons.mp sound
      simp only [List.map_cons, Quoted.item, nodesFrom, Token.node, Token.param]
      rw [reads, here.expand_node, ← ih others]

/-- Strings in quotes are read as parameters up to what ends the line. -/
theorem chain_quoted {pad rest : Text} (first : Bool) (sound : ∀ quoted ∈ strings, quoted.Sound)
    (blank : IsBlank pad) (ends : Stops (· ≠ '#') rest) :
    Chain first (strings.map Quoted.item) pad rest 0 := by
  induction strings generalizing first with
  | nil =>
      by_cases apart : first = false ∧ pad = []
      · obtain ⟨rfl, rfl⟩ := apart
        exact .adjacent (isBlank_of_remark ends)
      · exact .done ⟨blank, fun no none => apart ⟨no, none⟩⟩ ends
  | cons quoted strings ih =>
      obtain ⟨here, others⟩ := List.forall_mem_cons.mp sound
      exact .cons ⟨here.blank, fun _ => here.some⟩ (here.stands _) (ih false others)

variable {name pad comment : Text}

theorem remark_of_isComment (isComment : IsComment comment) : Remark comment := by
  rcases isComment with rfl | ⟨content, rfl, inside⟩
  · exact .inl rfl
  · exact .inr ⟨content, [], by rw [List.append_nil], inside, stops_nil, by simp⟩

theorem areTokens_quoted (sound : ∀ quoted ∈ strings, quoted.Sound) :
    AreTokens (strings.map fun quoted => (quoted.gap, quoted.wrapped)) := by
  intro token member
  obtain ⟨quoted, among, rfl⟩ := List.mem_map.mp member
  have here := sound quoted among
  exact ⟨here.some, here.blank, here.isToken⟩

/-- The line is read as the name and the strings, with the comment behind them. -/
theorem leads_quotedLine (isName : IsName name) (sound : ∀ quoted ∈ strings, quoted.Sound)
    (blank : IsBlank pad) (isComment : IsComment comment) :
    Leads (quotedLine name strings pad comment) [] name (strings.map Quoted.item) pad comment
      0 := by
  have ends := (remark_of_isComment isComment).stops
  have stops := stops_spellTokens (areTokens_quoted sound) blank ends
  rw [spellTokens, List.flatMap_map] at stops
  exact
    { split := by rw [spell_quoted]; rfl
      blank := by simp
      some := isName.1
      all := isName.2
      stops := by
        rw [spell_quoted]
        exact stops_name_of_startsValue stops
      chain := chain_quoted true sound blank ends }

/-- A line of a name and strings in quotes that can hold them, with white space in front of
each, and with white space and perhaps a comment at its end, is accepted.  The command has
that name, and its arguments are exactly the strings, in order: as plain text where switches
are told apart, as plain text where they are not, and as texts. -/
theorem quoting_round_trip (isName : IsName name) (sound : ∀ quoted ∈ strings, quoted.Sound)
    (blank : IsBlank pad) (isComment : IsComment comment) :
    ∃ command, parseStrict (quotedLine name strings pad comment) = .ok command ∧
      command.name = name ∧
      ∀ store : Variables,
        command.arguments store = strings.map (fun quoted => .text quoted.content) ∧
          command.textArguments store = strings.map (fun quoted => .text quoted.content) ∧
          command.texts store = strings.map Quoted.content := by
  have leads := leads_quotedLine isName sound blank isComment
  have accepted := (Outcome.accepted leads (remark_of_isComment isComment)).accepts
  refine ⟨_, accepted, rfl, fun store => ?_⟩
  have plain : (commandNode (Position.after {} []) name (strings.map Quoted.item)
      pad).textArguments store = strings.map fun quoted => .text quoted.content := by
    rw [Command.textArguments, params_commandNode]
    exact arguments_quoted (Param.textArgument store) (fun _ _ => rfl) sound _
  refine ⟨?_, plain, ?_⟩
  · rw [Command.arguments, params_commandNode]
    exact arguments_quoted (Param.argument store) (fun _ _ => rfl) sound _
  · rw [Command.texts, plain, List.map_map]
    rfl

/-- Empty strings, and strings that would be switches, references, comments or quotes of the
other kind if they were not quoted. -/
theorem quoting_round_trip_marks :
    ∃ command, parseStrict "a-1 '--x=$y' \"'#'\"\n'' '\"\n'\n#'" = .ok command ∧
      command.texts { entries := [("y", "z")] } = [String.toList "--x=$y", "'#'", [], "\"\n"] := by
  have isName : IsName "a-1" := by decide
  have sound : ∀ quoted ∈ [Quoted.mk " " .single "--x=$y", ⟨" ", .double, "'#'"⟩,
      ⟨"\n", .single, []⟩, ⟨" ", .single, "\"\n"⟩], quoted.Sound := by decide
  have blank : IsBlank "\n" := by decide
  have isComment : IsComment "#'" := .inr ⟨"'", rfl, by decide⟩
  obtain ⟨command, parses, -, arguments⟩ := quoting_round_trip isName sound blank isComment
  exact ⟨command, parses, (arguments _).2.2⟩

end Strings

end LineShell
