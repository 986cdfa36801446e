/-
Module: LineShell.Proofs.Syntax.DocumentedGrammar
Purpose: The documented grammar as a context-free grammar, and which of its lines are
  accepted: the rules read alternatives in order, and that narrows the language.
Main exports: IsBody, IsTemplate, IsSwitch, IsParameter, IsCommand, IsLine, NameEnds,
  isBody_iff, isParameter_iff, isLine_iff
-/
import LineShell.Proofs.Syntax.TokenLanguage

namespace LineShell

/-!
As a context-free grammar the documented rules choose freely between their alternatives.
Where `ordered` is true, an alternative is chosen as the rules choose it: two dashes
belong to a long switch, and what has a switch at its front is no literal.
-/

/-! ### The grammar -/

/-- Characters of literal runs. -/
def isRunChar (quoted : Bool) (c : Char) : Bool :=
  if quoted then !(c = '$' || c = '"' || c = '\n')
  else !(isBlank c || c = '$' || c = '#' || c = '\x27' || c = '"')

/-- `body := (literal_run | "$" strict_ident | "$")*` -/
inductive IsBody (quoted : Bool) : Text → Prop where
  | nil : IsBody quoted []
  | run {run text : Text} (some : run ≠ []) (all : ∀ c ∈ run, isRunChar quoted c = true)
      (more : IsBody quoted text) : IsBody quoted (run ++ text)
  | reference {name text : Text} (some : name ≠ []) (all : ∀ c ∈ name, isNameChar c = true)
      (more : IsBody quoted text) : IsBody quoted ('$' :: (name ++ text))
  | dollar {text : Text} (more : IsBody quoted text) : IsBody quoted ('$' :: text)

/-- `template := "'" raw_text "'" | '"' body '"' | body`, where a body without quotes is
not empty. -/
inductive IsTemplate : Text → Prop where
  | single {raw : Text} (inside : '\x27' ∉ raw) : IsTemplate ('\x27' :: (raw ++ ['\x27']))
  | double {body : Text} (isBody : IsBody true body) : IsTemplate ('"' :: (body ++ ['"']))
  | bare {body : Text} (isBody : IsBody false body) (some : body ≠ []) : IsTemplate body

/-- `switch := ("--" | "-") loose_ident ("=" template)?` -/
inductive IsSwitch (ordered : Bool) : Text → Prop where
  | flag {long : Bool} {name : Text} (isName : IsName name)
      (short : ordered = true → long = false → name.head? ≠ some '-') :
      IsSwitch ordered (dashes long ++ name)
  | assigned {long : Bool} {name value : Text} (isName : IsName name)
      (short : ordered = true → long = false → name.head? ≠ some '-')
      (isTemplate : IsTemplate value) : IsSwitch ordered (dashes long ++ (name ++ '=' :: value))

/-- Whether dashes and the name of a switch stand at the front of a text with something
else than an equals sign behind them. -/
def Committed (text : Text) : Prop :=
  ∃ long name c behind, Heads text long name (c :: behind) ∧ c ≠ '='

/-- `parameter := switch | literal` and `literal := template` -/
inductive IsParameter (ordered : Bool) : Text → Prop where
  | switch {text : Text} (isSwitch : IsSwitch ordered text) : IsParameter ordered text
  | literal {text : Text} (isTemplate : IsTemplate text)
      (late : ordered = true → ¬ Committed text) : IsParameter ordered text

/-- `parameters := parameter (ws+ parameter)* ws*` -/
inductive IsParameters (ordered : Bool) : Text → Prop where
  | last {parameter pad : Text} (isParameter : IsParameter ordered parameter)
      (blank : IsBlank pad) : IsParameters ordered (parameter ++ pad)
  | cons {parameter gap text : Text} (isParameter : IsParameter ordered parameter)
      (some : gap ≠ []) (blank : IsBlank gap) (others : IsParameters ordered text) :
      IsParameters ordered (parameter ++ (gap ++ text))

/-- `command := loose_ident (ws+ parameters)?` -/
inductive IsCommand (ordered : Bool) : Text → Prop where
  | plain {name : Text} (isName : IsName name) : IsCommand ordered name
  | parameters {name gap text : Text} (isName : IsName name) (some : gap ≠ [])
      (blank : IsBlank gap) (others : IsParameters ordered text) :
      IsCommand ordered (name ++ (gap ++ text))

/-- `ws* command ws* comment? ws*` -/
inductive IsLine (ordered : Bool) : Text → Prop where
  | intro {lead command pad comment tail : Text} (blank : IsBlank lead)
      (isCommand : IsCommand ordered command) (blank' : IsBlank pad)
      (isComment : IsComment comment) (blank'' : IsBlank tail) :
      IsLine ordered (lead ++ (command ++ (pad ++ (comment ++ tail))))

/-! ### Templates -/

section Templates

variable {quoted : Bool} {text : Text}

theorem isRunChar_or_dollar (quoted : Bool) (c : Char) :
    (isRunChar quoted c || c = '$') = isBodyChar quoted c := by
  by_cases dollar : c = '$'
  · subst dollar
    cases quoted <;> rfl
  · cases quoted with
    | true => simp [isRunChar, isBodyChar_true, dollar]
    | false => simp [isRunChar, isBodyChar_false, dollar]

/-- A body is cut into its parts whatever its characters are. -/
theorem isBody_iff : IsBody quoted text ↔ ∀ c ∈ text, isBodyChar quoted c = true := by
  constructor
  · intro isBody
    induction isBody with
    | nil => simp
    | run some all more ih =>
        intro c member
        rcases List.mem_append.mp member with front | back
        · rw [← isRunChar_or_dollar, all c front]
          rfl
        · exact ih c back
    | reference some all more ih =>
        intro c member
        rcases List.mem_cons.mp member with rfl | member
        · cases quoted <;> rfl
        · rcases List.mem_append.mp member with front | back
          · exact isBodyChar_of_isNameChar quoted (all c front)
          · exact ih c back
    | dollar more ih =>
        intro c member
        rcases List.mem_cons.mp member with rfl | member
        · cases quoted <;> rfl
        · exact ih c member
  · intro all
    induction text with
    | nil => exact .nil
    | cons c text ih =>
        have more := ih fun d member => all d (List.mem_cons_of_mem _ member)
        have first := all c List.mem_cons_self
        rw [← isRunChar_or_dollar, Bool.or_eq_true, decide_eq_true_eq] at first
        rcases first with plain | rfl
        · have run : ∀ d ∈ [c], isRunChar quoted d = true := by
            intro d member
            rwa [List.mem_singleton.mp member]
          exact .run (List.cons_ne_nil c []) run more
        · exact .dollar more

theorem isTemplate_iff : IsTemplate text ↔ IsQuoted text ∨ IsWord text := by
  constructor
  · intro isTemplate
    cases isTemplate with
    | single inside => exact .inl (.single inside)
    | double isBody =>
        obtain ⟨inside, line⟩ := fits_double_iff.mp (isBody_iff.mp isBody)
        exact .inl (.double inside line)
    | bare isBody some => exact .inr (fits_bare_iff.mp ⟨some, isBody_iff.mp isBody⟩)
  · rintro (isQuoted | isWord)
    · cases isQuoted with
      | single inside => exact .single inside
      | double inside line => exact .double (isBody_iff.mpr (fits_double_iff.mpr ⟨inside, line⟩))
    · have fits := fits_bare_iff.mpr isWord
      exact .bare (isBody_iff.mpr fits.2) fits.1

end Templates

/-! ### Parameters -/

section Parameters

variable {text : Text}

/-- Names of switches as the rules choose them. -/
theorem named_iff {long : Bool} {name : Text} :
    Named long name ↔ IsName name ∧ (long = false → name.head? ≠ some '-') := by
  constructor
  · exact fun named => ⟨⟨named.some, named.all⟩, named.short⟩
  · rintro ⟨⟨some, all⟩, short⟩
    exact ⟨some, all, short⟩

theorem IsSwitch.isToken (isSwitch : IsSwitch true text) : IsToken text := by
  cases isSwitch with
  | flag isName short =>
      have named := named_iff.mpr ⟨isName, short rfl⟩
      exact named.heads.isToken (by simp) (.inl rfl)
  | @assigned long name value isName short isTemplate =>
      have named := named_iff.mpr ⟨isName, short rfl⟩
      rcases isTemplate_iff.mp isTemplate with isQuoted | isWord
      · rw [← List.append_assoc]
        exact .assigned named.heads.switchLike named.all_dashes isQuoted
      · have heads : Heads (dashes long ++ (name ++ '=' :: value)) long name ('=' :: value) :=
          ⟨rfl, named, stops_cons.mpr (by decide)⟩
        apply heads.isToken ?_ (.inr rfl)
        rintro c (_ | ⟨_, member⟩)
        · decide
        · exact isWord.2 c member

/-- A word is a literal unless it has a switch at its front. -/
theorem isToken_of_isWord (isWord : IsWord text) (late : ¬ Committed text) : IsToken text := by
  by_cases like : SwitchLike text
  · obtain ⟨long, name, behind, heads⟩ := like.exists_heads
    have all : ∀ c ∈ behind, isWordChar c = true := by
      intro c member
      apply isWord.2 c
      rw [heads.split_run]
      exact List.mem_append_right _ member
    apply heads.isToken all
    cases behind with
    | nil => exact .inl rfl
    | cons c behind =>
        have assigned : c = '=' := Decidable.byContradiction fun other =>
          late ⟨long, name, c, behind, heads, other⟩
        exact .inr (congrArg some assigned)
  · exact .word isWord like

/-- No switch stands at the front of a text that does not begin like one. -/
theorem not_committed (plain : ¬ SwitchLike text) : ¬ Committed text := by
  rintro ⟨long, name, c, behind, heads, -⟩
  exact plain heads.switchLike

/-- A word with a switch at its front is that switch, or a literal if nothing stands
behind the equals sign. -/
theorem Heads.isParameter {long : Bool} {name behind : Text}
    (heads : Heads text long name behind) (isWord : IsWord text)
    (whole : behind = [] ∨ behind.head? = some '=') : IsParameter true text := by
  obtain ⟨isName, short⟩ := named_iff.mp heads.named
  rcases whole with rfl | assigned
  · rw [heads.split, List.append_nil]
    exact .switch (.flag isName fun _ => short)
  · obtain ⟨value, rfl⟩ := List.head?_eq_some_iff.mp assigned
    by_cases none : value = []
    · subst none
      apply IsParameter.literal (isTemplate_iff.mpr (.inr isWord))
      rintro - ⟨long', name', c, behind, heads', other⟩
      exact other (List.cons.inj (heads'.behind_unique heads.split_run)).1
    · have isWord' : IsWord value := by
        refine ⟨none, fun c member => isWord.2 c ?_⟩
        rw [heads.split]
        simp [member]
      rw [heads.split]
      exact .switch (.assigned isName (fun _ => short) (isTemplate_iff.mpr (.inr isWord')))

/-- The parameters that are chosen in order are the tokens. -/
theorem isParameter_iff : IsParameter true text ↔ IsToken text := by
  constructor
  · intro isParameter
    cases isParameter with
    | switch isSwitch => exact isSwitch.isToken
    | literal isTemplate late =>
        rcases isTemplate_iff.mp isTemplate with isQuoted | isWord
        · exact .quoted isQuoted
        · exact isToken_of_isWord isWord (late rfl)
  · intro isToken
    cases isToken with
    | quoted isQuoted =>
        apply IsParameter.literal (isTemplate_iff.mpr (.inl isQuoted))
        exact fun _ => not_committed isQuoted.not_switchLike
    | word isWord plain =>
        apply IsParameter.literal (isTemplate_iff.mpr (.inr isWord))
        exact fun _ => not_committed plain
    | @switch _ behind isWord like split whole =>
        obtain ⟨long, name, behind', heads⟩ := like.exists_heads
        obtain rfl := heads.behind_unique split
        exact heads.isParameter isWord whole
    | assigned like all isQuoted =>
        obtain ⟨long, name, rfl, named⟩ := like.exists_named all
        obtain ⟨isName, short⟩ := named_iff.mp named
        rw [List.append_assoc]
        exact .switch (.assigned isName (fun _ => short) (isTemplate_iff.mpr (.inl isQuoted)))

end Parameters

/-! ### Lines -/

section Lines

variable {text lead name : Text} {tokens : List (Text × Text)}

theorem areTokens_cons {gap token : Text} :
    AreTokens ((gap, token) :: tokens) ↔
      (gap ≠ [] ∧ IsBlank gap ∧ IsToken token) ∧ AreTokens tokens :=
  List.forall_mem_cons

theorem spellTokens_cons (gap token : Text) (tokens : List (Text × Text)) :
    spellTokens ((gap, token) :: tokens) = gap ++ (token ++ spellTokens tokens) := by
  simp [spellTokens]

theorem IsBlank.append {text' : Text} (blank : IsBlank text) (blank' : IsBlank text') :
    IsBlank (text ++ text') := by
  intro c member
  rcases List.mem_append.mp member with front | back
  · exact blank c front
  · exact blank' c back

theorem IsParameters.exists_tokens (isParameters : IsParameters true text) :
    ∃ token tokens pad, text = token ++ (spellTokens tokens ++ pad) ∧ IsToken token ∧
      AreTokens tokens ∧ IsBlank pad := by
  induction isParameters with
  | @last parameter pad isParameter blank =>
      exact ⟨parameter, [], pad, rfl, isParameter_iff.mp isParameter, by simp [AreTokens], blank⟩
  | @cons parameter gap text isParameter some blank others ih =>
      obtain ⟨token, tokens, pad, rfl, isToken, areTokens, blank'⟩ := ih
      refine ⟨parameter, (gap, token) :: tokens, pad, ?_, isParameter_iff.mp isParameter,
        areTokens_cons.mpr ⟨⟨some, blank, isToken⟩, areTokens⟩, blank'⟩
      simp [spellTokens_cons]

theorem isParameters_of_tokens {token : Text} (isToken : IsToken token)
    (areTokens : AreTokens tokens) : IsParameters true (token ++ spellTokens tokens) := by
  induction tokens generalizing token with
  | nil => exact .last (isParameter_iff.mpr isToken) (by simp [spellTokens, IsBlank])
  | cons next tokens ih =>
      obtain ⟨⟨some, blank, isToken'⟩, others⟩ := areTokens_cons.mp areTokens
      rw [spellTokens_cons]
      exact .cons (isParameter_iff.mpr isToken) some blank (ih isToken' others)

/-- The lines that are derived with alternatives in order are those that are spelled. -/
theorem isLine_iff :
    IsLine true text ↔ ∃ lead name tokens, IsName name ∧ Spelled text lead name tokens := by
  constructor
  · rintro ⟨blank, isCommand, blank', isComment, blank''⟩
    cases isCommand with
    | plain isName =>
        exact ⟨_, _, [], isName, _, _, _, rfl, blank, blank', blank'', isComment,
          by simp [AreTokens]⟩
    | @parameters name gap text isName some gapBlank others =>
        obtain ⟨token, tokens, pad', rfl, isToken, areTokens, padBlank⟩ := others.exists_tokens
        refine ⟨_, name, (gap, token) :: tokens, isName, _, _, _, ?_, blank,
          padBlank.append blank', blank'', isComment,
          areTokens_cons.mpr ⟨⟨some, gapBlank, isToken⟩, areTokens⟩⟩
        simp [spellTokens_cons]
  · rintro ⟨lead, name, tokens, isName, pad, comment, tail, rfl, blank, blank', blank'',
      isComment, areTokens⟩
    cases tokens with
    | nil =>
        have line : IsLine true (lead ++ (name ++ (pad ++ (comment ++ tail)))) :=
          .intro blank (.plain isName) blank' isComment blank''
        exact line
    | cons next tokens =>
        obtain ⟨gap, token⟩ := next
        obtain ⟨⟨some, gapBlank, isToken⟩, others⟩ := areTokens_cons.mp areTokens
        have command := IsCommand.parameters isName some gapBlank
          (isParameters_of_tokens isToken others)
        have line := IsLine.intro blank command blank' isComment blank''
        simpa [spellTokens_cons] using line

/-- Whether white space, a comment or the end stands behind the name of the program. -/
def NameEnds (text : Text) : Prop :=
  ∀ c, ((text.dropWhile isBlank).dropWhile isLooseNameChar).head? = some c →
    isBlank c = true ∨ c = '#'

/-- What stands behind a name is what is left when white space and the name are taken. -/
theorem dropWhile_dropWhile {rest : Text} (blank : IsBlank lead) (isName : IsName name)
    (stops : Stops isLooseNameChar rest) :
    ((lead ++ (name ++ rest)).dropWhile isBlank).dropWhile isLooseNameChar = rest := by
  rw [(takeWhile_run blank (stops_name isName.1 isName.2)).2, (takeWhile_run isName.2 stops).2]

theorem Spelled.nameEnds (spelled : Spelled text lead name tokens) (isName : IsName name) :
    NameEnds text := by
  obtain ⟨pad, comment, tail, rfl, blank, blank', blank'', isComment, areTokens⟩ := spelled
  obtain ⟨pad, rest, same, blank', remark⟩ := exists_remark blank' isComment blank''
  have ends := stops_spellTokens areTokens blank' remark.stops
  rw [same]
  intro c first
  rw [dropWhile_dropWhile blank isName (stops_name_of_startsValue ends)] at first
  have stops := ends c first
  simpa [startsValue, Decidable.or_iff_not_imp_left] using stops

/-- With alternatives in order the grammar derives just those accepted lines in which
white space, a comment or the end stands behind the name of the program. -/
theorem ordered_grammar (text : Text) :
    IsLine true text ↔ NameEnds text ∧ ∃ command, parseStrict text = .ok command := by
  rw [isLine_iff]
  constructor
  · rintro ⟨lead, name, tokens, isName, spelled⟩
    obtain ⟨command, parses, -⟩ := spelled.parses isName
    exact ⟨spelled.nameEnds isName, command, parses⟩
  · rintro ⟨ends, command, parses⟩
    obtain ⟨lead, name, items, pad, rest, leads, -⟩ := exists_leads_of_parses parses
    have isName : IsName name := ⟨leads.some, leads.all⟩
    have introduced : Introduced text lead name := by
      refine ⟨_, leads.split, leads.blank, isName, fun c first => ends c ?_⟩
      rwa [leads.split, dropWhile_dropWhile leads.blank isName leads.stops]
    obtain ⟨tokens, spelled⟩ := introduced.spelled parses
    exact ⟨lead, name, tokens, isName, spelled⟩

/-- The grammar by itself derives more than what is accepted: here a literal that begins
with a switch, for which the rules have no other reading. -/
theorem grammar_without_order :
    ¬ ∀ text, (∃ command, parseStrict text = .ok command) ↔ IsLine false text := by
  intro same
  have literal : IsParameter false "-x+y" :=
    .literal (isTemplate_iff.mpr (.inr (by decide))) (fun no => Bool.noConfusion no)
  have parameters : IsParameters false "-x+y" := .last literal (by decide : IsBlank [])
  have command : IsCommand false "a -x+y" :=
    @IsCommand.parameters false "a" " " "-x+y" (by decide) (by decide) (by decide) parameters
  have line : IsLine false "a -x+y" :=
    @IsLine.intro false [] "a -x+y" [] [] [] (by decide) command (by decide) (.inl rfl)
      (by decide)
  obtain ⟨command, parses⟩ := (same _).mpr line
  have rejected : (parseStrict "a -x+y").isOk = false := by decide +kernel
  rw [parses] at rejected
  cases rejected

end Lines

end LineShell
