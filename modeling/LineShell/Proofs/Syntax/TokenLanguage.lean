/-
Module: LineShell.Proofs.Syntax.TokenLanguage
Purpose: The accepted lines described without the reading rules: a name and a flat
  sequence of tokens, each of which becomes one parameter.
Main exports: IsWord, SwitchLike, IsToken, kindOf, Introduced, Spelled, outlineFrom,
  Token.Stands.isToken, IsToken.readsAsOne, Spelled.parses, Introduced.spelled
-/
import LineShell.Proofs.Syntax.Lines

namespace LineShell

/-!
The description speaks about characters only.  What the reading rules decide by trying
one alternative after the other is decided here by the run of name characters at the
front of a word.
-/

/-! ### Words -/

/-- Characters of words. -/
def isWordChar (c : Char) : Bool :=
  !(isBlank c || c = '#' || c = '\x27' || c = '"')

/-- Whether a text is a word.  In a line a word ends where white space, a quote or a
comment begins. -/
def IsWord (text : Text) : Prop :=
  text ≠ [] ∧ ∀ c ∈ text, isWordChar c = true

instance (text : Text) : Decidable (IsWord text) :=
  decidable_of_iff (text ≠ [] ∧ text.all isWordChar = true)
    (and_congr_right fun _ => List.all_eq_true)

/-- The longest run of name characters at the front of a text. -/
def leadingRun (text : Text) : Text :=
  text.takeWhile isLooseNameChar

/-- Whether a text begins like a switch: with a dash, and a run of name characters that
is neither a single dash nor two dashes. -/
def SwitchLike (text : Text) : Prop :=
  text.head? = some '-' ∧ 2 ≤ (leadingRun text).length ∧ leadingRun text ≠ ['-', '-']

instance (text : Text) : Decidable (SwitchLike text) :=
  inferInstanceAs (Decidable (_ ∧ _ ∧ _))

/-! ### Tokens -/

/-- Texts in quotes. -/
inductive IsQuoted : Text → Prop where
  | single {raw : Text} (inside : '\x27' ∉ raw) : IsQuoted ('\x27' :: (raw ++ ['\x27']))
  | double {body : Text} (inside : '"' ∉ body) (line : '\n' ∉ body) :
      IsQuoted ('"' :: (body ++ ['"']))

/-- Texts that are one token. -/
inductive IsToken : Text → Prop where
  | quoted {text : Text} (quoted : IsQuoted text) : IsToken text
  | word {text : Text} (word : IsWord text) (plain : ¬ SwitchLike text) : IsToken text
  /-- The run of name characters is the whole word, or an equals sign follows it. -/
  | switch {text behind : Text} (word : IsWord text) (like : SwitchLike text)
      (split : text = leadingRun text ++ behind)
      (whole : behind = [] ∨ behind.head? = some '=') : IsToken text
  | assigned {run quoted : Text} (like : SwitchLike run)
      (all : ∀ c ∈ run, isLooseNameChar c = true) (value : IsQuoted quoted) :
      IsToken (run ++ '=' :: quoted)

/-- The three kinds of parameters. -/
inductive ParamKind where
  | literal
  | shortSwitch
  | longSwitch
deriving DecidableEq, Repr, Inhabited

/-- The kind of a parameter. -/
def Param.kind : Param → ParamKind
  | .literal _ _ => .literal
  | .shortSwitch _ => .shortSwitch
  | .longSwitch _ => .longSwitch

/-- The kind of parameter that a token becomes: a switch if it begins like one, unless
nothing stands behind the equals sign; two dashes make it a long one. -/
def kindOf (token : Text) : ParamKind :=
  if SwitchLike token ∧ token ≠ leadingRun token ++ ['='] then
    if token.take 2 = ['-', '-'] then .longSwitch else .shortSwitch
  else .literal

/-! ### Lines -/

/-- Whether a text is nothing but white space. -/
def IsBlank (text : Text) : Prop :=
  ∀ c ∈ text, isBlank c = true

instance (text : Text) : Decidable (IsBlank text) :=
  decidable_of_iff (text.all isBlank = true) List.all_eq_true

/-- Whether a text is a name. -/
def IsName (text : Text) : Prop :=
  text ≠ [] ∧ ∀ c ∈ text, isLooseNameChar c = true

instance (text : Text) : Decidable (IsName text) :=
  decidable_of_iff (text ≠ [] ∧ text.all isLooseNameChar = true)
    (and_congr_right fun _ => List.all_eq_true)

/-- Whether a text begins with white space and a name, and white space, a comment or the
end follows. -/
def Introduced (text lead name : Text) : Prop :=
  ∃ rest, text = lead ++ (name ++ rest) ∧ IsBlank lead ∧ IsName name ∧
    ∀ c, rest.head? = some c → isBlank c = true ∨ c = '#'

/-- Nothing, or a comment. -/
def IsComment (text : Text) : Prop :=
  text = [] ∨ ∃ content, text = '#' :: content ∧ '\n' ∉ content

/-- The text of tokens with the white space in front of each. -/
def spellTokens (tokens : List (Text × Text)) : Text :=
  tokens.flatMap fun token => token.1 ++ token.2

/-- Whether texts are tokens with white space in front of each. -/
def AreTokens (tokens : List (Text × Text)) : Prop :=
  ∀ token ∈ tokens, token.1 ≠ [] ∧ IsBlank token.1 ∧ IsToken token.2

/-- Whether a text is white space, a name, tokens with white space in front of each, and
perhaps a comment with white space around it. -/
def Spelled (text lead name : Text) (tokens : List (Text × Text)) : Prop :=
  ∃ pad comment tail,
    text = lead ++ (name ++ (spellTokens tokens ++ (pad ++ (comment ++ tail)))) ∧
    IsBlank lead ∧ IsBlank pad ∧ IsBlank tail ∧ IsComment comment ∧ AreTokens tokens

/-- The stretch and the kind of the parameter that each of the tokens becomes. -/
def outlineFrom (position : Position) : List (Text × Text) → List (Span × ParamKind)
  | [] => []
  | (gap, token) :: tokens =>
      let start := position.after gap
      let stop := start.after token
      ({ start := start, stop := stop }, kindOf token) :: outlineFrom stop tokens

/-! ### Switches -/

section Switches

variable {text name behind : Text} {long : Bool}

theorem isBodyChar_eq_isWordChar (c : Char) : isBodyChar false c = isWordChar c :=
  isBodyChar_false c

theorem fits_bare_iff : (Value.bare text).Fits ↔ IsWord text := by
  simp only [Value.Fits, IsWord, isBodyChar_eq_isWordChar]

theorem fits_single_iff : (Value.single text).Fits ↔ '\x27' ∉ text := by
  constructor
  · intro fits member
    exact fits _ member rfl
  · rintro inside c member rfl
    exact inside member

theorem fits_double_iff : (Value.double text).Fits ↔ '"' ∉ text ∧ '\n' ∉ text := by
  simp only [Value.Fits, isBodyChar_true, Bool.and_eq_true, decide_eq_true_eq]
  constructor
  · intro fits
    constructor
    · exact fun member => (fits _ member).1 rfl
    · exact fun member => (fits _ member).2 rfl
  · rintro ⟨inside, line⟩ c member
    constructor
    · rintro rfl
      exact inside member
    · rintro rfl
      exact line member

theorem Named.heads (named : Named long name) : Heads (dashes long ++ name) long name [] :=
  ⟨by rw [List.append_nil], named, stops_nil⟩

theorem Named.isWord (named : Named long name) (all : ∀ c ∈ behind, isWordChar c = true) :
    IsWord (dashes long ++ (name ++ behind)) := by
  apply fits_bare_iff.mp
  apply named.fits
  intro c member
  rw [isBodyChar_eq_isWordChar]
  exact all c member

/-- The name of a switch and its dashes are the run at the front. -/
theorem Heads.leadingRun_eq (heads : Heads text long name behind) :
    leadingRun text = dashes long ++ name := by
  rw [leadingRun, heads.split, ← List.append_assoc]
  exact (takeWhile_run heads.named.all_dashes heads.stops).1

theorem Heads.split_run (heads : Heads text long name behind) :
    text = leadingRun text ++ behind := by
  rw [heads.leadingRun_eq, List.append_assoc]
  exact heads.split

/-- A text has one switch at its front only. -/
theorem Heads.behind_unique {behind' : Text} (heads : Heads text long name behind)
    (split : text = leadingRun text ++ behind') : behind = behind' :=
  List.append_cancel_left (heads.split_run.symm.trans split)

theorem Heads.take_two (heads : Heads text long name behind) :
    text.take 2 = ['-', '-'] ↔ long = true := by
  obtain ⟨rfl, named, stops⟩ := heads
  cases long with
  | true => simp [dashes]
  | false =>
      obtain ⟨c, more, rfl⟩ := List.exists_cons_of_ne_nil named.some
      have other : c ≠ '-' := fun same => named.short rfl (congrArg some same)
      simp [dashes, other]

theorem Heads.switchLike (heads : Heads text long name behind) : SwitchLike text := by
  have run := heads.leadingRun_eq
  obtain ⟨rfl, named, stops⟩ := heads
  have some := List.length_pos_iff.mpr named.some
  refine ⟨?_, ?_, ?_⟩
  · cases long <;> rfl
  · have dashed : 0 < (dashes long).length := by cases long <;> decide
    rw [run, List.length_append]
    omega
  · rw [run]
    cases long with
    | true => simpa [dashes] using named.some
    | false =>
        intro same
        exact named.short rfl (by simp_all [dashes])

/-- What begins like a switch has a switch at its front. -/
theorem SwitchLike.exists_heads (like : SwitchLike text) :
    ∃ long name behind, Heads text long name behind := by
  obtain ⟨first, length, other⟩ := like
  obtain ⟨run, behind, split, all, stops⟩ := exists_run isLooseNameChar text
  have same : leadingRun text = run := by
    rw [leadingRun, split]
    exact (takeWhile_run all stops).1
  rw [same] at length other
  subst split
  obtain ⟨c, d, name, rfl⟩ : ∃ c d name, run = c :: d :: name := by
    match run, length with
    | c :: d :: name, _ => exact ⟨c, d, name, rfl⟩
  obtain rfl : c = '-' := Option.some.inj first
  by_cases double : d = '-'
  · subst double
    refine ⟨true, name, behind, rfl, ⟨?_, fun c member => all c (by simp [member]), ?_⟩, stops⟩
    · rintro rfl
      exact other rfl
    · exact fun no => Bool.noConfusion no
  · refine ⟨false, d :: name, behind, rfl, ⟨List.cons_ne_nil _ _, ?_, ?_⟩, stops⟩
    · exact fun c member => all c (List.mem_cons_of_mem _ member)
    · exact fun _ first => double (Option.some.inj first)

/-- A run of name characters that begins like a switch is dashes and a name. -/
theorem SwitchLike.exists_named (like : SwitchLike text)
    (all : ∀ c ∈ text, isLooseNameChar c = true) :
    ∃ long name, text = dashes long ++ name ∧ Named long name := by
  obtain ⟨long, name, behind, heads⟩ := like.exists_heads
  have stops : Stops isLooseNameChar [] := stops_nil
  have whole := (takeWhile_run all stops).1
  rw [List.append_nil] at whole
  obtain rfl : behind = [] := by
    apply heads.behind_unique
    rw [List.append_nil, leadingRun, whole]
  refine ⟨long, name, ?_, heads.named⟩
  rw [heads.split, List.append_nil]

/-- Nothing else than a switch at the front decides what a token becomes. -/
theorem Heads.kindOf_eq (heads : Heads text long name behind) :
    kindOf text =
      if behind = ['='] then .literal else if long then .longSwitch else .shortSwitch := by
  have whole : text = leadingRun text ++ ['='] ↔ behind = ['='] := by
    constructor
    · exact heads.behind_unique
    · rintro rfl
      exact heads.split_run
  rw [kindOf]
  by_cases dangling : behind = ['=']
  · rw [if_neg (fun both => both.2 (whole.mpr dangling)), if_pos dangling]
  · rw [if_pos ⟨heads.switchLike, fun same => dangling (whole.mp same)⟩, if_neg dangling]
    simp only [heads.take_two]

theorem kindOf_plain (plain : ¬ SwitchLike text) : kindOf text = .literal :=
  if_neg fun both => plain both.1

end Switches

/-! ### Both kinds of tokens -/

section Tokens

variable {text name behind rest : Text} {long : Bool}

theorem IsQuoted.exists_value (quoted : IsQuoted text) (rest : Text) :
    ∃ value : Value, value.text = text ∧ value.Fits ∧ (∀ word, value ≠ .bare word) ∧
      value.EndsBefore rest := by
  cases quoted with
  | @single raw inside =>
      exact ⟨.single raw, rfl, fits_single_iff.mpr inside, fun _ => Value.noConfusion, trivial⟩
  | @double body inside line =>
      exact ⟨.double body, rfl, fits_double_iff.mpr ⟨inside, line⟩,
        fun _ => Value.noConfusion, trivial⟩

theorem Value.isQuoted {value : Value} (fits : value.Fits)
    (marks : ∀ word, value ≠ .bare word) : IsQuoted value.text := by
  cases value with
  | bare word => exact absurd rfl (marks word)
  | single raw => exact .single (fits_single_iff.mp fits)
  | double body =>
      obtain ⟨inside, line⟩ := fits_double_iff.mp fits
      exact .double inside line

/-- A quote is no dash. -/
theorem IsQuoted.not_switchLike (quoted : IsQuoted text) : ¬ SwitchLike text := by
  intro like
  cases quoted with
  | single inside => exact absurd like.1 (by simp)
  | double inside line => exact absurd like.1 (by simp)

/-- A word that begins with a switch is a token where only an equals sign can follow the
name. -/
theorem Heads.isToken (heads : Heads text long name behind)
    (all : ∀ c ∈ behind, isWordChar c = true)
    (whole : behind = [] ∨ behind.head? = some '=') : IsToken text := by
  have word : IsWord text := by
    rw [heads.split]
    exact heads.named.isWord all
  exact .switch word heads.switchLike heads.split_run whole

/-- What the rules read as one parameter is a token. -/
theorem Token.Stands.isToken {token : Token} (stands : token.Stands rest) :
    IsToken token.text := by
  cases stands with
  | quoted fits marks => exact .quoted (Value.isQuoted fits marks)
  | word fits ends plain =>
      apply IsToken.word (fits_bare_iff.mp fits)
      intro like
      obtain ⟨long, name, behind, heads⟩ := like.exists_heads
      exact plain long name behind heads
  | @dangling long name _ named ends =>
      have heads : Heads (unvalued long name).text long name ['='] :=
        ⟨rfl, named, stops_cons.mpr (by decide)⟩
      exact heads.isToken (List.forall_mem_singleton.mpr (by decide)) (.inr rfl)
  | @flag long name _ named ends unassigned =>
      have heads : Heads (dashes long ++ name) long name [] := named.heads
      exact heads.isToken (by simp) (.inl rfl)
  | @assigned long name value _ named fits ends =>
      have stops : Stops isLooseNameChar ('=' :: value.text) := stops_cons.mpr (by decide)
      have heads : Heads (Token.switch long name (some value)).text long name
          ('=' :: value.text) := ⟨rfl, named, stops⟩
      by_cases bare : ∃ word, value = .bare word
      · obtain ⟨word, rfl⟩ := bare
        apply heads.isToken ?_ (.inr rfl)
        intro c member
        rcases List.mem_cons.mp member with rfl | member
        · decide
        · exact (fits_bare_iff.mp fits).2 c member
      · have marks : ∀ word, value ≠ .bare word := fun word same => bare ⟨word, same⟩
        rw [Token.text, ← List.append_assoc]
        exact .assigned named.heads.switchLike named.all_dashes (Value.isQuoted fits marks)

/-- Whether a text, where the rest stands behind it, is read as one parameter of the kind
that is told of it. -/
def ReadsAsOne (text rest : Text) : Prop :=
  ∃ token : Token, token.text = text ∧ token.Stands rest ∧
    ∀ position, (token.param position).kind = kindOf text

theorem Value.text_ne_nil {value : Value} (fits : value.Fits) : value.text ≠ [] := by
  cases value with
  | bare word => exact fits.1
  | single raw => exact List.cons_ne_nil _ _
  | double body => exact List.cons_ne_nil _ _

theorem Heads.readsAsOne_assigned {value : Value}
    (heads : Heads text long name ('=' :: value.text)) (fits : value.Fits)
    (ends : value.EndsBefore rest) : ReadsAsOne text rest := by
  refine ⟨.switch long name (some value), heads.split.symm, .assigned heads.named fits ends, ?_⟩
  intro position
  have valued : '=' :: value.text ≠ ['='] := fun same =>
    Value.text_ne_nil fits (List.cons.inj same).2
  rw [heads.kindOf_eq, if_neg valued]
  cases long <;> rfl

/-- A word with a switch at its front is read as that switch, or as a word if nothing
stands behind the equals sign. -/
theorem Heads.readsAsOne (heads : Heads text long name behind) (word : IsWord text)
    (whole : behind = [] ∨ behind.head? = some '=') (ends : Stops startsValue rest) :
    ReadsAsOne text rest := by
  have bare : Stops (isBodyChar false) rest := stops_of_startsValue ends
  rcases whole with rfl | assigned
  · have unnamed : Stops isLooseNameChar rest := stops_name_of_startsValue ends
    have unassigned : rest.head? ≠ some '=' := fun first => absurd (ends _ first) (by decide)
    refine ⟨.switch long name none, ?_, .flag heads.named unnamed unassigned, ?_⟩
    · rw [heads.split, List.append_nil, Token.text]
    · intro position
      rw [heads.kindOf_eq]
      cases long <;> rfl
  · obtain ⟨value, rfl⟩ := List.head?_eq_some_iff.mp assigned
    by_cases some : value = []
    · subst some
      refine ⟨.unvalued long name, heads.split.symm, .dangling heads.named ends, ?_⟩
      intro position
      rw [heads.kindOf_eq]
      rfl
    · have fits : (Value.bare value).Fits := by
        apply fits_bare_iff.mpr
        refine ⟨some, fun c member => word.2 c ?_⟩
        rw [heads.split]
        simp [member]
      exact Heads.readsAsOne_assigned heads fits bare

/-- Where no value can begin behind it, a token is read as one parameter. -/
theorem IsToken.readsAsOne (token : IsToken text) (ends : Stops startsValue rest) :
    ReadsAsOne text rest := by
  cases token with
  | quoted quoted =>
      obtain ⟨value, rfl, fits, marks, -⟩ := quoted.exists_value rest
      refine ⟨.literal value, rfl, .quoted fits marks, fun position => ?_⟩
      rw [kindOf_plain quoted.not_switchLike]
      rfl
  | word word plain =>
      have bare : Stops (isBodyChar false) rest := stops_of_startsValue ends
      refine ⟨.literal (.bare text), rfl, .word (fits_bare_iff.mpr word) bare ?_, fun _ => ?_⟩
      · exact fun long name behind heads => plain heads.switchLike
      · rw [kindOf_plain plain]
        rfl
  | @switch _ behind word like split whole =>
      obtain ⟨long, name, behind', heads⟩ := like.exists_heads
      obtain rfl := heads.behind_unique split
      exact heads.readsAsOne word whole ends
  | @assigned run quoted like all value =>
      obtain ⟨long, name, rfl, named⟩ := like.exists_named all
      obtain ⟨marked, rfl, fits, -, ends⟩ := value.exists_value rest
      have stops : Stops isLooseNameChar ('=' :: marked.text) := stops_cons.mpr (by decide)
      have heads : Heads (dashes long ++ name ++ '=' :: marked.text) long name
          ('=' :: marked.text) := ⟨List.append_assoc .., named, stops⟩
      exact heads.readsAsOne_assigned fits ends

end Tokens

/-! ### Both kinds of lines -/

section Lines

variable {text lead name pad rest : Text} {tokens : List (Text × Text)}
  {items : List (Text × Token)}

/-- A text begins with one longest run only. -/
theorem eq_of_runs {test : Char → Bool} {run run' rest' : Text}
    (all : ∀ c ∈ run, test c = true) (stops : Stops test rest)
    (all' : ∀ c ∈ run', test c = true) (stops' : Stops test rest')
    (same : run ++ rest = run' ++ rest') : run = run' ∧ rest = rest' := by
  obtain ⟨taken, dropped⟩ := takeWhile_run all stops
  obtain ⟨taken', dropped'⟩ := takeWhile_run all' stops'
  constructor
  · rw [← taken, same, taken']
  · rw [← dropped, same, dropped']

/-- Whether texts are read as parameters, each as one. -/
inductive ReadAs : List (Text × Text) → List (Text × Token) → Prop where
  | nil : ReadAs [] []
  | cons {gap text : Text} {token : Token} {tokens : List (Text × Text)}
      {items : List (Text × Token)} (same : token.text = text)
      (kind : ∀ position, (token.param position).kind = kindOf text)
      (others : ReadAs tokens items) : ReadAs ((gap, text) :: tokens) ((gap, token) :: items)

theorem spellTokens_map (items : List (Text × Token)) :
    spellTokens (items.map fun item => (item.1, item.2.text)) = spell items := by
  induction items with
  | nil => rfl
  | cons item items ih =>
      simp only [spell, spellTokens, List.map_cons, List.flatMap_cons, List.append_assoc] at ih ⊢
      rw [ih]

theorem ReadAs.spell_eq (reads : ReadAs tokens items) : spell items = spellTokens tokens := by
  induction reads with
  | nil => rfl
  | cons same kind others ih =>
      simp only [spell, spellTokens, List.flatMap_cons, List.append_assoc] at ih ⊢
      rw [same, ih]

theorem ReadAs.outline_eq (reads : ReadAs tokens items) (position : Position) :
    (nodesFrom position items).map (fun parameter => (parameter.span, parameter.param.kind)) =
      outlineFrom position tokens := by
  induction reads generalizing position with
  | nil => rfl
  | cons same kind others ih =>
      simp only [nodesFrom, outlineFrom, List.map_cons, Token.node]
      rw [same, kind, ih]

/-- Behind tokens no value can begin without white space. -/
theorem stops_spellTokens (areTokens : AreTokens tokens) (blank : IsBlank pad)
    (ends : Stops (· ≠ '#') rest) : Stops startsValue (spellTokens tokens ++ (pad ++ rest)) := by
  have blanks : ∀ gap more : Text, gap ≠ [] → IsBlank gap → Stops startsValue (gap ++ more) := by
    intro gap more some all
    obtain ⟨c, gap, rfl⟩ := List.exists_cons_of_ne_nil some
    apply stops_cons.mpr
    simp [startsValue, all c List.mem_cons_self]
  cases tokens with
  | cons token tokens =>
      obtain ⟨some, all, -⟩ := areTokens token List.mem_cons_self
      simp only [spellTokens, List.flatMap_cons, List.append_assoc]
      exact blanks token.1 _ some all
  | nil =>
      rw [spellTokens, List.flatMap_nil, List.nil_append]
      by_cases padded : pad = []
      · subst padded
        exact startsValue_of_remark ends
      · exact blanks pad rest padded blank

/-- Tokens are read as parameters. -/
theorem exists_readAs (first : Bool) (areTokens : AreTokens tokens) (blank : IsBlank pad)
    (ends : Stops (· ≠ '#') rest) :
    ∃ items, ReadAs tokens items ∧ Chain first items pad rest 0 := by
  induction tokens generalizing first with
  | nil =>
      refine ⟨[], .nil, ?_⟩
      by_cases padded : first = false ∧ pad = []
      · obtain ⟨rfl, rfl⟩ := padded
        exact .adjacent (isBlank_of_remark ends)
      · refine .done ⟨blank, fun later none => padded ⟨later, none⟩⟩ ends
  | cons token tokens ih =>
      obtain ⟨some, all, isToken⟩ := areTokens token List.mem_cons_self
      have others : AreTokens tokens := fun token member =>
        areTokens token (List.mem_cons_of_mem _ member)
      obtain ⟨items, reads, chain⟩ := ih false others
      have stops : Stops startsValue (spell items ++ (pad ++ rest)) := by
        rw [reads.spell_eq]
        exact stops_spellTokens others blank ends
      obtain ⟨read, same, stands, kind⟩ := isToken.readsAsOne stops
      exact ⟨(token.1, read) :: items, .cons same kind reads,
        .cons ⟨all, fun _ => some⟩ stands chain⟩

/-- The parameters that are read are tokens.  No gap is missing in front of the first if
no value can begin there. -/
theorem Chain.isTokens {first : Bool} {open' : Nat} (chain : Chain first items pad rest open')
    (closed : open' = 0)
    (apart : first = true → Stops startsValue (spell items ++ (pad ++ rest))) :
    IsBlank pad ∧
      ∀ item ∈ items, item.1 ≠ [] ∧ IsBlank item.1 ∧ IsToken item.2.text := by
  induction chain with
  | adjacent stops => exact ⟨by simp [IsBlank], by simp⟩
  | done gap ends => exact ⟨gap.blank, by simp⟩
  | opened gap opened => exact absurd closed opened.length_pos
  | stuck before named opened => exact absurd closed opened.length_pos
  | @cons first gap token items pad rest open' before stands others ih =>
      obtain ⟨blank, tokens⟩ := ih closed (fun no => Bool.noConfusion no)
      refine ⟨blank, ?_⟩
      rintro item (_ | ⟨_, member⟩)
      · refine ⟨?_, before.blank, stands.isToken⟩
        cases first with
        | false => exact before.some rfl
        | true =>
            rintro rfl
            obtain ⟨c, text, split, starts⟩ := stands.head
            have none := apart rfl c (by simp [spell, split])
            rw [starts] at none
            cases none
      · exact tokens item member

/-- A comment goes to the end of its line. -/
theorem exists_remark {comment tail : Text} (blank : IsBlank pad) (isComment : IsComment comment)
    (blank' : IsBlank tail) :
    ∃ pad' rest, pad ++ (comment ++ tail) = pad' ++ rest ∧ IsBlank pad' ∧ Remark rest := by
  rcases isComment with rfl | ⟨content, rfl, inside⟩
  · refine ⟨pad ++ tail, [], by simp, ?_, .inl rfl⟩
    intro c member
    rcases List.mem_append.mp member with front | back
    · exact blank c front
    · exact blank' c back
  · obtain ⟨run, behind, rfl, all, stops⟩ := exists_run (· ≠ '\n') tail
    refine ⟨pad, '#' :: (content ++ run ++ behind), by simp, blank, .inr ⟨content ++ run, behind,
      rfl, ?_, stops, fun c member => blank' c (List.mem_append_right _ member)⟩⟩
    intro member
    rcases List.mem_append.mp member with front | back
    · exact inside front
    · simpa using all _ back

theorem Remark.exists_comment (remark : Remark rest) :
    ∃ comment tail, rest = comment ++ tail ∧ IsComment comment ∧ IsBlank tail := by
  rcases remark with rfl | ⟨content, tail, rfl, inside, -, blank⟩
  · exact ⟨[], [], rfl, .inl rfl, by simp [IsBlank]⟩
  · exact ⟨'#' :: content, tail, rfl, .inr ⟨content, rfl, inside⟩, blank⟩

/-- What is spelled is accepted, with a parameter for each of the tokens. -/
theorem Spelled.parses (spelled : Spelled text lead name tokens) (isName : IsName name) :
    ∃ command, parseStrict text = .ok command ∧ command.name = name ∧
      command.params.map (fun parameter => (parameter.span, parameter.param.kind)) =
        outlineFrom (Position.after {} (lead ++ name)) tokens := by
  obtain ⟨pad, comment, tail, split, blank, blank', blank'', isComment, areTokens⟩ := spelled
  obtain ⟨pad, rest, same, blank', remark⟩ := exists_remark blank' isComment blank''
  obtain ⟨items, reads, chain⟩ := exists_readAs true areTokens blank' remark.stops
  have stops : Stops startsValue (spell items ++ (pad ++ rest)) := by
    rw [reads.spell_eq]
    exact stops_spellTokens areTokens blank' remark.stops
  rw [same, ← reads.spell_eq] at split
  have leads : Leads text lead name items pad rest 0 :=
    ⟨split, blank, isName.1, isName.2, stops_name_of_startsValue stops, chain⟩
  refine ⟨_, (Outcome.accepted leads remark).accepts, rfl, ?_⟩
  rw [← reads.outline_eq, Position.after_append]
  cases items with
  | nil => rfl
  | cons item items => rfl

/-- A line is read as it is introduced. -/
theorem Introduced.eq_of_leads {lead' name' : Text} {open' : Nat}
    (introduced : Introduced text lead name)
    (leads : Leads text lead' name' items pad rest open') :
    lead = lead' ∧ name = name' ∧ Stops startsValue (spell items ++ (pad ++ rest)) := by
  obtain ⟨behind, split, blank, isName, ends⟩ := introduced
  have ends : Stops startsValue behind := by
    intro c first
    rcases ends c first with blank | rfl
    · simp [startsValue, blank]
    · rfl
  obtain ⟨rfl, same⟩ := eq_of_runs blank (stops_name isName.1 isName.2) leads.blank
    (stops_name leads.some leads.all) (split.symm.trans leads.split)
  obtain ⟨rfl, rfl⟩ := eq_of_runs isName.2 (stops_name_of_startsValue ends) leads.all leads.stops
    same
  exact ⟨rfl, rfl, ends⟩

/-- What is accepted is spelled. -/
theorem Introduced.spelled {command : Command} (introduced : Introduced text lead name)
    (accepts : parseStrict text = .ok command) : ∃ tokens, Spelled text lead name tokens := by
  obtain ⟨lead', name', items, pad, rest, leads, remark, -⟩ := exists_leads_of_parses accepts
  obtain ⟨rfl, rfl, apart⟩ := introduced.eq_of_leads leads
  obtain ⟨blank, isTokens⟩ := leads.chain.isTokens rfl fun _ => apart
  obtain ⟨comment, tail, rfl, isComment, blank'⟩ := remark.exists_comment
  refine ⟨items.map fun item => (item.1, item.2.text), pad, comment, tail, ?_, leads.blank,
    blank, blank', isComment, ?_⟩
  · rw [spellTokens_map]
    exact leads.split
  · intro token member
    obtain ⟨item, found, rfl⟩ := List.mem_map.mp member
    exact isTokens item found

/-- The accepted lines are those that are spelled: among the lines that white space and
a name with an end introduce, exactly those are accepted that go on with tokens and
perhaps a comment.  Each of the tokens becomes one parameter, with its stretch, and of
the kind that its first characters tell. -/
theorem token_language (introduced : Introduced text lead name) :
    ((∃ command, parseStrict text = .ok command) ↔
        ∃ tokens, Spelled text lead name tokens) ∧
      ∀ command tokens, parseStrict text = .ok command → Spelled text lead name tokens →
        command.name = name ∧
          command.params.map (fun parameter => (parameter.span, parameter.param.kind)) =
            outlineFrom (Position.after {} (lead ++ name)) tokens := by
  obtain ⟨-, -, -, isName, -⟩ := id introduced
  constructor
  · constructor
    · rintro ⟨command, accepts⟩
      exact introduced.spelled accepts
    · rintro ⟨tokens, spelled⟩
      obtain ⟨command, parses, -⟩ := spelled.parses isName
      exact ⟨command, parses⟩
  · intro command tokens accepts spelled
    obtain ⟨command', parses, named, outline⟩ := spelled.parses isName
    obtain rfl : command' = command := Except.ok.inj (parses.symm.trans accepts)
    exact ⟨named, outline⟩

theorem token_language_flag_and_word :
    ∃ command, parseStrict "a -v 'b' # c" = .ok command ∧ command.name = "a" ∧
      command.params.map (fun parameter => parameter.param.kind) = [.shortSwitch, .literal] := by
  have introduced : Introduced "a -v 'b' # c" [] "a" := by
    refine ⟨" -v 'b' # c", rfl, by decide, by decide, ?_⟩
    intro c first
    obtain rfl := Option.some.inj first
    exact .inl (by decide)
  have flag : IsToken "-v" := .switch (by decide) (by decide) rfl (.inl rfl)
  have quoted : IsQuoted ('\x27' :: (['b'] ++ ['\x27'])) := .single (by decide)
  have spelled : Spelled "a -v 'b' # c" [] "a" [(" ", "-v"), (" ", "'b'")] := by
    refine ⟨" ", "# c", [], rfl, by decide, by decide, by decide, ?_, ?_⟩
    · exact .inr ⟨" c", rfl, by decide⟩
    · intro token member
      simp only [List.mem_cons, List.not_mem_nil, or_false] at member
      rcases member with rfl | rfl
      · exact ⟨by decide, by decide, flag⟩
      · exact ⟨by decide, by decide, .quoted quoted⟩
  obtain ⟨accepted, outlined⟩ := token_language introduced
  obtain ⟨command, parses⟩ := accepted.mpr ⟨_, spelled⟩
  obtain ⟨named, outline⟩ := outlined command _ parses spelled
  refine ⟨command, parses, named, ?_⟩
  have kinds := congrArg (List.map Prod.snd) outline
  rw [List.map_map] at kinds
  exact kinds.trans (by decide)

end Lines

end LineShell
