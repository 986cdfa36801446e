/-
Module: LineShell.Proofs.Syntax.Tokens
Purpose: Parameters as tokens: which pieces of text are read as one parameter, what
  becomes of them, and where no parameter can be read.
Main exports: dashes, Named, Heads, Token, Token.Stands, takes_parameter,
  takes_parameter_stuck, refuses_parameter, exists_token
-/
import LineShell.Proofs.Syntax.Templates

namespace LineShell

/-!
A parameter is a switch wherever a switch can be read, and a literal otherwise.  What
decides is the run of name characters behind the dashes: if it is not empty, the
parameter is a switch, unless an equals sign follows it that no value stands behind.
-/

/-! ### Switches -/

/-- The dashes in front of a switch. -/
def dashes : Bool → Text
  | false => ['-']
  | true => ['-', '-']

/-- Whether a name can be that of a switch.  Behind a single dash it does not begin with
another one. -/
structure Named (long : Bool) (name : Text) : Prop where
  some : name ≠ []
  all : ∀ c ∈ name, isLooseNameChar c = true
  short : long = false → name.head? ≠ Option.some '-'

/-- Whether a switch with a name stands at the front of a text, with `behind` behind the
name. -/
structure Heads (text : Text) (long : Bool) (name behind : Text) : Prop where
  split : text = dashes long ++ (name ++ behind)
  named : Named long name
  stops : Stops isLooseNameChar behind

/-- A switch as a node. -/
def switchNode (position : Position) (name : Text) (value : Option Value) : Switch :=
  let behind := position.after name
  { name := { name := name, span := { start := position, stop := behind } }
    value := value.map (·.node (behind.advance '='))
    span :=
      { start := position
        stop :=
          match value with
          | none => behind
          | some value => (behind.advance '=').after value.text } }

section Switches

variable {position : Position} {text name rest : Text} {reached : Nat}

theorem takes_switch (some : name ≠ []) (all : ∀ c ∈ name, isLooseNameChar c = true)
    (stops : Stops isLooseNameChar rest) (unassigned : rest.head? ≠ Option.some '=') :
    Takes switch position name rest (switchNode position name none) 0 := by
  apply takes_from_here
  apply Takes.seq_last (takes_nameOf .name all some stops)
  apply takes_from_peek
  rw [List.nil_append, if_neg unassigned]
  exact takes_node _ position _ rest

/-- The equals sign behind the name of a switch is taken. -/
theorem takes_equals (position : Position) (rest : Text) :
    Takes (discard advance) position ['='] rest () 0 :=
  Takes.map (takes_advance position '=' rest)

theorem takes_switch_value {value : Value} (some : name ≠ [])
    (all : ∀ c ∈ name, isLooseNameChar c = true) (fits : value.Fits)
    (ends : value.EndsBefore rest) :
    Takes switch position (name ++ '=' :: value.text) rest
      (switchNode position name (Option.some value)) 0 := by
  have stops : Stops isLooseNameChar ('=' :: value.text ++ rest) := stops_cons.mpr (by decide)
  apply takes_from_here
  apply Takes.seq (takes_nameOf .name all some stops)
  apply takes_from_peek
  rw [List.cons_append, List.head?_cons, if_pos rfl]
  apply Takes.seq (takes_equals _ (value.text ++ rest))
  apply Takes.seq_last (takes_template fits ends)
  exact takes_node _ position _ rest

theorem refuses_switch (stops : Stops isLooseNameChar text) :
    Refuses switch position text position.index :=
  refuses_from_here (refuses_nameOf .name stops).bind

/-- A switch whose value cannot be read. -/
theorem refuses_switch_value (some : name ≠ [])
    (all : ∀ c ∈ name, isLooseNameChar c = true)
    (refuses : Refuses template ((position.after name).advance '=') rest reached) :
    Refuses switch position (name ++ '=' :: rest) reached := by
  have stops : Stops isLooseNameChar ('=' :: rest) := stops_cons.mpr (by decide)
  apply refuses_from_here
  apply Takes.seq_refuses (takes_nameOf .name all some stops)
  apply refuses_from_peek
  rw [List.head?_cons, if_pos rfl]
  apply Takes.seq_refuses (takes_equals _ rest)
  exact refuses.bind

/-! ### Dashes -/

theorem takes_shortSwitch {node : Switch} (single : (text ++ rest).head? ≠ some '-')
    (takes : Takes switch (position.advance '-') text rest node 0) :
    Takes shortSwitch position ('-' :: text) rest (.shortSwitch node) 0 := by
  apply Takes.restoring
  apply Takes.seq (takes_expect position '-' (text ++ rest))
  apply takes_from_peek
  rw [if_neg single]
  apply Takes.seq_last takes
  exact Takes.pure _ rest _

theorem takes_longSwitch {node : Switch}
    (takes : Takes switch ((position.advance '-').advance '-') text rest node 0) :
    Takes longSwitch position ('-' :: '-' :: text) rest (.longSwitch node) 0 := by
  apply Takes.restoring
  apply Takes.seq (takes_expect position '-' ('-' :: text ++ rest))
  apply Takes.seq (takes_expect _ '-' (text ++ rest))
  apply Takes.seq_last takes
  exact Takes.pure _ rest _

theorem refuses_shortSwitch (other : text.head? ≠ some '-') :
    Refuses shortSwitch position text position.index :=
  Refuses.restoring (refuses_expect other).bind

/-- Two dashes are no short switch. -/
theorem refuses_shortSwitch_dashes (position : Position) (text : Text) :
    Refuses shortSwitch position ('-' :: '-' :: text) (position.index + 1) := by
  apply Refuses.restoring
  apply Takes.seq_refuses (takes_expect position '-' ('-' :: text))
  apply refuses_from_peek
  rw [List.head?_cons, if_pos rfl]
  exact (refuses_fail _ _ _).reaching (position.advance_index '-')

theorem refuses_shortSwitch_switch (single : text.head? ≠ some '-')
    (refuses : Refuses switch (position.advance '-') text reached) :
    Refuses shortSwitch position ('-' :: text) reached := by
  apply Refuses.restoring
  apply Takes.seq_refuses (takes_expect position '-' text)
  apply refuses_from_peek
  rw [if_neg single]
  exact refuses.bind

theorem refuses_longSwitch (other : text.head? ≠ some '-') :
    Refuses longSwitch position text position.index :=
  Refuses.restoring (refuses_expect other).bind

/-- A single dash is no long switch. -/
theorem refuses_longSwitch_dash (single : text.head? ≠ some '-') :
    Refuses longSwitch position ('-' :: text) (position.index + 1) := by
  have refuses : Refuses (expect '-') (position.advance '-') text (position.index + 1) :=
    (refuses_expect single).reaching (position.advance_index '-')
  apply Refuses.restoring
  apply Takes.seq_refuses (takes_expect position '-' text)
  exact refuses.bind

theorem refuses_longSwitch_switch
    (refuses : Refuses switch ((position.advance '-').advance '-') text reached) :
    Refuses longSwitch position ('-' :: '-' :: text) reached := by
  apply Refuses.restoring
  apply Takes.seq_refuses (takes_expect position '-' ('-' :: text))
  apply Takes.seq_refuses (takes_expect _ '-' text)
  exact refuses.bind

end Switches

/-! ### Tokens -/

/-- A parameter by its text. -/
inductive Token where
  | literal (value : Value)
  | switch (long : Bool) (name : Text) (value : Option Value)
deriving DecidableEq, Repr, Inhabited

namespace Token

/-- The text of a token. -/
def text : Token → Text
  | .literal value => value.text
  | .switch long name none => dashes long ++ name
  | .switch long name (some value) => dashes long ++ (name ++ '=' :: value.text)

/-- A token as a node without the stretch that it takes. -/
def param (position : Position) : Token → Param
  | .literal value =>
      .literal (value.node position)
        { start := position, stop := position.after value.text }
  | .switch false name value => .shortSwitch (switchNode (position.advance '-') name value)
  | .switch true name value =>
      .longSwitch (switchNode ((position.advance '-').advance '-') name value)

/-- A token as a node. -/
def node (position : Position) (token : Token) : Parameter :=
  { param := token.param position
    span := { start := position, stop := position.after token.text } }

/-- What would be a switch, if a value could be read behind the equals sign. -/
def unvalued (long : Bool) (name : Text) : Token :=
  .literal (.bare (dashes long ++ (name ++ ['='])))

theorem text_unvalued (long : Bool) (name : Text) :
    (unvalued long name).text = dashes long ++ (name ++ ['=']) := rfl

/-- Whether a token is what is read where it is followed by the rest of a text. -/
inductive Stands : Token → Text → Prop where
  /-- A value in quotes. -/
  | quoted {value : Value} {rest : Text} (fits : value.Fits)
      (marks : ∀ word, value ≠ .bare word) : Stands (.literal value) rest
  /-- A word without a switch at its front. -/
  | word {word rest : Text} (fits : (Value.bare word).Fits)
      (ends : (Value.bare word).EndsBefore rest)
      (plain : ∀ long name behind, ¬ Heads word long name behind) :
      Stands (.literal (.bare word)) rest
  /-- What would be a switch, if there was a value. -/
  | dangling {long : Bool} {name rest : Text} (named : Named long name)
      (ends : Stops startsValue rest) : Stands (unvalued long name) rest
  /-- A switch without a value. -/
  | flag {long : Bool} {name rest : Text} (named : Named long name)
      (ends : Stops isLooseNameChar rest) (unassigned : rest.head? ≠ some '=') :
      Stands (.switch long name none) rest
  /-- A switch with a value. -/
  | assigned {long : Bool} {name : Text} {value : Value} {rest : Text}
      (named : Named long name) (fits : value.Fits) (ends : value.EndsBefore rest) :
      Stands (.switch long name (some value)) rest

end Token

/-! ### Reading a token -/

section Parameters

variable {position : Position} {word text taken rest : Text} {long : Bool} {name : Text}

theorem takes_parameter_of {param : Param} {reached : Nat}
    (takes : Takes (firstOf .parameter [shortSwitch, longSwitch, literal]) position text rest
      param reached) :
    Takes parameter position text rest
      { param := param, span := { start := position, stop := position.after text } }
      reached := by
  have both : Takes parameter position (text ++ []) rest _ (max reached 0) :=
    takes_from_here (Takes.bind takes (takes_node _ position _ rest))
  rwa [List.append_nil, Nat.max_zero] at both

theorem takes_literal {value : Value} (fits : value.Fits) (ends : value.EndsBefore rest) :
    Takes literal position value.text rest ((Token.literal value).param position) 0 := by
  apply takes_from_here
  apply Takes.seq_last (takes_template fits ends)
  exact takes_node _ position _ rest

/-- A literal is read where both kinds of switches are given up. -/
theorem takes_parameter_literal {value : Value} {short long : Nat} (fits : value.Fits)
    (ends : value.EndsBefore rest)
    (refuses : Refuses shortSwitch position (value.text ++ rest) short)
    (refuses' : Refuses longSwitch position (value.text ++ rest) long) :
    Takes parameter position value.text rest ((Token.literal value).node position)
      (max short long) :=
  takes_parameter_of ((Refuses.firstOf refuses (Refuses.firstOf refuses'
    (Takes.firstOf (takes_literal fits ends)))).reaching (by rw [Nat.max_zero]))

theorem takes_parameter_switch {value : Option Value} (named : Named long name)
    (split : (Token.switch long name value).text = dashes long ++ (name ++ text))
    (takes : ∀ position, Takes switch position (name ++ text) rest
      (switchNode position name value) 0) :
    Takes parameter position (Token.switch long name value).text rest
      ((Token.switch long name value).node position) 0 := by
  apply takes_parameter_of
  rw [split]
  cases long with
  | false =>
      have single : (name ++ text ++ rest).head? ≠ some '-' := by
        obtain ⟨c, more, rfl⟩ := List.exists_cons_of_ne_nil named.some
        exact named.short rfl
      exact Takes.firstOf (takes_shortSwitch single (takes _))
  | true =>
      have short : Refuses shortSwitch position (dashes true ++ (name ++ text) ++ rest)
          (position.index + 1) := refuses_shortSwitch_dashes position _
      have taken : Takes longSwitch position (dashes true ++ (name ++ text)) rest _ 0 :=
        takes_longSwitch (takes _)
      exact (Refuses.firstOf short (Takes.firstOf taken)).settle (by simp [dashes])

/-- Both kinds of switches are given up in front of a word without a switch. -/
theorem refuses_switches (fits : (Value.bare word).Fits)
    (ends : (Value.bare word).EndsBefore rest)
    (plain : ∀ long name behind, ¬ Heads word long name behind) :
    ∃ short long, Refuses shortSwitch position (word ++ rest) short ∧
      Refuses longSwitch position (word ++ rest) long ∧
      max short long ≤ position.index + word.length := by
  have unnamed : Stops isLooseNameChar rest :=
    ends.of_imp fun _ => isBodyChar_of_isLooseNameChar false
  have undashed : rest.head? ≠ some '-' := fun first => absurd (ends _ first) (by decide)
  -- A run of name characters that is not empty would be the name of a switch.
  have heads : ∀ (long : Bool) (text : Text), word = dashes long ++ text →
      (long = false → text.head? ≠ some '-') → Stops isLooseNameChar text := by
    intro long text split short
    obtain ⟨name, behind, rfl, all, stops⟩ := exists_run isLooseNameChar text
    cases name with
    | nil => exact stops
    | cons c name =>
        exact absurd ⟨split, ⟨List.cons_ne_nil _ _, all, short⟩, stops⟩ (plain long _ behind)
  match word, fits with
  | c :: text, _ =>
      by_cases dash : c = '-'
      · subst dash
        by_cases double : text.head? = some '-'
        · obtain ⟨text, rfl⟩ := List.head?_eq_some_iff.mp double
          have none := heads true text rfl (by simp)
          have switch : Refuses LineShell.switch ((position.advance '-').advance '-')
              (text ++ rest) (position.index + 2) :=
            (refuses_switch (none.append unnamed)).reaching (by simp)
          refine ⟨_, _, refuses_shortSwitch_dashes position (text ++ rest),
            refuses_longSwitch_switch switch, ?_⟩
          simp only [List.length_cons]
          omega
        · have none := heads false text rfl fun _ => double
          have single : (text ++ rest).head? ≠ some '-' := by
            cases text with
            | nil => exact undashed
            | cons d more => exact double
          have switch : Refuses LineShell.switch (position.advance '-') (text ++ rest)
              (position.index + 1) :=
            (refuses_switch (none.append unnamed)).reaching (by simp)
          refine ⟨_, _, refuses_shortSwitch_switch single switch,
            refuses_longSwitch_dash single, ?_⟩
          simp only [List.length_cons]
          omega
      · have other : (c :: text ++ rest).head? ≠ some '-' := by simpa using dash
        exact ⟨_, _, refuses_shortSwitch other, refuses_longSwitch other, by simp⟩

/-- Both kinds of switches are given up where the value of a switch cannot be read. -/
theorem refuses_switches_dangling (position : Position) {reached : Nat} (named : Named long name)
    (refuses : ∀ position, Refuses template position rest (position.index + reached)) :
    ∃ short long', Refuses shortSwitch position
        (dashes long ++ (name ++ ['=']) ++ rest) short ∧
      Refuses longSwitch position (dashes long ++ (name ++ ['=']) ++ rest) long' ∧
      max short long' =
        position.index + (dashes long ++ (name ++ ['='])).length + reached := by
  have switch : ∀ position, Refuses LineShell.switch position (name ++ '=' :: rest)
      (position.index + name.length + 1 + reached) := by
    intro position
    apply (refuses_switch_value named.some named.all (refuses _)).reaching
    simp
  cases long with
  | false =>
      have split : dashes false ++ (name ++ ['=']) ++ rest = '-' :: (name ++ '=' :: rest) := by
        simp [dashes]
      have single : (name ++ '=' :: rest).head? ≠ some '-' := by
        obtain ⟨c, more, rfl⟩ := List.exists_cons_of_ne_nil named.some
        exact named.short rfl
      rw [split]
      refine ⟨_, _, refuses_shortSwitch_switch single (switch _),
        refuses_longSwitch_dash single, ?_⟩
      simp [dashes]
      omega
  | true =>
      have split : dashes true ++ (name ++ ['=']) ++ rest =
          '-' :: '-' :: (name ++ '=' :: rest) := by
        simp [dashes]
      rw [split]
      refine ⟨_, _, refuses_shortSwitch_dashes position (name ++ '=' :: rest),
        refuses_longSwitch_switch (switch _), ?_⟩
      simp [dashes]
      omega

theorem Named.all_dashes (named : Named long name) :
    ∀ c ∈ dashes long ++ name, isLooseNameChar c = true := by
  intro c member
  rcases List.mem_append.mp member with dash | letter
  · obtain rfl : c = '-' := by
      cases long <;> simpa [dashes] using dash
    decide
  · exact named.all c letter

theorem Named.fits (named : Named long name) (all : ∀ c ∈ text, isBodyChar false c = true) :
    (Value.bare (dashes long ++ (name ++ text))).Fits := by
  constructor
  · simp [named.some]
  · intro c member
    rw [← List.append_assoc] at member
    rcases List.mem_append.mp member with front | back
    · exact isBodyChar_of_isLooseNameChar false (named.all_dashes c front)
    · exact all c back

theorem fits_dangling (named : Named long name) :
    (Value.bare (dashes long ++ (name ++ ['=']))).Fits :=
  named.fits (List.forall_mem_singleton.mpr (by decide))

/-- A token that stands in front of the rest of a text is read as one parameter. -/
theorem takes_parameter {token : Token} (stands : token.Stands rest) :
    Takes parameter position token.text rest (token.node position) 0 := by
  cases stands with
  | @quoted value _ fits marks =>
      have quote : ∃ c text, value.text = c :: text ∧ c ≠ '-' := by
        cases value with
        | bare word => exact absurd rfl (marks word)
        | single raw => exact ⟨_, _, rfl, by decide⟩
        | double body => exact ⟨_, _, rfl, by decide⟩
      have ends : value.EndsBefore rest := by
        cases value with
        | bare word => exact absurd rfl (marks word)
        | single raw => trivial
        | double body => trivial
      obtain ⟨c, text, split, other⟩ := quote
      have first : (value.text ++ rest).head? ≠ some '-' := by
        rw [split]
        simpa using other
      exact (takes_parameter_literal fits ends (refuses_shortSwitch first)
        (refuses_longSwitch first)).settle (by simp)
  | word fits ends plain =>
      obtain ⟨short, long, refuses, refuses', near⟩ := refuses_switches fits ends plain
      exact (takes_parameter_literal fits ends refuses refuses').settle near
  | @dangling long name _ named ends =>
      obtain ⟨short, long', refuses, refuses', near⟩ :=
        refuses_switches_dangling position named fun _ =>
          (refuses_template ends).reaching (Nat.add_zero _).symm
      exact (takes_parameter_literal (fits_dangling named) (stops_of_startsValue ends) refuses
        refuses').settle (Nat.le_of_eq near)
  | @flag long name _ named ends unassigned =>
      have split : (Token.switch long name none).text = dashes long ++ (name ++ []) := by
        rw [List.append_nil, Token.text]
      apply takes_parameter_switch named split
      intro position
      rw [List.append_nil]
      exact takes_switch named.some named.all ends unassigned
  | assigned named fits ends =>
      exact takes_parameter_switch named rfl fun _ =>
        takes_switch_value named.some named.all fits ends

/-- Where the value of a switch is a quote that is not closed, everything up to the
equals sign is read as a word. -/
theorem takes_parameter_stuck (named : Named long name) (opened : Opened taken rest) :
    Takes parameter position (Token.unvalued long name).text (taken ++ rest)
      ((Token.unvalued long name).node position)
      (position.index + (Token.unvalued long name).text.length + taken.length) := by
  obtain ⟨short, long', refuses, refuses', reached⟩ :=
    refuses_switches_dangling position named fun _ => refuses_template_opened opened
  have ends : Stops (isBodyChar false) (taken ++ rest) := by
    cases opened with
    | single inside => exact stops_cons.mpr (by decide)
    | double inside stops open' => exact stops_cons.mpr (by decide)
  exact (takes_parameter_literal (fits_dangling named) ends refuses refuses').reaching reached

theorem refuses_parameter_of {reached : Nat} (other : text.head? ≠ some '-')
    (refuses : Refuses template position text reached) :
    Refuses parameter position text reached := by
  have literal : Refuses LineShell.literal position text reached :=
    refuses_from_here refuses.bind
  have near := refuses.1
  apply refuses_from_here
  apply Refuses.bind
  refine (refuses_firstOf_cons (refuses_shortSwitch other) (refuses_firstOf_cons
    (refuses_longSwitch other) (refuses_firstOf_cons literal
      (refuses_firstOf_nil position text .parameter)))).reaching ?_
  omega

/-- Where no value can begin, no parameter can. -/
theorem refuses_parameter (stops : Stops startsValue text) :
    Refuses parameter position text position.index :=
  refuses_parameter_of (fun first => absurd (stops _ first) (by decide))
    (refuses_template stops)

theorem refuses_parameter_opened (opened : Opened taken rest) :
    Refuses parameter position (taken ++ rest) (position.index + taken.length) := by
  refine refuses_parameter_of ?_ (refuses_template_opened opened)
  cases opened with
  | single inside => simp
  | double inside stops open' => simp

/-! ### Finding tokens -/

/-- A text that begins with a switch is read as a switch, unless a quote behind the
equals sign is not closed. -/
theorem exists_token_of_heads {behind : Text} (heads : Heads text long name behind) :
    (∃ token rest, text = Token.text token ++ rest ∧ token.Stands rest) ∨
      ∃ taken rest, behind = '=' :: (taken ++ rest) ∧ Opened taken rest := by
  obtain ⟨rfl, named, stops⟩ := heads
  by_cases assigned : behind.head? = some '='
  · obtain ⟨text, rfl⟩ := List.head?_eq_some_iff.mp assigned
    rcases exists_value text with ⟨value, rest, rfl, fits, ends⟩ | ⟨taken, rest, rfl, opened⟩ |
      none
    · exact .inl ⟨.switch long name (some value), rest, by simp [Token.text],
        .assigned named fits ends⟩
    · exact .inr ⟨taken, rest, rfl, opened⟩
    · exact .inl ⟨.unvalued long name, text,
        by simp [Token.text_unvalued], .dangling named none⟩
  · exact .inl ⟨.switch long name none, behind, by simp [Token.text],
      .flag named stops assigned⟩

/-- A word is read as it stands, or a switch stands at its front. -/
theorem heads_append {behind : Text} (heads : Heads word long name behind)
    (ends : Stops (isBodyChar false) rest) : Heads (word ++ rest) long name (behind ++ rest) := by
  have unnamed : Stops isLooseNameChar rest :=
    ends.of_imp fun _ => isBodyChar_of_isLooseNameChar false
  exact ⟨by rw [heads.split]; simp, heads.named, heads.stops.append unnamed⟩

/-- Every text begins with a token, or with a switch or a value whose quote is not
closed, or no parameter can begin there. -/
theorem exists_token (text : Text) :
    (∃ token rest, text = Token.text token ++ rest ∧ token.Stands rest) ∨
      (∃ long name taken rest, text = dashes long ++ (name ++ ['=']) ++ (taken ++ rest) ∧
        Named long name ∧ Opened taken rest) ∨
      (∃ taken rest, text = taken ++ rest ∧ Opened taken rest) ∨ Stops startsValue text := by
  rcases exists_value text with ⟨value, rest, rfl, fits, ends⟩ | opened | none
  · cases value with
    | single raw =>
        exact .inl ⟨.literal (.single raw), rest, rfl, .quoted fits fun _ => Value.noConfusion⟩
    | double body =>
        exact .inl ⟨.literal (.double body), rest, rfl, .quoted fits fun _ => Value.noConfusion⟩
    | bare word =>
        by_cases plain : ∀ long name behind, ¬ Heads word long name behind
        · exact .inl ⟨.literal (.bare word), rest, rfl, .word fits ends plain⟩
        · simp only [Classical.not_forall, Classical.not_not] at plain
          obtain ⟨long, name, behind, heads⟩ := plain
          have whole := heads_append heads ends
          rcases exists_token_of_heads whole with token | ⟨taken, rest', split, opened⟩
          · exact .inl token
          · refine .inr (.inl ⟨long, name, taken, rest', ?_, heads.named, opened⟩)
            change word ++ rest = _
            rw [whole.split, split]
            simp
  · exact .inr (.inr (.inl opened))
  · exact .inr (.inr (.inr none))

end Parameters

end LineShell
