/-
Module: LineShell.Proofs.Syntax.Templates
Purpose: What the rules for templates take, and what they refuse.
Main exports: isBodyChar, cutParts, Value, Opened, startsValue, takes_template,
  refuses_template, exists_value
-/
import LineShell.Proofs.Syntax.Reading

namespace LineShell

/-! ### Characters -/

/-- Characters of template bodies: those of literal runs, and dollar signs. -/
def isBodyChar (quoted : Bool) (c : Char) : Bool :=
  continuesRun quoted c || c = '$'

/-- Inside double quotes a body holds all but quotes and line feeds. -/
theorem isBodyChar_true (c : Char) : isBodyChar true c = (c ≠ '"' && c ≠ '\n') := by
  by_cases dollar : c = '$'
  · subst dollar
    rfl
  · simp only [isBodyChar, continuesRun, endsQuotedRun, dollar, if_true, decide_false,
      Bool.false_or, Bool.or_false, Bool.not_or, decide_not]
    exact Bool.and_comm _ _

/-- Outside quotes a body holds all but white space, quotes and number signs. -/
theorem isBodyChar_false (c : Char) :
    isBodyChar false c = !(isBlank c || c = '#' || c = '\x27' || c = '"') := by
  by_cases dollar : c = '$'
  · subst dollar
    decide
  · by_cases feed : c = '\n'
    · subst feed
      decide
    · simp only [isBodyChar, continuesRun, endsBareRun, endsQuotedRun, dollar, feed,
        Bool.false_eq_true, if_false, decide_false, Bool.false_or, Bool.or_false]
      cases isBlank c <;> cases decide (c = '#') <;> cases decide (c = '\x27') <;>
        cases decide (c = '"') <;> rfl

/-- A character of a name is no white space. -/
theorem isBlank_of_isLooseNameChar {c : Char} (name : isLooseNameChar c = true) :
    isBlank c = false := by
  have code : (48 ≤ c.toNat ∧ c.toNat ≤ 57) ∨ (65 ≤ c.toNat ∧ c.toNat ≤ 90) ∨
      (97 ≤ c.toNat ∧ c.toNat ≤ 122) ∨ c.toNat ∈ [33, 45, 46, 63, 95] := by
    delta isLooseNameChar isNameChar Char.isAlphanum Char.isAlpha Char.isUpper Char.isLower
      Char.isDigit at name
    simp only [Bool.or_eq_true, Bool.and_eq_true, decide_eq_true_eq, UInt32.le_iff_toNat_le,
      ge_iff_le] at name
    rcases name with ((((((upper | lower) | digit) | rfl) | rfl) | rfl) | rfl) | rfl
    · exact .inr (.inl upper)
    · exact .inr (.inr (.inl lower))
    · exact .inl digit
    · decide
    · decide
    · decide
    · decide
    · decide
  simp only [List.mem_cons, List.not_mem_nil, or_false] at code
  simp only [isBlank, blankRanges, List.any_cons, List.any_nil, Bool.or_false,
    Bool.or_eq_false_iff, Bool.and_eq_false_iff, decide_eq_false_iff_not]
  omega

/-- Names are made of characters that mean nothing else anywhere. -/
theorem continuesRun_of_isLooseNameChar (quoted : Bool) {c : Char}
    (name : isLooseNameChar c = true) : continuesRun quoted c = true := by
  have marks : c ≠ '$' ∧ c ≠ '\n' ∧ c ≠ '"' ∧ c ≠ '\x27' ∧ c ≠ '#' := by
    refine ⟨?_, ?_, ?_, ?_, ?_⟩ <;> (rintro rfl; exact absurd name (by decide))
  have plain := isBlank_of_isLooseNameChar name
  cases quoted with
  | false => simp [continuesRun, endsBareRun, endsQuotedRun, marks, plain]
  | true => simp [continuesRun, endsQuotedRun, marks]

theorem isLooseNameChar_of_isNameChar {c : Char} (name : isNameChar c = true) :
    isLooseNameChar c = true := by
  simp [isLooseNameChar, name]

theorem isBodyChar_of_continuesRun {quoted : Bool} {c : Char}
    (plain : continuesRun quoted c = true) : isBodyChar quoted c = true := by
  simp [isBodyChar, plain]

theorem isBodyChar_of_isLooseNameChar (quoted : Bool) {c : Char}
    (name : isLooseNameChar c = true) : isBodyChar quoted c = true :=
  isBodyChar_of_continuesRun (continuesRun_of_isLooseNameChar quoted name)

theorem isBodyChar_of_isNameChar (quoted : Bool) {c : Char} (name : isNameChar c = true) :
    isBodyChar quoted c = true :=
  isBodyChar_of_isLooseNameChar quoted (isLooseNameChar_of_isNameChar name)

theorem continuesRun_dollar (quoted : Bool) : continuesRun quoted '$' = false := by
  cases quoted <;> rfl

section Stopping

variable {test : Char → Bool} {text rest : Text}

theorem Stops.of_imp {other : Char → Bool} (stops : Stops other rest)
    (imp : ∀ c, test c = true → other c = true) : Stops test rest := by
  intro c first
  cases passes : test c with
  | false => rfl
  | true => exact absurd (imp c passes) (by rw [stops c first]; exact Bool.false_ne_true)

/-- What stops a run in a text stops it in a longer text, if that stops it too. -/
theorem Stops.append (stops : Stops test text) (stops' : Stops test rest) :
    Stops test (text ++ rest) := by
  cases text with
  | nil => exact stops'
  | cons c more => exact fun d first => stops d first

theorem stops_cons {c : Char} : Stops test (c :: rest) ↔ test c = false :=
  ⟨fun stops => stops c rfl, fun fails d first => by
    obtain rfl := Option.some.inj first
    exact fails⟩

theorem stops_nil : Stops test [] :=
  fun _ none => nomatch none

theorem stops_of_takeWhile_isEmpty (none : (text.takeWhile test).isEmpty = true) :
    Stops test text := by
  cases text with
  | nil => exact stops_nil
  | cons c more =>
      rw [stops_cons]
      cases passes : test c with
      | false => rfl
      | true =>
          rw [List.takeWhile_cons_of_pos passes] at none
          cases none

/-- Behind a run stands what does not belong to it. -/
theorem stops_dropWhile : Stops test (text.dropWhile test) := by
  intro c first
  have fails := List.head?_dropWhile_not test text
  rw [first] at fails
  simpa using fails

theorem mem_takeWhile {c : Char} (member : c ∈ text.takeWhile test) : test c = true :=
  List.all_eq_true.mp List.all_takeWhile c member

end Stopping

/-! ### Bodies -/

/-- Cuts the text of a body into parts: runs, dollar signs with a name behind them, and
dollar signs. -/
def cutParts (quoted : Bool) (position : Position) : Text → List Part
  | [] => []
  | c :: text =>
      if c = '$' then
        let name := text.takeWhile isNameChar
        let start := position.advance c
        if name.isEmpty then
          .literal { value := [c], span := { start := position, stop := start } } ::
            cutParts quoted start text
        else
          let stop := start.after name
          .reference {
              id := { name := name, span := { start := start, stop := stop } }
              span := { start := position, stop := stop } } ::
            cutParts quoted stop (text.dropWhile isNameChar)
      else
        let run := c :: text.takeWhile (continuesRun quoted)
        let stop := position.after run
        .literal { value := run, span := { start := position, stop := stop } } ::
          cutParts quoted stop (text.dropWhile (continuesRun quoted))
termination_by text => text.length
decreasing_by
  · simp
  · exact Nat.lt_succ_of_le (List.dropWhile_suffix _).length_le
  · exact Nat.lt_succ_of_le (List.dropWhile_suffix _).length_le

section Bodies

variable {quoted : Bool} {position : Position} {text rest : Text}

/-! ### Names and parts -/

/-- A name is taken as far as it goes. -/
theorem takes_nameOf {test : Char → Bool} (expectation : Expectation)
    (all : ∀ c ∈ text, test c = true) (some : text ≠ []) (stops : Stops test rest) :
    Takes (nameOf test expectation) position text rest
      { name := text, span := { start := position, stop := position.after text } } 0 := by
  refine takes_from_here ?_
  apply Takes.seq_last (takes_takeWhile position all stops)
  rw [if_neg (by simpa using some)]
  exact takes_node _ position _ rest

theorem refuses_nameOf {test : Char → Bool} (expectation : Expectation)
    (stops : Stops test text) :
    Refuses (nameOf test expectation) position text position.index := by
  have nothing : Takes (takeWhile test) position [] text [] 0 :=
    takes_takeWhile position (by simp) stops
  refine refuses_from_here ?_
  apply Takes.seq_refuses nothing
  exact refuses_fail position text expectation

theorem takes_run (all : ∀ c ∈ text, continuesRun quoted c = true) (some : text ≠ [])
    (stops : Stops (continuesRun quoted) rest) :
    Takes (templateLiteral quoted) position text rest
      { value := text, span := { start := position, stop := position.after text } } 0 := by
  refine takes_from_here ?_
  apply Takes.seq_last (takes_takeWhile position all stops)
  rw [if_neg (by simpa using some)]
  exact takes_node _ position _ rest

theorem refuses_run (stops : Stops (continuesRun quoted) text) :
    Refuses (templateLiteral quoted) position text position.index := by
  have nothing : Takes (takeWhile (continuesRun quoted)) position [] text [] 0 :=
    takes_takeWhile position (by simp) stops
  refine refuses_from_here ?_
  apply Takes.seq_refuses nothing
  exact refuses_fail position text _

theorem takes_reference (all : ∀ c ∈ text, isNameChar c = true) (some : text ≠ [])
    (stops : Stops isNameChar rest) :
    Takes reference position ('$' :: text) rest
      { id :=
          { name := text
            span :=
              { start := position.advance '$', stop := (position.advance '$').after text } }
        span := { start := position, stop := (position.advance '$').after text } } 0 := by
  refine Takes.restoring (takes_from_here ?_)
  apply Takes.seq (takes_expect position '$' (text ++ rest))
  apply Takes.seq_last (takes_nameOf .identifier all some stops)
  exact takes_node _ position _ rest

/-- A dollar sign without a name behind it. -/
theorem refuses_reference_dollar (stops : Stops isNameChar text) :
    Refuses reference position ('$' :: text) (position.index + 1) := by
  have unnamed : Refuses identifier (position.advance '$') text (position.index + 1) :=
    (refuses_nameOf .identifier stops).reaching (position.advance_index '$')
  refine Refuses.restoring (refuses_from_here ?_)
  apply Takes.seq_refuses (takes_expect position '$' text)
  exact unnamed.bind

theorem refuses_reference (other : text.head? ≠ some '$') :
    Refuses reference position text position.index := by
  refine Refuses.restoring (refuses_from_here ?_)
  exact (refuses_expect other).bind

theorem takes_singleDollar :
    Takes singleDollar position ['$'] rest
      { value := ['$'], span := { start := position, stop := position.advance '$' } } 0 := by
  refine takes_from_here ?_
  apply Takes.seq_last (takes_expect position '$' rest)
  exact takes_node _ position _ rest

theorem refuses_singleDollar (other : text.head? ≠ some '$') :
    Refuses singleDollar position text position.index := by
  refine refuses_from_here ?_
  exact (refuses_expect other).bind

theorem takes_part_run (all : ∀ c ∈ text, continuesRun quoted c = true) (some : text ≠ [])
    (stops : Stops (continuesRun quoted) rest) :
    Takes (templatePart quoted) position text rest
      (.literal
        { value := text, span := { start := position, stop := position.after text } }) 0 :=
  Takes.firstOf (takes_run all some stops).map

/-- A dollar sign is no run. -/
theorem refuses_run_dollar :
    Refuses (Part.literal <$> templateLiteral quoted) position ('$' :: text)
      position.index :=
  (refuses_run (stops_cons.mpr (continuesRun_dollar quoted))).map

theorem takes_part_reference (all : ∀ c ∈ text, isNameChar c = true) (some : text ≠ [])
    (stops : Stops isNameChar rest) :
    Takes (templatePart quoted) position ('$' :: text) rest
      (.reference
        { id :=
            { name := text
              span :=
                { start := position.advance '$', stop := (position.advance '$').after text } }
          span := { start := position, stop := (position.advance '$').after text } }) 0 := by
  have mention : Takes reference position ('$' :: text) rest _ 0 :=
    takes_reference all some stops
  exact (Refuses.firstOf refuses_run_dollar (Takes.firstOf mention.map)).settle (by simp)

theorem takes_part_dollar (stops : Stops isNameChar rest) :
    Takes (templatePart quoted) position ['$'] rest
      (.literal
        { value := ['$']
          span := { start := position, stop := position.advance '$' } }) 0 := by
  have unnamed : Refuses (Part.reference <$> reference) position ('$' :: rest)
      (position.index + 1) := (refuses_reference_dollar stops).map
  have dollar : Takes (Part.literal <$> singleDollar) position ['$'] rest _ 0 :=
    takes_singleDollar.map
  exact (Refuses.firstOf refuses_run_dollar
    (Refuses.firstOf unnamed (Takes.firstOf dollar))).settle (by simp)

/-- No part begins where no character of a body stands. -/
theorem refuses_part (stops : Stops (isBodyChar quoted) text) :
    Refuses (templatePart quoted) position text position.index := by
  have other : text.head? ≠ some '$' := by
    intro first
    have fails := stops '$' first
    simp [isBodyChar] at fails
  have run : Refuses (templateLiteral quoted) position text position.index :=
    refuses_run (stops.of_imp fun _ => isBodyChar_of_continuesRun)
  refine (refuses_firstOf_cons run.map (refuses_firstOf_cons (refuses_reference other).map
    (refuses_firstOf_cons (refuses_singleDollar other).map
      (refuses_firstOf_nil position text .templatePart)))).reaching ?_
  simp only [Nat.max_self]

/-! ### Bodies as a whole -/

/-- One part more in front of a body. -/
theorem takes_templateParts_cons {limit : Nat} {piece : Text} {part : Part}
    {parts : List Part}
    (first : Takes (templatePart quoted) position piece (text ++ rest) part 0)
    (others : Takes (templateParts quoted limit) (position.after piece) text rest parts 0) :
    Takes (templateParts quoted (limit + 1)) position (piece ++ text) rest (part :: parts)
      0 := by
  apply Takes.seq first.attempt
  apply Takes.seq_last others
  exact Takes.pure _ rest _

/-- A body is read part by part up to the first character that no part can hold. -/
theorem takes_templateParts (limit : Nat) (all : ∀ c ∈ text, isBodyChar quoted c = true)
    (stops : Stops (isBodyChar quoted) rest) (enough : text.length < limit) :
    Takes (templateParts quoted limit) position text rest (cutParts quoted position text)
      0 := by
  have noName : Stops isNameChar rest := stops.of_imp fun _ => isBodyChar_of_isNameChar quoted
  have noRun : Stops (continuesRun quoted) rest :=
    stops.of_imp fun _ => isBodyChar_of_continuesRun
  have shorter : ∀ (test : Char → Bool) (text : Text),
      (text.dropWhile test).length ≤ text.length :=
    fun test text => (List.dropWhile_suffix test).length_le
  have among : ∀ (test : Char → Bool) (text : Text), ∀ c ∈ text.dropWhile test, c ∈ text :=
    fun test text c member => (List.dropWhile_suffix test).subset member
  fun_induction cutParts quoted position text generalizing limit with
  | case1 position =>
      obtain ⟨limit, rfl⟩ : ∃ less, limit = less + 1 := ⟨limit - 1, by omega⟩
      have none : Takes (templateParts quoted (limit + 1)) position [] rest []
          (max position.index 0) :=
        Takes.bind_nil (refuses_part stops).attempt (Takes.pure _ rest _)
      exact none.settle (by simp)
  | case2 position text name unnamed start ih =>
      obtain ⟨limit, rfl⟩ : ∃ less, limit = less + 1 := ⟨limit - 1, by omega⟩
      have dollar : Takes (templatePart quoted) position ['$'] (text ++ rest) _ 0 :=
        takes_part_dollar ((stops_of_takeWhile_isEmpty unnamed).append noName)
      apply takes_templateParts_cons dollar
      apply ih
      · exact fun c member => all c (List.mem_cons_of_mem _ member)
      · simpa using enough
  | case3 position text name named start stop ih =>
      obtain ⟨limit, rfl⟩ : ∃ less, limit = less + 1 := ⟨limit - 1, by omega⟩
      have mention : Takes (templatePart quoted) position ('$' :: name)
          (text.dropWhile isNameChar ++ rest) _ 0 :=
        takes_part_reference (fun c member => mem_takeWhile member) (by simpa using named)
          (stops_dropWhile.append noName)
      have split : '$' :: text = ('$' :: name) ++ text.dropWhile isNameChar := by
        rw [List.cons_append, List.takeWhile_append_dropWhile]
      rw [split]
      apply takes_templateParts_cons mention
      apply ih
      · exact fun c member => all c (List.mem_cons_of_mem _ (among _ _ c member))
      · have := shorter isNameChar text
        simp only [List.length_cons] at enough
        omega
  | case4 position c text other run stop ih =>
      obtain ⟨limit, rfl⟩ : ∃ less, limit = less + 1 := ⟨limit - 1, by omega⟩
      have first : continuesRun quoted c = true := by
        have body := all c List.mem_cons_self
        simpa [isBodyChar, other] using body
      have literal : Takes (templatePart quoted) position run
          (text.dropWhile (continuesRun quoted) ++ rest)
          (.literal { value := run, span := { start := position, stop := stop } }) 0 := by
        apply takes_part_run ?_ (List.cons_ne_nil _ _) (stops_dropWhile.append noRun)
        rintro d (_ | ⟨_, member⟩)
        · exact first
        · exact mem_takeWhile member
      have split : c :: text = run ++ text.dropWhile (continuesRun quoted) := by
        rw [List.cons_append, List.takeWhile_append_dropWhile]
      rw [split]
      apply takes_templateParts_cons literal
      apply ih
      · exact fun d member => all d (List.mem_cons_of_mem _ (among _ _ d member))
      · have := shorter (continuesRun quoted) text
        simp only [List.length_cons] at enough
        omega

/-- Only the empty body has no parts. -/
theorem cutParts_isEmpty : (cutParts quoted position text).isEmpty = text.isEmpty := by
  fun_cases cutParts quoted position text <;> rfl

/-- A body as a node. -/
def bodyNode (quoted : Bool) (position : Position) (text : Text) : Body :=
  { parts := cutParts quoted position text
    span := { start := position, stop := position.after text } }

/-- A body is taken as a whole, but nothing is no body without quotes. -/
theorem takes_templateBody (all : ∀ c ∈ text, isBodyChar quoted c = true)
    (stops : Stops (isBodyChar quoted) rest) (enough : quoted = true ∨ text ≠ []) :
    Takes (templateBody quoted) position text rest (bodyNode quoted position text) 0 := by
  apply takes_from_here
  intro memory
  have parts : Takes (templateParts quoted ((text ++ rest).length + 1)) position text rest
      (cutParts quoted position text) 0 :=
    takes_templateParts _ all stops (by rw [List.length_append]; omega)
  have body : Takes (do
      let parts ← templateParts quoted ((text ++ rest).length + 1)
      if parts.isEmpty && !quoted then
        fail .template
      else
        return { parts := parts, span := ← spanFrom position })
      position text rest (bodyNode quoted position text) 0 := by
    apply Takes.seq_last parts
    rw [cutParts_isEmpty, if_neg]
    · exact takes_node _ position _ rest
    · rcases enough with rfl | some
      · simp
      · simp [some]
  exact body memory

theorem refuses_templateBody (stops : Stops (isBodyChar false) text) :
    Refuses (templateBody false) position text position.index := by
  apply refuses_from_here
  refine ⟨Nat.le_refl _, fun memory => ?_⟩
  have none : Takes (templateParts false (text.length + 1)) position [] text [] 0 := by
    have parts : Takes (templateParts false (text.length + 1)) position [] text
        (cutParts false position []) 0 :=
      takes_templateParts _ (by simp) stops (Nat.zero_lt_succ _)
    rwa [cutParts] at parts
  have body : Refuses (do
      let parts ← templateParts false (text.length + 1)
      if parts.isEmpty && !false then
        (fail .template : Rule Body)
      else
        return { parts := parts, span := ← spanFrom position })
      position text position.index := by
    apply Takes.seq_refuses none
    exact refuses_fail position text _
  exact body.2 memory

end Bodies

/-! ### Templates -/

/-- A template by its text and its kind of quotes. -/
inductive Value where
  | bare (word : Text)
  | single (raw : Text)
  | double (body : Text)
deriving DecidableEq, Repr, Inhabited

namespace Value

/-- The text of a value with its quotes. -/
def text : Value → Text
  | .bare word => word
  | .single raw => '\x27' :: (raw ++ ['\x27'])
  | .double body => '"' :: (body ++ ['"'])

/-- Whether a value holds only what its kind of quotes allows. -/
def Fits : Value → Prop
  | .bare word => word ≠ [] ∧ ∀ c ∈ word, isBodyChar false c = true
  | .single raw => ∀ c ∈ raw, c ≠ '\x27'
  | .double body => ∀ c ∈ body, isBodyChar true c = true

/-- Whether a value ends where the rest of the text begins. -/
def EndsBefore (rest : Text) : Value → Prop
  | .bare _ => Stops (isBodyChar false) rest
  | .single _ | .double _ => True

/-- A value as a node. -/
def node (position : Position) : Value → Template
  | .bare word => .unquoted (bodyNode false position word)
  | .single raw =>
      let start := position.advance '\x27'
      .singleQuoted { text := raw, span := { start := start, stop := start.after raw } }
  | .double body => .doubleQuoted (bodyNode true (position.advance '"') body)

end Value

/-- A quote that is opened and not closed: what has been taken when that is found out,
and the rest. -/
inductive Opened : Text → Text → Prop where
  | single {raw : Text} (inside : ∀ c ∈ raw, c ≠ '\x27') : Opened ('\x27' :: raw) []
  | double {body rest : Text} (inside : ∀ c ∈ body, isBodyChar true c = true)
      (stops : Stops (isBodyChar true) rest) (open' : rest.head? ≠ some '"') :
      Opened ('"' :: body) rest

/-- Whether a character can begin a value. -/
def startsValue (c : Char) : Bool :=
  !(isBlank c || c = '#')

theorem startsValue_of_isBodyChar {c : Char} (body : isBodyChar false c = true) :
    startsValue c = true := by
  rw [isBodyChar_false] at body
  simp only [startsValue, Bool.not_eq_true', Bool.or_eq_false_iff] at body ⊢
  exact body.1.1

theorem isBlank_of_startsValue {c : Char} (starts : startsValue c = true) :
    isBlank c = false := by
  simp only [startsValue, Bool.not_eq_true', Bool.or_eq_false_iff] at starts
  exact starts.1

/-- Where no value can begin, none of the rules of templates goes on. -/
theorem stops_of_startsValue {rest : Text} (stops : Stops startsValue rest) :
    Stops (isBodyChar false) rest :=
  stops.of_imp fun _ => startsValue_of_isBodyChar

/-- Where no value can begin, no name goes on. -/
theorem stops_name_of_startsValue {rest : Text} (stops : Stops startsValue rest) :
    Stops isLooseNameChar rest :=
  (stops_of_startsValue stops).of_imp fun _ => isBodyChar_of_isLooseNameChar false

section Templates

variable {position : Position} {text taken rest : Text}

theorem takes_rawText (inside : ∀ c ∈ text, c ≠ '\x27')
    (stops : Stops (· ≠ '\x27') rest) :
    Takes rawText position text rest
      { text := text, span := { start := position, stop := position.after text } } 0 := by
  apply takes_from_here
  apply Takes.seq_last (takes_takeWhile position (by simpa using inside) stops)
  exact takes_node _ position _ rest

theorem takes_singleQuoted (inside : ∀ c ∈ text, c ≠ '\x27') :
    Takes singleQuoted position ('\x27' :: (text ++ ['\x27'])) rest
      ((Value.single text).node position) 0 := by
  have stops : Stops (· ≠ '\x27') ('\x27' :: rest) := stops_cons.mpr rfl
  apply Takes.restoring
  apply Takes.seq (takes_expect position '\x27' (text ++ ['\x27'] ++ rest))
  apply Takes.seq (takes_rawText inside stops)
  apply Takes.seq_last (takes_expect _ '\x27' rest)
  exact Takes.pure _ rest _

theorem refuses_singleQuoted (other : text.head? ≠ some '\x27') :
    Refuses singleQuoted position text position.index :=
  Refuses.restoring (refuses_expect other).bind

/-- The end of the text is met before the closing quote. -/
theorem refuses_singleQuoted_open (inside : ∀ c ∈ text, c ≠ '\x27') :
    Refuses singleQuoted position ('\x27' :: text) (position.index + 1 + text.length) := by
  have raw : Takes rawText (position.advance '\x27') text [] _ 0 :=
    takes_rawText inside stops_nil
  have unclosed : Refuses (expect '\x27') ((position.advance '\x27').after text) []
      (position.index + 1 + text.length) :=
    (refuses_expect (by simp)).reaching (by simp)
  have behind : Refuses (do
      let raw ← rawText
      expect '\x27'
      return Template.singleQuoted raw)
      (position.advance '\x27') (text ++ []) (max 0 (position.index + 1 + text.length)) :=
    Takes.bind_refuses raw unclosed.bind
  rw [List.append_nil] at behind
  exact Refuses.restoring ((Takes.bind_refuses (takes_expect position '\x27' text)
    behind).reaching (by omega))

theorem takes_doubleQuoted (inside : ∀ c ∈ text, isBodyChar true c = true) :
    Takes doubleQuoted position ('"' :: (text ++ ['"'])) rest
      ((Value.double text).node position) 0 := by
  have stops : Stops (isBodyChar true) ('"' :: rest) := stops_cons.mpr rfl
  apply Takes.restoring
  apply Takes.seq (takes_expect position '"' (text ++ ['"'] ++ rest))
  apply Takes.seq (takes_templateBody inside stops (.inl rfl))
  apply Takes.seq_last (takes_expect _ '"' rest)
  exact Takes.pure _ rest _

theorem refuses_doubleQuoted (other : text.head? ≠ some '"') :
    Refuses doubleQuoted position text position.index :=
  Refuses.restoring (refuses_expect other).bind

/-- The end of the line is met before the closing quote. -/
theorem refuses_doubleQuoted_open (inside : ∀ c ∈ text, isBodyChar true c = true)
    (stops : Stops (isBodyChar true) rest) (open' : rest.head? ≠ some '"') :
    Refuses doubleQuoted position ('"' :: (text ++ rest))
      (position.index + 1 + text.length) := by
  have body : Takes (templateBody true) (position.advance '"') text rest _ 0 :=
    takes_templateBody inside stops (.inl rfl)
  have unclosed : Refuses (expect '"') ((position.advance '"').after text) rest
      (position.index + 1 + text.length) :=
    (refuses_expect open').reaching (by simp)
  have behind : Refuses (do
      let body ← templateBody true
      expect '"'
      return Template.doubleQuoted body)
      (position.advance '"') (text ++ rest) (max 0 (position.index + 1 + text.length)) :=
    Takes.bind_refuses body unclosed.bind
  exact Refuses.restoring ((Takes.bind_refuses (takes_expect position '"' (text ++ rest))
    behind).reaching (by omega))

theorem takes_template {value : Value} (fits : value.Fits) (ends : value.EndsBefore rest) :
    Takes template position value.text rest (value.node position) 0 := by
  cases value with
  | single raw => exact Takes.firstOf (takes_singleQuoted fits)
  | double body =>
      have single : Refuses singleQuoted position ('"' :: (body ++ ['"']) ++ rest)
          position.index := refuses_singleQuoted (by simp)
      exact (Refuses.firstOf single (Takes.firstOf (takes_doubleQuoted fits))).settle (by simp)
  | bare word =>
      obtain ⟨some, all⟩ := fits
      have other : ∀ c, isBodyChar false c = false → (word ++ rest).head? ≠ Option.some c := by
        intro c fails first
        obtain ⟨d, more, rfl⟩ := List.exists_cons_of_ne_nil some
        obtain rfl := Option.some.inj first
        rw [all d List.mem_cons_self] at fails
        cases fails
      have single : Refuses singleQuoted position (word ++ rest) position.index :=
        refuses_singleQuoted (other _ (by decide))
      have double : Refuses doubleQuoted position (word ++ rest) position.index :=
        refuses_doubleQuoted (other _ (by decide))
      have body : Takes unquoted position word rest ((Value.bare word).node position) 0 :=
        (takes_templateBody all ends (.inr some)).map
      exact (Refuses.firstOf single (Refuses.firstOf double (Takes.firstOf body))).settle
        (by omega)

/-- Where no value can begin, no template is read. -/
theorem refuses_template (stops : Stops startsValue text) :
    Refuses template position text position.index := by
  have single : Refuses singleQuoted position text position.index :=
    refuses_singleQuoted fun first => absurd (stops _ first) (by decide)
  have double : Refuses doubleQuoted position text position.index :=
    refuses_doubleQuoted fun first => absurd (stops _ first) (by decide)
  have bare : Refuses unquoted position text position.index :=
    (refuses_templateBody (stops_of_startsValue stops)).map
  refine (refuses_firstOf_cons single (refuses_firstOf_cons double (refuses_firstOf_cons bare
    (refuses_firstOf_nil position text .template)))).reaching ?_
  simp only [Nat.max_self]

/-- A quote that is not closed is remembered up to where that is found out. -/
theorem refuses_template_opened (opened : Opened taken rest) :
    Refuses template position (taken ++ rest) (position.index + taken.length) := by
  have bare : ∀ c text, isBodyChar false c = false →
      Refuses unquoted position (c :: text) position.index :=
    fun c text fails => (refuses_templateBody (stops_cons.mpr fails)).map
  cases opened with
  | @single raw inside =>
      rw [List.append_nil]
      have double : Refuses doubleQuoted position ('\x27' :: raw) position.index :=
        refuses_doubleQuoted (by simp)
      refine (refuses_firstOf_cons (refuses_singleQuoted_open inside)
        (refuses_firstOf_cons double (refuses_firstOf_cons (bare _ raw (by decide))
          (refuses_firstOf_nil position _ .template)))).reaching ?_
      simp only [List.length_cons]
      omega
  | @double body _ inside stops open' =>
      have single : Refuses singleQuoted position ('"' :: body ++ rest) position.index :=
        refuses_singleQuoted (by simp)
      refine (refuses_firstOf_cons single (refuses_firstOf_cons
        (refuses_doubleQuoted_open inside stops open') (refuses_firstOf_cons
          (bare _ (body ++ rest) (by decide))
          (refuses_firstOf_nil position _ .template)))).reaching ?_
      simp only [List.length_cons]
      omega

/-- Every text begins with a value or with an open quote, or no value can begin there. -/
theorem exists_value (text : Text) :
    (∃ value rest, text = Value.text value ++ rest ∧ value.Fits ∧ value.EndsBefore rest) ∨
      (∃ taken rest, text = taken ++ rest ∧ Opened taken rest) ∨ Stops startsValue text := by
  cases text with
  | nil => exact .inr (.inr stops_nil)
  | cons c text =>
      by_cases single : c = '\x27'
      · subst single
        obtain ⟨raw, rest, rfl, inside, stops⟩ := exists_run (· ≠ '\x27') text
        have inside : ∀ c ∈ raw, c ≠ '\x27' := by simpa using inside
        cases rest with
        | nil => exact .inr (.inl ⟨'\x27' :: raw, [], rfl, .single inside⟩)
        | cons d rest =>
            obtain rfl : d = '\x27' := by simpa using stops_cons.mp stops
            exact .inl ⟨.single raw, rest, by simp [Value.text], inside, trivial⟩
      · by_cases double : c = '"'
        · subst double
          obtain ⟨body, rest, rfl, inside, stops⟩ := exists_run (isBodyChar true) text
          by_cases closed : rest.head? = some '"'
          · obtain ⟨more, rfl⟩ := List.head?_eq_some_iff.mp closed
            exact .inl ⟨.double body, more, by simp [Value.text], inside, trivial⟩
          · exact .inr (.inl ⟨'"' :: body, rest, rfl, .double inside stops closed⟩)
        · cases starts : startsValue c with
          | false => exact .inr (.inr (stops_cons.mpr starts))
          | true =>
              obtain ⟨word, rest, split, all, stops⟩ := exists_run (isBodyChar false) (c :: text)
              have first : isBodyChar false c = true := by
                rw [isBodyChar_false]
                simpa [single, double, startsValue] using starts
              have some : word ≠ [] := by
                rintro rfl
                subst split
                rw [stops_cons.mp stops] at first
                cases first
              exact .inl ⟨.bare word, rest, split, ⟨some, all⟩, stops⟩

end Templates

end LineShell
