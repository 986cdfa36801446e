/-
Module: LineShell.Proofs.Syntax.ErrorPosition
Purpose: A rejected line is told about at the end of its longest prefix that some
  line goes on with.
Main exports: Likewise, Chain.congr, Chain.close, exists_completion, rejects_of_take
-/
import LineShell.Proofs.Syntax.Lines

namespace LineShell

/-!
How a text is read depends on one character behind what is taken, and on that
character only by what it is not.  So a chain stands as it is when the rest of the text
is cut off, and when only later characters are changed.  This gives both halves: a
prefix up to the error can be completed, and no text that shares one character more can
be read differently.
-/

/-! ### What a chain depends on -/

/-- A text that is at its end, or goes on with the same character as another one. -/
def Likewise (rest' rest : Text) : Prop :=
  rest' = [] ∨ rest'.head? = rest.head?

section Congruence

variable {test : Char → Bool} {first : Bool} {text lead name pad rest rest' taken : Text}
  {items : List (Text × Token)} {open' : Nat}

theorem Likewise.append (like : Likewise rest' rest) (text : Text) :
    Likewise (text ++ rest') (text ++ rest) := by
  cases text with
  | nil => exact like
  | cons c text => exact .inr rfl

/-- Texts with a common front that is not empty. -/
theorem likewise_of_ne_nil (some : text ≠ []) (rest' rest : Text) :
    Likewise (text ++ rest') (text ++ rest) := by
  obtain ⟨c, more, rfl⟩ := List.exists_cons_of_ne_nil some
  exact .inr rfl

theorem Stops.congr (stops : Stops test rest) (like : Likewise rest' rest) :
    Stops test rest' := by
  rcases like with rfl | same
  · exact stops_nil
  · intro c head
    exact stops c (same ▸ head)

theorem Token.Stands.congr {token : Token} (stands : token.Stands rest)
    (like : Likewise rest' rest) : token.Stands rest' := by
  cases stands with
  | quoted fits marks => exact .quoted fits marks
  | word fits ends plain => exact .word fits (Stops.congr ends like) plain
  | dangling named ends => exact .dangling named (ends.congr like)
  | flag named ends unassigned =>
      refine .flag named (ends.congr like) ?_
      rcases like with rfl | same
      · simp
      · rwa [same]
  | @assigned long name value _ named fits ends =>
      refine .assigned named fits ?_
      cases value with
      | bare word => exact Stops.congr ends like
      | single raw => trivial
      | double body => trivial

theorem Opened.congr (opened : Opened taken rest) (same : rest'.head? = rest.head?) :
    Opened taken rest' := by
  cases opened with
  | single inside =>
      rw [List.head?_nil, List.head?_eq_none_iff] at same
      exact same ▸ .single inside
  | double inside stops open' => exact .double inside (stops.congr (.inr same)) (same ▸ open')

/-- A chain depends on the rest of the text up to where a quote is given up, and on the
next character; the text may also end there if no quote is open. -/
theorem Chain.congr (chain : Chain first items pad rest open') {front more more' : Text}
    (split : rest = front ++ more) (length : front.length = open')
    (like : more'.head? = more.head? ∨ (front = [] ∧ more' = [])) :
    Chain first items pad (front ++ more') open' := by
  have behind : ∀ text, Likewise (text ++ (front ++ more')) (text ++ (front ++ more)) := by
    intro text
    apply Likewise.append
    rcases like with same | ⟨rfl, rfl⟩
    · exact Likewise.append (.inr same) front
    · exact .inl rfl
  induction chain with
  | adjacent stops =>
      subst split
      exact .adjacent (stops.congr (behind []))
  | done gap ends =>
      subst split
      exact .done gap (ends.congr (behind []))
  | @opened first pad taken rest gap opened =>
      obtain ⟨rfl, rfl⟩ := List.append_inj split length.symm
      rcases like with same | ⟨rfl, -⟩
      · exact .opened gap (opened.congr same)
      · exact absurd rfl opened.length_pos
  | @stuck first gap long name taken rest before named opened =>
      obtain ⟨rfl, rfl⟩ := List.append_inj split length.symm
      rcases like with same | ⟨rfl, -⟩
      · exact .stuck before named (opened.congr same)
      · exact absurd rfl opened.length_pos
  | @cons first gap token items pad rest open' before stands others ih =>
      subst split
      have like' := behind (spell items ++ pad)
      rw [List.append_assoc, List.append_assoc] at like'
      exact .cons before (stands.congr like') (ih rfl length)

/-! ### Completing a prefix -/

/-- A quote that is open can be closed. -/
theorem Opened.close (opened : Opened taken rest) :
    ∃ value quote, Value.text value = taken ++ [quote] ∧ value.Fits ∧
      ∀ word, value ≠ .bare word := by
  cases opened with
  | @single raw inside => exact ⟨.single raw, '\x27', rfl, inside, fun _ => Value.noConfusion⟩
  | @double body _ inside stops open' =>
      exact ⟨.double body, '"', rfl, inside, fun _ => Value.noConfusion⟩

/-- A chain that ends in an open quote can be completed. -/
theorem Chain.close (chain : Chain first items pad rest open') (some : open' ≠ 0) :
    ∃ taken more items' quote, rest = taken ++ more ∧ taken.length = open' ∧
      spell items' = spell items ++ (pad ++ (taken ++ [quote])) ∧
      Chain first items' [] [] 0 := by
  induction chain with
  | adjacent stops => exact absurd rfl some
  | done gap ends => exact absurd rfl some
  | @opened first pad taken rest gap opened =>
      obtain ⟨value, quote, text, fits, marks⟩ := opened.close
      refine ⟨taken, rest, [(pad, .literal value)], quote, rfl, rfl, ?_, ?_⟩
      · simp [spell, Token.text, text]
      · exact .cons gap (.quoted fits marks) (.adjacent stops_nil)
  | @stuck first gap long name taken rest before named opened =>
      obtain ⟨value, quote, text, fits, marks⟩ := opened.close
      have ends : value.EndsBefore [] := by
        cases value with
        | bare word => exact absurd rfl (marks word)
        | single raw => trivial
        | double body => trivial
      refine ⟨taken, rest, [(gap, .switch long name (Option.some value))], quote, rfl, rfl, ?_, ?_⟩
      · have switch : (Token.switch long name (Option.some value)).text =
            dashes long ++ (name ++ '=' :: (taken ++ [quote])) := by
          rw [Token.text, text]
        simp [spell, switch, Token.text_unvalued]
      · exact .cons before (.assigned named fits ends) (.adjacent stops_nil)
  | @cons first gap token items pad rest open' before stands others ih =>
      obtain ⟨taken, more, items', quote, rfl, length, text, chain⟩ := ih some
      have opened : taken ≠ [] := by
        rintro rfl
        exact some length.symm
      have like : Likewise (spell items' ++ ([] ++ []))
          (spell items ++ (pad ++ (taken ++ more))) := by
        rw [text, List.append_nil, List.append_nil]
        exact ((likewise_of_ne_nil opened [quote] more).append pad).append (spell items)
      refine ⟨taken, more, (gap, token) :: items', quote, rfl, length, ?_, ?_⟩
      · simp [spell, text]
      · exact .cons before (stands.congr like) chain

/-- The same command, with something else behind it. -/
theorem Leads.congr (leads : Leads text lead name items pad rest open')
    (chain : Chain true items pad rest' open') (like : Likewise rest' rest) :
    Leads (lead ++ (name ++ (spell items ++ pad)) ++ rest') lead name items pad rest' open' where
  split := by simp
  blank := leads.blank
  some := leads.some
  all := leads.all
  stops := leads.stops.congr ((like.append pad).append (spell items))
  chain := chain

end Congruence

/-! ### The two halves -/

section Halves

variable {text lead name pad rest : Text} {items : List (Text × Token)} {open' index : Nat}

/-- The front of a line up to an open quote, with the quote closed. -/
theorem accepts_close (leads : Leads text lead name items pad rest open') (some : open' ≠ 0) :
    ∃ taken more quote command, rest = taken ++ more ∧ taken.length = open' ∧
      parseStrict (lead ++ (name ++ (spell items ++ (pad ++ (taken ++ [quote]))))) =
        .ok command := by
  obtain ⟨taken, more, items', quote, rfl, length, spelled, chain⟩ := leads.chain.close some
  have opened : taken ≠ [] := by
    rintro rfl
    exact some length.symm
  have like := ((likewise_of_ne_nil opened [quote] more).append pad).append (spell items)
  rw [← spelled] at like
  have completed : Leads (lead ++ (name ++ spell items')) lead name items' [] [] 0 :=
    { split := by rw [List.append_nil, List.append_nil]
      blank := leads.blank
      some := leads.some
      all := leads.all
      stops := by
        rw [List.append_nil, List.append_nil]
        exact leads.stops.congr like
      chain := chain }
  have accepted := (Outcome.accepted completed (.inl rfl)).accepts
  rw [spelled] at accepted
  exact ⟨taken, more, quote, _, rfl, length, accepted⟩

/-- Some line goes on with everything in front of the error. -/
theorem exists_completion (outcome : Outcome text (.error index)) :
    ∃ more command, parseStrict (text.take index ++ more) = .ok command := by
  cases outcome with
  | @unnamed lead rest blank unpadded stops =>
      have leads : Leads (lead ++ ['a']) lead ['a'] [] [] [] 0 :=
        { split := rfl
          blank := blank
          some := List.cons_ne_nil _ _
          all := List.forall_mem_singleton.mpr (by decide)
          stops := stops_nil
          chain := .done ⟨by simp, fun no => Bool.noConfusion no⟩ stops_nil }
      rw [List.take_left]
      exact ⟨['a'], _, (Outcome.accepted leads (.inl rfl)).accepts⟩
  | @unclosed _ lead name items pad rest open' leads some =>
      obtain ⟨taken, more, quote, command, rfl, length, accepted⟩ := accepts_close leads some
      have split : text = lead ++ (name ++ (spell items ++ pad)) ++ taken ++ more := by
        simp [leads.split]
      refine ⟨[quote], command, ?_⟩
      rw [split, ← length, ← List.length_append, List.take_left]
      simpa using accepted
  | @trailing _ lead name items pad rest c leads other =>
      have chain : Chain true items pad ([] ++ []) 0 :=
        leads.chain.congr rfl rfl (.inr ⟨rfl, rfl⟩)
      have completed := leads.congr chain (.inl rfl)
      have split : text = lead ++ (name ++ (spell items ++ pad)) ++ c :: rest := by
        simp [leads.split]
      rw [split, List.take_left]
      exact ⟨[], _, (Outcome.accepted completed (.inl rfl)).accepts⟩
  | @behindRemark _ lead name items pad content pad' rest c leads inside line blank other =>
      have chain : Chain true items pad ([] ++ '#' :: (content ++ pad')) 0 :=
        leads.chain.congr rfl rfl (.inl rfl)
      have completed := leads.congr chain (.inr rfl)
      have remark : Remark ('#' :: (content ++ pad')) := by
        refine .inr ⟨content, pad', rfl, inside, line.congr ?_, blank⟩
        cases pad' with
        | nil => exact .inl rfl
        | cons d pad' => exact .inr rfl
      have split : text = lead ++ (name ++ (spell items ++ pad)) ++ '#' :: content ++ pad' ++
          c :: rest := by
        simp [leads.split]
      rw [split, List.take_left]
      have accepted := (Outcome.accepted completed remark).accepts
      exact ⟨[], _, by simpa using accepted⟩

/-- What a line goes on with behind the front that can be completed, no line goes on
with. -/
theorem rejects_of_take (outcome : Outcome text (.error index)) (before : index < text.length)
    (more : Text) : ∃ index', RejectedAt (text.take (index + 1) ++ more) index' := by
  have cut : ∀ (front : Text) (c : Char) (rest : Text), text = front ++ c :: rest →
      front.length = index → text.take (index + 1) ++ more = front ++ c :: more := by
    rintro front c rest rfl rfl
    have split : front ++ c :: rest = front ++ [c] ++ rest := by simp
    have length : front.length + 1 = (front ++ [c]).length := by simp
    rw [split, length, List.take_left, List.append_assoc]
    rfl
  have like : ∀ (c : Char) (rest : Text), Likewise (c :: more) (c :: rest) :=
    fun _ _ => .inr rfl
  cases outcome with
  | @unnamed lead rest blank unpadded stops =>
      cases rest with
      | nil => simp at before
      | cons c rest =>
          rw [cut lead c rest rfl rfl]
          exact ⟨_, (Outcome.unnamed blank (unpadded.congr (like c rest))
            (stops.congr (like c rest))).rejects⟩
  | @unclosed _ lead name items pad rest open' leads some =>
      obtain ⟨taken, more', items', quote, rfl, length, -, -⟩ := leads.chain.close some
      cases more' with
      | nil =>
          rw [leads.split] at before
          simp at before
          omega
      | cons c rest =>
          have chain : Chain true items pad (taken ++ c :: more) open' :=
            leads.chain.congr rfl length (.inl rfl)
          have opened : taken ≠ [] := by
            rintro rfl
            exact some length.symm
          have changed := leads.congr chain (likewise_of_ne_nil opened _ _)
          rw [cut (lead ++ (name ++ (spell items ++ pad)) ++ taken) c rest
            (by simp [leads.split]) (by rw [List.length_append, length])]
          rw [← List.append_assoc] at changed
          exact ⟨_, (Outcome.unclosed changed some).rejects⟩
  | @trailing _ lead name items pad rest c leads other =>
      have chain : Chain true items pad ([] ++ c :: more) 0 :=
        leads.chain.congr rfl rfl (.inl rfl)
      have changed := leads.congr chain (.inr rfl)
      rw [cut (lead ++ (name ++ (spell items ++ pad))) c rest (by simp [leads.split]) rfl]
      exact ⟨_, (Outcome.trailing changed other).rejects⟩
  | @behindRemark _ lead name items pad content pad' rest c leads inside line blank other =>
      have chain : Chain true items pad ([] ++ '#' :: (content ++ (pad' ++ c :: more))) 0 :=
        leads.chain.congr rfl rfl (.inl rfl)
      have changed := leads.congr chain (.inr rfl)
      have line' : Stops (· ≠ '\n') (pad' ++ c :: more) :=
        line.congr ((like c rest).append pad')
      rw [cut (lead ++ (name ++ (spell items ++ pad)) ++ '#' :: content ++ pad') c rest
        (by simp [leads.split]) rfl]
      have rejected := (Outcome.behindRemark changed inside line' blank other).rejects
      exact ⟨_, by simpa using rejected⟩

end Halves

/-! ### Error messages -/

/-- Results of reading can be compared, so single lines can be tested. -/
instance : DecidableEq (Except ReadFault Command)
  | .ok command, .ok command' =>
      decidable_of_iff (command = command') ⟨congrArg _, Except.ok.inj⟩
  | .error fault, .error fault' =>
      decidable_of_iff (fault = fault') ⟨congrArg _, Except.error.inj⟩
  | .ok _, .error _ => isFalse fun same => nomatch same
  | .error _, .ok _ => isFalse fun same => nomatch same

/-- A place in a text is told by its index. -/
theorem SyntaxError.PointsInto.found_eq {error : SyntaxError} {text : Text}
    (points : error.PointsInto {} text) :
    error.position.index ≤ text.length ∧ error.found = text[error.position.index]? := by
  obtain ⟨before, behind, rfl, place, found⟩ := points
  rw [found, place]
  simp [List.getElem?_append, List.head?_eq_getElem?]

/-- The message of an error begins with what was found. -/
theorem SyntaxError.describe_isPrefix_detail (error : SyntaxError) :
    describe error.found <+: error.detail := by
  unfold detail
  split
  · exact List.prefix_refl _
  · rw [List.append_assoc]
    exact List.prefix_append _ _

/-- A line that is rejected has an error at some place in it.  No line begins with the
text up to the character at that place and is accepted, and some line begins with the
text in front of it and is accepted.  The message begins with the character that stands
there, or says that nothing does. -/
theorem error_at_longest_viable_prefix {text : Text} {fault : ReadFault}
    (rejected : parseStrict text = .error fault) :
    ∃ error, fault = .malformed error ∧
      error.position.index ≤ text.length ∧
      (error.position.index < text.length → ∀ more command,
        parseStrict (text.take (error.position.index + 1) ++ more) ≠ .ok command) ∧
      (∃ more command, parseStrict (text.take error.position.index ++ more) = .ok command) ∧
      (error.position.index = text.length → "unexpected end of input" <+: error.detail) ∧
      ∀ c, text[error.position.index]? = some c →
        ("unexpected character " : Text) ++ Quoted.char c <+: error.detail := by
  obtain ⟨outcome, found⟩ := exists_outcome text
  cases outcome with
  | ok command =>
      rw [found.accepts] at rejected
      cases rejected
  | error index =>
      obtain ⟨error, parsed, points, rfl⟩ := found.rejects
      rw [parsed] at rejected
      obtain rfl := Except.error.inj rejected
      obtain ⟨bound, char⟩ := points.found_eq
      have described := error.describe_isPrefix_detail
      refine ⟨error, rfl, bound, ?_, exists_completion found, ?_, ?_⟩
      · intro inside more command accepted
        obtain ⟨_, _, refused, _⟩ := rejects_of_take found inside more
        rw [accepted] at refused
        cases refused
      · intro atEnd
        rw [char, List.getElem?_eq_none (Nat.le_of_eq atEnd.symm)] at described
        exact described
      · intro c here
        rw [char, here] at described
        exact described

theorem error_at_longest_viable_prefix_unclosed :
    parseStrict "a -x='b" = .error (.malformed
        { position := { line := 1, column := 8, index := 7 }
          found := none
          expected := some (.char '\x27') }) ∧
      ∃ more command, parseStrict ("a -x='b" ++ more) = .ok command := by
  have rejected : parseStrict "a -x='b" = .error (.malformed
      { position := { line := 1, column := 8, index := 7 }
        found := none
        expected := some (.char '\x27') }) := by decide +kernel
  obtain ⟨error, same, _, _, viable, _⟩ := error_at_longest_viable_prefix rejected
  obtain rfl := ReadFault.malformed.inj same
  exact ⟨rejected, viable⟩

end LineShell
