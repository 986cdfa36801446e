/-
Module: LineShell.Proofs.Syntax.Commands
Purpose: Commands as a name and tokens with gaps between them: every text is read as
  such a command with something behind it, or no name stands at its front.
Main exports: Gap, spell, Chain, exists_chain, takes_moreParameters, commandNode,
  takes_command
-/
import LineShell.Proofs.Syntax.Tokens

namespace LineShell

/-! ### Gaps and chains -/

/-- White space in front of a parameter.  Only in front of the first there may be none. -/
structure Gap (first : Bool) (gap : Text) : Prop where
  blank : ∀ c ∈ gap, isBlank c = true
  some : first = false → gap ≠ []

/-- The text of tokens with their gaps. -/
def spell : List (Text × Token) → Text
  | [] => []
  | (gap, token) :: items => gap ++ (token.text ++ spell items)

/-- Tokens as nodes. -/
def nodesFrom (position : Position) : List (Text × Token) → List Parameter
  | [] => []
  | (gap, token) :: items =>
      let start := position.after gap
      token.node start :: nodesFrom (start.after token.text) items

/-- How a text is read as parameters: the tokens with their gaps, white space behind the
last of them, the rest, and how far into the rest a quote was looked for, zero if none
was. -/
inductive Chain : Bool → List (Text × Token) → Text → Text → Nat → Prop where
  /-- No white space separates the last parameter from what follows. -/
  | adjacent {rest : Text} (stops : Stops isBlank rest) : Chain false [] [] rest 0
  /-- Nothing but a comment can follow. -/
  | done {first : Bool} {pad rest : Text} (gap : Gap first pad)
      (ends : Stops (· ≠ '#') rest) : Chain first [] pad rest 0
  /-- A quote is opened and not closed. -/
  | opened {first : Bool} {pad taken rest : Text} (gap : Gap first pad)
      (opened : Opened taken rest) : Chain first [] pad (taken ++ rest) taken.length
  /-- The same in the value of a switch. -/
  | stuck {first : Bool} {gap : Text} {long : Bool} {name taken rest : Text}
      (before : Gap first gap) (named : Named long name) (opened : Opened taken rest) :
      Chain first [(gap, .unvalued long name)] [] (taken ++ rest) taken.length
  | cons {first : Bool} {gap : Text} {token : Token} {items : List (Text × Token)}
      {pad rest : Text} {open' : Nat} (before : Gap first gap)
      (stands : token.Stands (spell items ++ (pad ++ rest)))
      (others : Chain false items pad rest open') :
      Chain first ((gap, token) :: items) pad rest open'

/-- How far reading came if a quote was looked for behind the cursor. -/
def reachedBehind (cursor open' : Nat) : Nat :=
  if open' = 0 then 0 else cursor + open'

section Chains

variable {first : Bool} {position : Position} {text gap pad rest taken : Text}
  {items : List (Text × Token)} {open' : Nat}

theorem Opened.length_pos (opened : Opened taken rest) : taken.length ≠ 0 := by
  cases opened with
  | single inside => exact Nat.succ_ne_zero _
  | double inside stops open' => exact Nat.succ_ne_zero _

theorem Opened.stops (opened : Opened taken rest) : Stops isBlank (taken ++ rest) := by
  cases opened with
  | single inside => exact stops_cons.mpr (by decide)
  | double inside stops open' => exact stops_cons.mpr (by decide)

theorem head_dashes (long : Bool) (more : Text) :
    ∃ c text, dashes long ++ more = c :: text ∧ startsValue c = true := by
  cases long with
  | false => exact ⟨_, _, rfl, by decide⟩
  | true => exact ⟨_, _, rfl, by decide⟩

/-- A token begins like a value. -/
theorem Token.Stands.head {token : Token} (stands : token.Stands rest) :
    ∃ c text, token.text = c :: text ∧ startsValue c = true := by
  cases stands with
  | @quoted value _ fits marks =>
      cases value with
      | bare word => exact absurd rfl (marks word)
      | single raw => exact ⟨_, _, rfl, by decide⟩
      | double body => exact ⟨_, _, rfl, by decide⟩
  | @word word _ fits ends plain =>
      obtain ⟨c, more, rfl⟩ := List.exists_cons_of_ne_nil fits.1
      exact ⟨c, more, rfl, startsValue_of_isBodyChar (fits.2 c List.mem_cons_self)⟩
  | dangling named ends => exact head_dashes _ _
  | flag named ends unassigned => exact head_dashes _ _
  | assigned named fits ends => exact head_dashes _ _

theorem Token.Stands.text_ne_nil {token : Token} (stands : token.Stands rest) :
    token.text ≠ [] := by
  obtain ⟨c, text, split, -⟩ := stands.head
  rw [split]
  exact List.cons_ne_nil _ _

/-- Behind white space every text is read as parameters. -/
theorem exists_chain_of_gap (others : ∀ rest : Text, rest.length < text.length →
      ∃ items pad rest' open', rest = spell items ++ (pad ++ rest') ∧
        Chain false items pad rest' open')
    (before : Gap first gap) (unpadded : Stops isBlank text) :
    ∃ items pad rest open', gap ++ text = spell items ++ (pad ++ rest) ∧
      Chain first items pad rest open' := by
  rcases exists_token text with ⟨token, rest, rfl, stands⟩ |
    ⟨long, name, taken, rest, rfl, named, opened⟩ | ⟨taken, rest, rfl, opened⟩ | none
  · have shorter : rest.length < (token.text ++ rest).length := by
      have some := List.length_pos_iff.mpr stands.text_ne_nil
      rw [List.length_append]
      omega
    obtain ⟨items, pad, rest', open', rfl, chain⟩ := others rest shorter
    exact ⟨(gap, token) :: items, pad, rest', open', by simp [spell],
      .cons before stands chain⟩
  · exact ⟨_, [], taken ++ rest, _, by simp [spell, Token.text_unvalued],
      .stuck before named opened⟩
  · exact ⟨[], gap, taken ++ rest, _, rfl, .opened before opened⟩
  · have ends : Stops (· ≠ '#') text := by
      intro c first
      have blank := unpadded c first
      have fails := none c first
      simpa [startsValue, blank] using fails
    exact ⟨[], gap, text, 0, rfl, .done before ends⟩

/-- Every text is read as parameters with something behind them. -/
theorem exists_chain (text : Text) :
    ∃ items pad rest open', text = spell items ++ (pad ++ rest) ∧
      Chain false items pad rest open' := by
  induction length : text.length using Nat.strongRecOn generalizing text with
  | ind limit ih =>
      obtain ⟨gap, rest, rfl, blank, stops⟩ := exists_run isBlank text
      cases gap with
      | nil => exact ⟨[], [], rest, 0, rfl, .adjacent stops⟩
      | cons c gap =>
          apply exists_chain_of_gap ?_ ⟨blank, fun _ => List.cons_ne_nil _ _⟩ stops
          intro rest' shorter
          apply ih rest'.length ?_ rest' rfl
          rw [← length, List.length_append]
          omega

/-- Behind the name of a program there need not be white space. -/
theorem exists_chain_first (text : Text) :
    ∃ items pad rest open', text = spell items ++ (pad ++ rest) ∧
      Chain true items pad rest open' := by
  obtain ⟨gap, rest, rfl, blank, stops⟩ := exists_run isBlank text
  exact exists_chain_of_gap (fun rest _ => exists_chain rest)
    ⟨blank, fun no => Bool.noConfusion no⟩ stops

/-- Reading stops in front of something other than white space. -/
theorem Chain.stops (chain : Chain first items pad rest open') : Stops isBlank rest := by
  induction chain with
  | adjacent stops => exact stops
  | done gap ends =>
      intro c head
      obtain rfl : c = '#' := by simpa using ends c head
      rfl
  | opened gap opened => exact opened.stops
  | stuck before named opened => exact opened.stops
  | cons before stands others ih => exact ih

/-! ### Reading parameters -/

theorem takes_skipBlanks (blank : ∀ c ∈ text, isBlank c = true) (stops : Stops isBlank rest) :
    Takes skipBlanks position text rest text.length 0 := by
  apply Takes.seq_last (takes_takeWhile position blank stops)
  exact Takes.pure _ rest _

/-- Where white space is missing, there are no more parameters. -/
theorem takes_moreParameters_adjacent (limit : Nat) (stops : Stops isBlank rest) :
    Takes (moreParameters (limit + 1)) position [] rest [] 0 := by
  have none : Takes skipBlanks position [] rest 0 0 := takes_skipBlanks (by simp) stops
  apply Takes.seq_last none
  exact Takes.pure _ rest _

/-- White space is taken even where no parameter is found behind it. -/
theorem takes_moreParameters_gap (limit : Nat) {reached : Nat} (before : Gap false gap)
    (stops : Stops isBlank rest) (refuses : Refuses parameter (position.after gap) rest reached) :
    Takes (moreParameters (limit + 1)) position gap rest [] reached := by
  apply Takes.seq_last (takes_skipBlanks before.blank stops)
  rw [if_neg (by simpa using before.some rfl)]
  rw [← Nat.max_zero reached]
  exact Takes.bind_nil refuses.attempt (Takes.pure _ rest [])

/-- One parameter more. -/
theorem takes_moreParameters_cons (limit : Nat) {more : Text} {node : Parameter}
    {nodes : List Parameter} {reached reached' : Nat} (before : Gap false gap)
    (stops : Stops isBlank (text ++ (more ++ rest)))
    (takes : Takes parameter (position.after gap) text (more ++ rest) node reached)
    (others : Takes (moreParameters limit) ((position.after gap).after text) more rest nodes
      reached') :
    Takes (moreParameters (limit + 1)) position (gap ++ (text ++ more)) rest (node :: nodes)
      (max reached reached') := by
  rw [← List.append_assoc text] at stops
  apply Takes.seq (takes_skipBlanks before.blank stops)
  rw [if_neg (by simpa using before.some rfl)]
  exact Takes.bind takes.attempt others.bind_pure

theorem Token.Stands.stops {token : Token} (stands : token.Stands rest) :
    Stops isBlank (token.text ++ rest) := by
  obtain ⟨c, text, split, starts⟩ := stands.head
  rw [split]
  exact stops_cons.mpr (isBlank_of_startsValue starts)

theorem stops_unvalued (long : Bool) (name rest : Text) :
    Stops isBlank ((Token.unvalued long name).text ++ rest) := by
  obtain ⟨c, text, split, starts⟩ := head_dashes long (name ++ ['='])
  rw [Token.text_unvalued, split]
  exact stops_cons.mpr (isBlank_of_startsValue starts)

theorem Opened.reachedBehind (opened : Opened taken rest) (cursor : Nat) :
    reachedBehind cursor taken.length = cursor + taken.length :=
  if_neg opened.length_pos

/-- What can only be a comment is no parameter. -/
theorem startsValue_of_remark (ends : Stops (· ≠ '#') rest) : Stops startsValue rest := by
  intro c first
  obtain rfl : c = '#' := by simpa using ends c first
  rfl

theorem isBlank_of_remark (ends : Stops (· ≠ '#') rest) : Stops isBlank rest := by
  intro c first
  obtain rfl : c = '#' := by simpa using ends c first
  rfl

/-- The tokens of a chain are read as parameters. -/
theorem takes_moreParameters (position : Position) (limit : Nat)
    (chain : Chain false items pad rest open')
    (enough : items.length < limit) :
    Takes (moreParameters limit) position (spell items ++ pad) rest (nodesFrom position items)
      (reachedBehind (position.index + (spell items ++ pad).length) open') := by
  generalize same : false = first at chain
  induction chain generalizing position limit with
  | adjacent stops =>
      obtain ⟨limit, rfl⟩ : ∃ less, limit = less + 1 := ⟨limit - 1, by omega⟩
      exact takes_moreParameters_adjacent limit stops
  | done gap ends =>
      obtain ⟨limit, rfl⟩ : ∃ less, limit = less + 1 := ⟨limit - 1, by omega⟩
      subst same
      exact (takes_moreParameters_gap limit gap (isBlank_of_remark ends)
        (refuses_parameter (startsValue_of_remark ends))).settle (by simp)
  | opened gap opened =>
      obtain ⟨limit, rfl⟩ : ∃ less, limit = less + 1 := ⟨limit - 1, by omega⟩
      subst same
      rw [opened.reachedBehind]
      refine (takes_moreParameters_gap limit gap opened.stops
        (refuses_parameter_opened opened)).reaching ?_
      simp [spell]
  | @stuck _ gap long name taken rest before named opened =>
      obtain ⟨limit, rfl⟩ : ∃ less, limit = less + 2 := ⟨limit - 2, by simp at enough; omega⟩
      subst same
      have word : Takes parameter (position.after gap) (Token.unvalued long name).text
          (taken ++ rest) ((Token.unvalued long name).node _) _ :=
        takes_parameter_stuck named opened
      have stops := stops_unvalued long name (taken ++ rest)
      have both : Takes (moreParameters (limit + 2)) position
          (gap ++ ((Token.unvalued long name).text ++ [])) (taken ++ rest) _ _ :=
        takes_moreParameters_cons (limit + 1) before stops word
          (takes_moreParameters_adjacent limit opened.stops)
      rw [List.append_nil] at both
      rw [opened.reachedBehind, List.append_nil, spell, spell, List.append_nil]
      apply both.reaching
      simp [Token.text, Value.text]
      omega
  | @cons _ gap token items pad rest open' before stands others ih =>
      obtain ⟨limit, rfl⟩ : ∃ less, limit = less + 1 := ⟨limit - 1, by omega⟩
      subst same
      have first : Takes parameter (position.after gap) token.text (spell items ++ pad ++ rest)
          (token.node (position.after gap)) 0 := by
        rw [List.append_assoc]
        exact takes_parameter stands
      have stops : Stops isBlank (token.text ++ (spell items ++ pad ++ rest)) := by
        rw [List.append_assoc]
        exact stands.stops
      have behind := ih ((position.after gap).after token.text) limit (by simpa using enough) rfl
      have both := takes_moreParameters_cons limit before stops first behind
      rw [spell, List.append_assoc, List.append_assoc]
      apply both.reaching
      rw [Nat.zero_max]
      congr 1
      simp
      omega

/-- In front of the first token stands its gap and no more white space. -/
theorem Chain.front {token : Token} (chain : Chain first ((gap, token) :: items) pad rest open') :
    Gap first gap ∧ Stops isBlank (token.text ++ (spell items ++ (pad ++ rest))) := by
  cases chain with
  | cons before stands others => exact ⟨before, stands.stops⟩
  | stuck before named opened => exact ⟨before, stops_unvalued _ _ _⟩

theorem Chain.blank (chain : Chain true [] pad rest open') : ∀ c ∈ pad, isBlank c = true := by
  cases chain with
  | done gap ends => exact gap.blank
  | opened gap opened => exact gap.blank

/-- No token is empty. -/
theorem Chain.length_le (chain : Chain first items pad rest open') :
    items.length ≤ (spell items).length := by
  induction chain with
  | adjacent stops => exact Nat.le_refl _
  | done gap ends => exact Nat.le_refl _
  | opened gap opened => exact Nat.le_refl _
  | @stuck _ gap long name taken rest before named opened =>
      have some := List.length_pos_iff.mpr (fits_dangling named).1
      simp only [spell, Token.text_unvalued, List.length_append, List.length_cons] at some ⊢
      omega
  | @cons _ gap token items pad rest open' before stands others ih =>
      have some := List.length_pos_iff.mpr stands.text_ne_nil
      simp only [spell, List.length_append, List.length_cons]
      omega

/-- The first parameter and all others. -/
theorem takes_parameters_of {token : Token} {reached : Nat}
    (takes : Takes parameter position token.text (spell items ++ (pad ++ rest))
      (token.node position) reached)
    (chain : Chain false items pad rest open') :
    Takes parameters position (token.text ++ (spell items ++ pad)) rest
      { params := token.node position :: nodesFrom (position.after token.text) items
        span :=
          { start := position
            stop := position.after (token.text ++ (spell items ++ pad)) } }
      (max reached
        (reachedBehind (position.index + (token.text ++ (spell items ++ pad)).length)
          open')) := by
  rw [← List.append_assoc] at takes
  have enough : items.length < (spell items ++ pad ++ rest).length + 1 := by
    have := chain.length_le
    simp only [List.length_append]
    omega
  have others : Takes (moreParameters ((spell items ++ pad ++ rest).length + 1))
      (position.after token.text) (spell items ++ pad) rest
      (nodesFrom (position.after token.text) items)
      (reachedBehind (position.index + (token.text ++ (spell items ++ pad)).length)
        open') := by
    apply (takes_moreParameters _ _ chain enough).reaching
    rw [Position.after_index, List.length_append, List.length_append, List.length_append,
      Nat.add_assoc]
  apply takes_from_here
  apply Takes.bind takes
  intro memory
  have node := others.closing (fun others span =>
    { params := token.node position :: others, span := span : Parameters }) position
  rw [← Position.after_append] at node
  exact node memory

/-- The tokens from the first on, behind the gap in front of it. -/
theorem takes_parameters {token : Token} (position : Position)
    (chain : Chain first ((gap, token) :: items) pad rest open') :
    Takes parameters position (token.text ++ (spell items ++ pad)) rest
      { params := token.node position :: nodesFrom (position.after token.text) items
        span :=
          { start := position
            stop := position.after (token.text ++ (spell items ++ pad)) } }
      (reachedBehind (position.index + (token.text ++ (spell items ++ pad)).length) open') := by
  cases chain with
  | cons before stands others =>
      exact (takes_parameters_of (takes_parameter stands) others).reaching (Nat.zero_max _)
  | @stuck _ gap long name taken more before named opened =>
      have word : Takes parameter position (Token.unvalued long name).text (taken ++ more)
          ((Token.unvalued long name).node position) _ := takes_parameter_stuck named opened
      have both : Takes parameters position ((Token.unvalued long name).text ++ (spell [] ++ []))
          (taken ++ more) _ _ := takes_parameters_of word (.adjacent opened.stops)
      apply both.reaching
      rw [opened.reachedBehind]
      simp [reachedBehind, spell]

end Chains

/-! ### Commands -/

/-- A command as a node, from its name on. -/
def commandNode (position : Position) (name : Text) (items : List (Text × Token))
    (pad : Text) : Command :=
  let behind := position.after name
  let stop := behind.after (spell items ++ pad)
  { program :=
      { id := { name := name, span := { start := position, stop := behind } }
        span := { start := position, stop := behind } }
    parameters :=
      match items with
      | [] => none
      | (gap, _) :: _ =>
          some
            { params := nodesFrom behind items
              span := { start := behind.after gap, stop := stop } }
    span := { start := position, stop := stop } }

/-- How a text is read as a command: white space, the name of a program, parameters, and
the rest. -/
structure Leads (text lead name : Text) (items : List (Text × Token)) (pad rest : Text)
    (open' : Nat) : Prop where
  split : text = lead ++ (name ++ (spell items ++ (pad ++ rest)))
  blank : ∀ c ∈ lead, isBlank c = true
  some : name ≠ []
  all : ∀ c ∈ name, isLooseNameChar c = true
  stops : Stops isLooseNameChar (spell items ++ (pad ++ rest))
  chain : Chain true items pad rest open'

/-- No white space stands in front of a name. -/
theorem stops_name {name rest : Text} (some : name ≠ [])
    (all : ∀ c ∈ name, isLooseNameChar c = true) : Stops isBlank (name ++ rest) := by
  obtain ⟨c, more, rfl⟩ := List.exists_cons_of_ne_nil some
  exact stops_cons.mpr (isBlank_of_isLooseNameChar (all c List.mem_cons_self))

/-- Every text is read as a command with something behind it, or it has no name. -/
theorem exists_leads (text : Text) :
    (∃ lead name items pad rest open', Leads text lead name items pad rest open') ∨
      ∃ lead rest, text = lead ++ rest ∧ (∀ c ∈ lead, isBlank c = true) ∧
        Stops isBlank rest ∧ Stops isLooseNameChar rest := by
  obtain ⟨lead, rest, rfl, blank, unpadded⟩ := exists_run isBlank text
  obtain ⟨name, rest, rfl, all, stops⟩ := exists_run isLooseNameChar rest
  cases name with
  | nil => exact .inr ⟨lead, rest, rfl, blank, unpadded, stops⟩
  | cons c name =>
      obtain ⟨items, pad, rest, open', rfl, chain⟩ := exists_chain_first rest
      exact .inl ⟨lead, c :: name, items, pad, rest, open', rfl, blank,
        List.cons_ne_nil _ _, all, stops, chain⟩

section Commands

variable {position : Position} {text lead name pad rest : Text}
  {items : List (Text × Token)} {open' : Nat}

theorem takes_programName (some : name ≠ []) (all : ∀ c ∈ name, isLooseNameChar c = true)
    (stops : Stops isLooseNameChar rest) :
    Takes programName position name rest
      { id := { name := name, span := { start := position, stop := position.after name } }
        span := { start := position, stop := position.after name } } 0 := by
  apply takes_from_here
  apply Takes.seq_last (takes_nameOf .name all some stops)
  exact takes_node _ position _ rest

/-- The first parameter is missing. -/
theorem refuses_parameters (position : Position) (chain : Chain true [] pad rest open') :
    Refuses parameters position rest
      (max position.index (reachedBehind position.index open')) := by
  apply refuses_from_here
  apply Refuses.bind
  cases chain with
  | done gap ends =>
      exact (refuses_parameter (startsValue_of_remark ends)).reaching (Nat.max_zero _).symm
  | opened gap opened =>
      rw [opened.reachedBehind]
      exact (refuses_parameter_opened opened).reaching (by omega)

theorem takes_command (some : name ≠ []) (all : ∀ c ∈ name, isLooseNameChar c = true)
    (stops : Stops isLooseNameChar (spell items ++ (pad ++ rest)))
    (chain : Chain true items pad rest open') :
    Takes command position (name ++ (spell items ++ pad)) rest
      (commandNode position name items pad)
      (reachedBehind (position.index + (name ++ (spell items ++ pad)).length) open') := by
  have unpadded := chain.stops
  let program : ProgramName :=
    { id := { name := name, span := { start := position, stop := position.after name } }
      span := { start := position, stop := position.after name } }
  let node (parameters : Option Parameters) (span : Span) : Command :=
    { program := program, parameters := parameters, span := span }
  rw [← List.append_assoc] at stops
  apply takes_from_here
  apply Takes.seq (takes_programName some all stops)
  cases items with
  | nil =>
      have refuses := refuses_parameters ((position.after name).after pad) chain
      have closing := refuses.attempt.closing node position
      apply Takes.seq_last (takes_skipBlanks chain.blank unpadded).map
      by_cases closed : open' = 0
      · subst closed
        exact closing.settle (by simp [reachedBehind])
      · apply closing.reaching
        simp [reachedBehind, closed, spell]
        omega
  | cons item items =>
      obtain ⟨gap, token⟩ := item
      obtain ⟨before, behind⟩ := chain.front
      have params := takes_parameters ((position.after name).after gap) chain
      have closing := params.attempt.closing node position
      have stop : (position.after name).after (spell ((gap, token) :: items) ++ pad) =
          ((position.after name).after gap).after (token.text ++ (spell items ++ pad)) := by
        rw [spell, List.append_assoc, List.append_assoc, Position.after_append _ gap]
      rw [commandNode]
      simp only [stop]
      rw [spell, List.append_assoc, List.append_assoc]
      rw [← List.append_assoc (spell items), ← List.append_assoc token.text] at behind
      apply Takes.seq (takes_skipBlanks before.blank behind).map
      apply closing.reaching
      congr 1
      simp
      omega

end Commands

end LineShell
