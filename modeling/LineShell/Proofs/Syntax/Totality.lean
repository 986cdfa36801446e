/-
Module: LineShell.Proofs.Syntax.Totality
Purpose: Reading always comes to an end, never takes a character that is not there, and fails
  for want of a name only: every round of a loop takes something or is the last one.
Main exports: Consumes, Progresses, rounds, oneMore, nextParameter, GrammarLoop,
  progresses_of_grammarLoop, rounds_of_enough, loop_eq_rounds, parse_error_iff,
  reading_never_runs_out
-/
import LineShell.Proofs.Syntax.Recovery
import LineShell.Proofs.Syntax.Remainder

namespace LineShell

/-!
A character is taken without a look at whether there is one, and every rule that takes one has
looked before.  A rule that runs off the end would take all rules around it along, since only
syntax errors are caught.  That leaves the loops.  Each goes round until a round yields
nothing, and a round that yields something has taken something, so the characters run out
before any bound on the rounds does.
-/

/-! ### Rules that take something -/

/-- A rule that has taken at least one character when it succeeds. -/
def Consumes {α : Type} (rule : Rule α) : Prop :=
  ∀ before value after, rule before = .ok value after → after.rest.length < before.rest.length

/-- A rule for lists that has taken at least one character when the list has elements. -/
def Gathers {α : Type} (rule : Rule (List α)) : Prop :=
  ∀ before items after, rule before = .ok items after → items ≠ [] →
    after.rest.length < before.rest.length

theorem Reader.Onward.length_le {before after : Reader} (onward : before.Onward after) :
    after.rest.length ≤ before.rest.length := by
  obtain ⟨taken, split, -⟩ := onward
  rw [split, List.length_append]
  exact Nat.le_add_left _ _

section Composition

variable {α β : Type} {rule : Rule α} {next : α → Rule β} {failed : Reader → Reader → Prop}
  {before after : Reader} {result : β}

theorem exists_of_run_bind (ran : (rule >>= next) before = .ok result after) :
    ∃ value between, rule before = .ok value between ∧ next value between = .ok result after := by
  cases first : rule before with
  | ok value between => exact ⟨value, between, rfl, (run_bind_ok first).symm.trans ran⟩
  | error fault between =>
      rw [run_bind_error first] at ran
      cases ran

/-- What follows depends on how the first rule ends only. -/
theorem run_bind_congr {rule' : Rule α} (same : rule before = rule' before) :
    (rule >>= next) before = (rule' >>= next) before := by
  change EStateM.bind rule next before = EStateM.bind rule' next before
  rw [EStateM.bind, EStateM.bind, same]

theorem Settles.length_le (settles : Settles failed rule) {value : α}
    (ran : rule before = .ok value after) : after.rest.length ≤ before.rest.length := by
  have ends := settles before
  rw [ran] at ends
  exact Reader.Onward.length_le ends

/-- What has been taken stays taken. -/
theorem Consumes.bind (first : Consumes rule) (second : ∀ value, Advances (next value)) :
    Consumes (rule >>= next) := by
  intro before result after ran
  obtain ⟨value, between, ran, ran'⟩ := exists_of_run_bind ran
  exact Nat.lt_of_le_of_lt ((second value).length_le ran') (first _ _ _ ran)

theorem Consumes.map {change : α → β} (consumes : Consumes rule) : Consumes (change <$> rule) := by
  intro before result after ran
  cases first : rule before with
  | ok value between =>
      rw [run_map_ok first] at ran
      cases ran
      exact consumes _ _ _ first
  | error fault between =>
      rw [run_map_error first] at ran
      cases ran

/-- Where an empty list is a failure, success has taken something. -/
theorem Gathers.bind {rule : Rule (List α)} {next : List α → Rule β} (gathers : Gathers rule)
    (collects : Collects rule) (empty : Consumes (next []))
    (others : ∀ items, items ≠ [] → Sure (next items)) : Consumes (rule >>= next) := by
  intro before result after ran
  obtain ⟨items, between, found, ran⟩ := exists_of_run_bind ran
  by_cases none : items = []
  · subst none
    obtain ⟨items', between', found', onward, -⟩ := collects before
    cases found.symm.trans found'
    exact Nat.lt_of_lt_of_le (empty _ _ _ ran) onward.length_le
  · exact Nat.lt_of_le_of_lt ((others items none).length_le ran) (gathers _ _ _ found none)

/-- Going back is for rules that fail. -/
theorem Consumes.restoring (consumes : Consumes rule) : Consumes (restoring rule) := by
  intro before value after ran
  cases first : rule before with
  | ok value between =>
      rw [LineShell.restoring, run_tryCatch_ok first] at ran
      cases ran
      exact consumes _ _ _ first
  | error fault between =>
      rw [LineShell.restoring, run_tryCatch_error first] at ran
      cases ran

/-- A rule that is tried succeeds as it would by itself, or the cursor is put back. -/
theorem exists_of_attempt (advances : Advances rule) (before : Reader) :
    (∃ value after, rule before = .ok value after ∧
        attempt rule before = .ok (some value) after) ∨
      ∃ after, attempt rule before = .ok none after ∧ before.Stays after := by
  have ends := advances before
  cases ran : rule before with
  | ok value after => exact .inl ⟨value, after, rfl, run_tryCatch_ok (run_map_ok ran)⟩
  | error fault after =>
      rw [ran] at ends
      obtain ⟨⟨error, rfl⟩, -⟩ := ends
      exact .inr ⟨_, run_tryCatch_error (run_map_error ran), rfl, rfl⟩

/-- A choice takes what the chosen alternative takes. -/
theorem consumes_firstOf (expectation : Expectation) {rules : List (Rule α)}
    (each : ∀ rule ∈ rules, Consumes rule ∧ Advances rule) :
    Consumes (firstOf expectation rules) := by
  induction rules with
  | nil =>
      intro before value after ran
      cases ran
  | cons rule others ih =>
      obtain ⟨⟨consumes, advances⟩, each⟩ := List.forall_mem_cons.mp each
      intro before value after ran
      rw [firstOf] at ran
      rcases exists_of_attempt advances before with ⟨found, between, alone, tried⟩ |
        ⟨between, tried, stays⟩
      · rw [run_bind_ok tried] at ran
        cases ran
        exact consumes _ _ _ alone
      · rw [run_bind_ok tried] at ran
        rw [← stays.rest]
        exact ih each _ _ _ ran

theorem consumes_from_here {next : Position → Rule α}
    (consumes : ∀ position, Consumes (next position)) : Consumes (here >>= next) :=
  fun before => consumes before.position before

theorem consumes_from_get {next : Reader → Rule α} (consumes : ∀ reader, Consumes (next reader)) :
    Consumes (get >>= next) :=
  fun before => consumes before before

theorem consumes_fail (expectation : Expectation) : Consumes (fail expectation : Rule α) := by
  intro before value after ran
  cases ran

end Composition

/-! ### The rules between two rounds -/

/-- A character that is expected and found is taken. -/
theorem consumes_expect (c : Char) : Consumes (expect c) := by
  intro before value after ran
  change (if before.rest.head? = some c then discard advance else fail (.char c) : Rule Unit)
    before = _ at ran
  split at ran
  · next first =>
      obtain ⟨rest, front⟩ := List.head?_eq_some_iff.mp first
      rw [run_discard_advance front] at ran
      cases ran
      rw [front]
      exact Nat.lt_succ_self _
  · cases ran

theorem gathers_takeWhile (test : Char → Bool) : Gathers (takeWhile test) := by
  intro before run after ran some
  cases ran
  have split := congrArg List.length
    (List.takeWhile_append_dropWhile (p := test) (l := before.rest))
  have taken := List.length_pos_iff.mpr some
  rw [List.length_append] at split
  dsimp only at taken ⊢
  omega

theorem consumes_reference : Consumes reference := by
  refine Consumes.restoring (consumes_from_here fun start => ?_)
  refine (consumes_expect '$').bind fun _ => ?_
  exact restores_identifier.advances.bind_sure fun id => sure_node _ start

theorem consumes_templateLiteral (quoted : Bool) : Consumes (templateLiteral quoted) := by
  refine consumes_from_here fun start => ?_
  refine (gathers_takeWhile _).bind (collects_takeWhile _) ?_ fun run some => ?_
  · exact consumes_fail .text
  · rw [if_neg (by simpa using some)]
    exact sure_node _ start

theorem consumes_singleDollar : Consumes singleDollar :=
  consumes_from_here fun start => (consumes_expect '$').bind fun _ => (sure_node _ start).settles

theorem consumes_templatePart (quoted : Bool) : Consumes (templatePart quoted) := by
  refine consumes_firstOf .templatePart (forall_mem_three ?_ ?_ ?_)
  · exact ⟨(consumes_templateLiteral quoted).map, (restores_templateLiteral quoted).advances.map⟩
  · exact ⟨consumes_reference.map, restores_reference.advances.map⟩
  · exact ⟨consumes_singleDollar.map, restores_singleDollar.advances.map⟩

/-- Where there is one part, something was taken. -/
theorem gathers_templateParts (quoted : Bool) (limit : Nat) :
    Gathers (templateParts quoted limit) := by
  intro before parts after ran some
  cases limit with
  | zero =>
      cases ran
      exact absurd rfl some
  | succ limit =>
      rw [templateParts] at ran
      rcases exists_of_attempt (restores_templatePart quoted).advances before with
        ⟨part, between, alone, tried⟩ | ⟨between, tried, stays⟩
      · rw [run_bind_ok tried] at ran
        obtain ⟨others, behind, ran, last⟩ := exists_of_run_bind ran
        obtain ⟨others', behind', ran', onward, -⟩ := collects_templateParts quoted limit between
        cases last
        cases ran.symm.trans ran'
        exact Nat.lt_of_le_of_lt onward.length_le (consumes_templatePart quoted _ _ _ alone)
      · rw [run_bind_ok tried] at ran
        cases ran
        exact absurd rfl some

theorem consumes_unquoted : Consumes unquoted := by
  refine Consumes.map (consumes_from_here fun start => consumes_from_get fun reader => ?_)
  refine (gathers_templateParts false _).bind (collects_templateParts false _) ?_
    fun parts some => ?_
  · exact consumes_fail .template
  · rw [if_neg (by simp [some])]
    exact sure_node _ start

theorem consumes_singleQuoted : Consumes singleQuoted := by
  refine Consumes.restoring ((consumes_expect '\x27').bind fun _ => ?_)
  refine Advances.bind sure_rawText.settles fun raw => ?_
  exact (restores_expect '\x27').advances.bind_sure fun _ => sure_pure _

theorem consumes_doubleQuoted : Consumes doubleQuoted := by
  refine Consumes.restoring ((consumes_expect '"').bind fun _ => ?_)
  refine (restores_templateBody true).advances.bind fun body => ?_
  exact (restores_expect '"').advances.bind_sure fun _ => sure_pure _

theorem consumes_template : Consumes template := by
  refine consumes_firstOf .template (forall_mem_three ?_ ?_ ?_)
  · exact ⟨consumes_singleQuoted, restores_singleQuoted.advances⟩
  · exact ⟨consumes_doubleQuoted, restores_doubleQuoted.advances⟩
  · exact ⟨consumes_unquoted, restores_unquoted.advances⟩

theorem consumes_shortSwitch : Consumes shortSwitch := by
  refine Consumes.restoring ((consumes_expect '-').bind fun _ => settles_from_peek fun first => ?_)
  split
  · exact (restores_fail .switchName).advances
  · exact advances_switch.bind_sure fun _ => sure_pure _

theorem consumes_longSwitch : Consumes longSwitch := by
  refine Consumes.restoring ((consumes_expect '-').bind fun _ => ?_)
  refine (restores_expect '-').advances.bind fun _ => ?_
  exact advances_switch.bind_sure fun _ => sure_pure _

theorem consumes_literal : Consumes literal :=
  consumes_from_here fun start => consumes_template.bind fun _ => (sure_node _ start).settles

theorem consumes_parameter : Consumes parameter := by
  refine consumes_from_here fun start => Consumes.bind ?_ fun _ => (sure_node _ start).settles
  refine consumes_firstOf .parameter (forall_mem_three ?_ ?_ ?_)
  · exact ⟨consumes_shortSwitch, restores_shortSwitch.advances⟩
  · exact ⟨consumes_longSwitch, restores_longSwitch.advances⟩
  · exact ⟨consumes_literal, restores_literal.advances⟩

/-! ### Loops -/

/-- A round of a loop: wherever it is called it comes to an end, and if it yields something,
so that another round follows, at least one character is taken. -/
def Progresses {α : Type} (round : Rule (Option α)) : Prop :=
  ∀ before, ∃ found after, round before = .ok found after ∧ before.Onward after ∧
    (found ≠ none → after.rest.length < before.rest.length)

/-- Rounds until one yields nothing, at most `limit` of them. -/
def rounds {α : Type} (round : Rule (Option α)) : (limit : Nat) → Rule (List α)
  | 0 => return []
  | limit + 1 => do
      match ← round with
      | none => return []
      | some item => return item :: (← rounds round limit)

/-- One round of taking a run: a look at the next character, and if it passes the test, a step
behind it. -/
def oneMore (test : Char → Bool) : Rule (Option Char) := do
  match ← peek with
  | none => return none
  | some c => if test c then some <$> advance else return none

/-- One round of reading parameters: white space, and a parameter behind it. -/
def nextParameter : Rule (Option Parameter) := do
  if (← skipBlanks) = 0 then
    return none
  else
    attempt parameter

/-- The loops of the grammar, each with what it does in one round. -/
inductive GrammarLoop : {α : Type} → Rule (Option α) → Rule (List α) → Prop where
  /-- Runs of characters: white space, names, text in bodies and in quotes, and comments. -/
  | run (test : Char → Bool) : GrammarLoop (oneMore test) (takeWhile test)
  | parts (quoted : Bool) :
      GrammarLoop (attempt (templatePart quoted))
        (do templateParts quoted ((← get).rest.length + 1))
  | parameters : GrammarLoop nextParameter (do moreParameters ((← get).rest.length + 1))

section Loops

variable {α : Type} {round : Rule (Option α)} {loop : Rule (List α)} {before : Reader}
  {limit limit' : Nat}

theorem Consumes.progresses {rule : Rule α} (consumes : Consumes rule)
    (advances : Advances rule) : Progresses (attempt rule) := by
  intro before
  rcases exists_of_attempt advances before with ⟨found, after, alone, tried⟩ |
    ⟨after, tried, stays⟩
  · have ends := advances before
    rw [alone] at ends
    exact ⟨some found, after, tried, ends, fun _ => consumes _ _ _ alone⟩
  · exact ⟨none, after, tried, stays.onward, fun no => absurd rfl no⟩

/-- Where no character passes, none is taken: at the end of the text as well. -/
theorem run_oneMore_stop {test : Char → Bool} (stops : Stops test before.rest) :
    oneMore test before = .ok none before := by
  rw [oneMore, run_bind_ok (show peek before = .ok before.rest.head? before from rfl)]
  cases first : before.rest.head? with
  | none => rfl
  | some c =>
      dsimp only
      rw [if_neg (by simp [stops c first])]
      rfl

theorem run_oneMore {test : Char → Bool} {c : Char} {rest : Text} (front : before.rest = c :: rest)
    (passes : test c = true) : oneMore test before = .ok (some c) (before.pop c rest) := by
  rw [oneMore, run_bind_ok (show peek before = .ok before.rest.head? before from rfl), front]
  dsimp only [List.head?_cons]
  rw [if_pos passes]
  obtain ⟨_, position, furthest⟩ := before
  subst front
  rfl

/-- Either the run is over, or its next character is there to be taken. -/
theorem stops_or_passes (test : Char → Bool) (text : Text) :
    Stops test text ∨ ∃ c rest, text = c :: rest ∧ test c = true := by
  cases text with
  | nil => exact .inl stops_nil
  | cons c rest =>
      cases passes : test c with
      | false => exact .inl (stops_cons.mpr passes)
      | true => exact .inr ⟨c, rest, rfl, passes⟩

theorem progresses_oneMore (test : Char → Bool) : Progresses (oneMore test) := by
  intro before
  rcases stops_or_passes test before.rest with stops | ⟨c, rest, front, passes⟩
  · exact ⟨none, before, run_oneMore_stop stops, .refl before, fun no => absurd rfl no⟩
  · refine ⟨some c, before.pop c rest, run_oneMore front passes, ⟨[c], front, rfl⟩, fun _ => ?_⟩
    rw [front]
    exact Nat.lt_succ_self _

theorem progresses_nextParameter : Progresses nextParameter := by
  intro before
  obtain ⟨blanks, between, ran, onward⟩ := sure_skipBlanks.ends before
  rw [nextParameter, run_bind_ok ran]
  by_cases adjacent : blanks = 0
  · rw [if_pos adjacent]
    exact ⟨none, between, rfl, onward, fun no => absurd rfl no⟩
  · rw [if_neg adjacent]
    obtain ⟨found, after, tried, behind, shorter⟩ :=
      consumes_parameter.progresses restores_parameter.advances between
    exact ⟨found, after, tried, onward.trans behind, fun some =>
      Nat.lt_of_lt_of_le (shorter some) onward.length_le⟩

/-- Every loop of the grammar makes progress in each of its rounds. -/
theorem progresses_of_grammarLoop (grammar : GrammarLoop round loop) : Progresses round := by
  cases grammar with
  | run test => exact progresses_oneMore test
  | parts quoted =>
      exact (consumes_templatePart quoted).progresses (restores_templatePart quoted).advances
  | parameters => exact progresses_nextParameter

/-- The characters run out before the rounds do, so it is the loop that ends and not the
bound on it. -/
theorem rounds_of_enough (progresses : Progresses round) (enough : before.rest.length < limit)
    (enough' : before.rest.length < limit') :
    rounds round limit before = rounds round limit' before := by
  induction limit generalizing before limit' with
  | zero => exact absurd enough (Nat.not_lt_zero _)
  | succ limit ih =>
      obtain ⟨limit', rfl⟩ : ∃ less, limit' = less + 1 := ⟨limit' - 1, by omega⟩
      obtain ⟨found, between, ran, -, shorter⟩ := progresses before
      rw [rounds, rounds, run_bind_ok ran, run_bind_ok ran]
      cases found with
      | none => rfl
      | some item =>
          have less := shorter (Option.some_ne_none item)
          have same := ih (by omega : between.rest.length < limit)
            (by omega : between.rest.length < limit')
          exact run_bind_congr same

/-- Taking a run is a loop of looks and steps. -/
theorem takeWhile_eq_rounds (test : Char → Bool) (enough : before.rest.length < limit) :
    takeWhile test before = rounds (oneMore test) limit before := by
  induction limit generalizing before with
  | zero => exact absurd enough (Nat.not_lt_zero _)
  | succ limit ih =>
      obtain ⟨text, position, furthest⟩ := before
      rw [rounds]
      rcases stops_or_passes test text with stops | ⟨c, rest, rfl, passes⟩
      · have nothing : ([] ++ text).takeWhile test = [] ∧ ([] ++ text).dropWhile test = text :=
          takeWhile_run (by simp) stops
        rw [List.nil_append] at nothing
        rw [run_bind_ok (run_oneMore_stop stops)]
        change EStateM.Result.ok _ _ = _
        dsimp only
        rw [nothing.1, nothing.2]
        rfl
      · have passed : test c := passes
        have others : takeWhile test (Reader.pop ⟨c :: rest, position, furthest⟩ c rest) =
            rounds (oneMore test) limit _ := ih (Nat.lt_of_succ_lt_succ enough)
        rw [run_bind_ok (run_oneMore rfl passes)]
        refine .trans ?_ (run_bind_ok others.symm).symm
        change EStateM.Result.ok _ _ = EStateM.Result.ok _ _
        dsimp only [Reader.pop]
        rw [List.takeWhile_cons_of_pos passed, List.dropWhile_cons_of_pos passed]
        rfl

theorem templateParts_eq_rounds (quoted : Bool) (limit : Nat) :
    templateParts quoted limit = rounds (attempt (templatePart quoted)) limit := by
  induction limit with
  | zero => rfl
  | succ limit ih =>
      rw [templateParts, rounds, ih]
      refine congrArg (attempt (templatePart quoted) >>= ·) (funext fun found => ?_)
      cases found <;> rfl

theorem moreParameters_eq_rounds (limit : Nat) :
    moreParameters limit = rounds nextParameter limit := by
  induction limit with
  | zero => rfl
  | succ limit ih =>
      rw [moreParameters, rounds, ih, nextParameter, bind_assoc]
      refine congrArg (skipBlanks >>= ·) (funext fun blanks => ?_)
      split
      · rw [pure_bind]
      · refine congrArg (attempt parameter >>= ·) (funext fun found => ?_)
        cases found <;> rfl

/-- A loop of the grammar is its rounds, one after the other until one yields nothing. -/
theorem loop_eq_rounds (grammar : GrammarLoop round loop) (enough : before.rest.length < limit) :
    loop before = rounds round limit before := by
  have plenty : before.rest.length < before.rest.length + 1 := Nat.lt_succ_self _
  cases grammar with
  | run test => exact takeWhile_eq_rounds test enough
  | parts quoted =>
      have bounded := rounds_of_enough (progresses_of_grammarLoop (.parts quoted)) plenty enough
      rw [← templateParts_eq_rounds] at bounded
      exact bounded
  | parameters =>
      have bounded := rounds_of_enough progresses_nextParameter plenty enough
      rw [← moreParameters_eq_rounds] at bounded
      exact bounded

end Loops

/-! ### How reading can end -/

section Faults

variable {α : Type} {rule : Rule α} {before after : Reader}

/-- Only a syntax error counts as no result. -/
theorem attempt_pastEnd (ran : rule before = .error .pastEnd after) :
    ∃ after, attempt rule before = .error .pastEnd after :=
  ⟨_, run_tryCatch_error (run_map_error ran)⟩

/-- Going back is no remedy. -/
theorem restoring_pastEnd (ran : rule before = .error .pastEnd after) :
    ∃ after, restoring rule before = .error .pastEnd after :=
  ⟨_, run_tryCatch_error ran⟩

theorem Settles.ne_pastEnd {failed : Reader → Reader → Prop} (settles : Settles failed rule) :
    rule before ≠ .error .pastEnd after := by
  intro ran
  have ends := settles before
  rw [ran] at ends
  obtain ⟨⟨error, no⟩, -⟩ := ends
  cases no

end Faults

section Texts

variable {text lead name tail : Text}

/-- The longest run of name characters behind the white space at the front of a text. -/
def leadingName (text : Text) : Text :=
  (text.dropWhile isBlank).takeWhile isLooseNameChar

/-- Reading fails, with a syntax error, if there is no name, and if there is one it is that of
the command. -/
theorem parse_by_name (text : Text) :
    (leadingName text = [] ∧ ∃ error, parse text = .error (.malformed error)) ∨
      leadingName text ≠ [] ∧ ∃ command rest, parse text = .ok (command, rest) ∧
        command.name = leadingName text := by
  rcases exists_leads text with ⟨lead, name, items, pad, behind, open', leads⟩ |
    ⟨lead, rest, rfl, blank, unpadded, stops⟩
  · have named : leadingName text = name := by
      rw [leadingName, leads.split, (takeWhile_run leads.blank (stops_name leads.some leads.all)).2,
        (takeWhile_run leads.all leads.stops).1]
    obtain ⟨remark, left, trails⟩ := exists_trails behind
    obtain ⟨reached, takes⟩ := takes_leadingCommand_trails leads trails
    have parsed := parse_of_takes takes
    rw [← leads.split_at trails] at parsed
    rw [named]
    exact .inr ⟨leads.some, _, left, parsed, rfl⟩
  · have unnamed : leadingName (lead ++ rest) = ([] ++ rest).takeWhile isLooseNameChar := by
      rw [leadingName, (takeWhile_run blank unpadded).2, List.nil_append]
    rw [unnamed, (takeWhile_run (by simp) stops).1]
    exact .inl ⟨rfl, parse_of_refuses (refuses_leadingCommand blank unpadded stops)⟩

/-- There is no name where the first character behind the white space is missing or is none of
a name. -/
theorem leadingName_eq_nil_iff :
    leadingName text = [] ↔ Stops isLooseNameChar (text.dropWhile isBlank) := by
  constructor
  · intro none
    exact stops_of_takeWhile_isEmpty (List.isEmpty_iff.mpr none)
  · intro stops
    have nothing : ([] ++ text.dropWhile isBlank).takeWhile isLooseNameChar = [] :=
      (takeWhile_run (by simp) stops).1
    exact nothing

/-- Reading fails exactly where no name begins behind the white space at the front. -/
theorem parse_error_iff (text : Text) :
    (∃ fault, parse text = .error fault) ↔ Stops isLooseNameChar (text.dropWhile isBlank) := by
  rw [← leadingName_eq_nil_iff]
  rcases parse_by_name text with ⟨unnamed, error, fails⟩ | ⟨named, command, rest, parses, -⟩
  · exact ⟨fun _ => unnamed, fun _ => ⟨_, fails⟩⟩
  · constructor
    · rintro ⟨fault, fails⟩
      cases parses.symm.trans fails
    · exact fun unnamed => absurd unnamed named

/-- Behind white space and a name nothing makes reading fail. -/
theorem parses_of_name (blank : IsBlank lead) (isName : IsName name) (tail : Text) :
    ∃ command rest, parse (lead ++ (name ++ tail)) = .ok (command, rest) ∧
      name <+: command.name := by
  have run : leadingName (lead ++ (name ++ tail)) = name ++ tail.takeWhile isLooseNameChar := by
    rw [leadingName, (takeWhile_run blank (stops_name isName.1 isName.2)).2,
      List.takeWhile_append_of_pos isName.2]
  rcases parse_by_name (lead ++ (name ++ tail)) with ⟨unnamed, -⟩ |
    ⟨-, command, rest, parses, named⟩
  · rw [run] at unnamed
    exact absurd (List.append_eq_nil_iff.mp unnamed).1 isName.1
  · refine ⟨command, rest, parses, ?_⟩
    rw [named, run]
    exact List.prefix_append _ _

theorem malformed_of_parse {fault : ReadFault} (fails : parse text = .error fault) :
    ∃ error, fault = .malformed error := by
  rcases parse_by_name text with ⟨-, error, fails'⟩ | ⟨-, command, rest, parses, -⟩
  · exact ⟨error, Except.error.inj (fails.symm.trans fails')⟩
  · cases parses.symm.trans fails

theorem malformed_of_parseStrict {fault : ReadFault} (fails : parseStrict text = .error fault) :
    ∃ error, fault = .malformed error := by
  obtain ⟨outcome, is⟩ := exists_outcome text
  cases outcome with
  | error index =>
      obtain ⟨error, rejects, -⟩ := is.rejects
      exact ⟨error, Except.error.inj (fails.symm.trans rejects)⟩
  | ok command => cases fails.symm.trans is.accepts

/-- A character is never taken where there is none, and nothing but a missing name makes
reading fail.

A rule that would take a character at the end of the text ends in a fault that no other rule
catches, and neither way of reading a text, nor any rule wherever it is called, ends in it:
where they fail, it is with a syntax error.  Reading a text as far as it goes fails exactly if
the first character that is not white space is missing or is none of a name, so no text behind
a name, however malformed, makes it fail.  And every loop is a row of rounds that come to an
end, of which each but the last takes at least one character. -/
theorem reading_never_runs_out (text : Text) :
    (∀ fault, parse text = .error fault ∨ parseStrict text = .error fault →
        ∃ error, fault = .malformed error) ∧
      (∀ {α : Type} {rule : Rule α} {before after : Reader},
        rule before = .error .pastEnd after →
          (∃ after, attempt rule before = .error .pastEnd after) ∧
            (∃ after, restoring rule before = .error .pastEnd after) ∧
            ¬ GrammarRule rule) ∧
      (∀ before after, switch before ≠ .error .pastEnd after) ∧
      ((∃ fault, parse text = .error fault) ↔
        ∀ c, (text.dropWhile isBlank).head? = some c → isLooseNameChar c = false) ∧
      (∀ lead name tail, IsBlank lead → IsName name →
        ∃ command rest, parse (lead ++ (name ++ tail)) = .ok (command, rest) ∧
          name <+: command.name) ∧
      ∀ {α : Type} {round : Rule (Option α)} {loop : Rule (List α)}, GrammarLoop round loop →
        Progresses round ∧ ∀ before limit, before.rest.length < limit →
          loop before = rounds round limit before := by
  refine ⟨?_, ?_, ?_, parse_error_iff text, ?_, ?_⟩
  · rintro fault (fails | fails)
    · exact malformed_of_parse fails
    · exact malformed_of_parseStrict fails
  · intro α rule before after ran
    exact ⟨attempt_pastEnd ran, restoring_pastEnd ran, fun grammar =>
      (restores_of_grammarRule grammar).ne_pastEnd ran⟩
  · exact fun before after => settles_switch.ne_pastEnd
  · exact fun lead name tail blank isName => parses_of_name blank isName tail
  · exact fun grammar => ⟨progresses_of_grammarLoop grammar,
      fun before limit => loop_eq_rounds grammar⟩

/-- A text without a name, and a name with quotes, a dollar sign and a comment behind it that
are all out of place. -/
theorem reading_never_runs_out_misplaced :
    (∃ fault, parse " $a" = .error fault) ∧
      (∃ command rest, parse " a=--x='$\"#" = .ok (command, rest) ∧ "a" <+: command.name) ∧
      takeWhile isBlank (.start " a") = rounds (oneMore isBlank) 3 (.start " a") := by
  obtain ⟨-, -, -, unnamed, -, loops⟩ := reading_never_runs_out " $a"
  obtain ⟨-, -, -, -, named, -⟩ := reading_never_runs_out " a=--x='$\"#"
  refine ⟨unnamed.mpr ?_, named " " "a" "=--x='$\"#" (by decide) (by decide), ?_⟩
  · intro c first
    obtain rfl := Option.some.inj first
    decide
  · exact (loops (.run isBlank)).2 (.start " a") 3 (by decide)

end Texts

end LineShell
