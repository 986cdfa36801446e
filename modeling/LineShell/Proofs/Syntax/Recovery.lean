/-
Module: LineShell.Proofs.Syntax.Recovery
Purpose: Where a reading rule leaves the cursor: further on in the text if it succeeds, and
  where it started if it fails, but for the rule of switches.
Main exports: Reader.Onward, Reader.Stays, result_bind, result_restoring, result_attempt, Settles,
  Restores, Advances, Sure, Reader.At, GrammarRule, restores_of_grammarRule, StrandsAt,
  cursor_restored_but_for_switch
-/
import LineShell.Proofs.Syntax.Tokens

namespace LineShell

/-!
A rule that gives up has to go back, so that another one can be tried in its place.  Some
rules go back by themselves, some fail before they take anything, and some try alternatives
which are put back by whoever tries them.  The rule of switches does none of this: it takes
the equals sign behind its name, and stays there if no value follows.  The two rules that
call it go back for it.
-/

/-! ### Places of the cursor -/

namespace Reader

/-- Whether the cursor stands where it stood.  The memory of errors may have changed. -/
structure Stays (before after : Reader) : Prop where
  rest : after.rest = before.rest
  position : after.position = before.position

/-- Whether the cursor has passed over a piece of the text, or stands where it stood. -/
def Onward (before after : Reader) : Prop :=
  ∃ taken, before.rest = taken ++ after.rest ∧ after.position = before.position.after taken

variable {before between after : Reader}

theorem Stays.refl (reader : Reader) : reader.Stays reader :=
  ⟨rfl, rfl⟩

theorem Stays.onward (stays : before.Stays after) : before.Onward after :=
  ⟨[], stays.rest.symm, stays.position⟩

theorem Onward.refl (reader : Reader) : reader.Onward reader :=
  (Stays.refl reader).onward

/-- Pieces that are passed over one after the other are one piece. -/
theorem Onward.trans (first : before.Onward between) (second : between.Onward after) :
    before.Onward after := by
  obtain ⟨front, split, place⟩ := first
  obtain ⟨taken, split', place'⟩ := second
  refine ⟨front ++ taken, ?_, ?_⟩
  · rw [split, split', List.append_assoc]
  · rw [place', place, Position.after_append]

end Reader

/-! ### Results of composed rules -/

/-!
Whatever is said of rules is said of what they come to where they are called.  So what holds of
the result of a composed rule is found from what holds of the results of its parts, for results
of any kind.
-/

section Results

variable {α β : Type} {rule : Rule α} {next : α → Rule β} {before : Reader}
  {holds holds' : EStateM.Result ReadFault Reader α → Prop}
  {whole : EStateM.Result ReadFault Reader β → Prop}

theorem run_map_ok {change : α → β} {value : α} {after : Reader}
    (ran : rule before = .ok value after) :
    (change <$> rule) before = .ok (change value) after := by
  change EStateM.map change rule before = _
  rw [EStateM.map, ran]

theorem run_map_error {change : α → β} {fault : ReadFault} {after : Reader}
    (ran : rule before = .error fault after) : (change <$> rule) before = .error fault after := by
  change EStateM.map change rule before = _
  rw [EStateM.map, ran]

/-- What holds of a result may be weakened, for values and for faults apart. -/
theorem result_mono {result : EStateM.Result ReadFault Reader α} (first : holds result)
    (ok : ∀ value after, holds (.ok value after) → holds' (.ok value after))
    (error : ∀ fault after, holds (.error fault after) → holds' (.error fault after)) :
    holds' result := by
  cases result with
  | ok value after => exact ok value after first
  | error fault after => exact error fault after first

/-- A value that is changed comes with the same reader. -/
theorem result_map {change : α → β} (first : holds (rule before))
    (ok : ∀ value after, holds (.ok value after) → whole (.ok (change value) after))
    (error : ∀ fault after, holds (.error fault after) → whole (.error fault after)) :
    whole ((change <$> rule) before) := by
  cases ran : rule before with
  | ok value after =>
      rw [run_map_ok ran]
      exact ok value after (ran ▸ first)
  | error fault after =>
      rw [run_map_error ran]
      exact error fault after (ran ▸ first)

/-- The result of the first rule decides, or it is that of the second. -/
theorem result_bind (first : holds (rule before))
    (ok : ∀ value between, holds (.ok value between) → whole (next value between))
    (error : ∀ fault after, holds (.error fault after) → whole (.error fault after)) :
    whole ((rule >>= next) before) := by
  cases ran : rule before with
  | ok value between =>
      rw [run_bind_ok ran]
      exact ok value between (ran ▸ first)
  | error fault after =>
      rw [run_bind_error ran]
      exact error fault after (ran ▸ first)

/-- The reader behind a rule that is given up: the cursor is put back, and the memory of errors
is kept. -/
def Reader.putBack (before after : Reader) : Reader :=
  { after with rest := before.rest, position := before.position }

/-- Only where a rule fails something is put back. -/
theorem result_restoring (first : holds (rule before))
    (ok : ∀ value after, holds (.ok value after) → holds' (.ok value after))
    (error : ∀ fault after, holds (.error fault after) →
      holds' (.error fault (before.putBack after))) :
    holds' (restoring rule before) := by
  cases ran : rule before with
  | ok value after =>
      rw [restoring, run_tryCatch_ok ran]
      exact ok value after (ran ▸ first)
  | error fault after =>
      rw [restoring, run_tryCatch_error ran]
      exact error fault after (ran ▸ first)

/-- Only a syntax error is caught by a rule that is tried. -/
theorem result_attempt {tried : EStateM.Result ReadFault Reader (Option α) → Prop}
    (first : holds (rule before))
    (ok : ∀ value after, holds (.ok value after) → tried (.ok (some value) after))
    (malformed : ∀ error after, holds (.error (.malformed error) after) →
      tried (.ok none (before.putBack after)))
    (pastEnd : ∀ after, holds (.error .pastEnd after) →
      tried (.error .pastEnd (before.putBack after))) :
    tried (attempt rule before) := by
  cases ran : rule before with
  | ok value after =>
      rw [attempt, run_tryCatch_ok (run_map_ok ran)]
      exact ok value after (ran ▸ first)
  | error fault after =>
      rw [attempt, run_tryCatch_error (run_map_error ran)]
      cases fault with
      | malformed error => exact malformed error after (ran ▸ first)
      | pastEnd => exact pastEnd after (ran ▸ first)

end Results

/-! ### How rules end -/

/-- How a rule ends that was called at `before`: with the cursor further on in the text, or
with a syntax error, and then `failed` says where the cursor is. -/
def EndsAs {α : Type} (failed : Reader → Reader → Prop) (before : Reader) :
    EStateM.Result ReadFault Reader α → Prop
  | .ok _ after => before.Onward after
  | .error fault after => (∃ error, fault = .malformed error) ∧ failed before after

/-- Wherever a rule is called, it ends like that. -/
def Settles {α : Type} (failed : Reader → Reader → Prop) (rule : Rule α) : Prop :=
  ∀ before, EndsAs failed before (rule before)

/-- A rule that goes back if it fails. -/
abbrev Restores {α : Type} (rule : Rule α) : Prop :=
  Settles Reader.Stays rule

/-- A rule that may have taken something when it fails. -/
abbrev Advances {α : Type} (rule : Rule α) : Prop :=
  Settles Reader.Onward rule

/-- A rule that never fails. -/
abbrev Sure {α : Type} (rule : Rule α) : Prop :=
  Settles (fun _ _ => False) rule

/-- A rule that never fails, and that takes nothing if it yields nothing. -/
def Collects {α : Type} (rule : Rule (List α)) : Prop :=
  ∀ before, ∃ items after, rule before = .ok items after ∧ before.Onward after ∧
    (items = [] → before.Stays after)

section Composition

variable {α β : Type} {rule : Rule α} {next : α → Rule β}
  {failed failed' : Reader → Reader → Prop}

theorem Settles.mono (settles : Settles failed rule)
    (weaker : ∀ before after, failed before after → failed' before after) :
    Settles failed' rule :=
  fun before => result_mono (settles before) (fun _ _ onward => onward)
    fun _ after fails => ⟨fails.1, weaker before after fails.2⟩

/-- Staying is going on by nothing. -/
theorem Restores.advances (restores : Restores rule) : Advances rule :=
  restores.mono fun _ _ => Reader.Stays.onward

theorem Sure.settles (sure : Sure rule) : Settles failed rule :=
  sure.mono fun _ _ => False.elim

/-- A rule that never fails has a value and goes on. -/
theorem Sure.ends (sure : Sure rule) (before : Reader) :
    ∃ value after, rule before = .ok value after ∧ before.Onward after := by
  have ends := sure before
  cases ran : rule before with
  | ok value after =>
      rw [ran] at ends
      exact ⟨value, after, rfl, ends⟩
  | error fault after =>
      rw [ran] at ends
      exact ends.2.elim

/-- One rule behind another: where the first fails both fail, and the second fails behind
what the first has taken. -/
theorem Settles.bind {whole : Reader → Reader → Prop} (first : Settles failed rule)
    (second : ∀ value, Settles failed' (next value))
    (early : ∀ before after, failed before after → whole before after)
    (late : ∀ before between after, before.Onward between → failed' between after →
      whole before after) :
    Settles whole (rule >>= next) := by
  intro before
  refine result_bind (first before) (fun value between onward => ?_)
    fun _ after fails => ⟨fails.1, early before after fails.2⟩
  exact result_mono (second value between) (fun _ _ => onward.trans)
    fun _ after fails => ⟨fails.1, late before between after onward fails.2⟩

/-- Behind the last rule that can fail there is nothing to go back for. -/
theorem Settles.bind_sure (first : Settles failed rule) (second : ∀ value, Sure (next value)) :
    Settles failed (rule >>= next) :=
  first.bind second (fun _ _ fails => fails) fun _ _ _ _ => False.elim

theorem Advances.bind (first : Advances rule) (second : ∀ value, Advances (next value)) :
    Advances (rule >>= next) :=
  Settles.bind first second (fun _ _ fails => fails) fun _ _ _ => Reader.Onward.trans

theorem Settles.map {change : α → β} (settles : Settles failed rule) :
    Settles failed (change <$> rule) :=
  fun before => result_map (settles before) (fun _ _ onward => onward) fun _ _ fails => fails

/-- Going back behind something that took nothing is going back. -/
theorem EndsAs.of_stays {before between : Reader} {result : EStateM.Result ReadFault Reader α}
    (stays : before.Stays between) (ends : EndsAs Reader.Stays between result) :
    EndsAs Reader.Stays before result := by
  cases result with
  | ok value after => exact stays.onward.trans ends
  | error fault after =>
      exact ⟨ends.1, ends.2.rest.trans stays.rest, ends.2.position.trans stays.position⟩

/-- What takes nothing unless it yields something can be put in front of what goes back. -/
theorem Collects.bind {rule : Rule (List α)} {next : List α → Rule β}
    (collects : Collects rule) (empty : Restores (next []))
    (others : ∀ items, items ≠ [] → Sure (next items)) : Restores (rule >>= next) := by
  intro before
  obtain ⟨items, between, ran, onward, stays⟩ := collects before
  rw [run_bind_ok ran]
  by_cases none : items = []
  · subst none
    exact (empty between).of_stays (stays rfl)
  · obtain ⟨value, after, ran', behind⟩ := (others items none).ends between
    rw [ran']
    exact onward.trans behind

end Composition

/-! ### Primitive rules -/

section Primitives

variable {α : Type} {rule : Rule α} {failed : Reader → Reader → Prop}

theorem sure_pure (value : α) : Sure (pure value : Rule α) :=
  fun before => Reader.Onward.refl before

theorem settles_from_here {next : Position → Rule α}
    (settles : ∀ position, Settles failed (next position)) : Settles failed (here >>= next) :=
  fun before => settles before.position before

theorem settles_from_get {next : Reader → Rule α}
    (settles : ∀ reader, Settles failed (next reader)) : Settles failed (get >>= next) :=
  fun before => settles before before

theorem settles_from_peek {next : Option Char → Rule α}
    (settles : ∀ first, Settles failed (next first)) : Settles failed (peek >>= next) :=
  fun before => settles before.rest.head? before

/-- A node ends at the cursor, and takes nothing. -/
theorem sure_node (node : Span → α) (start : Position) :
    Sure (do return node (← spanFrom start)) :=
  fun before => Reader.Onward.refl before

/-- The memory of errors is no part of the cursor. -/
theorem stays_noteError (reader : Reader) (error : SyntaxError) :
    reader.Stays (reader.noteError error) := by
  unfold Reader.noteError
  split
  · exact ⟨rfl, rfl⟩
  · split <;> exact ⟨rfl, rfl⟩

/-- A rule that gives up has taken nothing. -/
theorem restores_fail (expectation : Expectation) : Restores (fail expectation : Rule α) :=
  fun before => ⟨⟨_, rfl⟩, stays_noteError before _⟩

/-- A character is there to be taken. -/
theorem run_discard_advance {reader : Reader} {c : Char} {rest : Text}
    (front : reader.rest = c :: rest) :
    (discard advance : Rule Unit) reader = .ok () (reader.pop c rest) := by
  obtain ⟨_, position, furthest⟩ := reader
  subst front
  rfl

/-- A character that is not there is not taken. -/
theorem restores_expect (c : Char) : Restores (expect c) := by
  intro before
  change EndsAs _ _ ((if before.rest.head? = some c then discard advance else fail (.char c) :
    Rule Unit) before)
  split
  · next first =>
      obtain ⟨rest, front⟩ := List.head?_eq_some_iff.mp first
      rw [run_discard_advance front]
      exact ⟨[c], front, rfl⟩
  · exact restores_fail (.char c) before

theorem collects_takeWhile (test : Char → Bool) : Collects (takeWhile test) := by
  intro before
  refine ⟨_, _, rfl, ⟨_, List.takeWhile_append_dropWhile.symm, rfl⟩, fun none => ⟨?_, ?_⟩⟩
  · have whole := List.takeWhile_append_dropWhile (p := test) (l := before.rest)
    rwa [none] at whole
  · exact congrArg before.position.after none

theorem sure_takeWhile (test : Char → Bool) : Sure (takeWhile test) :=
  fun _ => ⟨_, List.takeWhile_append_dropWhile.symm, rfl⟩

theorem sure_skipBlanks : Sure skipBlanks :=
  (sure_takeWhile isBlank).bind_sure fun _ => sure_pure _

/-! ### Backtracking -/

/-- Whatever a rule has taken when it fails is put back. -/
theorem restores_restoring (advances : Advances rule) : Restores (restoring rule) :=
  fun before => result_restoring (advances before) (fun _ _ onward => onward)
    fun _ _ fails => ⟨fails.1, rfl, rfl⟩

/-- A rule that is tried succeeds, or the cursor is put back. -/
theorem ends_attempt (advances : Advances rule) (before : Reader) :
    (∃ value after, attempt rule before = .ok (some value) after ∧ before.Onward after) ∨
      ∃ after, attempt rule before = .ok none after ∧ before.Stays after := by
  have ends := advances before
  cases ran : rule before with
  | ok value after =>
      rw [ran] at ends
      exact .inl ⟨value, after, run_tryCatch_ok (run_map_ok ran), ends⟩
  | error fault after =>
      rw [ran] at ends
      obtain ⟨⟨error, rfl⟩, -⟩ := ends
      exact .inr ⟨_, run_tryCatch_error (run_map_error ran), rfl, rfl⟩

/-- A rule that is tried never fails by a syntax error. -/
theorem sure_attempt (advances : Advances rule) : Sure (attempt rule) := by
  intro before
  rcases ends_attempt advances before with ⟨value, after, ran, onward⟩ | ⟨after, ran, stays⟩
  · rw [ran]
    exact onward
  · rw [ran]
    exact stays.onward

/-- Every choice of the grammar is one of three. -/
theorem forall_mem_three {holds : Rule α → Prop} {first second third : Rule α}
    (one : holds first) (two : holds second) (three : holds third) :
    ∀ rule ∈ [first, second, third], holds rule := by
  simpa using ⟨one, two, three⟩

/-- A choice fails only when every alternative has been put back. -/
theorem restores_firstOf (expectation : Expectation) {rules : List (Rule α)}
    (each : ∀ rule ∈ rules, Advances rule) : Restores (firstOf expectation rules) := by
  induction rules with
  | nil => exact restores_fail expectation
  | cons rule others ih =>
      obtain ⟨first, each⟩ := List.forall_mem_cons.mp each
      intro before
      rcases ends_attempt first before with ⟨value, after, ran, onward⟩ | ⟨after, ran, stays⟩
      · rw [firstOf, run_bind_ok ran]
        exact onward
      · rw [firstOf, run_bind_ok ran]
        exact (ih each after).of_stays stays

end Primitives

/-! ### The rules of the grammar -/

theorem restores_nameOf (test : Char → Bool) (expectation : Expectation) :
    Restores (nameOf test expectation) := by
  refine settles_from_here fun start => (collects_takeWhile test).bind ?_ fun name some => ?_
  · exact restores_fail expectation
  · rw [if_neg (by simpa using some)]
    exact sure_node _ start

theorem restores_identifier : Restores identifier :=
  restores_nameOf isNameChar .identifier

theorem restores_looseIdentifier : Restores looseIdentifier :=
  restores_nameOf isLooseNameChar .name

theorem restores_reference : Restores reference := by
  refine restores_restoring (settles_from_here fun start => ?_)
  refine (restores_expect '$').advances.bind fun _ => ?_
  exact restores_identifier.advances.bind_sure fun id => sure_node _ start

theorem restores_templateLiteral (quoted : Bool) : Restores (templateLiteral quoted) := by
  refine settles_from_here fun start =>
    (collects_takeWhile (continuesRun quoted)).bind ?_ fun run some => ?_
  · exact restores_fail .text
  · rw [if_neg (by simpa using some)]
    exact sure_node _ start

theorem restores_singleDollar : Restores singleDollar :=
  settles_from_here fun start => (restores_expect '$').bind_sure fun _ => sure_node _ start

theorem restores_templatePart (quoted : Bool) : Restores (templatePart quoted) := by
  refine restores_firstOf .templatePart (forall_mem_three ?_ ?_ ?_)
  · exact (restores_templateLiteral quoted).advances.map
  · exact restores_reference.advances.map
  · exact restores_singleDollar.advances.map

/-- As long as parts are found they are taken, and then the last attempt is put back. -/
theorem collects_templateParts (quoted : Bool) (limit : Nat) :
    Collects (templateParts quoted limit) := by
  induction limit with
  | zero => exact fun before => ⟨[], before, rfl, .refl before, fun _ => .refl before⟩
  | succ limit ih =>
      intro before
      rcases ends_attempt (restores_templatePart quoted).advances before with
        ⟨part, between, ran, onward⟩ | ⟨after, ran, stays⟩
      · obtain ⟨parts, after, ran', behind, -⟩ := ih between
        refine ⟨part :: parts, after, ?_, onward.trans behind, fun none => nomatch none⟩
        rw [templateParts, run_bind_ok ran]
        exact run_bind_ok ran'
      · refine ⟨[], after, ?_, stays.onward, fun _ => stays⟩
        rw [templateParts, run_bind_ok ran]
        rfl

theorem restores_templateBody (quoted : Bool) : Restores (templateBody quoted) := by
  refine settles_from_here fun start => settles_from_get fun reader =>
    (collects_templateParts quoted _).bind ?_ fun parts some => ?_
  · cases quoted with
    | false => exact restores_fail .template
    | true => exact (sure_node _ start).settles
  · rw [if_neg (by simp [some])]
    exact sure_node _ start

theorem sure_rawText : Sure rawText :=
  settles_from_here fun start => (sure_takeWhile _).bind_sure fun _ => sure_node _ start

theorem restores_singleQuoted : Restores singleQuoted := by
  refine restores_restoring ((restores_expect '\x27').advances.bind fun _ => ?_)
  refine Advances.bind sure_rawText.settles fun raw => ?_
  exact (restores_expect '\x27').advances.bind_sure fun _ => sure_pure _

theorem restores_doubleQuoted : Restores doubleQuoted := by
  refine restores_restoring ((restores_expect '"').advances.bind fun _ => ?_)
  refine (restores_templateBody true).advances.bind fun body => ?_
  exact (restores_expect '"').advances.bind_sure fun _ => sure_pure _

theorem restores_unquoted : Restores unquoted :=
  (restores_templateBody false).map

theorem restores_template : Restores template := by
  refine restores_firstOf .template (forall_mem_three ?_ ?_ ?_)
  · exact restores_singleQuoted.advances
  · exact restores_doubleQuoted.advances
  · exact restores_unquoted.advances

/-! ### Switches -/

/-- Whether no template can be read at the front of a text: no value can begin there, or a
quote is opened and not closed. -/
def Valueless (text : Text) : Prop :=
  Stops startsValue text ∨ ∃ taken rest, text = taken ++ rest ∧ Opened taken rest

/-- How the rule of switches fails: in front of what is no name, or behind the equals sign of
a name without a value. -/
inductive Strands (before after : Reader) : Prop where
  | unnamed (stops : Stops isLooseNameChar before.rest) (stays : before.Stays after)
  | valueless (name : Text) (some : name ≠ []) (all : ∀ c ∈ name, isLooseNameChar c = true)
      (split : before.rest = (name ++ ['=']) ++ after.rest)
      (place : after.position = before.position.after (name ++ ['=']))
      (missing : Valueless after.rest)

/-- Wherever the rule of switches is stranded, it has not gone back behind its start. -/
theorem Strands.onward {before after : Reader} (strands : Strands before after) :
    before.Onward after := by
  cases strands with
  | unnamed stops stays => exact stays.onward
  | valueless name some all split place missing => exact ⟨_, split, place⟩

/-- The template that a rule fails to read is not there. -/
theorem valueless_of_error {before after : Reader} {fault : ReadFault}
    (ran : template before = .error fault after) : Valueless before.rest := by
  rcases exists_value before.rest with ⟨value, rest, split, fits, ends⟩ | opened | stops
  · have takes : Takes template before.position value.text rest _ 0 := takes_template fits ends
    obtain ⟨memory, taken, -⟩ := takes before.furthest
    rw [← split] at taken
    cases taken.symm.trans ran
  · exact .inr opened
  · exact .inl stops

/-- Behind the name nothing but a missing value can make the rule of switches fail. -/
theorem settles_switch : Settles Strands switch := by
  refine settles_from_here fun start before => ?_
  obtain ⟨name, rest, split, all, stops⟩ := exists_run isLooseNameChar before.rest
  by_cases unnamed : name = []
  · subst unnamed
    have stops : Stops isLooseNameChar before.rest := split ▸ stops
    have refused : Refuses looseIdentifier before.position before.rest before.position.index :=
      refuses_nameOf .name stops
    obtain ⟨error, after, ran, -⟩ := refused.2 before.furthest
    have ends := restores_looseIdentifier before
    have ran : looseIdentifier before = .error (.malformed error) after := ran
    rw [ran] at ends
    rw [run_bind_error ran]
    exact ⟨ends.1, .unnamed stops ends.2⟩
  · have takes : Takes looseIdentifier before.position name rest _ 0 :=
      takes_nameOf .name all unnamed stops
    obtain ⟨memory, ran, -⟩ := takes before.furthest
    rw [← split] at ran
    have ran : looseIdentifier before = .ok _ _ := ran
    let between : Reader :=
      { rest := rest, position := before.position.after name, furthest := memory }
    have passed : before.Onward between := ⟨name, split, rfl⟩
    rw [run_bind_ok ran, run_bind_ok (show peek between = .ok rest.head? between from rfl)]
    split
    · next assigned =>
        obtain ⟨more, rfl⟩ := List.head?_eq_some_iff.mp assigned
        have equals : between.Onward (between.pop '=' more) := ⟨['='], rfl, rfl⟩
        have ends := restores_template (between.pop '=' more)
        rw [run_bind_ok (run_discard_advance rfl)]
        cases ran' : template (between.pop '=' more) with
        | ok value after =>
            rw [ran'] at ends
            rw [run_bind_ok ran']
            exact (passed.trans equals).trans ends
        | error fault after =>
            rw [ran'] at ends
            rw [run_bind_error ran']
            have missing : Valueless more := valueless_of_error ran'
            refine ⟨ends.1, .valueless name unnamed all ?_ ?_ ?_⟩
            · rw [split, ends.2.rest, List.append_assoc]
              rfl
            · rw [ends.2.position, Position.after_append]
              rfl
            · rw [ends.2.rest]
              exact missing
    · exact passed

theorem advances_switch : Advances switch :=
  settles_switch.mono fun _ _ => Strands.onward

theorem restores_shortSwitch : Restores shortSwitch := by
  refine restores_restoring ((restores_expect '-').advances.bind fun _ => ?_)
  refine settles_from_peek fun first => ?_
  split
  · exact (restores_fail .switchName).advances
  · exact advances_switch.bind_sure fun _ => sure_pure _

theorem restores_longSwitch : Restores longSwitch := by
  refine restores_restoring ((restores_expect '-').advances.bind fun _ => ?_)
  refine (restores_expect '-').advances.bind fun _ => ?_
  exact advances_switch.bind_sure fun _ => sure_pure _

/-! ### Parameters and commands -/

theorem restores_literal : Restores literal :=
  settles_from_here fun start => restores_template.bind_sure fun _ => sure_node _ start

theorem restores_parameter : Restores parameter := by
  refine settles_from_here fun start => Settles.bind_sure ?_ fun _ => sure_node _ start
  refine restores_firstOf .parameter (forall_mem_three ?_ ?_ ?_)
  · exact restores_shortSwitch.advances
  · exact restores_longSwitch.advances
  · exact restores_literal.advances

/-- White space that no parameter follows is taken, and that is no failure. -/
theorem sure_moreParameters (limit : Nat) : Sure (moreParameters limit) := by
  induction limit with
  | zero => exact sure_pure _
  | succ limit ih =>
      refine sure_skipBlanks.bind_sure fun blanks => ?_
      split
      · exact sure_pure _
      · refine (sure_attempt restores_parameter.advances).bind_sure fun found => ?_
        cases found with
        | none => exact sure_pure _
        | some first => exact ih.bind_sure fun _ => sure_pure _

theorem restores_parameters : Restores parameters := by
  refine settles_from_here fun start => restores_parameter.bind_sure fun first => ?_
  refine settles_from_get fun reader => ?_
  exact (sure_moreParameters _).bind_sure fun _ => sure_node _ start

theorem restores_programName : Restores programName :=
  settles_from_here fun start => restores_looseIdentifier.bind_sure fun _ => sure_node _ start

theorem restores_command : Restores command := by
  refine settles_from_here fun start => restores_programName.bind_sure fun program => ?_
  refine sure_skipBlanks.map.bind_sure fun _ => ?_
  exact (sure_attempt restores_parameters.advances).bind_sure fun _ => sure_node _ start

theorem restores_comment : Restores comment := by
  refine (restores_expect '#').bind_sure fun _ => settles_from_here fun start => ?_
  exact (sure_takeWhile _).bind_sure fun _ => sure_node _ start

/-- The rules of the grammar, but for the rule of switches. -/
inductive GrammarRule : {α : Type} → Rule α → Prop where
  | identifier : GrammarRule identifier
  | looseIdentifier : GrammarRule looseIdentifier
  | reference : GrammarRule reference
  | templateLiteral (quoted : Bool) : GrammarRule (templateLiteral quoted)
  | singleDollar : GrammarRule singleDollar
  | templatePart (quoted : Bool) : GrammarRule (templatePart quoted)
  | templateBody (quoted : Bool) : GrammarRule (templateBody quoted)
  | rawText : GrammarRule rawText
  | singleQuoted : GrammarRule singleQuoted
  | doubleQuoted : GrammarRule doubleQuoted
  | unquoted : GrammarRule unquoted
  | template : GrammarRule template
  | shortSwitch : GrammarRule shortSwitch
  | longSwitch : GrammarRule longSwitch
  | literal : GrammarRule literal
  | parameter : GrammarRule parameter
  | parameters : GrammarRule parameters
  | programName : GrammarRule programName
  | command : GrammarRule command
  | comment : GrammarRule comment

/-- Every rule but that of switches goes back. -/
theorem restores_of_grammarRule {α : Type} {rule : Rule α} (grammar : GrammarRule rule) :
    Restores rule := by
  cases grammar with
  | identifier => exact restores_identifier
  | looseIdentifier => exact restores_looseIdentifier
  | reference => exact restores_reference
  | templateLiteral quoted => exact restores_templateLiteral quoted
  | singleDollar => exact restores_singleDollar
  | templatePart quoted => exact restores_templatePart quoted
  | templateBody quoted => exact restores_templateBody quoted
  | rawText => exact sure_rawText.settles
  | singleQuoted => exact restores_singleQuoted
  | doubleQuoted => exact restores_doubleQuoted
  | unquoted => exact restores_unquoted
  | template => exact restores_template
  | shortSwitch => exact restores_shortSwitch
  | longSwitch => exact restores_longSwitch
  | literal => exact restores_literal
  | parameter => exact restores_parameter
  | parameters => exact restores_parameters
  | programName => exact restores_programName
  | command => exact restores_command
  | comment => exact restores_comment

/-! ### Cursors in a text -/

/-- Whether the cursor stands in a text behind so many of its characters. -/
def Reader.At (text : Text) (index : Nat) (reader : Reader) : Prop :=
  ∃ front, text = front ++ reader.rest ∧ front.length = index ∧
    reader.position = Position.after {} front

/-- Where a rule leaves the cursor that stood in a text: if the rule succeeds, not in front of
where it stood and not behind the text; and if it fails, with a syntax error, at an index that
`failed` allows. -/
def Leaves {α : Type} (text : Text) (index : Nat) (failed : Nat → Prop) (rule : Rule α)
    (before : Reader) : Prop :=
  match rule before with
  | .ok _ after => ∃ stop, index ≤ stop ∧ stop ≤ text.length ∧ after.At text stop
  | .error fault after =>
      (∃ error, fault = .malformed error) ∧ ∃ stop, failed stop ∧ after.At text stop

/-- Where the rule of switches stops if it fails.  Only where no name stands is it the index
where it started. -/
inductive StrandsAt (text : Text) (index : Nat) : Nat → Prop where
  | unnamed (stops : Stops isLooseNameChar (text.drop index)) : StrandsAt text index index
  | valueless (name : Text) (some : name ≠ []) (all : ∀ c ∈ name, isLooseNameChar c = true)
      (front : (name ++ ['=']) <+: text.drop index)
      (missing : Valueless (text.drop (index + (name ++ ['=']).length))) :
      StrandsAt text index (index + (name ++ ['=']).length)

section Cursors

variable {α : Type} {rule : Rule α} {text taken : Text} {index : Nat} {before after : Reader}

/-- What is left to read begins at the index, -/
theorem Reader.At.rest (at' : before.At text index) : before.rest = text.drop index := by
  obtain ⟨front, rfl, rfl, -⟩ := at'
  exact List.drop_left.symm

/-- which is that of the position. -/
theorem Reader.At.index_eq (at' : before.At text index) : before.position.index = index := by
  obtain ⟨front, -, rfl, place⟩ := at'
  simp [place]

/-- Behind a piece that was passed over the cursor is that many characters further on. -/
theorem Reader.At.pass (at' : before.At text index) (split : before.rest = taken ++ after.rest)
    (place : after.position = before.position.after taken) :
    after.At text (index + taken.length) := by
  obtain ⟨front, rfl, rfl, place'⟩ := at'
  refine ⟨front ++ taken, ?_, List.length_append, ?_⟩
  · rw [split, List.append_assoc]
  · rw [place, place', Position.after_append]

theorem Reader.At.stays (at' : before.At text index) (stays : before.Stays after) :
    after.At text index := by
  have nothing : before.rest = [] ++ after.rest := stays.rest.symm
  exact at'.pass nothing stays.position

theorem Reader.At.onward (at' : before.At text index) (onward : before.Onward after) :
    ∃ stop, index ≤ stop ∧ stop ≤ text.length ∧ after.At text stop := by
  obtain ⟨taken, split, place⟩ := onward
  have behind := at'.pass split place
  refine ⟨_, Nat.le_add_right _ _, ?_, behind⟩
  obtain ⟨front, whole, length, -⟩ := behind
  rw [← length, whole, List.length_append]
  exact Nat.le_add_right _ _

theorem Reader.At.strands (at' : before.At text index) (strands : Strands before after) :
    ∃ stop, StrandsAt text index stop ∧ after.At text stop := by
  cases strands with
  | unnamed stops stays => exact ⟨index, .unnamed (at'.rest ▸ stops), at'.stays stays⟩
  | valueless name some all split place missing =>
      have behind := at'.pass split place
      refine ⟨_, .valueless name some all ?_ ?_, behind⟩
      · rw [← at'.rest]
        exact ⟨_, split.symm⟩
      · rw [← behind.rest]
        exact missing

/-- A cursor stands in one place. -/
theorem Reader.At.unique {other : Nat} (one : before.At text index) (two : before.At text other) :
    index = other := by
  obtain ⟨front, split, rfl, -⟩ := one
  obtain ⟨front', split', rfl, -⟩ := two
  rw [List.append_cancel_right (split.symm.trans split')]

/-- Where a rule may stop when it fails is told by indices of the text. -/
theorem Settles.leaves {failed : Reader → Reader → Prop} {failedAt : Nat → Prop}
    (settles : Settles failed rule) (at' : before.At text index)
    (places : ∀ after, failed before after → ∃ stop, failedAt stop ∧ after.At text stop) :
    Leaves text index failedAt rule before := by
  have ends := settles before
  unfold Leaves
  cases ran : rule before with
  | ok value after =>
      rw [ran] at ends
      exact at'.onward ends
  | error fault after =>
      rw [ran] at ends
      exact ⟨ends.1, places after ends.2⟩

theorem Leaves.mono {failed weaker : Nat → Prop} (leaves : Leaves text index failed rule before)
    (weaken : ∀ stop, failed stop → weaker stop) : Leaves text index weaker rule before := by
  unfold Leaves at leaves ⊢
  split at leaves
  · exact leaves
  · obtain ⟨malformed, stop, failed, behind⟩ := leaves
    exact ⟨malformed, stop, weaken stop failed, behind⟩

/-! ### Switches without a value -/

section Stranding

variable {stop : Nat}

theorem StrandsAt.unnamed_of_eq (strands : StrandsAt text index stop) (same : stop = index) :
    Stops isLooseNameChar (text.drop index) := by
  cases strands with
  | unnamed stops => exact stops
  | valueless name some all front missing =>
      rw [List.length_append, List.length_singleton] at same
      omega

theorem StrandsAt.eq_of_unnamed (strands : StrandsAt text index stop)
    (stops : Stops isLooseNameChar (text.drop index)) : stop = index := by
  cases strands with
  | unnamed => rfl
  | valueless name some all front missing =>
      obtain ⟨c, name, rfl⟩ := List.exists_cons_of_ne_nil some
      obtain ⟨more, front⟩ := front
      have first : (text.drop index).head? = Option.some c := front ▸ rfl
      exact absurd (all c List.mem_cons_self) (by simp [stops c first])

/-- Where the rule of switches can be stranded, it fails. -/
theorem StrandsAt.fails (strands : StrandsAt text index stop) (at' : before.At text index) :
    ∃ error after, switch before = .error (.malformed error) after := by
  have refused : ∀ {reached}, Refuses switch before.position before.rest reached →
      ∃ error after, switch before = .error (.malformed error) after := by
    intro reached refuses
    obtain ⟨error, after, ran, -⟩ := refuses.2 before.furthest
    exact ⟨error, after, ran⟩
  cases strands with
  | unnamed stops => exact refused (refuses_switch (at'.rest ▸ stops))
  | valueless name some all front missing =>
      obtain ⟨more, split⟩ := front
      have behind : text.drop (index + (name ++ ['=']).length) = more := by
        rw [← List.drop_drop, ← split, List.drop_left]
      have rest : before.rest = name ++ '=' :: more := by
        rw [at'.rest, ← split, List.append_assoc]
        rfl
      rw [behind] at missing
      rw [rest] at refused
      rcases missing with stops | ⟨taken, rest, rfl, opened⟩
      · exact refused (refuses_switch_value some all (refuses_template stops))
      · exact refused (refuses_switch_value some all (refuses_template_opened opened))

/-- The rule of switches goes back exactly where no name with an equals sign, and without a
value behind it, strands it. -/
theorem leaves_switch_iff (at' : before.At text index)
    (leaves : Leaves text index (StrandsAt text index) switch before) :
    Leaves text index (· = index) switch before ↔
      ∀ stop, StrandsAt text index stop → stop = index := by
  constructor
  · intro back stop strands
    obtain ⟨error, after, ran⟩ := strands.fails at'
    unfold Leaves at leaves back
    rw [ran] at leaves back
    obtain ⟨-, stop', strands', behind⟩ := leaves
    obtain ⟨-, start, rfl, behind'⟩ := back
    exact strands.eq_of_unnamed (strands'.unnamed_of_eq (behind.unique behind'))
  · exact leaves.mono

end Stranding

/-- Wherever a rule of the grammar is called, it leaves the cursor further on in the text if
it succeeds, and where it was if it fails, except that the rule of switches leaves it behind
the equals sign of a name that no value follows. -/
theorem cursor_restored_but_for_switch (at' : before.At text index) :
    (∀ {α : Type} {rule : Rule α}, GrammarRule rule →
        Leaves text index (· = index) rule before) ∧
      Leaves text index (StrandsAt text index) switch before ∧
      (Leaves text index (· = index) switch before ↔
        ∀ stop, StrandsAt text index stop → stop = index) := by
  have stranded : Leaves text index (StrandsAt text index) switch before :=
    settles_switch.leaves at' fun after strands => at'.strands strands
  refine ⟨fun grammar => ?_, stranded, leaves_switch_iff at' stranded⟩
  exact (restores_of_grammarRule grammar).leaves at' fun after stays =>
    ⟨index, rfl, at'.stays stays⟩

/-- What is left to read, and where, when a rule has met a syntax error. -/
def leftByFailure {α : Type} (rule : Rule α) (before : Reader) : Option (Text × Position) :=
  match rule before with
  | .error (.malformed _) after => some (after.rest, after.position)
  | _ => none

theorem exists_error_of_leftByFailure {rest : Text} {position : Position}
    (left : leftByFailure rule before = some (rest, position)) :
    ∃ error after, rule before = .error (.malformed error) after ∧ after.rest = rest ∧
      after.position = position := by
  unfold leftByFailure at left
  split at left
  · next error after ran =>
      cases left
      exact ⟨error, after, ran, rfl, rfl⟩
  · cases left

/-- The value of a long switch is missing: the rule of long switches goes back to its dashes. -/
theorem cursor_restored_but_for_switch_valueless :
    GrammarRule longSwitch ∧ Reader.At "--x=" 0 (.start "--x=") ∧
      ∃ error after, longSwitch (.start "--x=") = .error (.malformed error) after ∧
        after.At "--x=" 0 := by
  have at' : Reader.At "--x=" 0 (.start "--x=") := ⟨[], rfl, rfl, rfl⟩
  have fails : leftByFailure longSwitch (.start "--x=") = some (['-', '-', 'x', '='], {}) := by
    decide +kernel
  obtain ⟨error, after, ran, -, -⟩ := exists_error_of_leftByFailure fails
  refine ⟨.longSwitch, at', error, after, ran, ?_⟩
  generalize Reader.start "--x=" = before at at' ran
  have leaves := (cursor_restored_but_for_switch at').1 .longSwitch
  unfold Leaves at leaves
  rw [ran] at leaves
  obtain ⟨-, stop, rfl, behind⟩ := leaves
  exact behind

/-- The rule of switches does not go back from a name and an equals sign. -/
theorem switch_strands_cursor :
    Reader.At "x=" 0 (.start "x=") ∧ ∃ error after,
      switch (.start "x=") = .error (.malformed error) after ∧ after.At "x=" 2 ∧
        ¬ after.At "x=" 0 := by
  have fails : leftByFailure switch (.start "x=") =
      some ([], { line := 1, column := 3, index := 2 }) := by decide +kernel
  obtain ⟨error, after, ran, rest, position⟩ := exists_error_of_leftByFailure fails
  refine ⟨⟨[], rfl, rfl, rfl⟩, error, after, ran, ⟨"x=", ?_, rfl, position⟩, fun back => ?_⟩
  · rw [rest, List.append_nil]
  · cases rest.symm.trans back.rest

end Cursors

end LineShell
