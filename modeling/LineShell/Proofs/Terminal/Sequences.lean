/-
Module: LineShell.Proofs.Terminal.Sequences
Purpose: A text as a row of control sequences and single characters, and where it can be cut
  between two of them.
Main exports: Opens, unit_induction, endsOutside, Joins, flatten_splitKeys, splitKeys_append,
  Joins.of_splitKeys, visible_append
-/
import LineShell.Proofs.Terminal.Visible
import LineShell.Terminal.Keys

namespace LineShell

/-!
From its beginning on a text falls into units: a control sequence is one, any other
character is one, and at the end of the text a sequence may be left without its final
character.  Terminal input is cut into events, and output is shown, unit by unit.  So two
stretches of text can be treated one by one exactly where the border between them is a
border between units.
-/

/-! ### Units -/

/-- Whether a character in front of a text opens a control sequence. -/
def Opens (c : Char) (text : Text) : Prop :=
  c = escape ∧ text.head? = some '['

section Units

variable {c final : Char} {text body rest : Text}

theorem not_opens_iff :
    ¬ Opens c text ↔ ∀ behind, c = '\x1b' → text = '[' :: behind → False := by
  constructor
  · rintro single behind rfl rfl
    exact single ⟨rfl, rfl⟩
  · rintro outside ⟨rfl, first⟩
    obtain ⟨behind, rfl⟩ := List.head?_eq_some_iff.mp first
    exact outside behind rfl rfl

/-- The body of a sequence ends at the first character that can be its final one. -/
theorem cut_body (inside : body.any isFinal = false)
    (ends : ∀ final ∈ rest.head?, isFinal final = true) :
    (body ++ rest).takeWhile (!isFinal ·) = body ∧
      (body ++ rest).dropWhile (!isFinal ·) = rest := by
  have goesOn : ∀ c ∈ body, (!isFinal c) = true := by simpa using inside
  rw [List.takeWhile_append_of_pos goesOn, List.dropWhile_append_of_pos goesOn]
  cases rest with
  | nil => exact ⟨List.append_nil _, rfl⟩
  | cons final rest => simp [ends final rfl]

/-- A text either has a final character or has none. -/
theorem final_cases (text : Text) :
    text.any isFinal = false ∨
      ∃ body final rest, text = body ++ [final] ++ rest ∧ body.any isFinal = false ∧
        isFinal final = true := by
  induction text with
  | nil => exact .inl rfl
  | cons c text ih =>
      cases ends : isFinal c with
      | true => exact .inr ⟨[], c, text, rfl, rfl, ends⟩
      | false =>
          rcases ih with none | ⟨body, final, rest, rfl, inside, last⟩
          · exact .inl (by simp [ends, none])
          · exact .inr ⟨c :: body, final, rest, rfl, by simp [ends, inside], last⟩

/-- Induction over the units of a text. -/
@[elab_as_elim]
theorem unit_induction {motive : Text → Prop} (text : Text) (nil : motive [])
    (single : ∀ c rest, ¬ Opens c rest → motive rest → motive (c :: rest))
    (sequence : ∀ body final rest, body.any isFinal = false → isFinal final = true →
      motive rest → motive (controlSequence (body ++ [final]) ++ rest))
    (unfinished : ∀ body, body.any isFinal = false → motive (controlSequence body)) :
    motive text := by
  induction length : text.length using Nat.strongRecOn generalizing text with
  | ind size ih =>
      subst length
      cases text with
      | nil => exact nil
      | cons c rest =>
          by_cases opens : Opens c rest
          · obtain ⟨rfl, first⟩ := opens
            obtain ⟨behind, rfl⟩ := List.head?_eq_some_iff.mp first
            rcases final_cases behind with none | ⟨body, final, rest, rfl, inside, ends⟩
            · exact unfinished behind none
            · refine sequence body final rest inside ends (ih _ ?_ rest rfl)
              simp only [List.length_cons, List.length_append]
              omega
          · exact single c rest opens (ih _ (Nat.lt_succ_self _) rest rfl)

/-! ### Events -/

theorem splitKeys_nil : splitKeys [] = [] := by
  rw [splitKeys]

theorem splitKeys_single (single : ¬ Opens c text) :
    splitKeys (c :: text) = [c] :: splitKeys text := by
  rw [splitKeys]
  exact not_opens_iff.mp single

theorem splitKeys_unfinished (inside : body.any isFinal = false) :
    splitKeys (controlSequence body) = [controlSequence body] := by
  have none : ∀ final ∈ ([] : Text).head?, isFinal final = true := nofun
  obtain ⟨taken, left⟩ := cut_body inside none
  rw [List.append_nil] at taken left
  rw [controlSequence, escape, splitKeys]
  split
  · rw [taken]
    rfl
  · next behind cut => cases left.symm.trans cut

theorem splitKeys_sequence (inside : body.any isFinal = false) (ends : isFinal final = true) :
    splitKeys (controlSequence (body ++ [final]) ++ rest) =
      controlSequence (body ++ [final]) :: splitKeys rest := by
  have last : ∀ c ∈ (final :: rest).head?, isFinal c = true := by simpa using ends
  obtain ⟨taken, left⟩ := cut_body inside last
  have whole : controlSequence (body ++ [final]) ++ rest =
      '\x1b' :: '[' :: (body ++ final :: rest) := by simp [controlSequence, escape]
  rw [whole, splitKeys]
  split
  · next cut => cases left.symm.trans cut
  · next other behind cut =>
      cases left.symm.trans cut
      rw [taken]
      rfl

/-- Cutting a text into events loses nothing. -/
theorem flatten_splitKeys (text : Text) : (splitKeys text).flatten = text := by
  induction text using unit_induction with
  | nil => rw [splitKeys_nil]; rfl
  | single c rest single ih => rw [splitKeys_single single, List.flatten_cons, ih]; rfl
  | sequence body final rest inside ends ih =>
      rw [splitKeys_sequence inside ends, List.flatten_cons, ih]
  | unfinished body inside => rw [splitKeys_unfinished inside, List.flatten_singleton]

theorem splitKeys_ne_nil (some : text ≠ []) : splitKeys text ≠ [] := by
  intro none
  have whole := flatten_splitKeys text
  rw [none] at whole
  exact some whole.symm

end Units

/-! ### Texts that end outside sequences -/

mutual

/-- Whether a text does not end inside a control sequence. -/
def endsOutside : Text → Bool
  | [] => true
  | '\x1b' :: '[' :: rest => endsOutsideAfterOpening rest
  | _ :: rest => endsOutside rest

/-- The same for a text that goes on a control sequence. -/
def endsOutsideAfterOpening : Text → Bool
  | [] => false
  | c :: rest => if isFinal c then endsOutside rest else endsOutsideAfterOpening rest

end

section Showing

variable {c final : Char} {text body rest : Text}

theorem visible_single (single : ¬ Opens c text) : visible (c :: text) = c :: visible text :=
  visible.eq_3 c text (not_opens_iff.mp single)

/-- Nothing is visible of a sequence that is not finished. -/
theorem visible_unfinished (inside : body.any isFinal = false) :
    visible (controlSequence body) = [] := by
  rw [controlSequence, escape, visible]
  induction body with
  | nil => rfl
  | cons c body ih =>
      obtain ⟨here, inside⟩ := Bool.or_eq_false_iff.mp inside
      rw [visibleAfterOpening, if_neg (by simp [here]), ih inside]

theorem any_isFinal_append_escape (inside : body.any isFinal = false) :
    (body ++ [escape]).any isFinal = false := by
  rw [List.any_append, inside]
  decide

/-- A sequence that begins inside another one ends that with its bracket. -/
theorem controlSequence_append (body next : Text) :
    controlSequence body ++ controlSequence next =
      controlSequence (body ++ [escape] ++ ['[']) ++ next := by
  simp [controlSequence]

theorem endsOutside_single (single : ¬ Opens c text) :
    endsOutside (c :: text) = endsOutside text :=
  endsOutside.eq_3 c text (not_opens_iff.mp single)

theorem endsOutside_unfinished (inside : body.any isFinal = false) :
    endsOutside (controlSequence body) = false := by
  rw [controlSequence, escape, endsOutside]
  induction body with
  | nil => rfl
  | cons c body ih =>
      obtain ⟨here, inside⟩ := Bool.or_eq_false_iff.mp inside
      rw [endsOutsideAfterOpening, if_neg (by simp [here]), ih inside]

theorem endsOutside_sequence (inside : body.any isFinal = false) (ends : isFinal final = true) :
    endsOutside (controlSequence (body ++ [final]) ++ rest) = endsOutside rest := by
  have whole : controlSequence (body ++ [final]) ++ rest =
      '\x1b' :: '[' :: (body ++ final :: rest) := by simp [controlSequence, escape]
  rw [whole, endsOutside]
  induction body with
  | nil => rw [List.nil_append, endsOutsideAfterOpening, if_pos ends]
  | cons c body ih =>
      obtain ⟨here, inside⟩ := Bool.or_eq_false_iff.mp inside
      rw [List.cons_append, endsOutsideAfterOpening, if_neg (by simp [here])]
      exact ih inside (by simp [controlSequence, escape])

end Showing

/-! ### Borders -/

/-- Whether the border between two stretches of text is a border between units. -/
structure Joins (front rest : Text) : Prop where
  outside : endsOutside front = true
  /-- The rest does not make an escape character open a sequence. -/
  unopened : front.getLast? = some escape → rest.head? ≠ some '['

instance {front rest : Text} : Decidable (Joins front rest) :=
  decidable_of_iff
    (endsOutside front = true ∧ (front.getLast? = some escape → rest.head? ≠ some '['))
    ⟨fun joins => ⟨joins.1, joins.2⟩, fun joins => ⟨joins.1, joins.2⟩⟩

section Borders

variable {c final : Char} {front body rest : Text}

theorem getLast?_append_of_getLast? {before : Text} (last : front.getLast? = some c) :
    (before ++ front).getLast? = some c := by
  rw [List.getLast?_append, last]
  rfl

/-- A character that ends no sequence is the last one only if it stands behind them. -/
theorem getLast?_of_sequence (ends : isFinal final = true) (other : isFinal c = false)
    (last : (controlSequence (body ++ [final]) ++ rest).getLast? = some c) :
    rest.getLast? = some c := by
  cases rest with
  | nil =>
      rw [List.append_nil] at last
      have closed : (controlSequence body ++ [final]).getLast? = some final :=
        getLast?_append_of_getLast? rfl
      obtain rfl := Option.some.inj (last.symm.trans closed)
      rw [ends] at other
      cases other
  | cons d rest =>
      rw [List.getLast?_append] at last
      simpa using last

/-- What stands behind a character that opens no sequence joins what comes next, and still
opens none. -/
theorem Joins.tail (joins : Joins (c :: front) rest) (single : ¬ Opens c front) :
    Joins front rest ∧ ¬ Opens c (front ++ rest) := by
  refine ⟨⟨(endsOutside_single single).symm.trans joins.outside, fun last => ?_⟩, ?_⟩
  · have whole : ([c] ++ front).getLast? = some escape := getLast?_append_of_getLast? last
    exact joins.unopened whole
  · rintro ⟨rfl, first⟩
    cases front with
    | nil => exact joins.unopened rfl first
    | cons d front => exact single ⟨rfl, first⟩

theorem Joins.cons (joins : Joins front rest) (single : ¬ Opens c (front ++ rest)) :
    Joins (c :: front) rest := by
  have outside : ¬ Opens c front := fun opens => single ⟨opens.1, by simp [opens.2]⟩
  refine ⟨(endsOutside_single outside).trans joins.outside, fun last first => ?_⟩
  cases front with
  | nil =>
      obtain rfl := Option.some.inj last
      exact single ⟨rfl, first⟩
  | cons d front => exact joins.unopened (by rwa [List.getLast?_cons_cons] at last) first

/-- A whole sequence in front makes no difference. -/
theorem joins_sequence (inside : body.any isFinal = false) (ends : isFinal final = true) :
    Joins (controlSequence (body ++ [final]) ++ front) rest ↔ Joins front rest := by
  have outside : endsOutside (controlSequence (body ++ [final]) ++ front) = endsOutside front :=
    endsOutside_sequence inside ends
  constructor
  · intro joins
    exact ⟨outside.symm.trans joins.outside,
      fun last => joins.unopened (getLast?_append_of_getLast? last)⟩
  · intro joins
    exact ⟨outside.trans joins.outside,
      fun last => joins.unopened (getLast?_of_sequence ends (by decide) last)⟩

theorem not_joins_unfinished (inside : body.any isFinal = false) :
    ¬ Joins (controlSequence body) rest := by
  intro joins
  have outside := joins.outside
  rw [endsOutside_unfinished inside] at outside
  cases outside

/-- Where a border between units is, the events are those of both sides. -/
theorem splitKeys_append (joins : Joins front rest) :
    splitKeys (front ++ rest) = splitKeys front ++ splitKeys rest := by
  induction front using unit_induction with
  | nil => rw [splitKeys_nil]; rfl
  | single c front single ih =>
      obtain ⟨behind, still⟩ := joins.tail single
      rw [List.cons_append, splitKeys_single still, splitKeys_single single, ih behind,
        List.cons_append]
  | sequence body final front inside ends ih =>
      rw [List.append_assoc, splitKeys_sequence inside ends, splitKeys_sequence inside ends,
        ih ((joins_sequence inside ends).mp joins), List.cons_append]
  | unfinished body inside => exact absurd joins (not_joins_unfinished inside)

/-- Where a border between units is, both sides are shown one behind the other. -/
theorem visible_append (joins : Joins front rest) :
    visible (front ++ rest) = visible front ++ visible rest := by
  induction front using unit_induction with
  | nil => rfl
  | single c front single ih =>
      obtain ⟨behind, still⟩ := joins.tail single
      rw [List.cons_append, visible_single still, visible_single single, ih behind,
        List.cons_append]
  | sequence body final front inside ends ih =>
      rw [List.append_assoc, visible_controlSequence body final inside ends,
        visible_controlSequence body final inside ends,
        ih ((joins_sequence inside ends).mp joins)]
  | unfinished body inside => exact absurd joins (not_joins_unfinished inside)

/-- An event that opens a sequence takes more than a part of it that has no final
character, if there is more. -/
theorem exists_of_splitKeys_opening {event : Text} {events : List Text}
    (cut : splitKeys (controlSequence (body ++ rest)) = event :: events)
    (inside : body.any isFinal = false) :
    ∃ more, event = controlSequence (body ++ more) ∧ (rest ≠ [] → more ≠ []) := by
  rcases final_cases rest with none | ⟨more, final, behind, rfl, inside', ends⟩
  · rw [splitKeys_unfinished (by rw [List.any_append, inside, none]; rfl)] at cut
    exact ⟨rest, (List.cons.inj cut).1.symm, id⟩
  · have whole : controlSequence (body ++ (more ++ [final] ++ behind)) =
        controlSequence (body ++ more ++ [final]) ++ behind := by
      simp [controlSequence]
    rw [whole, splitKeys_sequence (by rw [List.any_append, inside, inside']; rfl) ends] at cut
    exact ⟨more ++ [final], by rw [← (List.cons.inj cut).1, List.append_assoc], by simp⟩

/-- Nowhere else are the events in front of a border those of the front alone. -/
theorem Joins.of_splitKeys {events : List Text} (some : rest ≠ [])
    (cut : splitKeys (front ++ rest) = splitKeys front ++ events) : Joins front rest := by
  induction front using unit_induction with
  | nil => exact ⟨rfl, nofun⟩
  | single c front single ih =>
      rw [splitKeys_single single, List.cons_append, List.cons_append] at cut
      by_cases opens : Opens c (front ++ rest)
      · obtain ⟨rfl, first⟩ := opens
        obtain ⟨behind, same⟩ := List.head?_eq_some_iff.mp first
        rw [same] at cut
        have opened : splitKeys (controlSequence ([] ++ behind)) = [escape] :: _ := cut
        obtain ⟨more, event, -⟩ := exists_of_splitKeys_opening opened rfl
        cases event
      · rw [splitKeys_single opens] at cut
        exact (ih (List.cons.inj cut).2).cons opens
  | sequence body final front inside ends ih =>
      rw [List.append_assoc, splitKeys_sequence inside ends, splitKeys_sequence inside ends,
        List.cons_append] at cut
      exact (joins_sequence inside ends).mpr (ih (List.cons.inj cut).2)
  | unfinished body inside =>
      rw [splitKeys_unfinished inside] at cut
      obtain ⟨more, event, longer⟩ := exists_of_splitKeys_opening cut inside
      have none : more = [] := by simpa [controlSequence] using event
      exact absurd none (longer some)

end Borders

end LineShell
