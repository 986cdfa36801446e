/-
Module: LineShell.Proofs.Terminal.Events
Purpose: The events of a text are the one way of cutting it into single characters and control
  sequences, and the columns that it takes are the events that are single characters.
Main exports: Unfinished, IsEvent, Cuts, cuts_splitKeys, Cuts.eq_splitKeys, endsOutside_iff,
  visible_eq_flatten, visibleWidth_eq_countP, visibleWidth_paint, events_cut_without_loss,
  columns_are_single_events
-/
import LineShell.Proofs.Terminal.Sequences

namespace LineShell

/-!
Control sequences are looked for twice: in input, which is cut into events, and in output,
whose columns are counted.  What an event may be is said here without looking at how the text
is cut, by the events that stand behind it.  A text can be cut into such events in one way only.
The columns are those of the events that are single characters, so both agree on every
character of every text, however its sequences are broken.
-/

/-! ### What events are -/

/-- Whether an event is a sequence whose final character has not come. -/
def Unfinished (event : Text) : Prop :=
  ∃ body, event = controlSequence body ∧ body.any isFinal = false

instance : DecidablePred Unfinished
  | [] | [_] => .isFalse (by rintro ⟨body, ⟨⟩, -⟩)
  | c :: d :: body =>
      decidable_of_iff ((c = escape ∧ d = '[') ∧ body.any isFinal = false) (by
        constructor
        · rintro ⟨⟨rfl, rfl⟩, inside⟩
          exact ⟨body, rfl, inside⟩
        · rintro ⟨body, ⟨⟩, inside⟩
          exact ⟨⟨rfl, rfl⟩, inside⟩)

/-- What an event is that has other events behind it: a character that opens no sequence with
the text behind it, a sequence up to its first final character, or, behind all others, a
sequence without one. -/
inductive IsEvent (later : List Text) : Text → Prop where
  | character (c : Char) (single : ¬ Opens c later.flatten) : IsEvent later [c]
  | sequence (body : Text) (final : Char) (inside : body.any isFinal = false)
      (ends : isFinal final = true) : IsEvent later (controlSequence (body ++ [final]))
  | unfinished (body : Text) (inside : body.any isFinal = false) (last : later = []) :
      IsEvent later (controlSequence body)

/-- Whether events are a text that was cut. -/
structure Cuts (events : List Text) (text : Text) : Prop where
  whole : events.flatten = text
  nonempty : [] ∉ events
  each : ∀ before event later, events = before ++ event :: later → IsEvent later event

section Events

variable {c final : Char} {text rest body event : Text} {events before later : List Text}

theorem not_unfinished_character : ¬ Unfinished [c] := by
  rintro ⟨body, ⟨⟩, -⟩

theorem not_unfinished_sequence (ends : isFinal final = true) :
    ¬ Unfinished (controlSequence (body ++ [final])) := by
  rintro ⟨other, same, inside⟩
  obtain rfl : body ++ [final] = other := by simpa [controlSequence] using same
  simp [ends] at inside

namespace IsEvent

theorem ne_nil (isEvent : IsEvent later event) : event ≠ [] := by
  cases isEvent <;> exact List.cons_ne_nil _ _

/-- No event stands behind one that is not finished. -/
theorem eq_nil_of_unfinished (isEvent : IsEvent later event) (unfinished : Unfinished event) :
    later = [] := by
  cases isEvent with
  | character c single => exact absurd unfinished not_unfinished_character
  | sequence body final inside ends => exact absurd unfinished (not_unfinished_sequence ends)
  | unfinished body inside last => exact last

/-- Events farther behind make no difference to one that others stand behind or that is
finished. -/
theorem of_append (isEvent : IsEvent (before ++ later) event) (more : later ≠ []) :
    IsEvent before event := by
  cases isEvent with
  | character c single =>
      refine .character c fun opens => single ⟨opens.1, ?_⟩
      rw [List.flatten_append, List.head?_append, opens.2]
      rfl
  | sequence body final inside ends => exact .sequence body final inside ends
  | unfinished body inside last => exact absurd (List.append_eq_nil_iff.mp last).2 more

/-- A character that starts no sequence is alone. -/
theorem length_eq_one (isEvent : IsEvent later event) (other : ¬ [escape, '['] <+: event) :
    event.length = 1 := by
  cases isEvent with
  | character c single => rfl
  | sequence body final inside ends => exact absurd (List.prefix_append _ _) other
  | unfinished body inside last => exact absurd (List.prefix_append _ _) other

end IsEvent

/-! ### The one way of cutting -/

theorem cuts_nil : Cuts [] [] :=
  ⟨rfl, nofun, fun before event later split => by simp at split⟩

namespace Cuts

theorem cons (cuts : Cuts later rest) (isEvent : IsEvent later event) :
    Cuts (event :: later) (event ++ rest) := by
  refine ⟨?_, ?_, fun before other behind split => ?_⟩
  · rw [List.flatten_cons, cuts.whole]
  · rw [List.mem_cons]
    rintro (none | inside)
    · exact isEvent.ne_nil none.symm
    · exact cuts.nonempty inside
  · cases before with
    | nil =>
        obtain ⟨rfl, rfl⟩ := List.cons.inj split
        exact isEvent
    | cons first before => exact cuts.each before other behind (List.cons.inj split).2

theorem head (cuts : Cuts (event :: later) text) : IsEvent later event :=
  cuts.each [] event later rfl

theorem tail (cuts : Cuts (event :: later) text) : Cuts later later.flatten :=
  ⟨rfl, fun inside => cuts.nonempty (List.mem_cons_of_mem event inside),
    fun before other behind split => cuts.each (event :: before) other behind (by rw [split]; rfl)⟩

/-- The events in front of another one cut the text in front of it. -/
theorem init (cuts : Cuts (before ++ later) text) (more : later ≠ []) :
    Cuts before before.flatten := by
  refine ⟨rfl, fun inside => cuts.nonempty (List.mem_append_left later inside), ?_⟩
  rintro front event behind rfl
  have isEvent := cuts.each front event (behind ++ later) (by simp)
  exact isEvent.of_append more

/-- There is no other way to cut a text than into its events. -/
theorem eq_splitKeys (cuts : Cuts events text) : events = splitKeys text := by
  obtain rfl := cuts.whole
  induction events with
  | nil => exact splitKeys_nil.symm
  | cons event later ih =>
      have behind : later = splitKeys later.flatten := ih cuts.tail
      rw [List.flatten_cons]
      cases cuts.head with
      | character c single => rw [List.singleton_append, splitKeys_single single, ← behind]
      | sequence body final inside ends => rw [splitKeys_sequence inside ends, ← behind]
      | unfinished body inside last =>
          rw [last, List.flatten_nil, List.append_nil, splitKeys_unfinished inside]

end Cuts

/-- The events of a text cut it. -/
theorem cuts_splitKeys (text : Text) : Cuts (splitKeys text) text := by
  induction text using unit_induction with
  | nil =>
      rw [splitKeys_nil]
      exact cuts_nil
  | single c rest single ih =>
      rw [splitKeys_single single]
      exact ih.cons (.character c (by rwa [flatten_splitKeys]))
  | sequence body final rest inside ends ih =>
      rw [splitKeys_sequence inside ends]
      exact ih.cons (.sequence body final inside ends)
  | unfinished body inside =>
      rw [splitKeys_unfinished inside]
      have alone := cuts_nil.cons (.unfinished body inside rfl)
      rwa [List.append_nil] at alone

theorem exists_isEvent (member : event ∈ splitKeys text) :
    ∃ before later, splitKeys text = before ++ event :: later ∧ IsEvent later event := by
  obtain ⟨before, later, split⟩ := List.append_of_mem member
  exact ⟨before, later, split, (cuts_splitKeys text).each before event later split⟩

/-! ### The last event -/

/-- Only the last event can be one that is not finished. -/
theorem getLast?_of_unfinished (member : event ∈ splitKeys text)
    (unfinished : Unfinished event) : (splitKeys text).getLast? = some event := by
  obtain ⟨before, later, split, isEvent⟩ := exists_isEvent member
  rw [split, isEvent.eq_nil_of_unfinished unfinished]
  exact List.getLast?_concat

theorem endsOutside_iff_forall (text : Text) :
    endsOutside text = true ↔ ∀ event ∈ splitKeys text, ¬ Unfinished event := by
  induction text using unit_induction with
  | nil => exact iff_of_true rfl (by rw [splitKeys_nil]; nofun)
  | single c rest single ih =>
      rw [endsOutside_single single, splitKeys_single single, List.forall_mem_cons, ih]
      exact (and_iff_right not_unfinished_character).symm
  | sequence body final rest inside ends ih =>
      rw [endsOutside_sequence inside ends, splitKeys_sequence inside ends,
        List.forall_mem_cons, ih]
      exact (and_iff_right (not_unfinished_sequence ends)).symm
  | unfinished body inside =>
      rw [endsOutside_unfinished inside, splitKeys_unfinished inside, List.forall_mem_singleton]
      exact iff_of_false Bool.false_ne_true (not_not_intro ⟨body, rfl, inside⟩)

/-- A text ends outside sequences exactly if its last event waits for no final character. -/
theorem endsOutside_iff (text : Text) :
    endsOutside text = true ↔ ∀ event ∈ (splitKeys text).getLast?, ¬ Unfinished event := by
  rw [endsOutside_iff_forall]
  constructor
  · intro finished event last
    exact finished event (List.mem_of_getLast? last)
  · intro finished event member unfinished
    exact finished event (getLast?_of_unfinished member unfinished) unfinished

/-- A text that ends inside a sequence is one that does not, and a sequence without its final
character behind it. -/
theorem exists_unfinished (within : endsOutside text = false) :
    ∃ front body, text = front ++ controlSequence body ∧ endsOutside front = true ∧
      body.any isFinal = false := by
  have some : ¬ ∀ event ∈ splitKeys text, ¬ Unfinished event := by
    rw [← endsOutside_iff_forall, within]
    exact Bool.false_ne_true
  obtain ⟨event, member, body, rfl, inside⟩ : ∃ event ∈ splitKeys text, Unfinished event := by
    simpa using some
  obtain ⟨before, split⟩ :=
    List.getLast?_eq_some_iff.mp (getLast?_of_unfinished member ⟨body, rfl, inside⟩)
  have cuts := cuts_splitKeys text
  rw [split] at cuts
  refine ⟨before.flatten, body, ?_, ?_, inside⟩
  · rw [← cuts.whole, List.flatten_append, List.flatten_singleton]
  · -- behind one that is not finished there would be no other event
    rw [endsOutside_iff_forall, ← (cuts.init (List.cons_ne_nil _ _)).eq_splitKeys]
    intro event inFront unfinished
    obtain ⟨first, others, rfl⟩ := List.append_of_mem inFront
    have isEvent := cuts.each first event (others ++ [controlSequence body]) (by simp)
    exact absurd (isEvent.eq_nil_of_unfinished unfinished) (by simp)

/-! ### Columns -/

/-- What is visible of a text are its events that do not start as sequences do. -/
theorem visible_eq_flatten (text : Text) :
    visible text = ((splitKeys text).filter fun event => ¬ [escape, '['] <+: event).flatten := by
  have started : ∀ body, [escape, '['] <+: controlSequence body :=
    fun body => List.prefix_append [escape, '['] body
  induction text using unit_induction with
  | nil => rw [splitKeys_nil]; rfl
  | single c rest single ih =>
      have other : ¬ [escape, '['] <+: [c] := fun starts => by simpa using starts.length_le
      rw [visible_single single, splitKeys_single single,
        List.filter_cons_of_pos (by simp [other]), List.flatten_cons, ih]
      rfl
  | sequence body final rest inside ends ih =>
      rw [visible_controlSequence body final inside ends, splitKeys_sequence inside ends,
        List.filter_cons_of_neg (by simp [started]), ih]
  | unfinished body inside =>
      rw [visible_unfinished inside, splitKeys_unfinished inside,
        List.filter_cons_of_neg (by simp [started])]
      rfl

/-- A text takes as many columns as it has events that do not start as sequences do. -/
theorem visibleWidth_eq_countP (text : Text) :
    visibleWidth text = (splitKeys text).countP fun event => ¬ [escape, '['] <+: event := by
  rw [← length_visible, visible_eq_flatten, List.length_flatten, List.countP_eq_length_filter]
  generalize shown : (splitKeys text).filter (fun event => ¬ [escape, '['] <+: event) = events
  have alone : ∀ event ∈ events, event.length = 1 := by
    intro event member
    obtain ⟨among, other⟩ := List.mem_filter.mp (shown ▸ member)
    obtain ⟨before, later, -, isEvent⟩ := exists_isEvent among
    exact isEvent.length_eq_one (by simpa using other)
  rw [List.map_congr_left alone, List.map_const', List.sum_replicate_nat, Nat.mul_one]

/-- Where a border between units is, the columns of both sides add up. -/
theorem visibleWidth_append (joins : Joins text rest) :
    visibleWidth (text ++ rest) = visibleWidth text + visibleWidth rest := by
  rw [← length_visible, visible_append joins, List.length_append, length_visible, length_visible]

/-- Painting leaves the columns of a text as they are exactly if it ends outside sequences: a
sequence that is left open is ended by the bracket of the one that selects the default colour,
and the rest of that one is shown. -/
theorem visibleWidth_paint (text : Text) (colour : Colour) :
    visibleWidth (paint text colour) =
      visibleWidth text + if endsOutside text then 0 else 2 := by
  have coloured : visibleWidth (paint text colour) = visibleWidth (text ++ resetColour) := by
    rw [paint, List.append_assoc, ← length_visible, visible_code, length_visible]
  rw [coloured]
  cases outside : endsOutside text with
  | true =>
      have joins : Joins text resetColour := ⟨outside, fun _ => by decide⟩
      rw [visibleWidth_append joins]
      rfl
  | false =>
      obtain ⟨front, body, rfl, outside, inside⟩ := exists_unfinished outside
      have joins : ∀ rest : Text, rest.head? = some escape → Joins front rest :=
        fun rest first => ⟨outside, fun _ => by simp [first, escape]⟩
      have hidden : visibleWidth (controlSequence body) = 0 := by
        rw [← length_visible, visible_unfinished inside]
        rfl
      have shown : visibleWidth (controlSequence body ++ resetColour) = 2 := by
        rw [resetColour, controlSequence_append, ← length_visible,
          visible_controlSequence _ _ (any_isFinal_append_escape inside) (by decide)]
        rfl
      rw [List.append_assoc, visibleWidth_append (joins _ rfl),
        visibleWidth_append (joins _ rfl), hidden, shown]
      rfl

end Events

/-! ### Both scanners -/

/-- The events of any text cut it, and nothing else does: in a row they are the text, none is
empty, and each is a character that opens no sequence or a sequence up to its first final
character, which only the last one may lack.  Behind a text that ends neither with an escape
character nor with such a sequence the events of any other follow as they are. -/
theorem events_cut_without_loss :
    (∀ text, Cuts (splitKeys text) text) ∧
      (∀ events text, Cuts events text → events = splitKeys text) ∧
      ∀ front rest : Text, front.getLast? ≠ some escape →
        (∀ event ∈ (splitKeys front).getLast?, ¬ Unfinished event) →
        splitKeys (front ++ rest) = splitKeys front ++ splitKeys rest := by
  refine ⟨cuts_splitKeys, fun events text cuts => cuts.eq_splitKeys, ?_⟩
  intro front rest other finished
  have outside : endsOutside front = true := (endsOutside_iff front).mpr finished
  exact splitKeys_append ⟨outside, fun last => absurd last other⟩

/-- Two escape characters in a row, a line end inside a sequence, and a sequence that is not
finished. -/
theorem events_cut_without_loss_broken :
    let front : Text := "\x1b\x1b[1\rAx"
    let rest : Text := "[\x1b[3"
    front.getLast? ≠ some escape ∧ (∀ event ∈ (splitKeys front).getLast?, ¬ Unfinished event) ∧
      splitKeys (front ++ rest) = [[escape], controlSequence "1\rA", ['x'], ['['],
        controlSequence "3"] := by
  intro front rest
  have other : front.getLast? ≠ some escape := by decide
  have finished : ∀ event ∈ (splitKeys front).getLast?, ¬ Unfinished event := by decide +kernel
  refine ⟨other, finished, ?_⟩
  rw [events_cut_without_loss.2.2 front rest other finished]
  decide +kernel

/-- The columns of any text are its events that do not start as sequences do.  Behind a text that
ends neither with an escape character nor inside a sequence the columns of any other are added,
and painting changes no columns of a text that does not end inside a sequence. -/
theorem columns_are_single_events :
    (∀ text, visibleWidth text = (splitKeys text).countP fun event => ¬ [escape, '['] <+: event) ∧
      (∀ front rest : Text, front.getLast? ≠ some escape → endsOutside front = true →
        visibleWidth (front ++ rest) = visibleWidth front + visibleWidth rest) ∧
      ∀ (text : Text) (colour : Colour), endsOutside text = true →
        visibleWidth (paint text colour) = visibleWidth text := by
  refine ⟨visibleWidth_eq_countP, ?_, ?_⟩
  · intro front rest other outside
    exact visibleWidth_append ⟨outside, fun last => absurd last other⟩
  · intro text colour outside
    rw [visibleWidth_paint, if_pos outside, Nat.add_zero]

/-- A painted text with an escape character at its end, and a character and a sequence that is
not finished behind it. -/
theorem columns_are_single_events_broken :
    let text : Text := "ab\x1b"
    let front := paint text (.palette 93)
    endsOutside text = true ∧ front.getLast? ≠ some escape ∧ endsOutside front = true ∧
      visibleWidth front = 3 ∧ visibleWidth (front ++ 'd' :: controlSequence "3") = 4 := by
  intro text front
  have whole : endsOutside text = true := by decide
  have other : front.getLast? ≠ some escape := by decide
  have outside : endsOutside front = true := by decide
  have width : visibleWidth front = 3 := columns_are_single_events.2.2 text (.palette 93) whole
  refine ⟨whole, other, outside, width, ?_⟩
  rw [columns_are_single_events.2.1 front _ other outside, width]
  decide

end LineShell
