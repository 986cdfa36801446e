/-
Module: LineShell.Proofs.Terminal.Visible
Purpose: The characters of a text that a terminal shows, and how painting leaves them as
  they are.
Main exports: visible, length_visible, Plain, Shows, Renders, renders_self, renders_paint
-/
import LineShell.Terminal.Width

namespace LineShell

/-!
What is written to a terminal is shown but for the control sequences in it.  A text in
which no such sequence begins is shown as it is.  It can be cut into pieces, and each
piece painted or not, and the same characters are shown: a painted piece ends with the
start of a sequence, so an escape character at the end of a piece is still shown.  The
lemmas build a line from its end, since what stands behind an escape character decides
whether it is shown.
-/

/-! ### Without control sequences -/

mutual

/-- The characters outside control sequences.  An escape character without a bracket
behind it is one of them. -/
def visible : Text → Text
  | [] => []
  | '\x1b' :: '[' :: rest => visibleAfterOpening rest
  | c :: rest => c :: visible rest

/-- The same inside a control sequence. -/
def visibleAfterOpening : Text → Text
  | [] => []
  | c :: rest => if isFinal c then visible rest else visibleAfterOpening rest

end

/-- The columns that a text takes are those of the characters that are shown. -/
theorem length_visible (text : Text) : (visible text).length = visibleWidth text := by
  refine visible.induct (fun text => (visible text).length = visibleWidth text)
    (fun text => (visibleAfterOpening text).length = widthAfterOpening text)
    rfl ?opening ?shown rfl ?final ?inside text
  case opening =>
    intro rest ih
    rw [visible, visibleWidth]
    exact ih
  case shown =>
    intro c rest other ih
    rw [visible.eq_3 c rest other, visibleWidth.eq_3 c rest other, List.length_cons, ih]
  case final =>
    intro c rest final ih
    rw [visibleAfterOpening, widthAfterOpening, if_pos final, if_pos final]
    exact ih
  case inside =>
    intro c rest inside ih
    rw [visibleAfterOpening, widthAfterOpening, if_neg inside, if_neg inside]
    exact ih

/-- A control sequence shows nothing up to its final character. -/
theorem visibleAfterOpening_append {body : Text} (inside : body.any isFinal = false)
    {final : Char} (ends : isFinal final = true) (rest : Text) :
    visibleAfterOpening (body ++ final :: rest) = visible rest := by
  induction body with
  | nil => rw [List.nil_append, visibleAfterOpening, if_pos ends]
  | cons c body ih =>
      obtain ⟨here, inside⟩ := Bool.or_eq_false_iff.mp inside
      rw [List.cons_append, visibleAfterOpening, if_neg (by simp [here]), ih inside]

/-- A control sequence is not shown. -/
theorem visible_controlSequence (body : Text) (final : Char)
    (inside : body.any isFinal = false) (ends : isFinal final = true) (rest : Text) :
    visible (controlSequence (body ++ [final]) ++ rest) = visible rest := by
  have opened : controlSequence (body ++ [final]) ++ rest =
      '\x1b' :: '[' :: (body ++ final :: rest) := by
    simp [controlSequence, escape]
  rw [opened, visible, visibleAfterOpening_append inside ends]

/-- No digit ends a control sequence. -/
theorem isFinal_of_isDigit {c : Char} (digit : c.isDigit = true) : isFinal c = false := by
  have below : ¬ '@' ≤ c := by
    simp only [Char.isDigit, Bool.and_eq_true, decide_eq_true_eq, Char.le_def,
      UInt32.le_iff_toNat_le] at digit ⊢
    have nine : '9'.val.toNat = 57 := rfl
    have first : '@'.val.toNat = 64 := rfl
    omega
  simp [isFinal, below]

theorem isFinal_of_mem_ofInt {n : Int} {c : Char} (member : c ∈ Text.ofInt n) :
    isFinal c = false := by
  have digits : ∀ k : Nat, c ∈ Text.ofNat k → isFinal c = false := fun k member =>
    isFinal_of_isDigit (Nat.isDigit_of_mem_toDigits (by decide) (by decide) member)
  cases n with
  | ofNat k => exact digits k member
  | negSucc k =>
      rcases List.mem_cons.mp member with rfl | member
      · decide
      · exact digits (k + 1) member

/-- Selecting a colour is not shown. -/
theorem visible_code (colour : Colour) (rest : Text) :
    visible (colour.code ++ rest) = visible rest := by
  have basic : ∀ digits : Text, digits.any isFinal = false →
      visible (controlSequence (digits ++ ['m']) ++ rest) = visible rest :=
    fun digits inside => visible_controlSequence digits 'm' inside (by decide) rest
  cases colour with
  | red => exact basic ['3', '1'] (by decide)
  | green => exact basic ['3', '2'] (by decide)
  | yellow => exact basic ['3', '3'] (by decide)
  | blue => exact basic ['3', '4'] (by decide)
  | purple => exact basic ['3', '5'] (by decide)
  | palette index =>
      refine basic (['3', '8', ';', '5', ';'] ++ Text.ofInt index) ?_
      have number : (Text.ofInt index).any isFinal = false :=
        List.any_eq_false.mpr fun c member => by simp [isFinal_of_mem_ofInt member]
      rw [List.any_append, number]
      decide

theorem visible_resetColour (rest : Text) : visible (resetColour ++ rest) = visible rest :=
  visible_controlSequence ['0'] 'm' (by decide) (by decide) rest

theorem head_code (colour : Colour) (rest : Text) :
    (colour.code ++ rest).head? = some escape := by
  cases colour <;> rfl

/-! ### Plain text -/

/-- Whether no control sequence begins in a text. -/
def Plain (text : Text) : Prop :=
  ¬ [escape, '['] <:+: text

/-- Whether a terminal shows one text where another one is written to it, even behind an
escape character. -/
structure Shows (written shown : Text) : Prop where
  visible : visible written = shown
  opens : written.head? = some '[' → shown.head? = some '['

section Shows

variable {written shown front : Text} {c : Char}

theorem Plain.of_append (plain : Plain (front ++ shown)) : Plain shown :=
  fun inside => plain (inside.trans (List.suffix_append _ _).isInfix)

theorem Plain.tail (plain : Plain (c :: shown)) : Plain shown := by
  have split : Plain ([c] ++ shown) := plain
  exact split.of_append

theorem shows_nil : Shows [] [] :=
  ⟨rfl, fun none => none⟩

theorem Shows.cons (shows : Shows written shown) (plain : Plain (c :: shown)) :
    Shows (c :: written) (c :: shown) := by
  have outside : ∀ rest, c = '\x1b' → written = '[' :: rest → False := by
    rintro rest rfl rfl
    obtain ⟨behind, rfl⟩ := List.head?_eq_some_iff.mp (shows.opens rfl)
    exact plain (List.prefix_append [escape, '['] behind).isInfix
  refine ⟨?_, fun first => first⟩
  rw [visible.eq_3 c written outside, shows.visible]

/-- A colour shows nothing. -/
theorem Shows.code (shows : Shows written shown) (colour : Colour) :
    Shows (colour.code ++ written) shown := by
  refine ⟨(visible_code colour written).trans shows.visible, fun first => ?_⟩
  rw [head_code] at first
  exact absurd first (by decide)

theorem Shows.resetColour (shows : Shows written shown) : Shows (resetColour ++ written) shown :=
  ⟨(visible_resetColour written).trans shows.visible,
    fun first => absurd (Option.some.inj first) (by decide)⟩

end Shows

/-! ### Pieces -/

/-- Whether a piece of what is written is shown as a piece of text, whatever is shown
behind it, as long as no control sequence begins in the text. -/
def Renders (piece text : Text) : Prop :=
  ∀ written shown, Shows written shown → Plain (text ++ shown) →
    Shows (piece ++ written) (text ++ shown)

section Renders

variable {piece piece' text text' : Text}

theorem renders_nil : Renders [] [] :=
  fun _ _ shows _ => shows

theorem Renders.append (first : Renders piece text) (second : Renders piece' text') :
    Renders (piece ++ piece') (text ++ text') := by
  intro written shown shows plain
  rw [List.append_assoc] at plain
  have behind := second written shown shows plain.of_append
  have both := first _ _ behind plain
  rwa [← List.append_assoc, ← List.append_assoc] at both

/-- Plain text is shown as it is. -/
theorem renders_self (text : Text) : Renders text text := by
  intro written shown shows plain
  induction text with
  | nil => exact shows
  | cons c text ih => exact (ih plain.tail).cons plain

/-- Painted text is shown as it is. -/
theorem renders_paint (text : Text) (colour : Colour) : Renders (paint text colour) text := by
  intro written shown shows plain
  have painted := (renders_self text _ _ shows.resetColour plain).code colour
  rwa [← List.append_assoc, ← List.append_assoc] at painted

theorem renders_flatMap {α : Type} {view text : α → Text} {list : List α}
    (each : ∀ a ∈ list, Renders (view a) (text a)) :
    Renders (list.flatMap view) (list.flatMap text) := by
  induction list with
  | nil => exact renders_nil
  | cons a list ih =>
      obtain ⟨here, others⟩ := List.forall_mem_cons.mp each
      exact here.append (ih others)

/-- What renders a text without control sequences shows that text. -/
theorem Renders.visible (renders : Renders piece text) (plain : Plain text) :
    visible piece = text := by
  have shows := renders [] [] shows_nil (by rwa [List.append_nil])
  rw [List.append_nil, List.append_nil] at shows
  exact shows.visible

end Renders

end LineShell
