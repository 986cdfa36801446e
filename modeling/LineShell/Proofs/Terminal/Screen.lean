/-
Module: LineShell.Proofs.Terminal.Screen
Purpose: A terminal that takes what is written to it character by character and shows each
  in the colour that was selected last, and pieces that leave it as they found it.
Main exports: Screen, Screen.feed, Screen.write, Draws, Draws.append, draws_plain, draws_paint
-/
import LineShell.Proofs.Terminal.Visible

namespace LineShell

/-!
Whether a colour leaks is no property of any one piece of what is written: it depends on what
a terminal remembers from the pieces in front.  So the terminal is a machine here, which looks
at one character at a time.  A piece that is written to it in its default colour, and leaves it
in that colour with no sequence begun, can be described without its neighbours, and such pieces
can be put one behind the other.
-/

/-! ### The machine -/

/-- What has come so far of a control sequence. -/
inductive Pending where
  | none
  | escape
  | body (body : Text)
deriving DecidableEq, Repr

/-- A character as it is shown: with its colour, if that is not the default one. -/
abbrev Cell := Char × Option Colour

/-- The characters that a terminal shows, the colour that is selected, and what has come of
a control sequence. -/
structure Screen where
  cells : List Cell := []
  colour : Option Colour := none
  pending : Pending := .none
deriving DecidableEq, Repr

namespace Screen

/-- The numbers of a control sequence, which are separated by semicolons. -/
def fields (body : Text) : List Nat :=
  (body.splitOn ';').map (·.foldl (fun n digit => 10 * n + (digit.toNat - '0'.toNat)) 0)

/-- The colour behind a sequence that selects one, for the colours in use. -/
def select (colour : Option Colour) : List Nat → Option Colour
  | [] => colour
  | 0 :: others => select none others
  | 31 :: others => select (some .red) others
  | 32 :: others => select (some .green) others
  | 33 :: others => select (some .yellow) others
  | 34 :: others => select (some .blue) others
  | 35 :: others => select (some .purple) others
  | 38 :: 5 :: index :: others => select (some (.palette index)) others
  | _ :: others => select colour others

/-- A character outside control sequences. -/
def ground (screen : Screen) (c : Char) : Screen :=
  if c = escape then { screen with pending := .escape }
  else { screen with cells := screen.cells ++ [(c, screen.colour)], pending := .none }

/-- One more character.  An escape character without a bracket behind it is shown. -/
def feed (screen : Screen) (c : Char) : Screen :=
  match screen.pending with
  | .none => screen.ground c
  | .escape =>
      if c = '[' then { screen with pending := .body [] }
      else { screen with cells := screen.cells ++ [(escape, screen.colour)] }.ground c
  | .body body =>
      if isFinal c then
        { screen with
          colour := if c = 'm' then select screen.colour (fields body) else screen.colour
          pending := .none }
      else { screen with pending := .body (body ++ [c]) }

/-- A text, character by character. -/
def write (screen : Screen) (text : Text) : Screen :=
  text.foldl feed screen

section Writing

variable {cells : List Cell} {colour : Option Colour} {text : Text}

theorem write_append (screen : Screen) (first second : Text) :
    screen.write (first ++ second) = (screen.write first).write second :=
  List.foldl_append

/-- Text without escape characters is shown in the colour that is selected. -/
theorem write_plain (clean : escape ∉ text) :
    ({ cells := cells, colour := colour } : Screen).write text =
      { cells := cells ++ text.map (·, colour), colour := colour } := by
  induction text generalizing cells with
  | nil => simp [write]
  | cons c text ih =>
      obtain ⟨here, others⟩ := not_or.mp (mt List.mem_cons.mpr clean)
      have shown : ({ cells := cells, colour := colour } : Screen).feed c =
          { cells := cells ++ [(c, colour)], colour := colour } := if_neg (Ne.symm here)
      rw [write, List.foldl_cons, shown]
      exact (ih others).trans (by simp)

/-- Selecting one of the colours of a line shows nothing. -/
theorem write_code {select : Colour}
    (used : select ∈ [.red, .green, .yellow, .switch, .reference]) :
    ({ cells := cells, colour := colour } : Screen).write select.code =
      { cells := cells, colour := some select } := by
  simp only [List.mem_cons, List.not_mem_nil, or_false] at used
  rcases used with rfl | rfl | rfl | rfl | rfl <;> rfl

theorem write_resetColour :
    ({ cells := cells, colour := colour } : Screen).write resetColour = { cells := cells } :=
  rfl

end Writing

end Screen

/-! ### Pieces -/

/-- The characters of a text as cells, with the colours that their indices have. -/
def coloured (role : Nat → Option Colour) : Nat → Text → List Cell
  | _, [] => []
  | index, c :: text => (c, role index) :: coloured role (index + 1) text

/-- Whether a piece that is written from an index on, in the default colour, shows a text in the
colours that its indices have, and leaves the default colour behind. -/
def Draws (role : Nat → Option Colour) (index : Nat) (piece shown : Text) : Prop :=
  ∀ cells : List Cell, cells.length = index →
    ({ cells := cells } : Screen).write piece = { cells := cells ++ coloured role index shown }

section Pieces

variable {role : Nat → Option Colour} {index : Nat} {piece piece' shown shown' text : Text}

theorem length_coloured : (coloured role index text).length = text.length := by
  induction text generalizing index with
  | nil => rfl
  | cons c text ih => rw [coloured, List.length_cons, ih, List.length_cons]

theorem coloured_append : coloured role index (shown ++ shown') =
    coloured role index shown ++ coloured role (index + shown.length) shown' := by
  induction shown generalizing index with
  | nil => rfl
  | cons c shown ih =>
      rw [List.cons_append, coloured, coloured, ih, List.length_cons, List.cons_append,
        Nat.add_right_comm, Nat.add_assoc]

theorem getElem?_coloured {place : Nat} :
    (coloured role index text)[place]? = text[place]?.map (·, role (index + place)) := by
  induction text generalizing index place with
  | nil => rfl
  | cons c text ih =>
      cases place with
      | zero => rfl
      | succ place =>
          rw [coloured, List.getElem?_cons_succ, List.getElem?_cons_succ, ih]
          rw [Nat.add_right_comm, Nat.add_assoc]

/-- A text whose indices all have one colour. -/
theorem coloured_eq_map {colour : Option Colour}
    (same : ∀ place, index ≤ place → place < index + text.length → role place = colour) :
    coloured role index text = text.map (·, colour) := by
  induction text generalizing index with
  | nil => rfl
  | cons c text ih =>
      rw [List.length_cons] at same
      rw [coloured, same index (Nat.le_refl _) (by omega), List.map_cons,
        ih fun place after before => same place (by omega) (by omega)]

theorem draws_nil : Draws role index [] [] := by
  intro cells length
  rw [coloured, List.append_nil]
  rfl

theorem Draws.append (first : Draws role index piece shown)
    (second : Draws role (index + shown.length) piece' shown') :
    Draws role index (piece ++ piece') (shown ++ shown') := by
  intro cells length
  have reached : (cells ++ coloured role index shown).length = index + shown.length := by
    rw [List.length_append, length_coloured, length]
  rw [Screen.write_append, first cells length, second _ reached, coloured_append,
    List.append_assoc]

/-- Text that is not painted has the default colour. -/
theorem draws_plain (clean : escape ∉ text)
    (role_none : ∀ place, index ≤ place → place < index + text.length → role place = none) :
    Draws role index text text := by
  intro cells length
  rw [coloured_eq_map role_none]
  exact Screen.write_plain clean

/-- Painted text has its colour, and nothing behind it has. -/
theorem draws_paint {colour : Colour} (clean : escape ∉ text)
    (used : colour ∈ [.red, .green, .yellow, .switch, .reference])
    (role_some : ∀ place, index ≤ place → place < index + text.length →
      role place = some colour) :
    Draws role index (paint text colour) text := by
  intro cells length
  rw [coloured_eq_map role_some, paint, Screen.write_append, Screen.write_append,
    Screen.write_code used, Screen.write_plain clean, Screen.write_resetColour]

end Pieces

end LineShell
