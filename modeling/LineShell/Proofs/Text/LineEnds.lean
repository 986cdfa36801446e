/-
Module: LineShell.Proofs.Text.LineEnds
Purpose: The line ends of a terminal are put into a text by two replacements, which can be
  taken back and, done a second time, change nothing.
Main exports: Text.replaceAll, Text.Returned, Curl.unixLines_eq, Curl.terminalLines_eq,
  Curl.unixLines_terminalLines, Curl.returned_terminalLines, Curl.withLineEnds_idem
-/
import LineShell.Program.Curl

namespace LineShell

/-!
A body may hold line feeds, carriage returns, and both in any order.  First every pair of the
two becomes a line feed, then every line feed becomes a pair.  The second step makes no pair
but its own, because no line feed is left without a carriage return in front of it: so the
first step finds exactly these pairs again, and what it makes of them is the text that there
was between the two steps.
-/

/-! ### Replacing -/

namespace Text

/-- A text with all occurrences of a piece replaced, where the first `skip` characters belong
to one that has been replaced already. -/
def replaceFrom (old new : Text) : (skip : Nat) → Text → Text
  | _, [] => []
  | skip + 1, _ :: rest => replaceFrom old new skip rest
  | 0, c :: rest =>
      if old.isPrefixOf (c :: rest) then new ++ replaceFrom old new (old.length - 1) rest
      else c :: replaceFrom old new 0 rest

/-- A text with all occurrences of a piece replaced, from the left on, where no two of them
overlap. -/
def replaceAll (text old new : Text) : Text :=
  replaceFrom old new 0 text

/-- Whether a carriage return stands directly in front of every line feed. -/
def Returned (text : Text) : Prop :=
  ∀ before after, text = before ++ '\n' :: after → before.getLast? = some '\r'

theorem returned_nil : Returned [] := fun before after split => by simp at split

theorem returned_lineEnd : Returned lineEnd := by
  intro before after split
  match before, split with
  | [], split => simp [lineEnd] at split
  | [_], split =>
      obtain ⟨rfl, -⟩ : _ = '\r' ∧ _ := by simpa [lineEnd, eq_comm] using split
      rfl
  | _ :: _ :: more, split => simp [lineEnd] at split

theorem returned_singleton {c : Char} (other : c ≠ '\n') : Returned [c] := by
  intro before after split
  cases before with
  | nil => exact absurd (List.cons.inj split).1 other
  | cons first more => simp at split

/-- Behind a text with its returns in place there can be another one. -/
theorem Returned.append {first second : Text} (returned : first.Returned)
    (returned' : second.Returned) : Returned (first ++ second) := by
  intro before after split
  rcases List.append_eq_append_iff.mp split with ⟨more, rfl, rest⟩ | ⟨more, whole, rest⟩
  · rw [List.getLast?_append, returned' more after rest]
    rfl
  · cases more with
    | nil =>
        have start : second = [] ++ '\n' :: after := rest.symm
        cases returned' [] after start
    | cons c more =>
        obtain ⟨rfl, -⟩ := List.cons.inj rest
        exact returned before more whole

end Text

namespace Curl

/-! ### From pairs to line feeds -/

/-- The first step is the replacement of every pair by a line feed. -/
theorem unixLines_eq (text : Text) : unixLines text = text.replaceAll lineEnd ['\n'] := by
  fun_induction unixLines text with
  | case1 => rfl
  | case2 rest ih =>
      rw [ih]
      rfl
  | case3 c rest alone ih =>
      have absent : lineEnd.isPrefixOf (c :: rest) = false := by
        rw [Bool.eq_false_iff, ne_eq, List.isPrefixOf_iff_prefix]
        rintro ⟨behind, pair⟩
        obtain ⟨first, second⟩ := List.cons.inj pair
        exact alone behind first.symm second.symm
      rw [ih, Text.replaceAll, Text.replaceAll, Text.replaceFrom, absent, if_neg Bool.false_ne_true]

/-- A character that starts no pair stays. -/
theorem unixLines_cons {c : Char} {rest : Text} (alone : rest.head? ≠ some '\n') :
    unixLines (c :: rest) = c :: unixLines rest := by
  rw [unixLines]
  rintro behind - rfl
  exact alone rfl

/-! ### From line feeds to pairs -/

theorem terminalLines_newline (text : Text) :
    terminalLines ('\n' :: text) = '\r' :: '\n' :: terminalLines text := rfl

theorem terminalLines_cons {c : Char} (other : c ≠ '\n') (text : Text) :
    terminalLines (c :: text) = c :: terminalLines text := by
  rw [terminalLines, List.flatMap_cons, if_neg other]
  rfl

theorem terminalLines_append (first second : Text) :
    terminalLines (first ++ second) = terminalLines first ++ terminalLines second :=
  List.flatMap_append

/-- The second step is the replacement of every line feed by a pair. -/
theorem terminalLines_eq (text : Text) : terminalLines text = text.replaceAll ['\n'] lineEnd := by
  induction text with
  | nil => rfl
  | cons c text ih =>
      by_cases newline : c = '\n'
      · subst newline
        rw [terminalLines_newline, ih]
        rfl
      · have absent : List.isPrefixOf ['\n'] (c :: text) = false := by
          rw [Bool.eq_false_iff, ne_eq, List.isPrefixOf_iff_prefix]
          rintro ⟨behind, split⟩
          exact newline (List.cons.inj split).1.symm
        rw [terminalLines_cons newline, ih, Text.replaceAll, Text.replaceAll, Text.replaceFrom,
          absent, if_neg Bool.false_ne_true]

/-- Both steps together. -/
theorem withLineEnds_eq (body : Text) :
    withLineEnds body = (body.replaceAll lineEnd ['\n']).replaceAll ['\n'] lineEnd := by
  rw [withLineEnds, terminalLines_eq, unixLines_eq]

theorem returned_terminalLines (text : Text) : (terminalLines text).Returned := by
  induction text with
  | nil => exact Text.returned_nil
  | cons c text ih =>
      by_cases newline : c = '\n'
      · subst newline
        exact Text.returned_lineEnd.append ih
      · rw [terminalLines_cons newline]
        exact (Text.returned_singleton newline).append ih

/-- No pair is left open at the start. -/
theorem head_terminalLines (text : Text) : (terminalLines text).head? ≠ some '\n' := by
  intro first
  obtain ⟨rest, split⟩ := List.head?_eq_some_iff.mp first
  cases returned_terminalLines text [] rest split

/-- The first step takes back the second. -/
theorem unixLines_terminalLines (text : Text) : unixLines (terminalLines text) = text := by
  induction text with
  | nil => rfl
  | cons c text ih =>
      by_cases newline : c = '\n'
      · subst newline
        rw [terminalLines_newline, unixLines, ih]
      · rw [terminalLines_cons newline, unixLines_cons (head_terminalLines text), ih]

/-- What has the line ends of a terminal keeps them. -/
theorem withLineEnds_idem (body : Text) : withLineEnds (withLineEnds body) = withLineEnds body := by
  rw [withLineEnds, withLineEnds, unixLines_terminalLines]

/-- The pairs at the end are those of the line feeds at the end. -/
theorem endsWith_terminalLines (text : Text) :
    (terminalLines text).endsWith lineEnd = true ↔ text.getLast? = some '\n' := by
  rw [Text.endsWith, List.isPrefixOf_iff_prefix, List.reverse_prefix]
  rcases List.eq_nil_or_concat text with rfl | ⟨front, last, rfl⟩
  · simp [terminalLines, lineEnd]
  · rw [List.concat_eq_append, terminalLines_append, List.getLast?_concat, Option.some.injEq]
    by_cases newline : last = '\n'
    · subst newline
      exact ⟨fun _ => rfl, fun _ => List.suffix_append _ _⟩
    · rw [terminalLines_cons newline]
      refine ⟨fun ends => ?_, fun same => absurd same newline⟩
      obtain ⟨more, split⟩ := ends
      have ends : '\n' = last := by
        have lasts := congrArg List.getLast? split
        simpa [lineEnd, terminalLines] using lasts
      exact ends.symm

end Curl

end LineShell
