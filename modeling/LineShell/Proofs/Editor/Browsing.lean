/-
Module: LineShell.Proofs.Editor.Browsing
Purpose: The history is a log with a mark in it: whatever was called before, every step of the
  mark shows the line that it comes to, and a way back is a way forth.
Main exports: History.Newest, History.find_eq_some_iff, HistoryCall, History.answer,
  History.call, History.calls, History.answers, History.RoundTrip, History.Keeps,
  browsing_keeps_the_log
-/
import LineShell.Editor.History

namespace LineShell

/-!
The mark of a history stands at one of its lines, or behind the newest of them where no line
is.  Both ends stop it.  So a number of steps back is a subtraction and a number of steps
forth is an addition, each cut off at its end, and what the steps show are the lines between
the two places of the mark, in the order in which it passes them.
-/

/-! ### The newest line that goes on a text -/

/-- Whether a line is the newest one in a history that starts with a text. -/
def History.Newest (history : History) (text line : Text) : Prop :=
  ∃ older newer, history.entries = older ++ line :: newer ∧ text <+: line ∧
    ∀ other ∈ newer, ¬ text <+: other

namespace History

variable {history : History} {text line : Text}

theorem find_eq_some_iff : history.find text = some line ↔ history.Newest text line := by
  have silent_iff : ∀ other, (!text.isPrefixOf other) = true ↔ ¬ text <+: other := by
    intro other
    rw [← List.isPrefixOf_iff_prefix, Bool.not_eq_true', Bool.not_eq_true]
  rw [find, List.find?_eq_some_iff_append]
  constructor
  · rintro ⟨starts, newer, older, split, silent⟩
    refine ⟨older.reverse, newer.reverse, ?_, List.isPrefixOf_iff_prefix.mp starts,
      fun other member => (silent_iff other).mp (silent other (List.mem_reverse.mp member))⟩
    rw [← List.reverse_reverse history.entries, split]
    simp
  · rintro ⟨older, newer, split, starts, silent⟩
    refine ⟨List.isPrefixOf_iff_prefix.mpr starts, newer.reverse, older.reverse, by simp [split],
      fun other member => (silent_iff other).mpr (silent other (List.mem_reverse.mp member))⟩

/-- What starts with a line that goes on a text starts with the text. -/
theorem Newest.self (newest : history.Newest text line) : history.Newest line line := by
  obtain ⟨older, newer, split, starts, silent⟩ := newest
  exact ⟨older, newer, split, List.prefix_rfl, fun other member longer =>
    silent other member (starts.trans longer)⟩

theorem find_eq_none_iff :
    history.find text = none ↔ ∀ line ∈ history.entries, ¬ text <+: line := by
  rw [find, List.find?_eq_none]
  constructor
  · intro silent line member starts
    exact silent line (List.mem_reverse.mpr member) (List.isPrefixOf_iff_prefix.mpr starts)
  · intro silent line member starts
    exact silent line (List.mem_reverse.mp member) (List.isPrefixOf_iff_prefix.mp starts)

end History

/-! ### Calls -/

/-- One call of a history. -/
inductive HistoryCall where
  | commit (line : Text)
  | up
  | down
  | find (beginning : Text)
deriving DecidableEq, Repr

/-- The line that a call adds. -/
def HistoryCall.committed? : HistoryCall → Option Text
  | commit line => some line
  | up | down | find _ => none

namespace History

/-- What a call tells.  A step tells the line that it comes to, a search the line that it
finds. -/
def answer (history : History) : HistoryCall → Option Text
  | .commit _ => none
  | .up => history.up.current
  | .down => history.down.current
  | .find beginning => history.find beginning

/-- The history after a call. -/
def call (history : History) : HistoryCall → History
  | .commit line => history.commit line
  | .up => history.up
  | .down => history.down
  | .find _ => history

/-- The history after some calls, one after the other. -/
def calls (history : History) (those : List HistoryCall) : History :=
  those.foldl call history

/-- What some calls tell, one after the other. -/
def answers (history : History) : List HistoryCall → List (Option Text)
  | [] => []
  | first :: later => history.answer first :: (history.call first).answers later

/-- The newest lines, so many of them, the oldest of these first. -/
def newest (history : History) (count : Nat) : List Text :=
  history.entries.drop (history.entries.length - count)

/-- So many steps back and as many forth: the steps back tell the newest lines, from the
newest on; the steps forth tell them in the order of the log without the one that the way
turned at, and then that no line is left.  The mark is where it was, behind all lines. -/
structure RoundTrip (history : History) (count : Nat) : Prop where
  back : history.answers (List.replicate count .up) = (history.newest count).reverse.map some
  forth : 0 < count →
    (history.calls (List.replicate count .up)).answers (List.replicate count .down) =
      (history.newest (count - 1)).map some ++ [none]
  home : (history.calls (List.replicate count .up)).calls (List.replicate count .down) = history
  last : history.cursor = history.entries.length

/-- A history that keeps some lines, and how it answers whatever is called next. -/
structure Keeps (history : History) (lines : List Text) : Prop where
  entries : history.entries = lines
  cursor : history.cursor ≤ lines.length
  /-- A step tells the line at the place that it comes to, and that is none only at the end. -/
  step : ∀ move ∈ [HistoryCall.up, HistoryCall.down],
    history.answer move = lines[(history.call move).cursor]? ∧
      (history.answer move = none ↔ (history.call move).cursor = lines.length)
  /-- From behind a line that was just added, every way back has a way forth. -/
  trips : ∀ (line : Text) (count : Nat), count ≤ (history.commit line).entries.length →
    (history.commit line).RoundTrip count
  /-- Both ends stop the mark. -/
  oldest : history.cursor = 0 →
    ∀ count, history.calls (List.replicate count .up) = history
  blank : history.cursor = lines.length →
    ∀ count, history.calls (List.replicate count .down) = history
  /-- A search finds the newest line that starts with a text, if there is one, and moves
  nothing. -/
  found : ∀ beginning line,
    history.answer (.find beginning) = some line ↔ history.Newest beginning line
  missing : ∀ beginning, history.answer (.find beginning) = none ↔
    ∀ line ∈ lines, ¬ beginning <+: line
  still : ∀ beginning, history.call (.find beginning) = history

variable {history : History}

/-! ### What one call keeps -/

theorem entries_call (history : History) (next : HistoryCall) :
    (history.call next).entries = history.entries ++ next.committed?.toList := by
  cases next with
  | commit line => rfl
  | up => exact (List.append_nil _).symm
  | down =>
      rw [call, down]
      split <;> exact (List.append_nil _).symm
  | find beginning => exact (List.append_nil _).symm

theorem cursor_call_le (inside : history.cursor ≤ history.entries.length) (next : HistoryCall) :
    (history.call next).cursor ≤ (history.call next).entries.length := by
  cases next with
  | commit line => simp [call, commit]
  | up => exact Nat.le_trans (Nat.sub_le _ _) inside
  | down =>
      rw [call, down]
      split
      · next before => exact before
      · exact inside
  | find beginning => exact inside

/-! ### What a run of calls keeps -/

theorem entries_calls (history : History) (those : List HistoryCall) :
    (history.calls those).entries = history.entries ++ those.filterMap HistoryCall.committed? := by
  induction those generalizing history with
  | nil => exact (List.append_nil _).symm
  | cons first later ih =>
      have whole : (history.calls (first :: later)).entries =
          (history.call first).entries ++ later.filterMap HistoryCall.committed? := ih _
      rw [whole, entries_call, List.append_assoc]
      cases first <;> rfl

theorem cursor_calls_le (inside : history.cursor ≤ history.entries.length)
    (those : List HistoryCall) :
    (history.calls those).cursor ≤ (history.calls those).entries.length := by
  induction those generalizing history with
  | nil => exact inside
  | cons first later ih => exact ih (cursor_call_le inside first)

/-! ### Runs of steps -/

/-- So many steps back are a subtraction that stops at zero. -/
theorem calls_up (history : History) (count : Nat) :
    history.calls (List.replicate count .up) =
      { history with cursor := history.cursor - count } := by
  induction count generalizing history with
  | zero => rfl
  | succ count ih =>
      have whole : history.calls (List.replicate (count + 1) .up) =
          history.up.calls (List.replicate count .up) := rfl
      rw [whole, ih, up, Nat.sub_sub, Nat.add_comm]

/-- So many steps forth are an addition that stops behind the newest line. -/
theorem calls_down (inside : history.cursor ≤ history.entries.length) (count : Nat) :
    history.calls (List.replicate count .down) =
      { history with cursor := min (history.cursor + count) history.entries.length } := by
  induction count generalizing history with
  | zero =>
      rw [Nat.add_zero, Nat.min_eq_left inside]
      rfl
  | succ count ih =>
      have whole : history.calls (List.replicate (count + 1) .down) =
          history.down.calls (List.replicate count .down) := rfl
      rw [whole, down]
      split
      · next before =>
          have further : history.cursor + 1 ≤ history.entries.length := before
          rw [ih further, Nat.add_right_comm, Nat.add_assoc]
      · next behind =>
          rw [ih inside, Nat.min_eq_right (by omega), Nat.min_eq_right (by omega)]

/-- Steps back tell the lines in front of the mark, from the nearest on. -/
theorem answers_up {count : Nat} (inside : history.cursor ≤ history.entries.length)
    (enough : count ≤ history.cursor) :
    history.answers (List.replicate count .up) =
      ((history.entries.take history.cursor).reverse.take count).map some := by
  induction count generalizing history with
  | zero => rfl
  | succ count ih =>
      -- The first step shows the line in front of the mark, and the others go on from there.
      obtain ⟨place, at'⟩ : ∃ place, history.cursor = place + 1 :=
        Nat.exists_eq_add_one_of_ne_zero (by omega)
      have there : place < history.entries.length := by omega
      have stepped : history.up.cursor = place := by simp [up, at']
      have rest := @ih history.up (by rw [stepped]; exact Nat.le_of_lt there)
        (by rw [stepped]; omega)
      rw [stepped] at rest
      have shown : history.up.current = some history.entries[place] := by
        rw [current, stepped]
        exact List.getElem?_eq_getElem there
      have whole : history.answers (List.replicate (count + 1) .up) =
          history.up.current :: history.up.answers (List.replicate count .up) := rfl
      have nearest : (history.entries.take (place + 1)).reverse =
          history.entries[place] :: (history.entries.take place).reverse := by
        rw [List.take_add_one, List.getElem?_eq_getElem there]
        simp
      rw [whole, rest, shown, at', nearest]
      rfl

/-- Steps forth tell the lines behind the one at the mark, and at the end that no line is
left. -/
theorem answers_down {count : Nat} (enough : history.cursor + count ≤ history.entries.length) :
    history.answers (List.replicate count .down) =
      ((history.entries.drop (history.cursor + 1)).map some ++ [none]).take count := by
  induction count generalizing history with
  | zero => rfl
  | succ count ih =>
      have before : history.cursor < history.entries.length := by omega
      have stepped : history.down = { history with cursor := history.cursor + 1 } :=
        if_pos before
      have rest := @ih history.down (by rw [stepped]; dsimp only; omega)
      have whole : history.answers (List.replicate (count + 1) .down) =
          history.down.current :: history.down.answers (List.replicate count .down) := rfl
      rw [whole, rest, stepped, current]
      dsimp only
      by_cases last : history.cursor + 1 = history.entries.length
      · have none' : count = 0 := by omega
        simp [none', last]
      · have there : history.cursor + 1 < history.entries.length := by omega
        rw [List.drop_eq_getElem_cons there, List.getElem?_eq_getElem there]
        rfl

/-- Behind a line that was just added, a way back has a way forth. -/
theorem roundTrip {count : Nat} (blank : history.cursor = history.entries.length)
    (enough : count ≤ history.entries.length) : history.RoundTrip count where
  back := by
    rw [answers_up (Nat.le_of_eq blank) (blank ▸ enough), blank, List.take_length, newest,
      List.take_reverse]
  forth some := by
    have place : history.entries.length - count + 1 = history.entries.length - (count - 1) := by
      omega
    rw [calls_up, blank, answers_down (by dsimp only; omega)]
    dsimp only
    rw [place, ← newest]
    exact List.take_of_length_le (by simp [newest]; omega)
  home := by
    rw [calls_up, calls_down (by dsimp only; omega)]
    dsimp only
    rw [blank, Nat.sub_add_cancel enough, Nat.min_self, ← blank]
  last := blank

/-- A history whose mark is in its log answers as told. -/
theorem keeps_of_cursor_le (inside : history.cursor ≤ history.entries.length) :
    history.Keeps history.entries where
  entries := rfl
  cursor := inside
  step move member := by
    have shown : history.answer move = history.entries[(history.call move).cursor]? := by
      simp only [List.mem_cons, List.not_mem_nil, or_false] at member
      rcases member with rfl | rfl
      · rfl
      · have same : history.down.entries = history.entries := by
          rw [down]
          split <;> rfl
        rw [answer, current, same, call]
    have kept : (history.call move).entries = history.entries := by
      simp only [List.mem_cons, List.not_mem_nil, or_false] at member
      rcases member with rfl | rfl <;> simp [entries_call, HistoryCall.committed?]
    have bound := cursor_call_le inside move
    rw [kept] at bound
    refine ⟨shown, ?_⟩
    rw [shown, List.getElem?_eq_none_iff]
    omega
  trips line count enough := roundTrip (by simp [commit]) enough
  oldest first count := by
    rw [calls_up, first, Nat.zero_sub, ← first]
  blank last count := by
    rw [calls_down inside, Nat.min_eq_right (by omega), ← last]
  found beginning line := find_eq_some_iff
  missing beginning := find_eq_none_iff
  still beginning := rfl

end History

/-- Whatever is called on an empty history, it keeps exactly the lines that were committed, in
their order, with its mark among them or behind the newest: so every step tells the line that
it comes to, from behind a new line every way back has a way forth that ends where it began,
both ends stop the mark, and a search finds the newest line without moving it. -/
theorem browsing_keeps_the_log (those : List HistoryCall) :
    (History.calls {} those).Keeps (those.filterMap HistoryCall.committed?) := by
  have inside : (History.calls {} those).cursor ≤ (History.calls {} those).entries.length :=
    History.cursor_calls_le (Nat.le_refl 0) those
  have log : (History.calls {} those).entries = those.filterMap HistoryCall.committed? :=
    History.entries_calls {} those
  rw [← log]
  exact History.keeps_of_cursor_le inside

/-- Two steps back from the middle of a log, one forth, and a search. -/
example : History.answers {} [.commit "ab", .commit "c", .up, .up, .up, .down, .find "a", .down] =
    [none, none, some ['c'], some ['a', 'b'], some ['a', 'b'], some ['c'], some ['a', 'b'],
      none] := by
  decide

end LineShell
