/-
Module: LineShell.Proofs.Syntax.Reading
Purpose: What reading rules do to the text before the cursor and to the memory of the
  furthest error, and how that is composed.
Main exports: reachOf, SyntaxError.PointsInto, Noted, Takes, Refuses, Stops
-/
import LineShell.Syntax.Parse

namespace LineShell

/-!
A rule that succeeds takes a piece of the text; a rule that fails refuses the text.
Both leave a trace in the memory of the furthest error, and alternatives that were
given up leave theirs.  `Takes` and `Refuses` say how far such a trace goes: not
behind the cursor, except for a number `reached` that stands for quotes which were
opened and never closed.
-/

/-! ### The memory of the furthest error -/

/-- The index of the furthest error met so far, zero if none was met. -/
def reachOf : Option SyntaxError → Nat
  | none => 0
  | some error => error.position.index

/-- The memory keeps the error that is furthest into the text. -/
theorem reachOf_noteError (reader : Reader) (error : SyntaxError) :
    reachOf (reader.noteError error).furthest =
      max (reachOf reader.furthest) error.position.index := by
  unfold Reader.noteError
  split
  · next none => simp [none, reachOf]
  · next known some =>
      split
      · next behind => simp only [some, reachOf]; omega
      · next before => simp only [some, reachOf]; omega

/-- An error about a place in the text that begins at `position`, with the character
that stands there. -/
def SyntaxError.PointsInto (error : SyntaxError) (position : Position) (text : Text) : Prop :=
  ∃ before behind, text = before ++ behind ∧ error.position = position.after before ∧
    error.found = behind.head?

/-- An error in the rest of a text is one in the text. -/
theorem SyntaxError.PointsInto.append {error : SyntaxError} {position : Position}
    {text rest : Text} (points : error.PointsInto (position.after text) rest) :
    error.PointsInto position (text ++ rest) := by
  obtain ⟨before, behind, rfl, place, found⟩ := points
  exact ⟨text ++ before, behind, (List.append_assoc ..).symm,
    by rw [place, Position.after_append], found⟩

/-- What reading a text does to the memory: the furthest error gets no nearer, it is at
`reached` or behind that, it is not behind `bound` unless it was before, and it is
about a place in the text unless it is the old one. -/
structure Noted (position : Position) (text : Text) (reached bound : Nat)
    (before after : Option SyntaxError) : Prop where
  grows : reachOf before ≤ reachOf after
  reaches : reached ≤ reachOf after
  within : reachOf after ≤ max (reachOf before) bound
  points : after = before ∨ ∃ error, after = some error ∧ error.PointsInto position text

namespace Noted

variable {position : Position} {text rest : Text} {reached bound : Nat}
  {before between after : Option SyntaxError}

theorem refl (position : Position) (text : Text) (bound : Nat) (memory : Option SyntaxError) :
    Noted position text 0 bound memory memory :=
  ⟨Nat.le_refl _, Nat.zero_le _, Nat.le_max_left _ _, .inl rfl⟩

/-- What is noted by two rules one behind the other. -/
theorem trans {reached' bound' : Nat} (first : Noted position (text ++ rest) reached bound
      before between)
    (second : Noted (position.after text) rest reached' bound' between after) :
    Noted position (text ++ rest) (max reached reached') (max bound bound') before after := by
  constructor
  · exact Nat.le_trans first.grows second.grows
  · exact Nat.max_le.mpr ⟨Nat.le_trans first.reaches second.grows, second.reaches⟩
  · have := first.within
    have := second.within
    omega
  · rcases second.points with rfl | ⟨error, found, points⟩
    · exact first.points
    · exact .inr ⟨error, found, points.append⟩

theorem weaken {reached' bound' : Nat} (noted : Noted position text reached bound before after)
    (less : reached' ≤ reached) (more : bound ≤ bound') :
    Noted position text reached' bound' before after := by
  refine ⟨noted.grows, Nat.le_trans less noted.reaches, ?_, noted.points⟩
  have := noted.within
  omega

/-- One more error at the cursor. -/
theorem noteError {memory : Option SyntaxError} {error : SyntaxError}
    (here : error.position = position) (found : error.found = text.head?) :
    Noted position text position.index position.index memory
      (Reader.noteError { rest := text, position := position, furthest := memory }
        error).furthest := by
  have points : error.PointsInto position text := ⟨[], text, rfl, here, found⟩
  constructor
  · rw [reachOf_noteError]
    exact Nat.le_max_left _ _
  · rw [reachOf_noteError, here]
    exact Nat.le_max_right _ _
  · exact Nat.le_of_eq (by rw [reachOf_noteError, here])
  · unfold Reader.noteError
    split
    · exact .inr ⟨error, rfl, points⟩
    · split
      · exact .inr ⟨error, rfl, points⟩
      · exact .inl rfl

end Noted

/-! ### Taking and refusing -/

/-- A rule takes `text`, leaves `rest`, and yields a value. -/
def Takes {α : Type} (rule : Rule α) (position : Position) (text rest : Text) (value : α)
    (reached : Nat) : Prop :=
  ∀ memory, ∃ memory',
    rule { rest := text ++ rest, position := position, furthest := memory } =
      .ok value { rest := rest, position := position.after text, furthest := memory' } ∧
    Noted position (text ++ rest) reached (max reached (position.index + text.length))
      memory memory'

/-- A rule ends in a syntax error; `reached` is where it came furthest. -/
def Refuses {α : Type} (rule : Rule α) (position : Position) (text : Text)
    (reached : Nat) : Prop :=
  position.index ≤ reached ∧ ∀ memory, ∃ error left,
    rule { rest := text, position := position, furthest := memory } =
      .error (.malformed error) left ∧
    error.PointsInto position text ∧
    Noted position text reached reached memory left.furthest

/-- A text does not begin with a character that passes a test. -/
def Stops (test : Char → Bool) (text : Text) : Prop :=
  ∀ c, text.head? = some c → test c = false

section Composition

variable {α β : Type} {rule : Rule α} {next : α → Rule β} {position : Position}
  {text more rest : Text} {value : α} {result : β} {reached reached' : Nat}

/-- A rule that succeeds hands its value and the rest of the text on. -/
theorem run_bind_ok {reader left : Reader} (ran : rule reader = .ok value left) :
    (rule >>= next) reader = next value left := by
  change EStateM.bind rule next reader = _
  rw [EStateM.bind, ran]

/-- A rule that fails keeps the next one from being called. -/
theorem run_bind_error {reader left : Reader} {fault : ReadFault}
    (ran : rule reader = .error fault left) : (rule >>= next) reader = .error fault left := by
  change EStateM.bind rule next reader = _
  rw [EStateM.bind, ran]

theorem run_tryCatch_ok {handler : ReadFault → Rule α} {reader left : Reader}
    (ran : rule reader = .ok value left) : tryCatch rule handler reader = .ok value left := by
  change EStateM.tryCatch rule handler reader = _
  delta EStateM.tryCatch
  rw [ran]

/-- A rule that is given up leaves its trace in the memory only. -/
theorem run_tryCatch_error {handler : ReadFault → Rule α} {reader left : Reader}
    {fault : ReadFault} (ran : rule reader = .error fault left) :
    tryCatch rule handler reader =
      handler fault { left with rest := reader.rest, position := reader.position } := by
  change EStateM.tryCatch rule handler reader = _
  delta EStateM.tryCatch
  rw [ran]
  rfl

/-- An error that was not behind the cursor is of no interest. -/
theorem Takes.settle (takes : Takes rule position text rest value reached)
    (near : reached ≤ position.index + text.length) :
    Takes rule position text rest value 0 := by
  intro memory
  obtain ⟨memory', ran, noted⟩ := takes memory
  exact ⟨memory', ran, noted.weaken (Nat.zero_le _) (by omega)⟩

theorem Takes.pure (position : Position) (rest : Text) (value : α) :
    Takes (Pure.pure value) position [] rest value 0 :=
  fun memory => ⟨memory, rfl, .refl ..⟩

/-- One rule behind another takes what both take. -/
theorem Takes.bind (first : Takes rule position text (more ++ rest) value reached)
    (second : Takes (next value) (position.after text) more rest result reached') :
    Takes (rule >>= next) position (text ++ more) rest result (max reached reached') := by
  intro memory
  obtain ⟨between, ran, noted⟩ := first memory
  obtain ⟨after, ran', noted'⟩ := second between
  refine ⟨after, ?_, ?_⟩
  · rw [List.append_assoc, Position.after_append, ← ran']
    exact run_bind_ok ran
  · rw [List.append_assoc]
    refine (noted.trans noted').weaken (Nat.le_refl _) ?_
    rw [Position.after_index, List.length_append]
    omega

theorem Takes.reaching (takes : Takes rule position text rest value reached)
    (same : reached = reached') : Takes rule position text rest value reached' :=
  same ▸ takes

theorem Refuses.reaching (refuses : Refuses rule position text reached)
    (same : reached = reached') : Refuses rule position text reached' :=
  same ▸ refuses

/-- A rule that gives something up before another one. -/
theorem Takes.bind_nil (first : Takes rule position [] (text ++ rest) value reached)
    (second : Takes (next value) position text rest result reached') :
    Takes (rule >>= next) position text rest result (max reached reached') :=
  Takes.bind first second

/-- One rule behind another that leaves no trace behind the cursor. -/
theorem Takes.seq (first : Takes rule position text (more ++ rest) value 0)
    (second : Takes (next value) (position.after text) more rest result reached) :
    Takes (rule >>= next) position (text ++ more) rest result reached :=
  (Takes.bind first second).reaching (Nat.zero_max _)

/-- The same where the second rule takes nothing. -/
theorem Takes.seq_last (first : Takes rule position text rest value 0)
    (second : Takes (next value) (position.after text) [] rest result reached) :
    Takes (rule >>= next) position text rest result reached := by
  have both : Takes (rule >>= next) position (text ++ []) rest result reached :=
    Takes.seq first second
  rwa [List.append_nil] at both

/-- Where the first rule refuses the whole refuses. -/
theorem Refuses.bind (refuses : Refuses rule position text reached) :
    Refuses (rule >>= next) position text reached := by
  refine ⟨refuses.1, fun memory => ?_⟩
  obtain ⟨error, left, ran, points, noted⟩ := refuses.2 memory
  exact ⟨error, left, run_bind_error ran, points, noted⟩

/-- Where the second refuses the first has left its trace. -/
theorem Takes.bind_refuses (first : Takes rule position text rest value reached)
    (second : Refuses (next value) (position.after text) rest reached') :
    Refuses (rule >>= next) position (text ++ rest) (max reached reached') := by
  have behind := second.1
  rw [Position.after_index] at behind
  refine ⟨by omega, fun memory => ?_⟩
  obtain ⟨between, ran, noted⟩ := first memory
  obtain ⟨error, left, ran', points, noted'⟩ := second.2 between
  refine ⟨error, left, ?_, points.append, ?_⟩
  · rw [← ran']
    exact run_bind_ok ran
  · refine (noted.trans noted').weaken (Nat.le_refl _) ?_
    omega

theorem Takes.seq_refuses (first : Takes rule position text rest value 0)
    (second : Refuses (next value) (position.after text) rest reached) :
    Refuses (rule >>= next) position (text ++ rest) reached :=
  (Takes.bind_refuses first second).reaching (Nat.zero_max _)

theorem Takes.map {change : α → β} (takes : Takes rule position text rest value reached) :
    Takes (change <$> rule) position text rest (change value) reached := by
  intro memory
  obtain ⟨memory', ran, noted⟩ := takes memory
  refine ⟨memory', ?_, noted⟩
  change EStateM.map change rule _ = _
  rw [EStateM.map, ran]

theorem Refuses.map {change : α → β} (refuses : Refuses rule position text reached) :
    Refuses (change <$> rule) position text reached := by
  refine ⟨refuses.1, fun memory => ?_⟩
  obtain ⟨error, left, ran, points, noted⟩ := refuses.2 memory
  refine ⟨error, left, ?_, points, noted⟩
  change EStateM.map change rule _ = _
  rw [EStateM.map, ran]

/-- What a rule yields is passed on. -/
theorem Takes.bind_pure {change : α → β} (takes : Takes rule position text rest value reached) :
    Takes (do return change (← rule)) position text rest (change value) reached := by
  have both : Takes (do return change (← rule)) position (text ++ []) rest (change value)
      (max reached 0) := Takes.bind takes (Takes.pure _ rest _)
  rwa [List.append_nil, Nat.max_zero] at both

/-! ### Backtracking -/

theorem Takes.attempt (takes : Takes rule position text rest value reached) :
    Takes (LineShell.attempt rule) position text rest (some value) reached := by
  have mapped : Takes (some <$> rule) position text rest (some value) reached := takes.map
  intro memory
  obtain ⟨memory', ran, noted⟩ := mapped memory
  refine ⟨memory', ?_, noted⟩
  exact run_tryCatch_ok ran

/-- A rule that is tried and refuses has taken nothing. -/
theorem Refuses.attempt (refuses : Refuses rule position text reached) :
    Takes (LineShell.attempt rule) position [] text none reached := by
  have mapped : Refuses (some <$> rule) position text reached := refuses.map
  intro memory
  obtain ⟨error, left, ran, points, noted⟩ := mapped.2 memory
  refine ⟨left.furthest, ?_, noted.weaken (Nat.le_refl _) (Nat.le_max_left _ _)⟩
  exact run_tryCatch_error ran

theorem Takes.restoring (takes : Takes rule position text rest value reached) :
    Takes (LineShell.restoring rule) position text rest value reached := by
  intro memory
  obtain ⟨memory', ran, noted⟩ := takes memory
  refine ⟨memory', ?_, noted⟩
  exact run_tryCatch_ok ran

theorem Refuses.restoring (refuses : Refuses rule position text reached) :
    Refuses (LineShell.restoring rule) position text reached := by
  refine ⟨refuses.1, fun memory => ?_⟩
  obtain ⟨error, left, ran, points, noted⟩ := refuses.2 memory
  refine ⟨error, { left with rest := text, position := position }, ?_, points, noted⟩
  exact run_tryCatch_error ran

end Composition

/-! ### Primitive rules -/

section Primitives

variable {α : Type} {position : Position} {text rest : Text}

theorem refuses_fail (position : Position) (text : Text) (expectation : Expectation) :
    Refuses (fail expectation : Rule α) position text position.index := by
  refine ⟨Nat.le_refl _, fun memory => ⟨_, _, rfl, ?_, ?_⟩⟩
  · exact ⟨[], text, rfl, rfl, rfl⟩
  · exact Noted.noteError rfl rfl

section Looking

variable {next : Position → Rule α} {value : α} {reached : Nat}

theorem takes_from_here (takes : Takes (next position) position text rest value reached) :
    Takes (here >>= next) position text rest value reached :=
  takes

theorem refuses_from_here (refuses : Refuses (next position) position text reached) :
    Refuses (here >>= next) position text reached :=
  refuses

/-- A node ends with the stretch from its start to the cursor. -/
theorem takes_node (node : Span → α) (start position : Position) (rest : Text) :
    Takes (do return node (← spanFrom start)) position [] rest
      (node { start := start, stop := position }) 0 :=
  fun memory => ⟨memory, rfl, .refl ..⟩

end Looking

/-- A node that holds what a rule yields. -/
theorem Takes.closing {β : Type} {rule : Rule β} {value : β} {reached : Nat}
    (takes : Takes rule position text rest value reached) (node : β → Span → α)
    (start : Position) :
    Takes (do
        let value ← rule
        return node value (← spanFrom start)) position text rest
      (node value { start := start, stop := position.after text }) reached := by
  have both : Takes (do
      let value ← rule
      return node value (← spanFrom start)) position (text ++ []) rest _ (max reached 0) :=
    Takes.bind takes (takes_node (node value) start (position.after text) rest)
  rwa [List.append_nil, Nat.max_zero] at both

theorem takes_from_peek {next : Option Char → Rule α} {value : α} {reached : Nat}
    (takes : Takes (next (text ++ rest).head?) position text rest value reached) :
    Takes (peek >>= next) position text rest value reached :=
  takes

theorem refuses_from_peek {next : Option Char → Rule α} {reached : Nat}
    (refuses : Refuses (next text.head?) position text reached) :
    Refuses (peek >>= next) position text reached :=
  refuses

theorem takes_advance (position : Position) (c : Char) (rest : Text) :
    Takes advance position [c] rest c 0 :=
  fun memory => ⟨memory, rfl, .refl ..⟩

theorem takes_expect (position : Position) (c : Char) (rest : Text) :
    Takes (expect c) position [c] rest () 0 := by
  apply takes_from_peek
  have taken : Takes (discard advance) position [c] rest () 0 :=
    Takes.map (takes_advance position c rest)
  exact if_pos rfl ▸ taken

theorem refuses_expect {c : Char} (other : text.head? ≠ some c) :
    Refuses (expect c) position text position.index := by
  have failing : Refuses (fail (.char c) : Rule Unit) position text position.index :=
    refuses_fail position text _
  apply refuses_from_peek
  rwa [if_neg other]

/-- The longest run of characters that pass a test. -/
theorem exists_run (test : Char → Bool) (text : Text) :
    ∃ run rest, text = run ++ rest ∧ (∀ c ∈ run, test c = true) ∧ Stops test rest := by
  refine ⟨text.takeWhile test, text.dropWhile test, List.takeWhile_append_dropWhile.symm,
    ?_, ?_⟩
  · exact fun c member => List.all_eq_true.mp List.all_takeWhile c member
  · intro c first
    have := List.head?_dropWhile_not test text
    rw [first] at this
    simpa using this

theorem takeWhile_run {test : Char → Bool} (all : ∀ c ∈ text, test c = true)
    (stops : Stops test rest) :
    (text ++ rest).takeWhile test = text ∧ (text ++ rest).dropWhile test = rest := by
  have ended : rest.takeWhile test = [] ∧ rest.dropWhile test = rest := by
    cases rest with
    | nil => exact ⟨rfl, rfl⟩
    | cons c behind => simp [stops c rfl]
  exact ⟨by rw [List.takeWhile_append_of_pos all, ended.1, List.append_nil],
    by rw [List.dropWhile_append_of_pos all, ended.2]⟩

theorem takes_takeWhile {test : Char → Bool} (position : Position)
    (all : ∀ c ∈ text, test c = true) (stops : Stops test rest) :
    Takes (takeWhile test) position text rest text 0 := by
  intro memory
  refine ⟨memory, ?_, .refl ..⟩
  obtain ⟨taken, dropped⟩ := takeWhile_run all stops
  change EStateM.Result.ok ((text ++ rest).takeWhile test)
    (Reader.mk ((text ++ rest).dropWhile test)
      (position.after ((text ++ rest).takeWhile test)) memory) = _
  rw [taken, dropped]

/-! ### Choice -/

theorem Takes.firstOf {rule : Rule α} {others : List (Rule α)} {expectation : Expectation}
    {value : α} {reached : Nat} (takes : Takes rule position text rest value reached) :
    Takes (LineShell.firstOf expectation (rule :: others)) position text rest value
      reached := by
  have both : Takes (LineShell.firstOf expectation (rule :: others)) position (text ++ [])
      rest value (max reached 0) := Takes.bind takes.attempt (Takes.pure _ rest value)
  rwa [List.append_nil, Nat.max_zero] at both

/-- A rule that is given up leaves the choice to the others. -/
theorem Refuses.firstOf {rule : Rule α} {others : List (Rule α)} {expectation : Expectation}
    {value : α} {reached reached' : Nat} (refuses : Refuses rule position (text ++ rest) reached)
    (takes : Takes (LineShell.firstOf expectation others) position text rest value reached') :
    Takes (LineShell.firstOf expectation (rule :: others)) position text rest value
      (max reached reached') :=
  Takes.bind_nil refuses.attempt takes

theorem refuses_firstOf_nil (position : Position) (text : Text) (expectation : Expectation) :
    Refuses (firstOf expectation [] : Rule α) position text position.index :=
  refuses_fail position text expectation

theorem refuses_firstOf_cons {rule : Rule α} {others : List (Rule α)}
    {expectation : Expectation} {reached reached' : Nat}
    (first : Refuses rule position text reached)
    (second : Refuses (firstOf expectation others) position text reached') :
    Refuses (firstOf expectation (rule :: others)) position text (max reached reached') :=
  Takes.bind_refuses first.attempt second

end Primitives

end LineShell
