/-
Module: LineShell.Proofs.Terminal.LineStart
Purpose: What the bit with which a console remembers whether a line starts says about all that
  was written before, over whole sequences of calls and for every way of cutting an output.
Main exports: Console.Call, Watched, Watched.calls, StartsLine, Veiled, Bordered,
  Watched.Tells, tells_of_whole, veiled_newline_forgotten
-/
import LineShell.Proofs.Terminal.LastLine

namespace LineShell

/-!
The bit of a console summarises a stream that the console itself does not keep.  To say what
it means the texts are remembered beside the console, from the point on where the terminal was
last cleared or the line erased.  The console looks at the last character of a text, and yet at
the width of what is visible in it.  So a text that ends with a control sequence behind a
newline is taken for one that leaves a line dangling.  In every other case the bit is right.
-/

/-! ### Calls -/

/-- The ways to use a console. -/
inductive Console.Call where
  | write (text : Text)
  /-- The same as `write`. -/
  | print (text : Text)
  | println (text : Text)
  | clear
  | reset
  | prompt
  | complete
deriving DecidableEq, Repr

namespace Console

/-- The console after a call. -/
def call (console : Console) : Call → Console
  | .write text | .print text => console.write text
  | .println text => console.println text
  | .clear => console.clear
  | .reset => console.reset
  | .prompt => console.showPrompt
  | .complete => console.complete

namespace Call

/-- Whether the text that a call is given does not end inside a control sequence. -/
def Whole : Call → Prop
  | write text | print text | println text => endsOutside text = true
  | clear | reset | prompt | complete => True

instance : DecidablePred Whole
  | write text | print text | println text => inferInstanceAs (Decidable (endsOutside text = true))
  | clear | reset | prompt | complete => .isTrue trivial

/-- Whether a call makes all that was written before a thing of the past. -/
def wipes : Call → Bool
  | clear | reset => true
  | write _ | print _ | println _ | prompt | complete => false

end Call

end Console

/-- The pieces that reached a terminal since an earlier state of it, newest first. -/
def Terminal.piecesSince (terminal earlier : Terminal) : List Text :=
  terminal.pieces.take (terminal.pieces.length - earlier.pieces.length)

/-- A console, and the texts that were sent to its terminal since it was made or since it was
last cleared or reset, newest first. -/
structure Watched where
  console : Console
  texts : List Text := []

namespace Watched

/-- A call of a console that is watched. -/
def call (watched : Watched) (call : Console.Call) : Watched :=
  let after := watched.console.call call
  { console := after
    texts :=
      if call.wipes then []
      else after.terminal.piecesSince watched.console.terminal ++ watched.texts }

/-- Calls one after the other. -/
def calls (watched : Watched) (calls : List Console.Call) : Watched :=
  calls.foldl call watched

/-- A console that has just been made. -/
def fresh (sink : Sink) (prompt : Prompt) : Watched :=
  { console := { terminal := { sink := sink }, prompt := prompt } }

/-- Texts written one after the other. -/
def writes (watched : Watched) (texts : List Text) : Watched :=
  watched.calls (texts.map .write)

end Watched

/-! ### What was shown -/

/-- The visible characters of texts, newest text first. -/
def shownIn : List Text → Text
  | [] => []
  | text :: older => shownIn older ++ visible text

/-- Whether nothing visible was written, or a newline last of all that is visible. -/
def StartsLine (texts : List Text) : Prop :=
  shownIn texts = [] ∨ (shownIn texts).getLast? = some '\n'

/-- Whether what is visible of the last text that shows anything ends with a newline, and yet
the text itself does not. -/
def Veiled (texts : List Text) : Prop :=
  ∃ text ∈ texts.find? (visible · ≠ []),
    (visible text).getLast? = some '\n' ∧ text.getLast? ≠ some '\n'

section Texts

variable {text : Text} {texts newer : List Text}

theorem shownIn_append : shownIn (newer ++ texts) = shownIn texts ++ shownIn newer := by
  induction newer with
  | nil => exact (List.append_nil _).symm
  | cons text newer ih => rw [List.cons_append, shownIn, shownIn, ih, List.append_assoc]

/-- Oldest text first, what is visible is what is visible of each. -/
theorem shownIn_reverse : shownIn texts.reverse = texts.flatMap visible := by
  induction texts with
  | nil => rfl
  | cons text texts ih => rw [List.reverse_cons, shownIn_append, ih]; rfl

/-- Whether a line starts behind newer texts that show something is up to them. -/
theorem startsLine_append_of_shown (shown : shownIn newer ≠ []) :
    StartsLine (newer ++ texts) ↔ (shownIn newer).getLast? = some '\n' := by
  have some : shownIn texts ++ shownIn newer ≠ [] := by simp [shown]
  have last := List.getLast?_eq_some_getLast shown
  rw [StartsLine, shownIn_append, getLast?_append_of_getLast? last, last]
  exact or_iff_right some

theorem startsLine_append_of_hidden (hidden : shownIn newer = []) :
    StartsLine (newer ++ texts) ↔ StartsLine texts := by
  rw [StartsLine, StartsLine, shownIn_append, hidden, List.append_nil]

/-- There is a text that shows something exactly if something is shown. -/
theorem find?_eq_none_iff : newer.find? (visible · ≠ []) = none ↔ shownIn newer = [] := by
  induction newer with
  | nil => exact iff_of_true rfl rfl
  | cons text newer ih =>
      rw [shownIn, List.append_eq_nil_iff, List.find?_cons, ← ih]
      by_cases here : visible text = [] <;> simp [here]

theorem veiled_append_of_shown (shown : shownIn newer ≠ []) :
    Veiled (newer ++ texts) ↔ Veiled newer := by
  obtain ⟨text, found⟩ := Option.ne_none_iff_exists'.mp (mt find?_eq_none_iff.mp shown)
  rw [Veiled, Veiled, List.find?_append, found, Option.some_or]

theorem veiled_append_of_hidden (hidden : shownIn newer = []) :
    Veiled (newer ++ texts) ↔ Veiled texts := by
  rw [Veiled, Veiled, List.find?_append, find?_eq_none_iff.mpr hidden, Option.none_or]

theorem not_veiled_of_hidden (hidden : shownIn newer = []) : ¬ Veiled newer := by
  rw [Veiled, find?_eq_none_iff.mpr hidden]
  rintro ⟨text, ⟨⟩, -⟩

theorem veiled_singleton :
    Veiled [text] ↔ (visible text).getLast? = some '\n' ∧ text.getLast? ≠ some '\n' := by
  by_cases hidden : visible text = [] <;> simp [Veiled, hidden]

/-- A veiled newline is one. -/
theorem getLast?_of_veiled (veiled : Veiled texts) : (shownIn texts).getLast? = some '\n' := by
  induction texts with
  | nil => exact absurd veiled (not_veiled_of_hidden rfl)
  | cons text texts ih =>
      by_cases hidden : visible text = []
      · have none : shownIn [text] = [] := hidden
        rw [shownIn, hidden, List.append_nil]
        exact ih ((veiled_append_of_hidden none).mp veiled)
      · have some : shownIn [text] ≠ [] := hidden
        have last := (veiled_singleton.mp ((veiled_append_of_shown some).mp veiled)).1
        exact getLast?_append_of_getLast? last

/-- Texts without characters show nothing. -/
theorem shownIn_filter : shownIn (texts.filter (· ≠ [])) = shownIn texts := by
  induction texts with
  | nil => rfl
  | cons text texts ih =>
      by_cases empty : text = []
      · rw [List.filter_cons_of_neg (by simp [empty]), ih, shownIn, empty]
        exact (List.append_nil _).symm
      · rw [List.filter_cons_of_pos (by simp [empty]), shownIn, shownIn, ih]

theorem veiled_filter : Veiled (texts.filter (· ≠ [])) ↔ Veiled texts := by
  have same : (texts.filter (· ≠ [])).find? (visible · ≠ []) =
      texts.find? (visible · ≠ []) := by
    rw [List.find?_filter]
    congr 1
    funext text
    cases text with
    | nil => rfl
    | cons c text => simp
  rw [Veiled, Veiled, same]

end Texts

/-- What is painted ends behind the sequence that selects the default colour. -/
theorem endsOutside_append_resetColour (text : Text) :
    endsOutside (text ++ resetColour) = true := by
  induction text using unit_induction with
  | nil => decide
  | single c rest single ih =>
      have still : ¬ Opens c (rest ++ resetColour) := by
        rintro ⟨rfl, first⟩
        cases rest with
        | nil => exact absurd first (by decide)
        | cons d rest => exact single ⟨rfl, first⟩
      rw [List.cons_append, endsOutside_single still, ih]
  | sequence body final rest inside ends ih =>
      rw [List.append_assoc, endsOutside_sequence inside ends, ih]
  | unfinished body inside =>
      -- the bracket of the second sequence is the final character of the first
      rw [resetColour, controlSequence_append,
        endsOutside_sequence (any_isFinal_append_escape inside) (by decide)]
      decide

/-! ### The bit -/

section Bit

variable {watched : Watched} {text : Text} {texts : List Text}

/-- Whether the bit of a console is right but for a veiled newline. -/
def Watched.Right (watched : Watched) : Prop :=
  watched.console.atLineStart = true ↔ StartsLine watched.texts ∧ ¬ Veiled watched.texts

theorem right_fresh (sink : Sink) (prompt : Prompt) : (Watched.fresh sink prompt).Right :=
  iff_of_true rfl ⟨.inl rfl, not_veiled_of_hidden rfl⟩

namespace Watched

theorem call_write_nil : watched.call (.write []) = watched := by
  simp [call, Console.call, Console.write, Console.Call.wipes, Terminal.piecesSince]

theorem call_write (some : text ≠ []) : watched.call (.write text) =
    { console := watched.console.write text, texts := text :: watched.texts } := by
  obtain ⟨c, rest, rfl⟩ := List.exists_cons_of_ne_nil some
  simp [call, Console.call, Console.write, Console.Call.wipes, Terminal.piecesSince,
    Terminal.write]

theorem call_println : watched.call (.println text) =
    (watched.call (.write text)).call (.write lineEnd) := by
  cases text <;>
    simp [call, Console.call, Console.println, Console.write, Console.Call.wipes,
      Terminal.piecesSince, Terminal.write, lineEnd, Nat.add_assoc]

theorem call_complete : watched.call .complete =
    if watched.console.atLineStart then watched else watched.call (.println []) := by
  cases dangling : watched.console.atLineStart <;>
    simp [call, Console.call, Console.complete, Console.Call.wipes, Terminal.piecesSince,
      dangling]

/-- One text keeps the bit right. -/
theorem Right.write (right : watched.Right) (whole : endsOutside text = true) :
    (watched.call (.write text)).Right := by
  by_cases empty : text = []
  · rw [empty, call_write_nil]
    exact right
  have nonempty : ¬ text.isEmpty = true := by simp [empty]
  rw [call_write empty, Right, ← List.singleton_append]
  dsimp only
  by_cases hidden : visible text = []
  · have none : shownIn [text] = [] := hidden
    have columns : visibleWidth text = 0 := by rw [← length_visible, hidden]; rfl
    rw [startsLine_append_of_hidden none, veiled_append_of_hidden none, Console.write,
      if_neg nonempty]
    dsimp only
    rw [if_pos columns]
    exact right
  · have some : shownIn [text] ≠ [] := hidden
    have columns : visibleWidth text ≠ 0 := by simpa [← length_visible] using hidden
    rw [startsLine_append_of_shown some, veiled_append_of_shown some, veiled_singleton,
      Console.write, if_neg nonempty]
    dsimp only
    rw [if_neg columns, beq_iff_eq]
    constructor
    · intro newline
      exact ⟨getLast?_visible whole newline, fun veiled => veiled.2 newline⟩
    · rintro ⟨shown, unveiled⟩
      exact Decidable.of_not_not fun other => unveiled ⟨shown, other⟩

/-- Calls keep the bit right, all of them. -/
theorem Right.call {call : Console.Call} (right : watched.Right) (whole : call.Whole) :
    (watched.call call).Right := by
  have println : ∀ {text}, endsOutside text = true → (watched.call (.println text)).Right := by
    intro text whole
    rw [call_println]
    exact (right.write whole).write (by decide)
  cases call with
  | write text | print text => exact right.write whole
  | println text => exact println whole
  | clear | reset => exact iff_of_true rfl ⟨.inl rfl, not_veiled_of_hidden rfl⟩
  | prompt => exact right.write (endsOutside_append_resetColour _)
  | complete =>
      rw [call_complete]
      split
      · exact right
      · exact println (by decide)

theorem Right.calls {calls : List Console.Call} (right : watched.Right)
    (whole : ∀ call ∈ calls, call.Whole) : (watched.calls calls).Right := by
  induction calls generalizing watched with
  | nil => exact right
  | cons call calls ih =>
      obtain ⟨here, later⟩ := List.forall_mem_cons.mp whole
      exact ih (right.call here) later

theorem texts_writes :
    (watched.writes texts).texts = texts.reverse.filter (· ≠ []) ++ watched.texts := by
  induction texts generalizing watched with
  | nil => rfl
  | cons text texts ih =>
      have first : watched.writes (text :: texts) =
          (watched.call (.write text)).writes texts := rfl
      rw [first, ih, List.reverse_cons, List.filter_append, List.append_assoc]
      by_cases empty : text = []
      · rw [empty, call_write_nil]
        rfl
      · rw [call_write empty]
        simp [empty]

end Watched

/-! ### Cuts -/

/-- Whether no text that is written ends inside a control sequence that the next ones go on. -/
def Bordered : List Text → Prop
  | [] => True
  | text :: later => Joins text later.flatten ∧ Bordered later

theorem Bordered.visible_flatten (bordered : Bordered texts) :
    visible texts.flatten = texts.flatMap visible := by
  induction texts with
  | nil => rfl
  | cons text texts ih =>
      obtain ⟨joins, bordered⟩ := bordered
      rw [List.flatten_cons, visible_append joins, ih bordered, List.flatMap_cons]

theorem Bordered.whole (bordered : Bordered texts) :
    ∀ call ∈ texts.map Console.Call.write, call.Whole := by
  induction texts with
  | nil => nofun
  | cons text texts ih => exact List.forall_mem_cons.mpr ⟨bordered.1.outside, ih bordered.2⟩

/-- The bit behind an output that is written in pieces is up to what is visible of the whole and
to whether its last newline is veiled. -/
theorem Watched.Right.writes (right : watched.Right) (bordered : Bordered texts) :
    (watched.writes texts).console.atLineStart = true ↔
      (visible texts.flatten = [] ∧ watched.console.atLineStart = true) ∨
        (visible texts.flatten).getLast? = some '\n' ∧ ¬ Veiled texts.reverse := by
  have told : (watched.writes texts).Right := right.calls bordered.whole
  have shown : shownIn (texts.reverse.filter (· ≠ [])) = visible texts.flatten := by
    rw [shownIn_filter, shownIn_reverse, bordered.visible_flatten]
  rw [Watched.Right, Watched.texts_writes] at told
  by_cases hidden : visible texts.flatten = []
  · rw [startsLine_append_of_hidden (shown.trans hidden),
      veiled_append_of_hidden (shown.trans hidden)] at told
    simpa [hidden] using told.trans (Iff.symm right)
  · have some : shownIn (texts.reverse.filter (· ≠ [])) ≠ [] := by rwa [shown]
    rw [startsLine_append_of_shown some, veiled_append_of_shown some, veiled_filter, shown] at told
    simpa [hidden] using told

/-- Two ways of writing an output leave the same bit exactly if its last newline is veiled in
both of them or in neither. -/
theorem Watched.Right.cuts {texts' : List Text} (right : watched.Right)
    (bordered : Bordered texts) (bordered' : Bordered texts')
    (same : texts.flatten = texts'.flatten) :
    (watched.writes texts).console.atLineStart = (watched.writes texts').console.atLineStart ↔
      (Veiled texts.reverse ↔ Veiled texts'.reverse) := by
  have newline : ∀ {texts}, Bordered texts → Veiled texts.reverse →
      (visible texts.flatten).getLast? = some '\n' := by
    intro texts bordered veiled
    rw [bordered.visible_flatten, ← shownIn_reverse]
    exact getLast?_of_veiled veiled
  have one := newline bordered
  have other := newline bordered'
  rw [Bool.eq_iff_iff, right.writes bordered, right.writes bordered', same]
  rw [same] at one
  generalize visible texts'.flatten = shown at one other ⊢
  by_cases hidden : shown = []
  · subst hidden
    have none : ¬ Veiled texts.reverse := (nomatch one ·)
    have none' : ¬ Veiled texts'.reverse := (nomatch other ·)
    simp only [none, none']
  · simp only [hidden, false_and, false_or]
    grind

end Bit

/-! ### What the bit tells -/

/-- What the bit of a console that is watched says about the texts that were written. -/
structure Watched.Tells (watched : Watched) : Prop where
  /-- It is set exactly where a line starts, but for a newline at the end of what is visible
  that has a control sequence behind it in the same text. -/
  line : watched.console.atLineStart = true ↔
    StartsLine watched.texts ∧ ¬ Veiled watched.texts
  /-- However an output is cut into texts between control sequences, the bit is the same behind
  it, unless a newline at its end is such a one in one of the ways only. -/
  cuts : ∀ texts texts', Bordered texts → Bordered texts' → texts.flatten = texts'.flatten →
    ((watched.writes texts).console.atLineStart = (watched.writes texts').console.atLineStart ↔
      (Veiled texts.reverse ↔ Veiled texts'.reverse))

/-- After every row of calls that leave no control sequence unfinished the bit tells whether a
line starts, but for a newline with a control sequence behind it. -/
theorem tells_of_whole {sink : Sink} {prompt : Prompt} {calls : List Console.Call}
    (whole : ∀ call ∈ calls, call.Whole) : ((Watched.fresh sink prompt).calls calls).Tells :=
  have right := (right_fresh sink prompt).calls whole
  { line := right
    cuts := fun _ _ bordered bordered' same => right.cuts bordered bordered' same }

/-- A prompt, an answer that is not finished and its end, and a line in colour whose newline is
in front of the sequence that ends the colour. -/
theorem tells_of_whole_values :
    let calls : List Console.Call :=
      [.prompt, .reset, .write "é\x1b[31m\n", .println "half", .print "red", .complete,
        .write "\x1b[33mlast\n\x1b[0m"]
    (∀ call ∈ calls, call.Whole) ∧ ((Watched.fresh .stream (.text "> ")).calls calls).Tells := by
  intro calls
  have whole : ∀ call ∈ calls, call.Whole := by decide
  exact ⟨whole, tells_of_whole whole⟩

/-- A line in colour is taken for one that is left dangling, although the last character that
shows is a newline; written in two pieces the same output is not. -/
theorem veiled_newline_forgotten :
    let whole := (Watched.fresh .memory (.text "❯ ")).calls [.write "a\n\x1b[0m"]
    let halves := (Watched.fresh .memory (.text "❯ ")).calls [.write "a\n", .write "\x1b[0m"]
    endsOutside "a\n\x1b[0m" = true ∧ StartsLine whole.texts ∧
      whole.console.atLineStart = false ∧ Bordered ["a\n", "\x1b[0m"] ∧
      whole.console.terminal.recorded = halves.console.terminal.recorded ∧
      halves.console.atLineStart = true := by
  refine ⟨by decide, .inr (by decide), by decide, ⟨?_, ?_, trivial⟩, by decide, by decide⟩
  · decide
  · decide

end LineShell
