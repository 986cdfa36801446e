/-
Module: LineShell.Proofs.Syntax.Remainder
Purpose: Reading a line as far as it goes: what is taken, what is left, and what reading
  the line as a whole makes of it.
Main exports: Trails, exists_leads_of_parse, Chain.cut, parse_and_parseStrict
-/
import LineShell.Proofs.Syntax.ErrorPosition
import LineShell.Proofs.Syntax.TokenLanguage
import Mathlib.Control.Monad.Basic

namespace LineShell

/-!
A line that is being typed is read up to where it stops being a command.  What lies
behind that place has been looked at all the same: a quote may have been opened there,
and an alternative given up because of it.  None of that shows in the tree, so the line
without what is left is read in the same way.
-/

/-! ### Behind a command -/

/-- How the rest of a line is divided behind a command: a comment if one begins there,
and what is left. -/
inductive Trails : Text → Text → Text → Prop where
  | plain {rest : Text} (other : rest.head? ≠ some '#') : Trails rest [] rest
  | remark {content left : Text} (inside : '\n' ∉ content) (line : Stops (· ≠ '\n') left) :
      Trails ('#' :: (content ++ left)) ('#' :: content) left

section Leading

variable {text lead name pad rest remark left : Text} {items : List (Text × Token)}
  {open' reached : Nat} {command : Command}

theorem exists_trails (rest : Text) : ∃ remark left, Trails rest remark left := by
  by_cases mark : rest.head? = some '#'
  · obtain ⟨more, rfl⟩ := List.head?_eq_some_iff.mp mark
    obtain ⟨content, left, rfl, all, line⟩ := exists_run (· ≠ '\n') more
    have inside : '\n' ∉ content := fun member => by simpa using all _ member
    exact ⟨_, left, .remark inside line⟩
  · exact ⟨[], rest, .plain mark⟩

theorem Trails.split (trails : Trails rest remark left) : rest = remark ++ left := by
  cases trails with
  | plain other => rfl
  | remark inside line => rfl

/-- What is taken of a line, and what is left of it. -/
theorem Leads.split_at (leads : Leads text lead name items pad rest open')
    (trails : Trails rest remark left) :
    text = lead ++ (name ++ (spell items ++ pad)) ++ remark ++ left := by
  rw [leads.split, trails.split]
  simp

theorem takes_leadingCommand_trails (leads : Leads text lead name items pad rest open')
    (trails : Trails rest remark left) :
    ∃ reached, Takes leadingCommand {} (lead ++ (name ++ (spell items ++ pad)) ++ remark) left
      (commandNode (Position.after {} lead) name items pad) reached := by
  cases trails with
  | plain other =>
      rw [List.append_nil]
      exact ⟨_, takes_leadingCommand_plain leads other⟩
  | remark inside line =>
      have closed := leads.chain.open_eq_zero (stops_cons.mpr (by decide))
      subst closed
      exact ⟨0, takes_leadingCommand_remark leads inside line⟩

/-- Without a name there is no command. -/
theorem refuses_leadingCommand (blank : ∀ c ∈ lead, isBlank c = true)
    (unpadded : Stops isBlank rest) (stops : Stops isLooseNameChar rest) :
    Refuses leadingCommand {} (lead ++ rest) lead.length := by
  have name : Refuses programName (Position.after {} lead) rest lead.length :=
    (refuses_from_here (refuses_nameOf .name stops).bind).reaching (by simp)
  have command : Refuses command (Position.after {} lead) rest lead.length :=
    refuses_from_here name.bind
  exact Takes.seq_refuses (takes_skipBlanks blank unpadded).map command.bind

theorem parse_of_takes (takes : Takes leadingCommand {} text rest command reached) :
    parse (text ++ rest) = .ok (command, rest) := by
  obtain ⟨memory, ran, -⟩ := takes none
  have leading : leadingCommand (Reader.start (text ++ rest)) = _ := ran
  unfold parse EStateM.run
  rw [leading]

theorem parse_of_refuses (refuses : Refuses leadingCommand {} text reached) :
    ∃ error, parse text = .error (.malformed error) := by
  obtain ⟨error, left, ran, -⟩ := refuses.2 none
  have leading : leadingCommand (Reader.start text) = _ := ran
  refine ⟨error, ?_⟩
  unfold parse EStateM.run
  rw [leading]

/-- What is read of a line is a name with tokens behind it. -/
theorem exists_leads_of_parse (parses : parse text = .ok (command, left)) :
    ∃ lead name items pad rest open' remark, Leads text lead name items pad rest open' ∧
      Trails rest remark left ∧
      command = commandNode (Position.after {} lead) name items pad := by
  rcases exists_leads text with ⟨lead, name, items, pad, rest, open', leads⟩ |
    ⟨lead, rest, rfl, blank, unpadded, stops⟩
  · obtain ⟨remark, left', trails⟩ := exists_trails rest
    obtain ⟨reached, takes⟩ := takes_leadingCommand_trails leads trails
    have parsed := parse_of_takes takes
    rw [← leads.split_at trails, parses] at parsed
    obtain ⟨rfl, rfl⟩ := Prod.mk.inj (Except.ok.inj parsed)
    exact ⟨lead, name, items, pad, rest, open', remark, leads, trails, rfl⟩
  · obtain ⟨error, fails⟩ := parse_of_refuses (refuses_leadingCommand blank unpadded stops)
    rw [parses] at fails
    cases fails

end Leading

/-! ### Cutting off what is left -/

section Cutting

variable {first : Bool} {text lead name pad rest remark left : Text}
  {items : List (Text × Token)} {open' : Nat}

/-- Without the rest of the text a chain stands as it is.  Where the value of a switch was
a quote that is not closed, no value stands now. -/
theorem Chain.cut (chain : Chain first items pad rest open') : Chain first items pad [] 0 := by
  induction chain with
  | adjacent stops => exact .adjacent stops_nil
  | done gap ends => exact .done gap stops_nil
  | opened gap opened => exact .done gap stops_nil
  | stuck before named opened =>
      exact .cons before (.dangling named stops_nil) (.adjacent stops_nil)
  | @cons first gap token items pad rest open' before stands others ih =>
      have shorter : Likewise ([] : Text) rest := .inl rfl
      exact .cons before (stands.congr ((shorter.append pad).append (spell items))) ih

/-- The same where a comment is kept. -/
theorem Trails.chain (trails : Trails rest remark left)
    (chain : Chain first items pad rest open') : Chain first items pad remark 0 := by
  cases trails with
  | plain other => exact chain.cut
  | remark inside line =>
      have closed := chain.open_eq_zero (stops_cons.mpr (by decide))
      subst closed
      exact chain.congr (List.nil_append _).symm rfl (.inl rfl)

theorem Trails.isRemark (trails : Trails rest remark left) : Remark remark := by
  cases trails with
  | plain other => exact .inl rfl
  | @remark content _ inside line =>
      exact .inr ⟨content, [], by rw [List.append_nil], inside, stops_nil, by simp⟩

theorem Trails.likewise (trails : Trails rest remark left) : Likewise remark rest := by
  cases trails with
  | plain other => exact .inl rfl
  | remark inside line => exact .inr rfl

/-- A line without what is left of it is one command. -/
theorem accepts_cut (leads : Leads text lead name items pad rest open')
    (trails : Trails rest remark left) :
    parseStrict (lead ++ (name ++ (spell items ++ pad)) ++ remark) =
      .ok (commandNode (Position.after {} lead) name items pad) := by
  have chain := trails.chain leads.chain
  have stops := leads.stops.congr ((trails.likewise.append pad).append (spell items))
  have whole : Leads (lead ++ (name ++ (spell items ++ pad)) ++ remark) lead name items pad
      remark 0 := ⟨by simp, leads.blank, leads.some, leads.all, stops, chain⟩
  exact (Outcome.accepted whole trails.isRemark).accepts

end Cutting

/-! ### Both ways of reading -/

section Agreement

variable {text front rest : Text} {command : Command} {reached : Nat}

/-- As a whole a line is read if only white space is left of it. -/
theorem parseStrict_iff_of_takes (takes : Takes leadingCommand {} front rest command reached)
    (again : Command) :
    parseStrict (front ++ rest) = .ok again ↔ IsBlank rest ∧ again = command := by
  obtain ⟨pad, more, rfl, blank, stops⟩ := exists_run isBlank rest
  obtain ⟨memory, -, parsed⟩ := parseStrict_of_takes pad takes blank stops
  rw [parsed]
  cases more with
  | nil =>
      constructor
      · intro same
        exact ⟨by simpa [IsBlank] using blank, (Except.ok.inj same).symm⟩
      · rintro ⟨-, rfl⟩
        rfl
  | cons c more =>
      constructor
      · intro same
        cases same
      · rintro ⟨allBlank, -⟩
        have fails := stops_cons.mp stops
        rw [allBlank c (by simp)] at fails
        cases fails

/-- Where no command is read at the front of a line, the line is not read as a whole. -/
theorem parseStrict_of_parse_error {fault : ReadFault} (fails : parse text = .error fault) :
    parseStrict text = .error fault := by
  unfold parse EStateM.run at fails
  split at fails
  · cases fails
  · next fault' left ran =>
      obtain rfl := Except.error.inj fails
      have whole : wholeCommand (Reader.start text) = .error fault' left := run_bind_error ran
      unfold parseStrict EStateM.run
      rw [whole]

/-- The two ways of reading a line agree.  A line of which a command is read is that
command as a whole if only white space is left of it, and without what is left it always
is that command, with all its stretches.  A line of which none is read is refused both
times. -/
theorem parse_and_parseStrict (text : Text) :
    (∀ command rest, parse text = .ok (command, rest) →
      ∃ front, text = front ++ rest ∧
        (∀ again, parseStrict text = .ok again ↔ IsBlank rest ∧ again = command) ∧
        parseStrict front = .ok command) ∧
      ∀ fault, parse text = .error fault → parseStrict text = .error fault := by
  constructor
  · intro command rest parses
    obtain ⟨lead, name, items, pad, behind, open', remark, leads, trails, rfl⟩ :=
      exists_leads_of_parse parses
    have split := leads.split_at trails
    obtain ⟨reached, takes⟩ := takes_leadingCommand_trails leads trails
    refine ⟨_, split, ?_, accepts_cut leads trails⟩
    intro again
    rw [split]
    exact parseStrict_iff_of_takes takes again
  · exact fun fault fails => parseStrict_of_parse_error fails

theorem parse_and_parseStrict_unclosed :
    (∃ command, parse "a -x='b" = .ok (command, "'b") ∧ parseStrict "a -x=" = .ok command ∧
      ∀ again, parseStrict "a -x='b" ≠ .ok again) ∧
      ∃ fault, parse "$" = .error fault ∧ parseStrict "$" = .error fault := by
  constructor
  · have parses : parse "a -x='b" =
        .ok (commandNode {} "a" [(" ", .unvalued false "x")] [], "'b") := by decide +kernel
    obtain ⟨front, split, whole, cut⟩ := (parse_and_parseStrict "a -x='b").1 _ _ parses
    obtain rfl : front = "a -x=" := List.append_cancel_right split.symm
    refine ⟨_, parses, cut, fun again accepted => ?_⟩
    have left : ¬ IsBlank "'b" := by decide
    exact left ((whole again).mp accepted).1
  · have unnamed : parse "$" = .error (.malformed
        { position := {}, found := some '$', expected := some .name }) := by decide +kernel
    exact ⟨_, unnamed, (parse_and_parseStrict "$").2 _ unnamed⟩

end Agreement

end LineShell
