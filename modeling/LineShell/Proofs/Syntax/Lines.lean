/-
Module: LineShell.Proofs.Syntax.Lines
Purpose: Reading a whole line: the command that comes out, or the place where reading
  stops.
Main exports: Remark, RejectedAt, Outcome, exists_outcome, Outcome.accepts,
  Outcome.rejects, exists_leads_of_parses
-/
import LineShell.Proofs.Syntax.Commands

namespace LineShell

/-! ### Comments -/

/-- Nothing, or a comment and white space behind it. -/
def Remark (rest : Text) : Prop :=
  rest = [] ∨ ∃ content pad, rest = '#' :: (content ++ pad) ∧ '\n' ∉ content ∧
    Stops (· ≠ '\n') pad ∧ ∀ c ∈ pad, isBlank c = true

section Comments

variable {position : Position} {text content lead name pad rest : Text}
  {items : List (Text × Token)} {open' : Nat}

theorem takes_comment (inside : '\n' ∉ content) (stops : Stops (· ≠ '\n') rest) :
    Takes comment position ('#' :: content) rest
      { content := content
        span :=
          { start := position.advance '#', stop := (position.advance '#').after content } }
      0 := by
  have all : ∀ c ∈ content, decide (c ≠ '\n') = true := by
    intro c member
    rw [decide_eq_true_eq]
    rintro rfl
    exact inside member
  apply Takes.seq (takes_expect position '#' (content ++ rest))
  apply takes_from_here
  exact (takes_takeWhile _ all stops).closing
    (fun content span => { content := content, span := span : Comment }) _

theorem refuses_comment (other : text.head? ≠ some '#') :
    Refuses comment position text position.index :=
  (refuses_expect other).bind

/-- A command and what is found where a comment could begin. -/
theorem takes_leadingCommand {remark : Text} {found : Option Comment} {reached : Nat}
    (position : Position) (leads : Leads text lead name items pad (remark ++ rest) open')
    (takes : Takes (attempt comment)
      (position.after (lead ++ (name ++ (spell items ++ pad)))) remark rest found reached) :
    Takes leadingCommand position (lead ++ (name ++ (spell items ++ pad)) ++ remark) rest
      (commandNode (position.after lead) name items pad)
      (max (reachedBehind (position.index + (lead ++ (name ++ (spell items ++ pad))).length)
        open') reached) := by
  have unpadded : Stops isBlank (name ++ (spell items ++ pad) ++ remark ++ rest) := by
    rw [List.append_assoc, List.append_assoc]
    exact stops_name leads.some leads.all
  have command : Takes command (position.after lead) (name ++ (spell items ++ pad))
      (remark ++ rest) _ _ := takes_command leads.some leads.all leads.stops leads.chain
  have last : Takes (do
      discard (attempt comment)
      return commandNode (position.after lead) name items pad)
      ((position.after lead).after (name ++ (spell items ++ pad))) remark rest
      (commandNode (position.after lead) name items pad) reached := by
    rw [← Position.after_append]
    exact takes.map.bind_pure
  rw [List.append_assoc lead]
  apply Takes.seq (takes_skipBlanks leads.blank unpadded).map
  apply (Takes.bind command last).reaching
  congr 2
  simp
  omega

end Comments

/-! ### The end of a line -/

/-- A text is rejected, with an error about a place in it. -/
def RejectedAt (text : Text) (index : Nat) : Prop :=
  ∃ error, parseStrict text = .error (.malformed error) ∧ error.PointsInto {} text ∧
    error.position.index = index

section Endings

variable {text pad rest : Text} {command : Command} {reached : Nat}

/-- The error of a line with something left over. -/
def leftover (position : Position) (text : Text) (furthest : Option SyntaxError) :
    SyntaxError :=
  let plain : SyntaxError := { position := position, found := text.head?, expected := none }
  match furthest with
  | none => plain
  | some furthest => if position.index < furthest.position.index then furthest else plain

/-- What becomes of a line of which a command was taken. -/
theorem parseStrict_of_takes (pad : Text)
    (takes : Takes leadingCommand {} text (pad ++ rest) command reached)
    (blank : ∀ c ∈ pad, isBlank c = true) (stops : Stops isBlank rest) :
    ∃ memory, Noted {} (text ++ (pad ++ rest)) reached (max reached (text ++ pad).length) none
        memory ∧
      parseStrict (text ++ (pad ++ rest)) =
        match rest with
        | [] => .ok command
        | _ :: _ =>
            .error (.malformed (leftover (Position.after {} (text ++ pad)) rest memory)) := by
  have skips : Takes (discard skipBlanks) (Position.after {} text) pad rest () 0 :=
    (takes_skipBlanks blank stops).map
  obtain ⟨between, ran, noted⟩ := takes none
  obtain ⟨memory, ran', noted'⟩ := skips between
  refine ⟨memory, (noted.trans noted').weaken (Nat.le_max_left _ _) ?_, ?_⟩
  · simp
  · rw [← Position.after_append] at ran'
    have whole : wholeCommand (Reader.start (text ++ (pad ++ rest))) =
        match rest with
        | [] => .ok command (Reader.mk rest (Position.after {} (text ++ pad)) memory)
        | _ :: _ =>
            .error (.malformed (leftover (Position.after {} (text ++ pad)) rest memory))
              (Reader.mk rest (Position.after {} (text ++ pad)) memory) := by
      refine (run_bind_ok ran).trans ((run_bind_ok ran').trans ?_)
      cases rest with
      | nil => rfl
      | cons c more =>
          cases memory with
          | none => rfl
          | some furthest =>
              change (if _ then _ else _ : Rule Command) _ = _
              dsimp only [leftover]
              split
              · rfl
              · rfl
    unfold parseStrict EStateM.run
    rw [whole]
    cases rest with
    | nil => rfl
    | cons c more => rfl

/-- When no error was met behind the cursor, the error is there. -/
theorem rejectedAt_near (pad : Text)
    (takes : Takes leadingCommand {} text (pad ++ rest) command reached)
    (blank : ∀ c ∈ pad, isBlank c = true) (stops : Stops isBlank rest) (more : rest ≠ [])
    (near : reached ≤ (text ++ pad).length) :
    RejectedAt (text ++ (pad ++ rest)) (text ++ pad).length := by
  obtain ⟨memory, noted, parsed⟩ := parseStrict_of_takes pad takes blank stops
  obtain ⟨c, rest, rfl⟩ := List.exists_cons_of_ne_nil more
  have within := noted.within
  have plain : leftover (Position.after {} (text ++ pad)) (c :: rest) memory =
      { position := Position.after {} (text ++ pad), found := some c, expected := none } := by
    cases memory with
    | none => rfl
    | some furthest =>
        simp only [reachOf] at within
        rw [leftover]
        simp only [Position.after_index, Nat.zero_add]
        rw [if_neg (by omega)]
        rfl
  refine ⟨_, parsed, ?_, ?_⟩
  · rw [plain]
    exact ⟨text ++ pad, c :: rest, (List.append_assoc ..).symm, rfl, rfl⟩
  · simp [plain]

/-- An error behind the cursor is the one that is told. -/
theorem rejectedAt_far (pad : Text)
    (takes : Takes leadingCommand {} text (pad ++ rest) command reached)
    (blank : ∀ c ∈ pad, isBlank c = true) (stops : Stops isBlank rest) (more : rest ≠ [])
    (far : (text ++ pad).length < reached) :
    RejectedAt (text ++ (pad ++ rest)) reached := by
  obtain ⟨memory, noted, parsed⟩ := parseStrict_of_takes pad takes blank stops
  obtain ⟨c, rest, rfl⟩ := List.exists_cons_of_ne_nil more
  have within := noted.within
  have reaches := noted.reaches
  rcases noted.points with rfl | ⟨error, rfl, points⟩
  · simp only [reachOf] at reaches
    omega
  · simp only [reachOf] at within reaches
    refine ⟨_, parsed, ?_, ?_⟩
    · rw [leftover]
      simp only [Position.after_index, Nat.zero_add]
      rwa [if_pos (by omega)]
    · rw [leftover]
      simp only [Position.after_index, Nat.zero_add]
      rw [if_pos (by omega)]
      omega

/-- A line without a name is rejected where the name is missing. -/
theorem rejectedAt_unnamed {lead : Text} (blank : ∀ c ∈ lead, isBlank c = true)
    (unpadded : Stops isBlank rest) (stops : Stops isLooseNameChar rest) :
    RejectedAt (lead ++ rest) lead.length := by
  have skips : Takes (discard skipBlanks) {} lead rest () 0 :=
    (takes_skipBlanks blank unpadded).map
  have nothing : Takes (takeWhile isLooseNameChar) (Position.after {} lead) [] rest [] 0 :=
    takes_takeWhile _ (by simp) stops
  obtain ⟨memory, ran, -⟩ := skips none
  obtain ⟨memory', taken, -⟩ := nothing memory
  let error : SyntaxError :=
    { position := Position.after {} lead, found := rest.head?, expected := some .name }
  let left := Reader.noteError (Reader.mk rest (Position.after {} lead) memory') error
  have unnamed : looseIdentifier (Reader.mk rest (Position.after {} lead) memory) =
      .error (.malformed error) left := by
    change (here >>= _) _ = _
    rw [run_bind_ok (rfl : here (Reader.mk rest _ memory) = _)]
    exact (run_bind_ok taken).trans rfl
  have program : programName (Reader.mk rest (Position.after {} lead) memory) =
      .error (.malformed error) left := by
    change (here >>= _) _ = _
    rw [run_bind_ok (rfl : here (Reader.mk rest _ memory) = _)]
    exact run_bind_error unnamed
  have command : LineShell.command (Reader.mk rest (Position.after {} lead) memory) =
      .error (.malformed error) left := by
    change (here >>= _) _ = _
    rw [run_bind_ok (rfl : here (Reader.mk rest _ memory) = _)]
    exact run_bind_error program
  have leading : leadingCommand (Reader.start (lead ++ rest)) = .error (.malformed error) left :=
    (run_bind_ok ran).trans (run_bind_error command)
  have whole : wholeCommand (Reader.start (lead ++ rest)) = .error (.malformed error) left :=
    run_bind_error leading
  refine ⟨error, ?_, ⟨lead, rest, rfl, rfl, rfl⟩, by simp [error]⟩
  unfold parseStrict EStateM.run
  rw [whole]

end Endings

/-! ### Whole lines -/

/-- What becomes of a line: its command, or the index at which it is rejected. -/
inductive Outcome : Text → Except Nat Command → Prop where
  /-- The name of the program is missing. -/
  | unnamed {lead rest : Text} (blank : ∀ c ∈ lead, isBlank c = true)
      (unpadded : Stops isBlank rest) (stops : Stops isLooseNameChar rest) :
      Outcome (lead ++ rest) (.error lead.length)
  | accepted {text lead name : Text} {items : List (Text × Token)} {pad rest : Text}
      {open' : Nat} (leads : Leads text lead name items pad rest open')
      (remark : Remark rest) :
      Outcome text (.ok (commandNode (Position.after {} lead) name items pad))
  /-- A quote is not closed. -/
  | unclosed {text lead name : Text} {items : List (Text × Token)} {pad rest : Text}
      {open' : Nat} (leads : Leads text lead name items pad rest open')
      (some : open' ≠ 0) :
      Outcome text (.error ((lead ++ (name ++ (spell items ++ pad))).length + open'))
  /-- Something stands where a gap or a comment is missing. -/
  | trailing {text lead name : Text} {items : List (Text × Token)} {pad rest : Text}
      {c : Char} (leads : Leads text lead name items pad (c :: rest) 0) (other : c ≠ '#') :
      Outcome text (.error (lead ++ (name ++ (spell items ++ pad))).length)
  /-- Something stands on a line behind the comment. -/
  | behindRemark {text lead name : Text} {items : List (Text × Token)}
      {pad content pad' rest : Text} {c : Char}
      (leads : Leads text lead name items pad ('#' :: (content ++ (pad' ++ c :: rest))) 0)
      (inside : '\n' ∉ content) (line : Stops (· ≠ '\n') (pad' ++ c :: rest))
      (blank : ∀ c ∈ pad', isBlank c = true) (other : isBlank c = false) :
      Outcome text
        (.error (lead ++ (name ++ (spell items ++ pad)) ++ '#' :: content ++ pad').length)

section Outcomes

variable {text lead name pad rest : Text} {items : List (Text × Token)} {open' : Nat}

/-- Behind a chain that no quote has ended stands nothing, a comment, or something that
is adjacent to the last parameter. -/
theorem Chain.open_eq_zero {first : Bool} (chain : Chain first items pad rest open')
    (remark : Stops (· ≠ '#') rest) : open' = 0 := by
  induction chain with
  | adjacent stops => rfl
  | done gap ends => rfl
  | opened gap opened =>
      cases opened with
      | single inside => exact absurd (remark _ rfl) (by decide)
      | double inside stops open' => exact absurd (remark _ rfl) (by decide)
  | stuck before named opened =>
      cases opened with
      | single inside => exact absurd (remark _ rfl) (by decide)
      | double inside stops open' => exact absurd (remark _ rfl) (by decide)
  | cons before stands others ih => exact ih remark

theorem Remark.stops (remark : Remark rest) : Stops (· ≠ '#') rest := by
  rcases remark with rfl | ⟨content, pad, rfl, -⟩
  · exact stops_nil
  · exact stops_cons.mpr (by decide)

/-- Every line has an outcome. -/
theorem exists_outcome (text : Text) : ∃ outcome, Outcome text outcome := by
  rcases exists_leads text with ⟨lead, name, items, pad, rest, open', leads⟩ |
    ⟨lead, rest, rfl, blank, unpadded, stops⟩
  · by_cases closed : open' = 0
    · subst closed
      cases rest with
      | nil => exact ⟨_, .accepted leads (.inl rfl)⟩
      | cons c rest =>
          by_cases mark : c = '#'
          · subst mark
            obtain ⟨content, line, rfl, inside, stops⟩ := exists_run (· ≠ '\n') rest
            have inside : '\n' ∉ content := fun member => by simpa using inside _ member
            obtain ⟨pad', rest, rfl, blank, unpadded⟩ := exists_run isBlank line
            cases rest with
            | nil =>
                rw [List.append_nil] at leads stops
                exact ⟨_, .accepted leads (.inr ⟨content, pad', rfl, inside, stops, blank⟩)⟩
            | cons d rest =>
                exact ⟨_, .behindRemark leads inside stops blank (stops_cons.mp unpadded)⟩
          · exact ⟨_, .trailing leads mark⟩
    · exact ⟨_, .unclosed leads closed⟩
  · exact ⟨_, .unnamed blank unpadded stops⟩

/-- Without a comment a command is taken as it is. -/
theorem takes_leadingCommand_plain (leads : Leads text lead name items pad rest open')
    (other : rest.head? ≠ some '#') :
    Takes leadingCommand {} (lead ++ (name ++ (spell items ++ pad))) rest
      (commandNode (Position.after {} lead) name items pad)
      (if open' = 0 then 0
        else (lead ++ (name ++ (spell items ++ pad))).length + open') := by
  have none : Takes (attempt comment)
      (Position.after {} (lead ++ (name ++ (spell items ++ pad)))) [] rest Option.none _ :=
    (refuses_comment other).attempt
  have taken : Takes leadingCommand {} (lead ++ (name ++ (spell items ++ pad)) ++ []) rest _ _ :=
    takes_leadingCommand {} leads none
  rw [List.append_nil] at taken
  split
  · next closed =>
      subst closed
      exact taken.settle (by simp [reachedBehind])
  · next some =>
      apply taken.reaching
      simp [reachedBehind, some]

/-- With a comment, the comment is taken as well. -/
theorem takes_leadingCommand_remark {content : Text}
    (leads : Leads text lead name items pad ('#' :: (content ++ rest)) 0)
    (inside : '\n' ∉ content) (line : Stops (· ≠ '\n') rest) :
    Takes leadingCommand {} (lead ++ (name ++ (spell items ++ pad)) ++ '#' :: content) rest
      (commandNode (Position.after {} lead) name items pad) 0 :=
  (takes_leadingCommand {} leads (takes_comment inside line).attempt).reaching rfl

theorem Outcome.accepts {command : Command} (outcome : Outcome text (.ok command)) :
    parseStrict text = .ok command := by
  cases outcome with
  | @accepted _ lead name items pad rest open' leads remark =>
      have closed := leads.chain.open_eq_zero remark.stops
      subst closed
      rcases remark with rfl | ⟨content, pad', rfl, inside, line, blank⟩
      · have taken := takes_leadingCommand_plain leads (by simp)
        obtain ⟨memory, -, parsed⟩ := parseStrict_of_takes [] taken (by simp) stops_nil
        rw [leads.split]
        simpa using parsed
      · have taken := takes_leadingCommand_remark leads inside line
        rw [← List.append_nil pad'] at taken
        obtain ⟨memory, -, parsed⟩ := parseStrict_of_takes pad' taken blank stops_nil
        rw [leads.split]
        simpa using parsed

theorem Outcome.rejects {index : Nat} (outcome : Outcome text (.error index)) :
    RejectedAt text index := by
  cases outcome with
  | unnamed blank unpadded stops => exact rejectedAt_unnamed blank unpadded stops
  | @unclosed _ lead name items pad rest open' leads some =>
      have quote : ¬ Stops (· ≠ '#') rest := fun remark =>
        some (leads.chain.open_eq_zero remark)
      have other : rest.head? ≠ Option.some '#' := by
        intro first
        obtain ⟨more, rfl⟩ := List.head?_eq_some_iff.mp first
        exact quote (stops_cons.mpr (by decide))
      have more : rest ≠ [] := by
        rintro rfl
        exact quote stops_nil
      have taken := takes_leadingCommand_plain leads other
      rw [if_neg some] at taken
      have rejected := rejectedAt_far [] taken (by simp) leads.chain.stops more (by simp; omega)
      rw [leads.split]
      simpa using rejected
  | @trailing _ lead name items pad rest c leads other =>
      have taken := takes_leadingCommand_plain leads (by simpa using other)
      have rejected := rejectedAt_near [] taken (by simp) leads.chain.stops
        (List.cons_ne_nil c rest) (by simp)
      rw [leads.split]
      simpa using rejected
  | @behindRemark _ lead name items pad content pad' rest c leads inside line blank other =>
      have taken := takes_leadingCommand_remark leads inside line
      have rejected := rejectedAt_near pad' taken blank (stops_cons.mpr other)
        (List.cons_ne_nil c rest) (Nat.zero_le _)
      rw [leads.split]
      simpa using rejected

/-- A line that is accepted is read as a command and perhaps a comment. -/
theorem exists_leads_of_parses {command : Command} (parses : parseStrict text = .ok command) :
    ∃ lead name items pad rest, Leads text lead name items pad rest 0 ∧ Remark rest ∧
      command = commandNode (Position.after {} lead) name items pad := by
  obtain ⟨outcome, is⟩ := exists_outcome text
  cases outcome with
  | error index =>
      obtain ⟨error, rejects, -⟩ := is.rejects
      rw [rejects] at parses
      cases parses
  | ok command' =>
      have same : command' = command := Except.ok.inj (is.accepts.symm.trans parses)
      cases is with
      | @accepted _ lead name items pad rest open' leads remark =>
          have closed := leads.chain.open_eq_zero remark.stops
          subst closed
          exact ⟨lead, name, items, pad, rest, leads, remark, same.symm⟩

end Outcomes

end LineShell
