/-
Module: LineShell.Proofs.Shell.Submission
Purpose: What a line that is submitted comes to: exactly one of seven verdicts, and for each
  of them everything that changes and everything that does not.
Main exports: Shell.Verdict, Shell.verdict, Shell.submit_eq, Shell.Fails, Shell.Raises,
  Shell.Verdict.Holds, Shell.Submits, Machine.Takes, submission_is_whole, submission_raises
-/
import LineShell.Proofs.Shell.Repaint
import LineShell.Scheduler.Step

namespace LineShell

/-!
A line that is submitted leaves the buffer, and it is carried out as a whole or not at
all.  The verdict on it depends on the line, the table of programs and the presence of a
scheduler alone.  Of a line that cannot be carried out nothing remains but its entry in
the history, a diagnostic and a status.  One failure is caught by nobody: where the host
cannot make the program that is called, the event itself raises it, with neither diagnostic
nor status nor a new prompt.
-/

/-! ### Diagnostics take one line -/

theorem newline_not_mem_hex (width n : Nat) : '\n' ∉ Quoted.hex width n := by
  have digits : ∀ d < 16, Nat.digitChar d ≠ '\n' := by decide
  simp only [Quoted.hex, List.mem_map, List.mem_reverse, not_exists, not_and]
  exact fun place _ => digits _ (Nat.mod_lt _ (by decide))

theorem newline_not_mem_escape {quote : Char} (other : quote ≠ '\n') (c : Char) :
    '\n' ∉ Quoted.escape quote c := by
  unfold Quoted.escape
  split
  · next same =>
      rcases same with rfl | rfl
      · simpa using Ne.symm other
      · decide
  · split
    · decide
    · split
      · decide
      · next differs =>
          split
          · decide
          · split
            · simpa using Ne.symm differs
            · split
              · simpa using newline_not_mem_hex 2 c.toNat
              · split
                · simpa using newline_not_mem_hex 4 c.toNat
                · simpa using newline_not_mem_hex 8 c.toNat

theorem newline_not_mem_char (c : Char) : '\n' ∉ Quoted.char c := by
  have quote : Quoted.quoteFor [c] ≠ '\n' := by
    unfold Quoted.quoteFor
    split
    · decide
    · decide
  have inside := newline_not_mem_escape quote c
  simp only [Quoted.char, Quoted.text, List.flatMap_cons, List.flatMap_nil, List.append_nil,
    List.cons_append, List.mem_cons, List.mem_append, List.not_mem_nil, or_false, not_or]
  exact ⟨quote.symm, inside, quote.symm⟩

theorem newline_not_mem_ofNat (n : Nat) : '\n' ∉ Text.ofNat n := by
  intro member
  have digit := Nat.isDigit_of_mem_toDigits (by decide) (by decide) member
  exact absurd digit (by decide)

theorem newline_not_mem_words (expectation : Expectation) : '\n' ∉ expectation.words := by
  cases expectation with
  | char c => exact newline_not_mem_char c
  | identifier | name | text | templatePart | template | switchName | parameter => decide

theorem newline_not_mem_describe (found : Option Char) : '\n' ∉ SyntaxError.describe found := by
  cases found with
  | none => decide
  | some c =>
      intro member
      rcases List.mem_append.mp member with words | quoted
      · revert words
        decide
      · exact newline_not_mem_char c quoted

/-- The report of a syntax error takes one line, whatever the text holds. -/
theorem newline_not_mem_message (error : SyntaxError) : '\n' ∉ error.message := by
  have detail : '\n' ∉ error.detail := by
    unfold SyntaxError.detail
    split
    · exact newline_not_mem_describe _
    · have comma : '\n' ∉ (", expected " : Text) := by decide
      simp only [List.mem_append, not_or]
      exact ⟨⟨newline_not_mem_describe _, comma⟩, newline_not_mem_words _⟩
  have front : '\n' ∉ ("syntax error at " : Text) := by decide
  have comma : '\n' ∉ (", " : Text) := by decide
  intro member
  rcases List.mem_append.mp member with member | behind
  · rcases List.mem_append.mp member with member | behind
    · rcases List.mem_append.mp member with words | place
      · exact front words
      · rcases List.mem_append.mp place with row | column
        · exact newline_not_mem_ofNat _ row
        · rcases List.mem_cons.mp column with colon | column
          · exact absurd colon (by decide)
          · exact newline_not_mem_ofNat _ column
    · exact comma behind
  · exact detail behind

/-- The name of a command takes one line. -/
theorem newline_not_mem_name {text : Text} {command : Command}
    (parses : parseStrict text = .ok command) : '\n' ∉ command.name := by
  obtain ⟨lead, name, items, pad, rest, leads, -, rfl⟩ := exists_leads_of_parses parses
  exact fun member => absurd (leads.all _ member) (by decide)

/-- A line that is rejected has a syntax error. -/
theorem exists_error_of_parseStrict {text : Text} {fault : ReadFault}
    (rejected : parseStrict text = .error fault) : ∃ error, fault = .malformed error := by
  obtain ⟨outcome, found⟩ := exists_outcome text
  cases outcome with
  | ok command =>
      rw [found.accepts] at rejected
      cases rejected
  | error index =>
      obtain ⟨error, parsed, -⟩ := found.rejects
      rw [parsed] at rejected
      exact ⟨error, (Except.error.inj rejected).symm⟩

namespace Shell

/-! ### Verdicts -/

/-- What becomes of a line that is submitted. -/
inductive Verdict where
  | blank
  /-- The line is no command. -/
  | rejected (fault : ReadFault)
  /-- No program has the name of the command. -/
  | unknown (name : Text)
  /-- The program runs beside the shell, and there is no scheduler. -/
  | refused (name : Text)
  /-- The program cannot be made. -/
  | unmade (fault : Fault)
  | builtin (name : Text) (script : BuiltinScript)
  | launched (launch : Launch)

/-- The verdict on the line being typed. -/
def verdict (shell : Shell) (scheduled : Bool) : Verdict :=
  if shell.buffer.text.isBlank then .blank
  else
    match parseStrict shell.buffer.text with
    | .error fault => .rejected fault
    | .ok command =>
        match shell.programs.get? command.name with
        | none => .unknown command.name
        | some (.builtin (.error fault)) => .unmade fault
        | some (.builtin (.ok run)) =>
            .builtin command.name (run shell.store (command.arguments shell.store))
        | some (.internal make) =>
            if scheduled then
              match make with
              | .error fault => .unmade fault
              | .ok run =>
                  .launched
                    { kind := .internal
                      name := command.name
                      start := run (command.arguments shell.store) }
            else .refused command.name
        | some (.external run) =>
            if scheduled then
              .launched
                { kind := .external
                  name := command.name
                  start := run (command.texts shell.store) }
            else .refused command.name

variable (shell : Shell)

/-- The shell when a line has been ended and noted in the history. -/
def committed : Shell :=
  { shell.endLine with history := shell.history.commit shell.buffer.text }

/-- What ending a line changes. -/
theorem endLine_eq : shell.endLine =
    { shell with
      console := shell.endLine.console
      buffer := Buffer.empty
      suggestion := none } := by
  rw [endLine, writeLine]
  rfl

theorem committed_eq : shell.committed =
    { shell with
      console := shell.endLine.console
      buffer := Buffer.empty
      suggestion := none
      history := shell.history.commit shell.buffer.text } := by
  rw [committed, endLine_eq]

/-- What carrying out a verdict on the line being typed comes to. -/
def carriedOut : Verdict → Reaction × Shell
  | .blank => (.done, shell.endLine)
  | .rejected fault =>
      (.done, (shell.committed.withConsole
        (·.println (ownMessage fault.message))).setStatus statusSyntaxError)
  | .unknown name =>
      (.done, (shell.committed.withConsole
        (·.println (ownMessage ("command not found: " ++ name)))).setStatus statusNotFound)
  | .refused name => (.done, (shell.committed.refuse name).2.setStatus statusFailure)
  | .unmade fault => (.raised fault, shell.committed)
  | .builtin name script =>
      (.done, (shell.committed.runBuiltin name script).2.setStatus
        (shell.committed.runBuiltin name script).1)
  | .launched launch => (.launched launch, { shell.committed with activity := .running })

/-- Submitting a line carries out the verdict on it. -/
theorem submit_eq (scheduled : Bool) :
    shell.submit scheduled = shell.carriedOut (shell.verdict scheduled) := by
  unfold submit verdict
  dsimp only
  by_cases blank : shell.buffer.text.isBlank = true
  · rw [if_pos blank, if_pos blank]
    rfl
  · rw [if_neg blank, if_neg blank]
    cases parseStrict shell.buffer.text with
    | error fault => rfl
    | ok command =>
        change shell.committed.execute scheduled command = _
        have programs : shell.committed.programs = shell.programs := rfl
        cases found : shell.programs.get? command.name with
        | none =>
            simp only [execute, dispatch, programs, found]
            rfl
        | some program =>
            cases program with
            | builtin make =>
                simp only [execute, dispatch, programs, found]
                cases make <;> rfl
            | internal make =>
                simp only [execute, dispatch, programs, found]
                cases scheduled <;> cases make <;> rfl
            | external run =>
                simp only [execute, dispatch, programs, found]
                cases scheduled <;> rfl

/-! ### What is written -/

/-- What is written when the line being typed is ended. -/
def closing : Text :=
  cursorLeftEdge ++ eraseLine ++ paint shell.console.prompt.shown .purple ++ shell.segment ++
    lineEnd

theorem recorded_endLine :
    shell.endLine.console.terminal.recorded = shell.console.terminal.recorded ++ shell.closing := by
  have shown := shell.recorded_writeLine
  rw [endLine]
  dsimp only [withConsole] at shown ⊢
  rw [Console.recorded_println, shown, closing]
  simp only [List.append_assoc, List.nil_append]

/-- Where a line was ended a message starts on a line of its own. -/
theorem complete_endLine : shell.endLine.console.complete = shell.endLine.console :=
  Console.complete_println _ _

/-! ### What each verdict means -/

/-- Nothing remains of a line but one line of diagnostics and a status. -/
structure Fails (message : Text) (code : Int) (result : Reaction × Shell) : Prop where
  reaction : result.1 = .done
  activity : result.2.activity = .idle
  programs : result.2.programs = shell.programs
  calls : result.2.journal.calls = shell.journal.calls
  store : ∀ name, name ≠ ['?'] → result.2.store.get? name = shell.store.get? name
  status : result.2.status = code
  statusVariable : result.2.store.get? ['?'] = some (Text.ofInt code)
  /-- The message has no line end in it, so it is one line. -/
  line : '\n' ∉ message
  written : result.2.console.terminal.recorded = shell.console.terminal.recorded ++
    (shell.closing ++ (ownMessage message ++ lineEnd) ++ result.2.frame)

/-- What a builtin program has to play on when a line has been ended. -/
def environment : Environment :=
  { console := shell.endLine.console
    store := shell.store
    programs := shell.programs
    calls := shell.journal.calls }

/-- A builtin program has been played once, on what the shell had, and nothing else has
happened but that its status was recorded and its failure reported. -/
structure Plays (name : Text) (script : BuiltinScript) (result : Reaction × Shell) :
    Prop where
  reaction : result.1 = .done
  activity : result.2.activity = .idle
  programs : result.2.programs = (script.play shell.environment).2.programs
  calls : result.2.journal.calls = (script.play shell.environment).2.calls
  store : ∀ name, name ≠ ['?'] →
    result.2.store.get? name = (script.play shell.environment).2.store.get? name
  status : result.2.status =
    match (script.play shell.environment).1 with
    | .ok status => status
    | .error _ => statusFailure
  statusVariable : result.2.store.get? ['?'] = some (Text.ofInt result.2.status)
  written : result.2.console.terminal.recorded =
    (match script.play shell.environment with
    | (.ok _, left) => left.console
    | (.error fault, left) =>
        left.console.complete.println (ownMessage (name ++ ": " ++ fault.summary))).terminal.recorded
      ++ result.2.frame

/-- A program is to be launched, and nothing has been decided yet. -/
structure Waits (program : Launch) (result : Reaction × Shell) : Prop where
  reaction : result.1 = .launched program
  activity : result.2.activity = .running
  programs : result.2.programs = shell.programs
  journal : result.2.journal = shell.journal
  store : result.2.store = shell.store
  status : result.2.status = shell.status
  written : result.2.console.terminal.recorded =
    shell.console.terminal.recorded ++ shell.closing

/-- A failure to make a program is raised.  The line has been ended, and that is all: nothing
is reported, no status is recorded, and there is no new prompt. -/
structure Raises (fault : Fault) (result : Reaction × Shell) : Prop where
  reaction : result.1 = .raised fault
  activity : result.2.activity = .idle
  programs : result.2.programs = shell.programs
  journal : result.2.journal = shell.journal
  store : result.2.store = shell.store
  status : result.2.status = shell.status
  written : result.2.console.terminal.recorded =
    shell.console.terminal.recorded ++ shell.closing

/-- A blank line leaves nothing but a new prompt. -/
structure Passes (result : Reaction × Shell) : Prop where
  reaction : result.1 = .done
  activity : result.2.activity = .idle
  history : result.2.history = shell.history
  programs : result.2.programs = shell.programs
  journal : result.2.journal = shell.journal
  store : result.2.store = shell.store
  status : result.2.status = shell.status
  written : result.2.console.terminal.recorded =
    shell.console.terminal.recorded ++ (shell.closing ++ result.2.frame)

/-- What a verdict means for what an event leads to and for the shell behind it. -/
def Verdict.Holds (result : Reaction × Shell) : Verdict → Prop
  | .blank => shell.Passes result
  | .rejected fault =>
      (∃ error, fault = .malformed error) ∧ shell.Fails fault.message statusSyntaxError result
  | .unknown name => shell.Fails ("command not found: " ++ name) statusNotFound result
  | .refused name => shell.Fails (name ++ ": no running event loop") statusFailure result
  | .unmade fault => shell.Raises fault result
  | .builtin name script => shell.Plays name script result
  | .launched program => shell.Waits program result

/-- Only a program that cannot be made raises a failure. -/
theorem Verdict.Holds.raises {shell : Shell} {result : Reaction × Shell} {verdict : Verdict}
    (holds : verdict.Holds shell result) {fault : Fault} (raised : result.1 = .raised fault) :
    verdict = .unmade fault ∧ shell.Raises fault result := by
  cases verdict with
  | unmade other =>
      obtain rfl : other = fault := Reaction.raised.inj (holds.reaction.symm.trans raised)
      exact ⟨rfl, holds⟩
  | rejected => cases holds.2.reaction.symm.trans raised
  | blank | unknown | refused | builtin => cases holds.reaction.symm.trans raised
  | launched => cases holds.reaction.symm.trans raised

/-- What holds of an event that submits the line being typed. -/
structure Submits (scheduled : Bool) (result : Reaction × Shell) : Prop where
  buffer : result.2.buffer = Buffer.empty
  /-- A line that is not blank is noted once, and browsing starts anew behind it. -/
  history : shell.buffer.text.isBlank = false →
    result.2.history.entries = shell.history.entries ++ [shell.buffer.text] ∧
      result.2.history.cursor = result.2.history.entries.length
  verdict : (shell.verdict scheduled).Holds shell result

section Submitting

variable {shell : Shell} {scheduled : Bool}

/-- Where an event raises a failure, a program could not be made. -/
theorem Submits.raises {result : Reaction × Shell} (submits : shell.Submits scheduled result)
    {fault : Fault} (raised : result.1 = .raised fault) :
    shell.verdict scheduled = .unmade fault ∧ shell.Raises fault result :=
  submits.verdict.raises raised

/-- Nothing but the end of a line. -/
theorem passes_endLine (idle : shell.activity = .idle) :
    shell.Passes (.done, shell.endLine.repaint) := by
  have kept : shell.endLine.activity = .idle ∧ shell.endLine.history = shell.history ∧
      shell.endLine.programs = shell.programs ∧ shell.endLine.journal = shell.journal ∧
      shell.endLine.store = shell.store ∧ shell.endLine.status = shell.status := by
    rw [endLine_eq]
    exact ⟨idle, rfl, rfl, rfl, rfl, rfl⟩
  have written := shell.recorded_endLine
  generalize shell.endLine = ended at kept written ⊢
  obtain ⟨active, history, programs, journal, store, status⟩ := kept
  refine ⟨rfl, active, history, programs, journal, store, status, ?_⟩
  change ended.repaint.console.terminal.recorded = _ ++ (_ ++ ended.repaint.frame)
  rw [recorded_repaint, frame_repaint, written, List.append_assoc]

/-- Nothing but the end of a line and the program that is to be launched. -/
theorem waits_committed (program : Launch) :
    shell.Waits program (.launched program, { shell.committed with activity := .running }) := by
  rw [committed_eq]
  exact ⟨rfl, rfl, rfl, rfl, rfl, rfl, shell.recorded_endLine⟩

/-- Nothing but the end of a line and the failure. -/
theorem raises_committed (idle : shell.activity = .idle) (fault : Fault) :
    shell.Raises fault (.raised fault, shell.committed) := by
  rw [committed_eq]
  exact ⟨rfl, idle, rfl, rfl, rfl, rfl, shell.recorded_endLine⟩

/-- A message and a status after the end of a line. -/
theorem fails_repaint {after : Shell} {message : Text} {code : Int}
    (kept : after.activity = .idle ∧ after.programs = shell.programs ∧
      after.journal.calls = shell.journal.calls)
    (store : after.store = shell.store.insert ['?'] (Text.ofInt code))
    (status : after.status = code) (line : '\n' ∉ message)
    (console : after.console = shell.endLine.console.println (ownMessage message)) :
    shell.Fails message code (.done, after.repaint) := by
  obtain ⟨idle, programs, calls⟩ := kept
  refine ⟨rfl, idle, programs, calls, fun name other => ?_, status, ?_, line, ?_⟩
  · change after.store.get? name = _
    rw [store, Table.get?_insert, if_neg (Ne.symm other)]
  · change after.store.get? ['?'] = _
    rw [store, Table.get?_insert, if_pos rfl]
  · change after.repaint.console.terminal.recorded = _ ++ (_ ++ after.repaint.frame)
    rw [recorded_repaint, frame_repaint, console, Console.recorded_println, recorded_endLine]
    simp only [List.append_assoc]

/-- A shell that has ended the line, and has not changed otherwise as far as a failure
can tell. -/
structure Ended (shell base : Shell) : Prop where
  activity : base.activity = .idle
  programs : base.programs = shell.programs
  calls : base.journal.calls = shell.journal.calls
  store : base.store = shell.store
  console : base.console = shell.endLine.console

theorem ended_committed (idle : shell.activity = .idle) : shell.Ended shell.committed := by
  rw [committed_eq]
  exact ⟨idle, rfl, rfl, rfl, rfl⟩

variable {base : Shell}

theorem Ended.fails_println (ended : shell.Ended base) {message : Text} (line : '\n' ∉ message)
    (code : Int) :
    shell.Fails message code
      (.done, ((base.withConsole (·.println (ownMessage message))).setStatus code).repaint) := by
  obtain ⟨activity, programs, calls, store, console⟩ := ended
  refine fails_repaint ⟨activity, programs, calls⟩ ?_ rfl line ?_
  · rw [← store]
    rfl
  · rw [← console]
    rfl

theorem Ended.fails_refuse (ended : shell.Ended base) {name : Text}
    (line : '\n' ∉ name ++ (": no running event loop" : Text)) (code : Int) :
    shell.Fails (name ++ ": no running event loop") code
      (.done, ((base.refuse name).2.setStatus code).repaint) := by
  obtain ⟨activity, programs, calls, store, console⟩ := ended
  refine fails_repaint ⟨activity, programs, calls⟩ ?_ rfl line ?_
  · rw [← store]
    rfl
  · change base.console.complete.println _ = _
    rw [console, complete_endLine]
    simp only [Fault.message, List.append_assoc]
    rfl

/-- Whether what a verdict tells of takes one line. -/
def Verdict.OnOneLine : Verdict → Prop
  | .rejected fault => ∃ error, fault = .malformed error
  | .unknown name | .refused name => '\n' ∉ name
  | .blank | .unmade _ | .builtin .. | .launched _ => True

theorem onOneLine_verdict (shell : Shell) (scheduled : Bool) :
    (shell.verdict scheduled).OnOneLine := by
  unfold Shell.verdict
  split
  · trivial
  · split
    · next rejected => exact exists_error_of_parseStrict rejected
    · next command parses =>
        have inside := newline_not_mem_name parses
        split
        · exact inside
        · trivial
        · trivial
        · split
          · split <;> trivial
          · exact inside
        · split
          · trivial
          · exact inside

/-- The key that submits a line. -/
theorem typed_submit {event : Text} (submits : event = ['\r'] ∨ event = ['\n']) :
    shell.typed scheduled event = shell.submit scheduled := by
  rcases submits with rfl | rfl
  · rfl
  · rfl

/-- What a builtin program leaves when a line has been ended. -/
theorem left_runBuiltin (name : Text) (script : BuiltinScript) :
    let ran := shell.committed.runBuiltin name script
    let played := script.play shell.environment
    (ran.2.store = played.2.store ∧ ran.2.programs = played.2.programs ∧
      ran.2.journal.calls = played.2.calls ∧ ran.2.history = shell.committed.history) ∧
    (ran.1 = match played.1 with | .ok status => status | .error _ => statusFailure) ∧
    ran.2.console = match played with
      | (.ok _, left) => left.console
      | (.error fault, left) =>
          left.console.complete.println (ownMessage (name ++ ": " ++ fault.summary)) := by
  have same : ({ console := shell.committed.console
                 store := shell.committed.store
                 programs := shell.committed.programs
                 calls := shell.committed.journal.calls } : Environment) = shell.environment := rfl
  dsimp only
  rw [runBuiltin, same]
  generalize script.play shell.environment = played
  obtain ⟨result, left⟩ := played
  cases result with
  | ok status => exact ⟨⟨rfl, rfl, rfl, rfl⟩, rfl, rfl⟩
  | error fault => exact ⟨⟨rfl, rfl, rfl, rfl⟩, rfl, rfl⟩

theorem plays_repaint (idle : shell.activity = .idle) (name : Text) (script : BuiltinScript) :
    shell.Plays name script
      (.done, ((shell.committed.runBuiltin name script).2.setStatus
        (shell.committed.runBuiltin name script).1).repaint) := by
  have active := (shell.committed.activity_runBuiltin name script).trans idle
  obtain ⟨⟨store, programs, calls, -⟩, status, console⟩ := shell.left_runBuiltin name script
  generalize shell.committed.runBuiltin name script = ran at *
  refine ⟨rfl, active, programs, calls, fun other differs => ?_, status, ?_, ?_⟩
  · change (ran.2.store.insert ['?'] _).get? other = _
    rw [Table.get?_insert, if_neg (Ne.symm differs), store]
  · change (ran.2.store.insert ['?'] _).get? ['?'] = _
    rw [Table.get?_insert, if_pos rfl]
    rfl
  · change (ran.2.setStatus ran.1).repaint.console.terminal.recorded =
      _ ++ (ran.2.setStatus ran.1).repaint.frame
    rw [recorded_repaint, frame_repaint, ← console]
    rfl

/-- Only a blank line has no other verdict. -/
theorem verdict_ne_blank (visible : shell.buffer.text.isBlank = false) :
    shell.verdict scheduled ≠ .blank := by
  unfold Shell.verdict
  rw [if_neg (by simp [visible])]
  split
  · simp
  · split
    · simp
    · simp
    · simp
    · split
      · split <;> simp
      · simp
    · split <;> simp

/-- A line that is not blank is noted in the history. -/
theorem history_submit (visible : shell.buffer.text.isBlank = false) :
    (shell.submit scheduled).2.history = shell.history.commit shell.buffer.text := by
  rw [submit_eq]
  cases verdict : shell.verdict scheduled with
  | blank => exact absurd verdict (verdict_ne_blank visible)
  | builtin name script => exact (shell.left_runBuiltin name script).1.2.2.2
  | rejected | unknown | refused | unmade | launched => rfl

/-- Only a program that is launched makes the shell run. -/
theorem activity_carriedOut (shell : Shell) (verdict : Verdict) :
    (shell.carriedOut verdict).2.activity =
      match verdict with
      | .launched _ => .running
      | _ => shell.activity := by
  cases verdict with
  | builtin name script => exact shell.committed.activity_runBuiltin name script
  | blank | rejected | unknown | refused | unmade | launched =>
      dsimp only [carriedOut, refuse, report, warn, setStatus, withConsole, committed, endLine,
        writeLine]

/-- A verdict that neither launches a program nor raises a failure ends with a new prompt. -/
theorem showAnew_carriedOut (idle : shell.activity = .idle) (verdict : Verdict) :
    showAnew (shell.carriedOut verdict) =
      match verdict with
      | .unmade _ | .launched _ => shell.carriedOut verdict
      | _ => (.done, (shell.carriedOut verdict).2.repaint) := by
  have active := shell.activity_carriedOut verdict
  cases verdict with
  | unmade | launched => rfl
  | blank | rejected | unknown | refused | builtin =>
      rw [showAnew, active, idle]
      rfl

/-- A line is submitted as its verdict says. -/
theorem holds_input (idle : shell.activity = .idle) {event : Text}
    (submits : event = ['\r'] ∨ event = ['\n']) :
    (shell.verdict scheduled).Holds shell (shell.input scheduled event) := by
  have told := shell.onOneLine_verdict scheduled
  rw [input_of_idle idle, typed_submit submits, submit_eq]
  generalize shell.verdict scheduled = verdict at told ⊢
  rw [showAnew_carriedOut idle]
  cases verdict with
  | blank => exact passes_endLine idle
  | rejected fault =>
      refine ⟨told, (ended_committed idle).fails_println ?_ _⟩
      obtain ⟨error, rfl⟩ := told
      exact newline_not_mem_message error
  | unknown name =>
      have front : '\n' ∉ ("command not found: " : Text) := by decide
      refine (ended_committed idle).fails_println ?_ _
      simpa only [List.mem_append, not_or] using ⟨front, told⟩
  | refused name =>
      have behind : '\n' ∉ (": no running event loop" : Text) := by decide
      refine (ended_committed idle).fails_refuse ?_ _
      simpa only [List.mem_append, not_or] using ⟨told, behind⟩
  | unmade fault => exact raises_committed idle fault
  | builtin name script => exact plays_repaint idle name script
  | launched program => exact waits_committed program

/-- A line that is submitted leaves the buffer, is noted in the history unless it is blank,
and is carried out as a whole or not at all. -/
theorem submits_input (idle : shell.activity = .idle) {event : Text}
    (submits : event = ['\r'] ∨ event = ['\n']) :
    shell.Submits scheduled (shell.input scheduled event) := by
  have kept : (shell.input scheduled event).2.buffer = (shell.submit scheduled).2.buffer ∧
      (shell.input scheduled event).2.history = (shell.submit scheduled).2.history := by
    rw [input_of_idle idle, typed_submit submits]
    rcases showAnew_cases (shell.submit scheduled) with same | same
    · rw [same]
      exact ⟨rfl, rfl⟩
    · rw [same]
      exact ⟨rfl, rfl⟩
  refine ⟨kept.1.trans (shell.buffer_submit scheduled), fun visible => ?_,
    holds_input idle submits⟩
  rw [kept.2, history_submit visible]
  exact ⟨rfl, by simp [History.commit]⟩

end Submitting

end Shell

/-! ### On a machine -/

/-- The program that an event launches. -/
def Reaction.launch? : Reaction → Option Launch
  | .launched launch => some launch
  | .done | .raised _ => none

/-- A machine has taken over what an event came to: the shell is as the event left it, and
what it launched is one run more, that will be called once and attended once. -/
structure Machine.Takes (machine : Machine) (result : Reaction × Shell)
    (after : Machine) : Prop where
  shell : after.shell = result.2
  runs : after.runs =
    machine.runs ++ result.1.launch?.toList.map fun program => { launch := program }
  ready : after.ready = machine.ready ++ result.1.launch?.toList.flatMap fun _ =>
    [.begin machine.runs.length, .attend machine.runs.length]
  task : after.task = result.1.launch?.elim machine.task fun _ => some machine.runs.length

theorem Machine.takes_input (machine : Machine) (event : Text) :
    machine.Takes (machine.shell.input true event) (machine.input event) := by
  unfold input
  generalize machine.shell.input true event = result
  obtain ⟨reaction, shell⟩ := result
  cases reaction with
  | done | raised => exact ⟨rfl, (List.append_nil _).symm, (List.append_nil _).symm, rfl⟩
  | launched program => exact ⟨rfl, rfl, rfl, rfl⟩

/-- Submitting the line being typed is a whole: whatever the line, the programs and the
variables are, exactly what the verdict on the line means has happened behind it. -/
theorem submission_is_whole {shell : Shell} (idle : shell.activity = .idle) {event : Text}
    (submits : event = ['\r'] ∨ event = ['\n']) :
    (∀ scheduled, shell.Submits scheduled (shell.input scheduled event)) ∧
      ∀ machine : Machine, machine.shell = shell →
        machine.Takes (shell.input true event) (machine.input event) := by
  refine ⟨fun scheduled => Shell.submits_input idle submits, ?_⟩
  rintro machine rfl
  exact machine.takes_input event

/-- A shell with a builtin program, with an external one, and with a builtin one that the host
fails to make, in which a line has been typed. -/
def Shell.typing (line : Text) : Shell :=
  let counting : Program :=
    .builtin (.ok fun _ _ => { acts := [.setVariable "n" "1", .write "one"], ending := .ok 3 })
  let waiting : Program := .external fun _ => .defer false (.stop (.returned (.number 0)))
  let broken : Program := .builtin (.error (.host "ValueError" (some "no")))
  let programs : Programs :=
    { entries := [("count", counting), ("wait", waiting), ("broken", broken)] }
  { Shell.start {} .memory {} programs with buffer := Buffer.ofText line }

/-- A builtin program is played at once, and one that runs beside the shell is launched. -/
theorem submission_is_whole_named :
    (let shell := Shell.typing "count";
      (shell.input true ['\r']).2.status = 3 ∧
        (shell.input true ['\r']).2.store.get? "n" = some "1" ∧
        shell.Submits true (shell.input true ['\r'])) ∧
    (let machine := Machine.start (Shell.typing "wait");
      (machine.input ['\n']).runs.map (·.name) = [("wait" : Text)] ∧
        machine.shell.Submits true (machine.shell.input true ['\n']) ∧
        machine.Takes (machine.shell.input true ['\n']) (machine.input ['\n'])) := by
  have idle : ∀ line, (Shell.typing line).activity = .idle := fun _ => rfl
  refine ⟨⟨by decide +kernel, by decide +kernel, ?_⟩, by decide +kernel, ?_⟩
  · exact (submission_is_whole (idle "count") (.inl rfl)).1 true
  · have newline : (['\n'] : Text) = ['\r'] ∨ (['\n'] : Text) = ['\n'] := .inr rfl
    have whole := submission_is_whole (idle "wait") newline
    exact ⟨whole.1 true, whole.2 (.start (Shell.typing "wait")) rfl⟩

/-- Where the host fails to make the program, the event raises the failure: the line is noted,
but its status is not, nothing is reported, and no prompt is shown. -/
theorem submission_raises :
    let shell := Shell.typing "broken"
    let result := shell.input true ['\r']
    shell.activity = .idle ∧ result.1 = .raised (.host "ValueError" (some "no")) ∧
      result.2.history.entries = [("broken" : Text)] ∧ result.2.status = shell.status ∧
      result.2.console.terminal.recorded = shell.console.terminal.recorded ++ shell.closing := by
  intro shell result
  have idle : shell.activity = .idle := rfl
  have whole : shell.Submits true result := Shell.submits_input idle (.inl rfl)
  have raised : result.1 = .raised (.host "ValueError" (some "no")) := by decide +kernel
  obtain ⟨-, raises⟩ := whole.raises raised
  have noted : shell.history.entries ++ [shell.buffer.text] = [("broken" : Text)] := by
    decide +kernel
  have visible : shell.buffer.text.isBlank = false := by decide +kernel
  exact ⟨idle, raised, (whole.history visible).1.trans noted, raises.status, raises.written⟩

end LineShell
