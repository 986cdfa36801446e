/-
Module: LineShell.Proofs.Scheduler.Variables
Purpose: A value that one line gives to a variable is what another line prints, whatever
  characters it is made of.
Main exports: Value.line, exportLine, echoLines, verdict_line, Flight.Submitted,
  Shell.Sets, Shell.Prints, Reachable.exports_then_prints
-/
import LineShell.Proofs.Program.Assignment
import LineShell.Proofs.Program.Expansion
import LineShell.CommandLine.Session
import LineShell.Proofs.Scheduler.Submissions

namespace LineShell

/-!
Between the characters of a value on a command line and the same characters on the
terminal stand two lines: each is read, its argument is expanded, a builtin program is
played, and a status is recorded.  Single quotes carry the value through the first line.
Through the second it is carried by the store, and a value is not looked at for further
references.
-/

/-! ### Lines with one argument -/

/-- A line that calls a program with one value. -/
def Value.line (value : Value) (program : Text) : Text :=
  program ++ ' ' :: value.text

section Lines

variable {program name : Text} {value : Value} {store : Variables} {shell : Shell}

/-- Whether a text is a name that a program can have. -/
def IsProgramName (program : Text) : Prop :=
  program ≠ [] ∧ ∀ c ∈ program, isLooseNameChar c = true

theorem isProgramName_iff :
    program ≠ [] ∧ program.all isLooseNameChar = true ↔ IsProgramName program :=
  and_congr_right fun _ => List.all_eq_true

instance : Decidable (IsProgramName program) :=
  decidable_of_iff _ isProgramName_iff

theorem parseStrict_line (named : IsProgramName program)
    (stands : (Token.literal value).Stands []) :
    parseStrict (value.line program) =
      .ok (commandNode {} program [([' '], .literal value)] []) := by
  have leads : Leads (value.line program) [] program [([' '], .literal value)] [] [] 0 :=
    { split := by simp [Value.line, spell, Token.text]
      blank := by simp
      some := named.1
      all := named.2
      stops := stops_cons.mpr (by decide)
      chain := .cons (gap_space true) stands (chain_nil false) }
  exact (Outcome.accepted leads (.inl rfl)).accepts

theorem arguments_line (fits : value.Fits) :
    (commandNode {} program [([' '], .literal value)] []).arguments store =
      [.text (readValue store value.text)] := by
  rw [Command.arguments, params_commandNode]
  exact congrArg (fun text => [Argument.text text]) (Value.expand_node fits)

theorem isBlank_line (named : IsProgramName program) : (value.line program).isBlank = false := by
  obtain ⟨c, more, rfl⟩ := List.exists_cons_of_ne_nil named.1
  have visible := isBlank_of_isLooseNameChar (named.2 c List.mem_cons_self)
  simp [Value.line, Text.isBlank, visible]

/-- A line that calls a builtin program with one value. -/
theorem verdict_line (named : IsProgramName program) (fits : value.Fits)
    (stands : (Token.literal value).Stands []) (text : shell.buffer.text = value.line program)
    {run : Variables → List Argument → BuiltinScript}
    (known : shell.programs.get? program = some (.builtin (.ok run))) (scheduled : Bool) :
    shell.verdict scheduled =
      .builtin program (run shell.store [.text (readValue shell.store value.text)]) := by
  have visible : ¬ shell.buffer.text.isBlank = true := by
    rw [text, isBlank_line named]
    exact Bool.false_ne_true
  have called : (commandNode {} program [([' '], .literal value)] []).name = program := rfl
  rw [Shell.verdict, if_neg visible, text, parseStrict_line named stands]
  dsimp only
  rw [called, known]
  dsimp only
  rw [arguments_line fits]

end Lines

/-! ### The line that sets a variable -/

/-- The line that gives a value to a variable, in single quotes. -/
def exportLine (name value : Text) : Text :=
  "export '" ++ (name ++ '=' :: value) ++ ['\x27']

/-- The lines that print a variable, without quotes and in double quotes. -/
def echoLines (name : Text) : List Text :=
  ["echo $" ++ name, "echo \"$" ++ name ++ ['"']]

section Builtins

variable {name value : Text} {store : Variables}

/-- Exactly one variable is set. -/
theorem exportVariables_equals (named : IsVariableName name) (some : value ≠ []) :
    Builtin.exportVariables store [.text (name ++ '=' :: value)] =
      { acts := [.setVariable name value], ending := .ok statusSuccess } := by
  have valid := Builtin.assignment_of_gives (.text named some)
  simp only [Builtin.exportVariables, List.isEmpty_cons, Bool.false_eq_true, if_false,
    List.map_cons, List.map_nil, List.all_cons, List.all_nil, Bool.and_true, Builtin.assign,
    Builtin.isAssignment, valid, Except.isOk, Except.toBool, if_true]

/-- A whole line that is a reference stands for the value of the variable. -/
theorem expand_name (named : IsVariableName name) :
    Text.expand store ('$' :: name) = store.lookup name := by
  obtain ⟨taken, left⟩ := takeWhile_run named.2 stops_nil
  rw [List.append_nil] at taken left
  have reference : Text.expand store ('$' :: name) = _ :=
    expand_reference (taken.symm ▸ named.1)
  rwa [taken, left, expand_nil, List.append_nil] at reference

/-- The two ways to write a value that is a reference: without quotes and in double quotes. -/
def mentions (name : Text) : List Value :=
  [.bare ('$' :: name), .double ('$' :: name)]

/-- A value that is a reference can stand at the end of a line, and stands for the value of
the variable. -/
theorem reads_mention (store : Variables) (named : IsVariableName name) {given : Value}
    (member : given ∈ mentions name) :
    given.Fits ∧ (Token.literal given).Stands [] ∧
      readValue store given.text = store.lookup name := by
  have inside : ∀ quoted, ∀ c ∈ '$' :: name, isBodyChar quoted c = true := by
    intro quoted c member
    rcases List.mem_cons.mp member with rfl | member
    · cases quoted <;> decide
    · exact isBodyChar_of_isNameChar quoted (named.2 c member)
  rcases List.mem_cons.mp member with rfl | quoted
  · have fits : (Value.bare ('$' :: name)).Fits := ⟨List.cons_ne_nil _ _, inside false⟩
    refine ⟨fits, .word fits stops_nil ?_, expand_name named⟩
    rintro long behind rest heads
    have first := congrArg List.head? heads.split
    cases long <;> cases first
  · obtain rfl := List.mem_singleton.mp quoted
    have fits : (Value.double ('$' :: name)).Fits := inside true
    exact ⟨fits, .quoted fits (by simp),
      (congrArg (Text.expand store) List.dropLast_concat).trans (expand_name named)⟩

end Builtins

/-! ### Submitting a line -/

/-- How a line is submitted to the shell of a flight: the shell with the line in its buffer,
and the shell behind it.  The line has been typed there, with a scheduler or without one, or
a caller comes with it. -/
inductive Flight.Submitted (flight : Flight) (line : Text) : Shell → Shell → Prop where
  | typed {event : Text} (submits : event = ['\r'] ∨ event = ['\n'])
      (text : flight.machine.shell.buffer.text = line) :
      Submitted flight line flight.machine.shell (flight.next (.input event)).machine.shell
  | unscheduled {event : Text} (submits : event = ['\r'] ∨ event = ['\n'])
      (text : flight.machine.shell.buffer.text = line) :
      Submitted flight line flight.machine.shell (flight.machine.shell.input false event).2
  | called {move : Move} {caller : Nat}
      (given : flight.machine.submission move = some (caller, line)) :
      Submitted flight line { flight.machine.shell with buffer := Buffer.ofText line }
        (flight.next move).machine.shell

/-- However a line is submitted, it is one event in a shell that holds it. -/
theorem Flight.Submitted.exists_input {flight : Flight} {line : Text} {before after : Shell}
    (submitted : flight.Submitted line before after) :
    (∃ buffer, before = { flight.machine.shell with buffer := buffer }) ∧
      before.buffer.text = line ∧
      ∃ scheduled event, (event = ['\r'] ∨ event = ['\n']) ∧
        after = (before.input scheduled event).2 := by
  cases submitted with
  | typed submits text =>
      exact ⟨⟨_, rfl⟩, text, true, _, submits, Machine.shell_input _ _⟩
  | unscheduled submits text => exact ⟨⟨_, rfl⟩, text, false, _, submits, rfl⟩
  | called given =>
      exact ⟨⟨_, rfl⟩, rfl, true, _, .inl rfl, (Machine.treats_make _ _).of_submission given⟩

namespace Machine

variable {machine : Machine} {move : Move} {caller : Nat} {line : Text}

/-- Behind every submission is a look of the caller. -/
theorem exists_call_of_submission (given : machine.submission move = some (caller, line)) :
    ∃ before : Machine, before.submittedBy caller = some line ∧
      before.finished = machine.finished ∧ before.shell = machine.shell ∧
        machine.make move = before.call caller := by
  cases move with
  | carryOut text =>
      obtain ⟨line, submits, same⟩ := Option.map_eq_some_iff.mp given
      obtain ⟨rfl, rfl⟩ := Prod.mk.inj same
      exact ⟨machine.enlist text, submits, rfl, rfl, rfl⟩
  | step =>
      rcases machine.tick_cases with ⟨job, ready, turn, -, shown, ticked⟩ | ⟨nothing, -⟩
      · rw [submission, shown] at given
        cases job with
        | call other =>
            obtain ⟨line, submits, same⟩ := Option.map_eq_some_iff.mp given
            obtain ⟨rfl, rfl⟩ := Prod.mk.inj same
            exact ⟨machine.pop ready turn, submits, rfl, rfl, ticked⟩
        | _ => cases given
      · rw [submission, nothing] at given
        cases given
  | input | exec | release | elapse => cases given

/-- A caller whose line has been carried out at once is told the status, unless the line has
raised a failure. -/
theorem finished_of_submission (sound : machine.front.Sound none)
    (given : machine.submission move = some (caller, line))
    (quiet : (machine.withLine line).failure? ['\r'] = none)
    (still : (machine.make move).shell.activity = .idle) :
    (machine.make move).finished =
      machine.finished ++ [(caller, .ok (machine.make move).shell.status)] := by
  have free : (machine.make move).task = none := free_of_idle (sound_make sound move) still
  obtain ⟨before, submits, finished, shell, made⟩ := exists_call_of_submission given
  have quiet : (before.withLine line).failure? ['\r'] = none := by
    rw [failure?, withLine, withShell, shell]
    exact quiet
  rw [made] at free ⊢
  rcases before.call_cases caller with ⟨absent, _⟩ | ⟨state, _, called⟩
  · simp [submittedBy, absent] at submits
  · rcases called with ⟨_, silent, _⟩ | ⟨_, _, silent, _⟩ | ⟨_, _, same, looked⟩
    · cases silent.symm.trans submits
    · cases silent.symm.trans submits
    · obtain rfl := Option.some.inj (same.symm.trans submits)
      rcases looked with ⟨fault, raises, _⟩ | ⟨_, ⟨engaged, waits⟩ | ⟨_, answered⟩⟩
      · cases quiet.symm.trans raises
      · rw [waits] at free
        rw [show (before.submitLine caller state.line).task = none from free] at engaged
        cases engaged
      · have kept : (before.submitLine caller state.line).finished = before.finished :=
          (desk_input _ _).2.2
        rw [answered, ← finished, ← kept]
        rfl

end Machine

/-! ### What the two lines do -/

/-- A variable has been set with success, and nothing else has happened. -/
structure Shell.Sets (before : Shell) (name value : Text) (after : Shell) : Prop where
  activity : after.activity = .idle
  status : after.status = statusSuccess
  value : after.store.get? name = some value
  statusVariable : after.store.get? ['?'] = some (Text.ofInt statusSuccess)
  others : ∀ other, other ≠ name → other ≠ ['?'] → after.store.get? other = before.store.get? other
  programs : after.programs = before.programs
  calls : after.journal.calls = before.journal.calls
  written : after.console.terminal.recorded =
    before.console.terminal.recorded ++ (before.closing ++ after.frame)

/-- A text has been printed with success, and nothing else has happened. -/
structure Shell.Prints (before : Shell) (text : Text) (after : Shell) : Prop where
  activity : after.activity = .idle
  status : after.status = statusSuccess
  store : ∀ other, other ≠ ['?'] → after.store.get? other = before.store.get? other
  programs : after.programs = before.programs
  calls : after.journal.calls = before.journal.calls
  written : after.console.terminal.recorded =
    before.console.terminal.recorded ++ (before.closing ++ (text ++ lineEnd) ++ after.frame)

/-- Whether `export` and `echo` are the programs that they are by default. -/
structure Programs.Standard (programs : Programs) : Prop where
  sets : programs.get? "export" = some (.builtin (.ok Builtin.exportVariables))
  prints : programs.get? "echo" = some (.builtin (.ok fun _ arguments => Builtin.echo arguments))

namespace Shell

variable {shell : Shell} {name value : Text} {scheduled : Bool} {event : Text}

/-- What a builtin program comes to that a line calls with one value. -/
theorem plays_line {program : Text} {given : Value} (idle : shell.activity = .idle)
    (submits : event = ['\r'] ∨ event = ['\n']) (named : IsProgramName program)
    (fits : given.Fits) (stands : (Token.literal given).Stands [])
    (text : shell.buffer.text = given.line program)
    {run : Variables → List Argument → BuiltinScript}
    (known : shell.programs.get? program = some (.builtin (.ok run))) :
    shell.Plays program (run shell.store [.text (readValue shell.store given.text)])
      (shell.input scheduled event) := by
  have verdict : (shell.verdict scheduled).Holds shell (shell.input scheduled event) :=
    holds_input idle submits
  rwa [verdict_line named fits stands text known] at verdict

/-- The value arrives in the program as it was written between the quotes. -/
theorem plays_exportLine (idle : shell.activity = .idle)
    (submits : event = ['\r'] ∨ event = ['\n']) (standard : shell.programs.Standard)
    (named : IsVariableName name) (some : value ≠ []) (quotable : '\x27' ∉ value)
    (text : shell.buffer.text = exportLine name value) :
    shell.Plays "export" { acts := [.setVariable name value], ending := .ok statusSuccess }
      (shell.input scheduled event) := by
  let raw : Text := name ++ '=' :: value
  have fits : (Value.single raw).Fits := by
    intro c member
    rcases List.mem_append.mp member with inside | inside
    · exact ne_of_isNameChar (named.2 c inside) (by decide)
    · rcases List.mem_cons.mp inside with rfl | inside
      · decide
      · exact fun same => quotable (same ▸ inside)
  have stands : (Token.literal (.single raw)).Stands [] := .quoted fits (by simp)
  have held : shell.buffer.text = (Value.single raw).line "export" := text
  have read : readValue shell.store (Value.single raw).text = raw := List.dropLast_concat
  have plays : shell.Plays _ _ (shell.input scheduled event) :=
    plays_line idle submits (by decide) fits stands held standard.sets
  rwa [read, exportVariables_equals named some] at plays

/-- The value arrives in the store. -/
theorem sets_exportLine (idle : shell.activity = .idle)
    (submits : event = ['\r'] ∨ event = ['\n']) (standard : shell.programs.Standard)
    (named : IsVariableName name) (other : name ≠ ['?']) (some : value ≠ [])
    (quotable : '\x27' ∉ value) (text : shell.buffer.text = exportLine name value) :
    shell.Sets name value (shell.input scheduled event).2 := by
  have plays : shell.Plays _ _ (shell.input scheduled event) :=
    plays_exportLine idle submits standard named some quotable text
  have played : BuiltinScript.play
      { acts := [.setVariable name value], ending := .ok statusSuccess } shell.environment =
        (.ok statusSuccess,
          { shell.environment with store := shell.store.insert name value }) := rfl
  obtain ⟨-, activity, programs, calls, store, status, statusVariable, written⟩ := plays
  rw [played] at programs calls store status written
  have succeeded : (shell.input scheduled event).2.status = statusSuccess := status
  refine ⟨activity, succeeded, ?_, ?_, fun another differs reserved => ?_, programs, calls, ?_⟩
  · rw [store name other, Table.get?_insert, if_pos rfl]
  · rw [statusVariable, succeeded]
  · rw [store another reserved, Table.get?_insert, if_neg (Ne.symm differs)]
  · refine written.trans ?_
    change shell.endLine.console.terminal.recorded ++ _ = _
    rw [recorded_endLine, List.append_assoc]

/-- The value of a variable is printed as it is in the store. -/
theorem prints_echoLines (idle : shell.activity = .idle)
    (submits : event = ['\r'] ∨ event = ['\n']) (standard : shell.programs.Standard)
    (named : IsVariableName name) (text : shell.buffer.text ∈ echoLines name)
    (held : shell.store.get? name = some value) :
    shell.Prints value (shell.input scheduled event).2 := by
  have found : shell.store.lookup name = value := by rw [Table.lookup, held]; rfl
  have lines : echoLines name = (mentions name).map (·.line "echo") := rfl
  obtain ⟨given, among, line⟩ := List.mem_map.mp (lines ▸ text)
  obtain ⟨fits, stands, read⟩ := reads_mention shell.store named among
  have plays : shell.Plays _ _ (shell.input scheduled event) :=
    plays_line idle submits (by decide) fits stands line.symm standard.prints
  rw [read, found] at plays
  have played : (Builtin.echo [.text value]).play shell.environment = (.ok statusSuccess,
      { shell.environment with console := shell.endLine.console.println value }) := rfl
  obtain ⟨-, activity, programs, calls, store, status, statusVariable, written⟩ := plays
  rw [played] at programs calls store status written
  refine ⟨activity, status, store, programs, calls, written.trans ?_⟩
  change (shell.endLine.console.println value).terminal.recorded ++ _ = _
  rw [Console.recorded_println, recorded_endLine]
  simp only [List.append_assoc]

end Shell

/-! ### On all courses -/

/-- What holds of a variable and a value on a flight. -/
structure Flight.RoundTrips (flight : Flight) (name value : Text) : Prop where
  /-- The line that gives the value to the variable does just that, -/
  sets : ∀ before after, flight.Submitted (exportLine name value) before after →
    before.Sets name value after
  /-- and a caller that comes with it is told of the success. -/
  answered : ∀ move caller, flight.machine.submission move = some (caller, exportLine name value) →
    (flight.next move).machine.finished = flight.machine.finished ++ [(caller, .ok statusSuccess)]
  /-- As long as the variables and the programs are as that line has left them, a line that
  prints the variable writes the value. -/
  prints : ∀ before after, flight.Submitted (exportLine name value) before after →
    ∀ later : Flight, later.machine.shell.activity = .idle →
      later.machine.shell.store = after.store → later.machine.shell.programs = after.programs →
        ∀ line ∈ echoLines name, ∀ before' after', later.Submitted line before' after' →
          before'.Prints value after'

/-- A value survives the round trip through a variable: with the default programs, whatever
characters other than single quotes it is made of, one line sets the variable to it and
changes nothing else, and the next one prints exactly that value and the end of a line. -/
theorem Reachable.exports_then_prints {flight : Flight} (reachable : Reachable flight)
    (idle : flight.machine.shell.activity = .idle)
    (standard : flight.machine.shell.programs.Standard) {name value : Text}
    (named : IsVariableName name) (other : name ≠ ['?']) (some : value ≠ [])
    (quotable : '\x27' ∉ value) : flight.RoundTrips name value := by
  have sets : ∀ before after, flight.Submitted (exportLine name value) before after →
      before.Sets name value after ∧ before.programs = flight.machine.shell.programs := by
    intro before after submitted
    obtain ⟨⟨buffer, rfl⟩, text, scheduled, event, submits, rfl⟩ := submitted.exists_input
    exact ⟨Shell.sets_exportLine idle submits standard named other some quotable text, rfl⟩
  refine ⟨fun before after submitted => (sets before after submitted).1, ?_, ?_⟩
  · intro move caller given
    have left := (sets _ _ (.called given)).1
    let shell := (flight.machine.withLine (exportLine name value)).shell
    have plays : shell.Plays "export" _ (shell.input true ['\r']) :=
      Shell.plays_exportLine idle (.inl rfl) standard named some quotable rfl
    have quiet : (flight.machine.withLine (exportLine name value)).failure? ['\r'] = none :=
      congrArg Reaction.fault? plays.reaction
    have told := Machine.finished_of_submission reachable.sound.machine given quiet left.activity
    exact left.status ▸ told
  · intro before after exported later still store programs line among before' after' submitted
    obtain ⟨left, same⟩ := sets before after exported
    obtain ⟨⟨buffer, rfl⟩, text, scheduled, event, submits, rfl⟩ := submitted.exists_input
    have known : later.machine.shell.programs.Standard := by
      rw [programs, left.programs, same]
      exact standard
    have held : later.machine.shell.store.get? name = Option.some value := by
      rw [store]
      exact left.value
    exact Shell.prints_echoLines still submits known named (text ▸ among) held

/-- Typing text changes neither variables nor programs. -/
theorem Machine.input_text (machine : Machine) (event : Text)
    (idle : machine.shell.activity = .idle) (plain : Key.ofText? event = none)
    (some : event ≠ []) :
    (machine.input event).shell.activity = .idle ∧
      (machine.input event).shell.store = machine.shell.store ∧
      (machine.input event).shell.programs = machine.shell.programs ∧
      (machine.input event).shell.buffer = machine.shell.buffer.insert event := by
  have typed : machine.shell.typed true event = (.done, machine.shell.edit (·.insert event)) := by
    rw [Shell.typed, plain]
    dsimp only
    rw [if_neg (by simpa using some)]
  have still : (machine.shell.edit (·.insert event)).activity = .idle := idle
  have outcome : Shell.Outcome true (.done, machine.shell.edit (·.insert event)) := .done still
  rw [shell_input, Shell.input_of_idle idle, typed, outcome.showAnew_eq]
  exact ⟨idle, rfl, rfl, rfl⟩

/-- A value with all the characters that mean something elsewhere. -/
def markedValue : Text :=
  "a  $b #\"c=\nd"

/-- A session in which a line that sets a variable has been typed. -/
def Flight.exporting : Flight :=
  (Flight.start (Session.shell {})).next (.input (exportLine "x" markedValue))

theorem standard_standardPrograms : (standardPrograms none).Standard :=
  ⟨rfl, rfl⟩

theorem exports_then_prints_marked :
    let later := (Flight.exporting.next (.input ['\r'])).next (.input "echo \"$x\"")
    Flight.exporting.RoundTrips "x" markedValue ∧
      later.machine.shell.Prints markedValue (later.next (.input ['\r'])).machine.shell := by
  have reachable : Reachable Flight.exporting :=
    .next _ (.start {} .stream {} (standardPrograms none))
  obtain ⟨idle, -, programs, typed⟩ : Flight.exporting.machine.shell.activity = .idle ∧ _ :=
    Machine.input_text (.start (Session.shell {})) _ rfl (by decide) (by decide)
  have standard : Flight.exporting.machine.shell.programs.Standard :=
    programs ▸ standard_standardPrograms
  have trips := reachable.exports_then_prints idle standard
    (show IsVariableName "x" by decide) (by decide) (show markedValue ≠ [] by decide) (by decide)
  have text : Flight.exporting.machine.shell.buffer.text = exportLine "x" markedValue :=
    congrArg Buffer.text typed
  have submits : Flight.exporting.machine.shell.Submits true _ :=
    Shell.submits_input idle (.inl (Eq.refl ['\r']))
  have entered := Machine.shell_input Flight.exporting.machine ['\r']
  generalize Flight.exporting = flight at *
  have first : flight.Submitted (exportLine "x" markedValue) _ _ := .typed (.inl rfl) text
  have still := (trips.sets _ _ first).activity
  have blank : (flight.next (.input ['\r'])).machine.shell.buffer = Buffer.empty :=
    (congrArg Shell.buffer entered).trans submits.buffer
  obtain ⟨idle', store, programs', typed'⟩ :=
    Machine.input_text _ "echo \"$x\"" still (by decide) (by decide)
  rw [blank] at typed'
  refine ⟨trips, ?_⟩
  exact trips.prints _ _ first _ idle' store programs' "echo \"$x\"" (by decide) _ _
    (.typed (.inl rfl) (congrArg Buffer.text typed'))

end LineShell
