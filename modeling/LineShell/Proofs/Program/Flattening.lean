/-
Module: LineShell.Proofs.Program.Flattening
Purpose: What becomes of switches in front of programs that know none: the texts such a
  program is given are the structured arguments written out, and every switch can be taken
  apart again from its text alone.
Main exports: switchOf, switchOf_flat, Command.Flattens, flattens_of_parse
-/
import LineShell.Proofs.Program.Expansion
import LineShell.Proofs.Shell.Repaint
import LineShell.Shell.Submit

namespace LineShell

/-!
A flattened switch does not say where its dashes, its name and its value meet.  It need not:
no name holds an equals sign, none is empty, and behind a single dash none begins with
another one.  The value can be any text, since variables can, and it is the last part.
-/

/-! ### Taking a switch apart -/

/-- The switch that a text stands for: a long one behind two dashes, named up to the first
equals sign or the end, and with what is behind that sign as its value if there is one. -/
def switchOf (flat : Text) : Argument :=
  let long := ['-', '-'].isPrefixOf flat
  let (name, value) := Builtin.splitAssignment (flat.drop (if long then 2 else 1))
  .switch name value long

section Switches

variable {long : Bool} {name : Text}

/-- The name of a switch ends at the first equals sign, whatever is behind that. -/
theorem Named.splitAssignment (named : Named long name) (value : Option Text) :
    Builtin.splitAssignment (name ++ (value.map ('=' :: ·)).getD []) = (name, value) := by
  cases value with
  | none =>
      have stops : Stops (· ≠ '=') [] := stops_nil
      change Builtin.splitAssignment (name ++ []) = _
      rw [Builtin.splitAssignment, (named.run_equals stops).2, List.append_nil]
  | some value =>
      have stops : Stops (· ≠ '=') ('=' :: value) := stops_cons.mpr rfl
      obtain ⟨taken, left⟩ := named.run_equals stops
      change Builtin.splitAssignment (name ++ '=' :: value) = _
      rw [Builtin.splitAssignment, left, taken]

/-- Dashes, name and value are told apart in what a switch is flattened to. -/
theorem switchOf_flat (named : Named long name) (value : Option Text) :
    switchOf (Argument.switch name value long).flat = .switch name value long := by
  have flat : (Argument.switch name value long).flat =
      dashes long ++ (name ++ (value.map ('=' :: ·)).getD []) := by
    cases long <;> cases value <;> simp [Argument.flat, dashes]
  have dropped : (dashes long ++ (name ++ (value.map ('=' :: ·)).getD [])).drop
      (if long then 2 else 1) = name ++ (value.map ('=' :: ·)).getD [] := by
    cases long <;> rfl
  rw [flat, switchOf, isPrefixOf_dashes named, dropped, named.splitAssignment]

/-- A token that is no literal has the name of a switch. -/
theorem Token.switchOf_param {token : Token} {position : Position} (fits : token.Fits)
    (switch : (token.param position).kind ≠ .literal) (store : Variables) :
    switchOf ((token.param position).argument store).flat =
      (token.param position).argument store := by
  cases token with
  | literal value => exact absurd rfl switch
  | switch long name value =>
      cases long with
      | false => exact switchOf_flat fits.1 _
      | true => exact switchOf_flat fits.1 _

end Switches

/-! ### Commands -/

/-- Whether nothing is lost where the arguments of a command are flattened to texts. -/
structure Command.Flattens (command : Command) (store : Variables) : Prop where
  /-- An external program is given the structured arguments as texts, one for one. -/
  received : ∀ (shell : Shell) (run : List Text → Start), shell.store = store →
    shell.programs.get? command.name = some (.external run) →
      shell.dispatch true command =
        (.launched
          { kind := .external
            name := command.name
            start := run ((command.arguments store).map Argument.flat) }, shell)
  /-- The same texts with single spaces between them are what `echo` writes before it ends
  the line. -/
  echoed : ∀ environment : Environment,
    ((Builtin.echo (command.arguments store)).play environment).2.console.terminal.recorded =
      environment.console.terminal.recorded ++
        (Text.joined [' '] (command.texts store) ++ lineEnd)
  /-- What a switch was can be told from its text. -/
  recovered : ∀ parameter ∈ command.params, parameter.param.kind ≠ .literal →
    switchOf (parameter.param.argument store).flat = parameter.param.argument store

section Commands

variable {text rest : Text} {command : Command}

theorem flat_textArgument (store : Variables) (param : Param) :
    (param.textArgument store).flat = (param.argument store).flat := by
  cases param <;> rfl

/-- The texts of a command are its structured arguments, flattened one by one. -/
theorem texts_eq_map_flat (command : Command) (store : Variables) :
    command.texts store = (command.arguments store).map Argument.flat := by
  rw [Command.texts, Command.textArguments, Command.arguments, List.map_map, List.map_map]
  exact List.map_congr_left fun parameter _ => flat_textArgument store parameter.param

theorem dispatch_external {shell : Shell} {run : List Text → Start}
    (known : shell.programs.get? command.name = some (.external run)) :
    shell.dispatch true command =
      (.launched
        { kind := .external, name := command.name, start := run (command.texts shell.store) },
        shell) := by
  rw [Shell.dispatch, known]
  rfl

theorem recorded_echo (arguments : List Argument) (environment : Environment) :
    ((Builtin.echo arguments).play environment).2.console.terminal.recorded =
      environment.console.terminal.recorded ++
        (Text.joined [' '] (arguments.map Argument.flat) ++ lineEnd) :=
  environment.console.recorded_println _

/-- Flattening loses nothing, whatever command was read and whatever the variables hold. -/
theorem flattens_of_parse (parses : parse text = .ok (command, rest)) (store : Variables) :
    command.Flattens store where
  received shell run same known := by
    subst same
    rw [dispatch_external known, texts_eq_map_flat]
  echoed environment := by
    rw [texts_eq_map_flat]
    exact recorded_echo _ environment
  recovered parameter member switch := by
    obtain ⟨lead, name, items, pad, behind, open', remark, leads, trails, rfl⟩ :=
      exists_leads_of_parse parses
    rw [params_commandNode] at member
    obtain ⟨item, among, start, rfl⟩ := exists_token_of_mem_nodesFrom member
    exact Token.switchOf_param (leads.chain.fits item among) switch store

/-- A long switch whose name begins with a dash, one whose value is empty, and one whose value
is a variable that holds equals signs and dashes. -/
theorem flattens_of_parse_values :
    ∃ command, parse "p ---x --y='' -z=$a -w" = .ok (command, []) ∧
      command.texts { entries := [("a", "--b=c")] } =
        [['-', '-', '-', 'x'], "--y=", "-z=--b=c", "-w"] ∧
      command.Flattens { entries := [("a", "--b=c")] } := by
  have parses : parse "p ---x --y='' -z=$a -w" = .ok (commandNode {} "p"
      [(" ", .switch true "-x" none), (" ", .switch true "y" (some (.single []))),
        (" ", .switch false "z" (some (.bare "$a"))), (" ", .switch false "w" none)]
      [], []) := by
    decide +kernel
  exact ⟨_, parses, by decide +kernel, flattens_of_parse parses _⟩

end Commands

end LineShell
