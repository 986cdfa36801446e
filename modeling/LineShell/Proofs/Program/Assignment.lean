/-
Module: LineShell.Proofs.Program.Assignment
Purpose: The program that sets variables takes each of its arguments on its own: it gives a
  value to a variable, or exactly one thing is wrong with it, and whatever is wrong with one
  of them the others do what they do.
Main exports: IsVariableName, Argument.Gives, Argument.IsGood, Argument.Amiss,
  Argument.gives_or_amiss, LastValue, Warns, Environment.Prints, Environment.Exports,
  Environment.Lists, Text.notBehind_iff, exports_each_then_lists
-/
import Mathlib.Data.Char
import Mathlib.Data.List.Lex
import LineShell.Program.Registry
import LineShell.Proofs.Syntax.Templates
import LineShell.Proofs.Terminal.Written

namespace LineShell

/-!
Arguments are performed from left to right, and each of them is one act: a variable is set, or a
warning is written.  So the variables that there are after some arguments follow from those that
there were before the last one, and nothing that is wrong with an argument is seen by the others.
The listing takes the variables as they are then.
-/

/-! ### Arguments -/

/-- Whether a text is a name that a variable can be given. -/
def IsVariableName (name : Text) : Prop :=
  name ≠ [] ∧ ∀ c ∈ name, isNameChar c = true

instance {name : Text} : Decidable (IsVariableName name) :=
  decidable_of_iff (name ≠ [] ∧ name.all isNameChar = true)
    (and_congr_right fun _ => List.all_eq_true)

theorem ne_of_isNameChar {c mark : Char} (named : isNameChar c = true)
    (other : isNameChar mark = false) : c ≠ mark := by
  rintro rfl
  exact Bool.noConfusion (named.symm.trans other)

/-- No name holds an equals sign, so the first one of an assignment ends the name. -/
theorem IsVariableName.unequalled {name : Text} (named : IsVariableName name) : '=' ∉ name :=
  fun member => ne_of_isNameChar (named.2 '=' member) (by decide) rfl

namespace Argument

/-- Whether an argument gives a value to a variable: it is a name, an equals sign, and a value
that is not empty and may hold further equals signs. -/
inductive Gives : Argument → Text → Text → Prop where
  | text {name value : Text} (named : IsVariableName name) (some : value ≠ []) :
      Gives (.text (name ++ '=' :: value)) name value

/-- Whether an argument gives a value to some variable. -/
def IsGood (argument : Argument) : Prop :=
  ∃ name value, argument.Gives name value

/-- What is wrong with an argument, in the words of the warning. -/
inductive Amiss : Argument → Text → Prop where
  | switch (name : Text) (value : Option Text) (long : Bool) :
      Amiss (.switch name value long) ("Invalid argument: " ++ name)
  | empty : Amiss (.text []) "Variable name isn't provided."
  | unnamed (value : Text) : Amiss (.text ('=' :: value)) "Variable name isn't provided."
  | unequalled {text : Text} (some : text ≠ []) (none : '=' ∉ text) :
      Amiss (.text text) "Missing variable value."
  | valueless {name : Text} (some : name ≠ []) (none : '=' ∉ name) :
      Amiss (.text (name ++ ['='])) "Missing variable value."
  | misnamed {name value : Text} (none : '=' ∉ name) (stranger : ∃ c ∈ name, isNameChar c = false)
      (some : value ≠ []) :
      Amiss (.text (name ++ '=' :: value)) ('\x27' :: name ++ "': not a valid identifier")

end Argument

namespace Builtin

variable {argument : Argument} {name value text message : Text}

theorem splitAssignment_bare (none : '=' ∉ text) : splitAssignment text = (text, Option.none) := by
  have run : ∀ c ∈ text, decide (c ≠ '=') = true := fun c member =>
    decide_eq_true fun same => none (same ▸ member)
  obtain ⟨-, left⟩ := takeWhile_run run stops_nil
  rw [List.append_nil] at left
  rw [splitAssignment, left]

/-- An assignment is split at its first equals sign. -/
theorem splitAssignment_equals (none : '=' ∉ name) :
    splitAssignment (name ++ '=' :: value) = (name, some value) := by
  have run : ∀ c ∈ name, decide (c ≠ '=') = true := fun c member =>
    decide_eq_true fun same => none (same ▸ member)
  have ends : Stops (fun c => decide (c ≠ '=')) ('=' :: value) := stops_cons.mpr (by decide)
  obtain ⟨taken, left⟩ := takeWhile_run run ends
  rw [splitAssignment, left, taken]

theorem assignment_of_gives (gives : argument.Gives name value) :
    assignment argument = .ok (name, value) := by
  obtain ⟨named, some⟩ := gives
  obtain ⟨c, more, rfl⟩ := List.exists_cons_of_ne_nil named.1
  obtain ⟨d, rest, rfl⟩ := List.exists_cons_of_ne_nil some
  have all : (c :: more).all isNameChar = true := List.all_eq_true.mpr named.2
  simp only [assignment, splitAssignment_equals named.unequalled, all, if_true]

theorem assignment_of_amiss (amiss : argument.Amiss message) :
    assignment argument = .error message := by
  cases amiss with
  | switch name value long => rfl
  | empty => rfl
  | unnamed value => rfl
  | unequalled some none =>
      obtain ⟨c, more, rfl⟩ := List.exists_cons_of_ne_nil some
      simp only [assignment, splitAssignment_bare none]
  | valueless some none =>
      obtain ⟨c, more, rfl⟩ := List.exists_cons_of_ne_nil some
      simp only [assignment, splitAssignment_equals none]
  | misnamed none stranger some =>
      obtain ⟨d, rest, rfl⟩ := List.exists_cons_of_ne_nil some
      obtain ⟨strange, member, odd⟩ := stranger
      obtain ⟨c, more, rfl⟩ := List.exists_cons_of_ne_nil (List.ne_nil_of_mem member)
      have refused : (c :: more).all isNameChar = false :=
        List.all_eq_false.mpr ⟨strange, member, by simp [odd]⟩
      simp only [assignment, splitAssignment_equals none, refused, Bool.false_eq_true, if_false]

end Builtin

namespace Argument

variable {argument : Argument} {name value message : Text}

/-- Either an argument gives a value to a variable, or something is wrong with it. -/
theorem gives_or_amiss (argument : Argument) :
    argument.IsGood ∨ ∃ message, argument.Amiss message := by
  cases argument with
  | switch name value long => exact .inr ⟨_, .switch name value long⟩
  | text text =>
      by_cases equalled : '=' ∈ text
      · obtain ⟨name, value, rfl, none⟩ := List.eq_append_cons_of_mem equalled
        by_cases unnamed : name = []
        · subst unnamed
          exact .inr ⟨_, .unnamed value⟩
        by_cases valueless : value = []
        · subst valueless
          exact .inr ⟨_, .valueless unnamed none⟩
        by_cases all : ∀ c ∈ name, isNameChar c = true
        · exact .inl ⟨name, value, .text ⟨unnamed, all⟩ valueless⟩
        · exact .inr ⟨_, .misnamed none (by simpa using all) valueless⟩
      · by_cases empty : text = []
        · subst empty
          exact .inr ⟨_, .empty⟩
        · exact .inr ⟨_, .unequalled empty equalled⟩

/-- What gives a value to a variable gives that value to that variable only. -/
theorem Gives.unique {other another : Text} (one : argument.Gives name value)
    (two : argument.Gives other another) : name = other ∧ value = another := by
  have same := (Builtin.assignment_of_gives one).symm.trans (Builtin.assignment_of_gives two)
  exact Prod.mk.inj (Except.ok.inj same)

/-- Nothing is wrong with an argument that gives a value to a variable. -/
theorem Gives.not_amiss (gives : argument.Gives name value) : ¬ argument.Amiss message := by
  intro amiss
  have same := (Builtin.assignment_of_gives gives).symm.trans (Builtin.assignment_of_amiss amiss)
  cases same

theorem Amiss.not_isGood (amiss : argument.Amiss message) : ¬ argument.IsGood :=
  fun ⟨_, _, gives⟩ => gives.not_amiss amiss

theorem isAssignment_iff (argument : Argument) :
    Builtin.isAssignment argument = true ↔ argument.IsGood := by
  rcases argument.gives_or_amiss with good | ⟨message, amiss⟩
  · obtain ⟨name, value, gives⟩ := good
    rw [Builtin.isAssignment, Builtin.assignment_of_gives gives]
    exact ⟨fun _ => ⟨name, value, gives⟩, fun _ => rfl⟩
  · rw [Builtin.isAssignment, Builtin.assignment_of_amiss amiss]
    exact ⟨fun ok => Bool.noConfusion ok, fun good => absurd good amiss.not_isGood⟩

end Argument

/-! ### Runs over arguments -/

/-- The value of a variable behind some arguments: the value that the last argument gives that
names the variable, and if there is none the value that it had. -/
def LastValue (arguments : List Argument) (name : Text) (old new : Option Text) : Prop :=
  (∃ before argument behind value, arguments = before ++ argument :: behind ∧
      argument.Gives name value ∧ (∀ later ∈ behind, ∀ other, ¬ later.Gives name other) ∧
      new = some value) ∨
    (∀ argument ∈ arguments, ∀ value, ¬ argument.Gives name value) ∧ new = old

/-- One line for each argument that gives no value, in the order of the arguments: a warning
that says in yellow what is wrong. -/
inductive Warns : List Argument → List Text → Prop where
  | nil : Warns [] []
  | good {argument : Argument} {others : List Argument} {lines : List Text}
      (good : argument.IsGood) (warns : Warns others lines) : Warns (argument :: others) lines
  | bad {argument : Argument} {others : List Argument} {lines : List Text} {message : Text}
      (bad : ¬ argument.IsGood) (amiss : argument.Amiss message) (warns : Warns others lines) :
      Warns (argument :: others) ((paint message .yellow ++ lineEnd) :: lines)

theorem LastValue.cons {argument : Argument} {others : List Argument} {name : Text}
    {old between new : Option Text} (first : LastValue [argument] name old between)
    (later : LastValue others name between new) : LastValue (argument :: others) name old new := by
  -- The first argument counts only if none of the others names the variable.
  rcases later with ⟨before, given, behind, value, rfl, gives, last, rfl⟩ | ⟨silent, rfl⟩
  · exact .inl ⟨argument :: before, given, behind, value, rfl, gives, last, rfl⟩
  · rcases first with ⟨before, given, behind, value, whole, gives, -, rfl⟩ | ⟨none, rfl⟩
    · obtain ⟨rfl, rfl, rfl⟩ : before = [] ∧ given = argument ∧ behind = [] := by
        cases before with
        | nil =>
            cases whole
            exact ⟨rfl, rfl, rfl⟩
        | cons c more => simp at whole
      exact .inl ⟨[], given, others, value, rfl, gives, silent, rfl⟩
    · exact .inr ⟨List.forall_mem_cons.mpr ⟨none argument (List.mem_singleton_self _), silent⟩, rfl⟩

namespace Environment

/-- Lines have been written one after the other, and at most variables have changed besides. -/
structure Prints (before : Environment) (lines : List Text) (after : Environment) : Prop where
  console : after.console = lines.foldl Console.write before.console
  written : after.console.terminal.recorded =
    before.console.terminal.recorded ++ lines.flatten
  programs : after.programs = before.programs
  calls : after.calls = before.calls

theorem Prints.of_console {before after : Environment} {lines : List Text}
    (console : after.console = lines.foldl Console.write before.console)
    (programs : after.programs = before.programs) (calls : after.calls = before.calls) :
    before.Prints lines after where
  console := console
  written := console ▸ Console.recorded_foldl_write _ lines
  programs := programs
  calls := calls

/-- What setting variables comes to: with success if every argument gives a value, every
variable has the last value that it was given, and each other argument has one warning. -/
structure Exports (before : Environment) (arguments : List Argument)
    (outcome : Except Fault Int × Environment) : Prop where
  succeeds : (∀ argument ∈ arguments, argument.IsGood) → outcome.1 = .ok statusSuccess
  fails : (∃ argument ∈ arguments, ¬ argument.IsGood) → outcome.1 = .ok statusFailure
  values : ∀ name,
    LastValue arguments name (before.store.get? name) (outcome.2.store.get? name)
  warns : ∃ lines, Warns arguments lines ∧ before.Prints lines outcome.2

/-- What listing variables comes to: one line for each variable but the last status, in the
order of the code points of the names, and nothing else. -/
def Lists (before : Environment) (outcome : Except Fault Int × Environment) : Prop :=
  outcome.1 = .ok statusSuccess ∧ outcome.2.store = before.store ∧
    ∃ names : List Text, names.Pairwise (· < ·) ∧
      (∀ name, name ∈ names ↔ name ≠ ['?'] ∧ before.store.contains name = true) ∧
      before.Prints (names.map fun name => name ++ '=' :: before.store.lookup name ++ lineEnd)
        outcome.2

/-- Calls the program that sets and lists variables. -/
def runExport (environment : Environment) (arguments : List Argument) :
    Except Fault Int × Environment :=
  (Builtin.exportVariables environment.store arguments).play environment

variable {before : Environment} {argument : Argument}

/-- One argument sets one variable or writes one warning. -/
theorem perform_assign (before : Environment) (argument : Argument) :
    (∃ name value, argument.Gives name value ∧ before.perform (Builtin.assign argument) =
        .ok { before with store := before.store.insert name value }) ∨
      ∃ message, argument.Amiss message ∧ before.perform (Builtin.assign argument) =
        .ok { before with console := before.console.write (paint message .yellow ++ lineEnd) } := by
  rcases argument.gives_or_amiss with ⟨name, value, gives⟩ | ⟨message, amiss⟩
  · refine .inl ⟨name, value, gives, ?_⟩
    rw [Builtin.assign, Builtin.assignment_of_gives gives]
    rfl
  · refine .inr ⟨message, amiss, ?_⟩
    rw [Builtin.assign, Builtin.assignment_of_amiss amiss]
    rfl

/-- All arguments in order: none of them stops the others. -/
theorem performAll_assign (before : Environment) (arguments : List Argument) :
    ∃ after lines, before.performAll (arguments.map Builtin.assign) = (none, after) ∧
      Warns arguments lines ∧ before.Prints lines after ∧
      ∀ name, LastValue arguments name (before.store.get? name) (after.store.get? name) := by
  induction arguments generalizing before with
  | nil =>
      exact ⟨before, [], rfl, .nil, .of_console rfl rfl rfl,
        fun name => .inr ⟨fun _ none => absurd none List.not_mem_nil, rfl⟩⟩
  | cons argument others ih =>
      rcases before.perform_assign argument with ⟨name, value, gives, performed⟩ |
        ⟨message, amiss, performed⟩
      · obtain ⟨after, lines, rest, warns, prints, values⟩ :=
          ih { before with store := before.store.insert name value }
        refine ⟨after, lines, ?_, .good ⟨name, value, gives⟩ warns,
          .of_console prints.console prints.programs prints.calls, fun other => ?_⟩
        · rw [List.map_cons, performAll, performed]
          exact rest
        · refine LastValue.cons ?_ (values other)
          rw [Table.get?_insert]
          by_cases same : name = other
          · subst same
            rw [if_pos rfl]
            exact .inl ⟨[], argument, [], value, rfl, gives,
              fun _ none => absurd none List.not_mem_nil, rfl⟩
          · rw [if_neg same]
            refine .inr ⟨fun given single another claims => same ?_, rfl⟩
            obtain rfl := List.mem_singleton.mp single
            exact (gives.unique claims).1
      · obtain ⟨after, lines, rest, warns, prints, values⟩ :=
          ih { before with console := before.console.write (paint message .yellow ++ lineEnd) }
        refine ⟨after, _, ?_, .bad amiss.not_isGood amiss warns,
          .of_console prints.console prints.programs prints.calls, fun other => ?_⟩
        · rw [List.map_cons, performAll, performed]
          exact rest
        · refine LastValue.cons (.inr ⟨fun given single value gives => ?_, rfl⟩) (values other)
          obtain rfl := List.mem_singleton.mp single
          exact gives.not_amiss amiss

theorem exports_runExport (before : Environment) {arguments : List Argument}
    (some : arguments ≠ []) :
    before.Exports arguments (before.runExport arguments) := by
  obtain ⟨after, lines, performed, warns, prints, values⟩ := before.performAll_assign arguments
  have nonempty : arguments.isEmpty = false := by simpa using some
  have ran : before.runExport arguments =
      (.ok (if arguments.all Builtin.isAssignment then statusSuccess else statusFailure),
        after) := by
    rw [runExport, Builtin.exportVariables, nonempty]
    simp only [Bool.false_eq_true, if_false, BuiltinScript.play, performed]
  rw [ran]
  refine ⟨fun good => ?_, fun bad => ?_, values, lines, warns, prints⟩
  · have all : arguments.all Builtin.isAssignment = true :=
      List.all_eq_true.mpr fun argument member =>
        argument.isAssignment_iff.mpr (good argument member)
    rw [all, if_pos rfl]
  · obtain ⟨argument, member, bad⟩ := bad
    have some : arguments.all Builtin.isAssignment = false :=
      List.all_eq_false.mpr ⟨argument, member, fun good => bad (argument.isAssignment_iff.mp good)⟩
    rw [some, if_neg Bool.false_ne_true]

end Environment

/-! ### The list of variables -/

namespace Text

/-- One text is not behind another if both are the same or the first differing code point is
smaller in the first of them. -/
theorem notBehind_iff (first second : Text) :
    notBehind first second = true ↔ first = second ∨ first < second := by
  induction first generalizing second with
  | nil => cases second <;> simp [notBehind]
  | cons a first ih =>
      cases second with
      | nil => simp [notBehind]
      | cons b second =>
          rw [notBehind, List.cons_lt_cons_iff, List.cons.injEq]
          by_cases same : a = b
          · subst same
            simp [ih]
          · rw [if_neg same, decide_eq_true_iff]
            simp only [same, false_and, false_or, or_false]
            exact Iff.rfl

theorem sorted_perm (texts : List Text) : (sorted texts).Perm texts :=
  List.mergeSort_perm texts notBehind

/-- Texts that differ from each other are sorted strictly. -/
theorem pairwise_sorted {texts : List Text} (distinct : texts.Nodup) :
    (sorted texts).Pairwise (· < ·) := by
  have ordered : (sorted texts).Pairwise fun one two => notBehind one two = true := by
    refine List.pairwise_mergeSort (fun one two three => ?_) (fun one two => ?_) texts
    · simp only [notBehind_iff, ← le_iff_eq_or_lt]
      exact le_trans
    · simp only [Bool.or_eq_true, notBehind_iff, ← le_iff_eq_or_lt]
      exact le_total one two
  have apart : (sorted texts).Nodup := (sorted_perm texts).nodup_iff.mpr distinct
  refine (ordered.and apart).imp fun {one two} both => ?_
  exact ((notBehind_iff one two).mp both.1).resolve_left both.2

end Text

namespace Environment

theorem performAll_write (before : Environment) (lines : List Text) :
    before.performAll (lines.map .write) =
      (none, { before with console := lines.foldl Console.write before.console }) := by
  induction lines generalizing before with
  | nil => rfl
  | cons line lines ih => exact ih _

theorem lists_runExport (before : Environment) : before.Lists (before.runExport []) := by
  let names := (Text.sorted before.store.keys).filter (· ≠ ['?'])
  let line := fun name => name ++ '=' :: before.store.lookup name ++ lineEnd
  have ordered : names.Pairwise (· < ·) := (Text.pairwise_sorted before.store.distinct).filter _
  have members : ∀ name, name ∈ names ↔
      name ≠ ['?'] ∧ before.store.contains name = true := by
    intro name
    rw [List.mem_filter, (Text.sorted_perm _).mem_iff, ← Table.contains_iff_mem_keys, and_comm,
      decide_eq_true_iff]
  have acts : Builtin.listing before.store = (names.map line).map .write :=
    List.map_map.symm
  have ran : before.runExport [] = (.ok statusSuccess,
      { before with console := (names.map line).foldl Console.write before.console }) := by
    rw [runExport, Builtin.exportVariables, List.isEmpty_nil, if_pos rfl, BuiltinScript.play, acts,
      performAll_write]
  rw [ran]
  exact ⟨rfl, rfl, names, ordered, members, .of_console rfl rfl rfl⟩

end Environment

/-- Setting variables and then listing them.  Each argument is taken on its own: what gives a
value sets its variable, the last one that names a variable decides, and whatever is wrong with
an argument is said in one warning at its place and makes the whole fail, but changes no
variable.  The list that follows has one line for each variable that there is then, in order,
and changes nothing. -/
theorem exports_each_then_lists (before : Environment) {arguments : List Argument}
    (some : arguments ≠ []) :
    before.Exports arguments (before.runExport arguments) ∧
      (before.runExport arguments).2.Lists ((before.runExport arguments).2.runExport []) :=
  ⟨before.exports_runExport some, Environment.lists_runExport _⟩

/-- Variables that are there before anything is set. -/
def Environment.furnished : Environment where
  console := {}
  store := { entries := [("z", "0"), ("?", "1"), ("a", "x")] }

/-- Good and bad arguments in turn, with names that repeat and a value with an equals sign. -/
def mixedArguments : List Argument :=
  [.text "b=1", .switch "a" (some "2") true, .text "=3", .text "a-b=4", .text "z=", .text "z",
    .text "", .text "b=5=6"]

theorem exports_each_then_lists_mixed :
    mixedArguments ≠ [] ∧
      Environment.furnished.Exports mixedArguments
        (Environment.furnished.runExport mixedArguments) ∧
      (Environment.furnished.runExport mixedArguments).2.Lists
        ((Environment.furnished.runExport mixedArguments).2.runExport []) := by
  have some : mixedArguments ≠ [] := by decide
  exact ⟨some, exports_each_then_lists Environment.furnished some⟩

end LineShell
