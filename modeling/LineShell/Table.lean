/-
Module: LineShell.Table
Purpose: Finite maps from text that keep the order in which keys were first added.
Main exports: Table, Table.get?, Table.insert, Table.erase, Table.keys,
  Table.get?_insert, Table.get?_erase, Table.contains_iff_mem_keys
-/
import LineShell.Text.Basic

namespace LineShell

theorem nodup_keys_nil {α : Type} : (([] : List (Text × α)).map (·.1)).Nodup :=
  List.Pairwise.nil

/-- Pairs of a key and a value, with no key twice. -/
structure Table (α : Type) where
  entries : List (Text × α) := []
  distinct : (entries.map (·.1)).Nodup := by first | exact nodup_keys_nil | decide
deriving DecidableEq, Repr

instance {α : Type} : Inhabited (Table α) := ⟨{}⟩

namespace Table

variable {α : Type}

/-- The table without entries. -/
def empty : Table α := {}

/-- The value under a key in a list of entries. -/
def lookupIn (key : Text) : List (Text × α) → Option α
  | [] => none
  | entry :: rest => if entry.1 = key then some entry.2 else lookupIn key rest

/-- The value under a key. -/
def get? (table : Table α) (key : Text) : Option α :=
  lookupIn key table.entries

/-- Whether there is a value under a key. -/
def contains (table : Table α) (key : Text) : Bool :=
  (table.get? key).isSome

/-- Entries with the value under one key replaced, or added at the end. -/
def insertInto (key : Text) (value : α) : List (Text × α) → List (Text × α)
  | [] => [(key, value)]
  | entry :: rest =>
      if entry.1 = key then (key, value) :: rest else entry :: insertInto key value rest

theorem map_insertInto (key : Text) (value : α) (entries : List (Text × α)) :
    (insertInto key value entries).map (·.1) =
      if key ∈ entries.map (·.1) then entries.map (·.1) else entries.map (·.1) ++ [key] := by
  induction entries with
  | nil => rfl
  | cons entry rest ih =>
      by_cases h : entry.1 = key
      · simp [insertInto, h]
      · by_cases there : key ∈ rest.map (·.1) <;> simp [insertInto, h, Ne.symm h, there, ih]

/-- No key is twice where an entry was put in. -/
theorem nodup_insertInto {entries : List (Text × α)} (distinct : (entries.map (·.1)).Nodup)
    (key : Text) (value : α) : ((insertInto key value entries).map (·.1)).Nodup := by
  rw [map_insertInto]
  split
  · exact distinct
  · next absent =>
      refine List.nodup_append.mpr ⟨distinct, List.pairwise_singleton _ _, ?_⟩
      rintro one member other single rfl
      exact absent (List.mem_singleton.mp single ▸ member)

/-- Puts a value under a key. -/
def insert (table : Table α) (key : Text) (value : α) : Table α :=
  { entries := insertInto key value table.entries
    distinct := nodup_insertInto table.distinct key value }

/-- Removes a key. -/
def erase (table : Table α) (key : Text) : Table α :=
  { entries := table.entries.filter (·.1 ≠ key)
    distinct := table.distinct.sublist (List.filter_sublist.map _) }

/-- Puts many values into a table, one after the other. -/
def insertAll (table : Table α) (entries : List (Text × α)) : Table α :=
  entries.foldl (fun table entry => table.insert entry.1 entry.2) table

/-- The keys in their order. -/
def keys (table : Table α) : List Text :=
  table.entries.map (·.1)

theorem lookupIn_insertInto (key other : Text) (value : α) (entries : List (Text × α)) :
    lookupIn other (insertInto key value entries) =
      if key = other then some value else lookupIn other entries := by
  induction entries with
  | nil => rfl
  | cons entry rest ih =>
      by_cases hk : entry.1 = key
      · subst hk
        by_cases h : entry.1 = other <;> simp [insertInto, lookupIn, h]
      · by_cases h : entry.1 = other
        · subst h
          simp [insertInto, lookupIn, hk, Ne.symm hk]
        · simp [insertInto, lookupIn, hk, h, ih]

/-- Putting a value under a key changes what is found under that key alone. -/
@[simp] theorem get?_insert (table : Table α) (key other : Text) (value : α) :
    (table.insert key value).get? other =
      if key = other then some value else table.get? other :=
  lookupIn_insertInto key other value table.entries

theorem lookupIn_filter (key other : Text) (entries : List (Text × α)) :
    lookupIn other (entries.filter (·.1 ≠ key)) =
      if key = other then none else lookupIn other entries := by
  induction entries with
  | nil => simp [lookupIn]
  | cons entry rest ih =>
      rw [List.filter_cons]
      by_cases hk : entry.1 = key
      · rw [if_neg (by simpa using hk), ih]
        by_cases h : key = other
        · simp [h]
        · simp [h, lookupIn, hk]
      · rw [if_pos (by simpa using hk), lookupIn, lookupIn, ih]
        by_cases h : entry.1 = other
        · subst h
          simp [Ne.symm hk]
        · simp [h]

/-- Removing a key leaves what is found under every other key. -/
@[simp] theorem get?_erase (table : Table α) (key other : Text) :
    (table.erase key).get? other = if key = other then none else table.get? other :=
  lookupIn_filter key other table.entries

theorem isSome_lookupIn (key : Text) (entries : List (Text × α)) :
    (lookupIn key entries).isSome = true ↔ key ∈ entries.map (·.1) := by
  induction entries with
  | nil => simp [lookupIn]
  | cons entry rest ih =>
      by_cases h : entry.1 = key
      · simp [lookupIn, h]
      · simpa [lookupIn, h, Ne.symm h] using ih

/-- A key has a value if it is among the keys. -/
theorem contains_iff_mem_keys (table : Table α) (key : Text) :
    table.contains key = true ↔ key ∈ table.keys :=
  isSome_lookupIn key table.entries

/-- A key that is put into a table comes behind the others, unless it is there. -/
theorem keys_insert (table : Table α) (key : Text) (value : α) :
    (table.insert key value).keys =
      if key ∈ table.keys then table.keys else table.keys ++ [key] :=
  map_insertInto key value table.entries

end Table

/-- The variables of a shell. -/
abbrev Variables := Table Text

/-- The value of a variable; an unknown one is empty. -/
def Table.lookup (store : Variables) (name : Text) : Text :=
  (store.get? name).getD []

end LineShell
