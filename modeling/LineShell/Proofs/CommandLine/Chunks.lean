/-
Module: LineShell.Proofs.CommandLine.Chunks
Purpose: The input events of a session are those of all its bytes exactly if no stretch of
  input ends inside a character or a control sequence.
Main exports: CleanCut, CleanlyCut, flatMap_chunkEvents_iff, sessionEvents_flatten,
  sessionEvents_flatten_iff, sessionEvents_depend_on_cuts
-/
import LineShell.CommandLine.Session
import LineShell.Proofs.Terminal.Sequences
import LineShell.Proofs.Text.Decoding
import Mathlib.Data.List.TakeWhile

namespace LineShell

/-!
The terminal's bytes arrive in stretches, and where one ends and the next begins is no
matter of the keys that were pressed.  Every stretch is decoded and cut into events from
scratch.  A cut is harmless where neither of the two is in the middle of something, and
nowhere else: a character that is cut comes out as several, and a sequence that is cut as
several events.
-/

/-! ### Clean cuts -/

/-- Whether neither a character nor a control sequence is cut between two stretches. -/
structure CleanCut (front rest : Bytes) : Prop where
  character : Utf8.Divides front rest
  sequence : Joins (Utf8.decode front) (Utf8.decode rest)

instance {front rest : Bytes} : Decidable (CleanCut front rest) :=
  decidable_of_iff
    (Utf8.Divides front rest ∧ Joins (Utf8.decode front) (Utf8.decode rest))
    ⟨fun both => ⟨both.1, both.2⟩, fun clean => ⟨clean.1, clean.2⟩⟩

/-- Whether every cut between stretches of input is clean. -/
def CleanlyCut : List Bytes → Prop
  | [] | [_] => True
  | chunk :: next :: others =>
      CleanCut chunk (next :: others).flatten ∧ CleanlyCut (next :: others)

def decideCleanlyCut : (chunks : List Bytes) → Decidable (CleanlyCut chunks)
  | [] | [_] => .isTrue trivial
  | _ :: next :: others =>
      let _ := decideCleanlyCut (next :: others)
      inferInstanceAs (Decidable (CleanCut _ _ ∧ _))

instance {chunks : List Bytes} : Decidable (CleanlyCut chunks) :=
  decideCleanlyCut chunks

/-! ### Events -/

section Events

variable {chunk : Bytes} {chunks : List Bytes}

theorem chunkEvents_eq (some : chunk ≠ []) : chunkEvents chunk = splitKeys (Utf8.decode chunk) := by
  have events := splitKeys_ne_nil (Utf8.decode_ne_nil some)
  rw [chunkEvents]
  split
  · next none => exact absurd none events
  · rfl

/-- The events of stretches hold at least as many characters as the whole input. -/
theorem length_decode_flatten (nonempty : ∀ chunk ∈ chunks, chunk ≠ []) :
    (Utf8.decode chunks.flatten).length ≤ (chunks.flatMap chunkEvents).flatten.length := by
  induction chunks with
  | nil => exact Nat.le_refl _
  | cons chunk chunks ih =>
      obtain ⟨some, others⟩ := List.forall_mem_cons.mp nonempty
      have most := Utf8.length_decode_append chunk chunks.flatten
      have later := ih others
      rw [List.flatMap_cons, List.flatten_append, chunkEvents_eq some, flatten_splitKeys,
        List.length_append, List.flatten_cons]
      omega

/-- The events of a stretch are the first events of all that comes only if the cut behind it
is clean. -/
theorem cleanCut_of_events {rest : Bytes} {events : List Text} (some : chunk ≠ [])
    (more : rest ≠ []) (all : (Utf8.decode rest).length ≤ events.flatten.length)
    (same : chunkEvents (chunk ++ rest) = chunkEvents chunk ++ events) : CleanCut chunk rest := by
  have whole : chunk ++ rest ≠ [] := fun none => some (List.append_eq_nil_iff.mp none).1
  rw [chunkEvents_eq whole, chunkEvents_eq some] at same
  have characters := congrArg (fun events => events.flatten.length) same
  simp only [List.flatten_append, flatten_splitKeys, List.length_append] at characters
  have divides : Utf8.Divides chunk rest := Utf8.divides_of_length (by omega)
  rw [Utf8.decode_append divides] at same
  exact ⟨divides, .of_splitKeys (Utf8.decode_ne_nil more) same⟩

theorem CleanCut.chunkEvents_append {rest : Bytes} (clean : CleanCut chunk rest)
    (some : chunk ≠ []) (more : rest ≠ []) :
    chunkEvents (chunk ++ rest) = chunkEvents chunk ++ chunkEvents rest := by
  have whole : chunk ++ rest ≠ [] := fun none => some (List.append_eq_nil_iff.mp none).1
  rw [chunkEvents_eq whole, chunkEvents_eq some, chunkEvents_eq more,
    Utf8.decode_append clean.character, splitKeys_append clean.sequence]

/-- The events of stretches are those of all bytes at once exactly if all cuts are clean. -/
theorem flatMap_chunkEvents_iff (some : chunks ≠ []) (nonempty : ∀ chunk ∈ chunks, chunk ≠ []) :
    chunks.flatMap chunkEvents = chunkEvents chunks.flatten ↔ CleanlyCut chunks := by
  induction chunks with
  | nil => exact absurd rfl some
  | cons chunk chunks ih =>
      cases chunks with
      | nil => exact iff_of_true (by simp) trivial
      | cons next others =>
          obtain ⟨here, later⟩ := List.forall_mem_cons.mp nonempty
          have more : (next :: others).flatten ≠ [] := by
            simp [later next List.mem_cons_self]
          have still := ih (List.cons_ne_nil _ _) later
          have all := length_decode_flatten later
          rw [CleanlyCut, List.flatMap_cons, List.flatten_cons]
          generalize (next :: others).flatten = rest at more still all ⊢
          generalize (next :: others).flatMap chunkEvents = events at still all ⊢
          constructor
          · intro same
            have clean := cleanCut_of_events here more all same.symm
            rw [clean.chunkEvents_append here more] at same
            exact ⟨clean, still.mp (List.append_cancel_left same)⟩
          · rintro ⟨clean, cut⟩
            rw [clean.chunkEvents_append here more, still.mpr cut]

/-- Where all cuts are clean a session has the events of all bytes at once. -/
theorem sessionEvents_flatten (nonempty : ∀ chunk ∈ chunks, chunk ≠ [])
    (clean : CleanlyCut chunks) : sessionEvents chunks = sessionEvents [chunks.flatten] := by
  cases chunks with
  | nil => decide +kernel
  | cons chunk others =>
      have same := (flatMap_chunkEvents_iff (List.cons_ne_nil _ _) nonempty).mpr clean
      rw [sessionEvents, sessionEvents, same, List.flatMap_singleton]

/-! ### Sessions -/

/-- Whether the keys for interrupt and for end of input are not among bytes. -/
def Keyless (bytes : Bytes) : Prop :=
  3 ∉ bytes ∧ 4 ∉ bytes

instance {bytes : Bytes} : Decidable (Keyless bytes) :=
  inferInstanceAs (Decidable (_ ∧ _))

theorem not_endsSession (some : chunk ≠ []) (keyless : Keyless chunk) :
    ∀ event ∈ chunkEvents chunk, (!endsSession event) = true := by
  have absent : ∀ c ∈ Utf8.decode chunk, c ≠ '\x03' ∧ c ≠ '\x04' := by
    intro c member
    constructor
    · rintro rfl
      exact keyless.1 (Utf8.mem_of_mem_decode member (by decide) (by decide))
    · rintro rfl
      exact keyless.2 (Utf8.mem_of_mem_decode member (by decide) (by decide))
  intro event member
  rw [chunkEvents_eq some] at member
  have inside : ∀ c ∈ event, c ∈ Utf8.decode chunk := fun c here =>
    flatten_splitKeys (Utf8.decode chunk) ▸ List.mem_flatten.mpr ⟨event, member, here⟩
  simp only [endsSession, Bool.not_eq_true', Bool.or_eq_false_iff, decide_eq_false_iff_not]
  constructor
  · rintro rfl
    exact (absent _ (inside _ List.mem_cons_self)).1 rfl
  · rintro rfl
    exact (absent _ (inside _ List.mem_cons_self)).2 rfl

/-- Without those keys all events are given to the shell. -/
theorem sessionEvents_of_keyless (nonempty : ∀ chunk ∈ chunks, chunk ≠ [])
    (keyless : ∀ chunk ∈ chunks, Keyless chunk) :
    sessionEvents chunks = chunks.flatMap chunkEvents := by
  refine List.takeWhile_eq_self_iff.mpr fun event member => ?_
  obtain ⟨chunk, among, here⟩ := List.mem_flatMap.mp member
  exact not_endsSession (nonempty chunk among) (keyless chunk among) event here

end Events

/-- The events that a session gives to its shell do not depend on how the bytes are cut
exactly if no character and no control sequence is cut. -/
theorem sessionEvents_flatten_iff {chunks : List Bytes} (nonempty : ∀ chunk ∈ chunks, chunk ≠ [])
    (keyless : ∀ chunk ∈ chunks, Keyless chunk) :
    sessionEvents chunks = sessionEvents [chunks.flatten] ↔ CleanlyCut chunks := by
  refine ⟨fun same => ?_, sessionEvents_flatten nonempty⟩
  cases chunks with
  | nil => trivial
  | cons chunk others =>
      have some : (chunk :: others).flatten ≠ [] := by
        simp [nonempty chunk List.mem_cons_self]
      have whole : Keyless (chunk :: others).flatten := by
        constructor
        · intro member
          obtain ⟨part, among, here⟩ := List.mem_flatten.mp member
          exact (keyless part among).1 here
        · intro member
          obtain ⟨part, among, here⟩ := List.mem_flatten.mp member
          exact (keyless part among).2 here
      rw [sessionEvents_of_keyless nonempty keyless,
        sessionEvents_of_keyless (List.forall_mem_singleton.mpr some)
          (List.forall_mem_singleton.mpr whole), List.flatMap_singleton] at same
      exact (flatMap_chunkEvents_iff (List.cons_ne_nil _ _) nonempty).mp same

/-- Letters with and without an accent and an arrow key, cut in between. -/
theorem sessionEvents_flatten_iff_clean :
    sessionEvents [[0x61, 0xC3, 0xA9], [0x1B, 0x5B, 0x44], [0x62]] =
        sessionEvents [[0x61, 0xC3, 0xA9, 0x1B, 0x5B, 0x44, 0x62]] ∧
      sessionEvents [[0x61, 0xC3, 0xA9, 0x1B, 0x5B, 0x44, 0x62]] =
        [['a'], ['é'], controlSequence ['D'], ['b']] :=
  ⟨(sessionEvents_flatten_iff (by decide) (by decide)).mpr (by decide +kernel),
    by decide +kernel⟩

/-- A letter with an accent that is cut becomes two replacement characters, and an arrow key
that is cut becomes an escape key and two letters. -/
theorem sessionEvents_depend_on_cuts :
    sessionEvents [[0xC3], [0xA9]] = [['\uFFFD'], ['\uFFFD']] ∧
      sessionEvents [[0xC3, 0xA9]] = [['é']] ∧
      sessionEvents [[0x1B], [0x5B, 0x44]] = [[escape], ['['], ['D']] ∧
      sessionEvents [[0x1B, 0x5B, 0x44]] = [controlSequence ['D']] ∧
      ¬ ∀ chunks : List Bytes, (∀ chunk ∈ chunks, chunk ≠ [] ∧ Keyless chunk) →
        sessionEvents chunks = sessionEvents [chunks.flatten] := by
  have letter : sessionEvents [[0xC3], [0xA9]] = [['\uFFFD'], ['\uFFFD']] ∧
      sessionEvents [[0xC3, 0xA9]] = [['é']] := by decide +kernel
  refine ⟨letter.1, letter.2, by decide +kernel, by decide +kernel, fun always => ?_⟩
  have same := always [[0xC3], [0xA9]] (by decide)
  rw [letter.1] at same
  exact absurd (same.trans letter.2) (by decide)

end LineShell
