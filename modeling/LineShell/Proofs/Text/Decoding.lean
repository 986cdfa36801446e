/-
Module: LineShell.Proofs.Text.Decoding
Purpose: Reading bytes as UTF-8 one by one, and where a sequence of bytes can be cut without
  cutting a character.
Main exports: Utf8.step, Utf8.decodeFrom_cons, Utf8.pending, Utf8.Divides,
  Utf8.decode_append, Utf8.length_decode_append, Utf8.mem_of_mem_decode
-/
import LineShell.Text.Utf8
import Mathlib.Algebra.Group.Nat.Defs

namespace LineShell.Utf8

/-!
Between any two bytes decoding either stands between characters or owes bytes to one that
has been begun.  Whoever decodes two stretches one by one gives up that character at the
end of the first.  Nothing is lost by it unless the next byte would have gone on the
character; then more characters come out than there are in the whole.
-/

/-! ### One byte -/

/-- Whether a byte goes on a character that has been begun. -/
def Partial.Takes (character : Partial) (byte : UInt8) : Prop :=
  character.low ≤ byte.toNat ∧ byte.toNat ≤ character.high

instance {character : Partial} {byte : UInt8} : Decidable (character.Takes byte) :=
  inferInstanceAs (Decidable (_ ∧ _))

/-- What a byte comes to between characters: what it completes, and what it begins. -/
def fresh (byte : UInt8) : Text × Option Partial :=
  match lead byte.toNat with
  | .whole c => ([c], none)
  | .opens next => ([], some next)
  | .illFormed => ([replacement], none)

/-- What a byte comes to that goes on a character. -/
def Partial.take (character : Partial) (byte : UInt8) : Text × Option Partial :=
  let bits := character.bits * 64 + (byte.toNat - 0x80)
  match character.owed with
  | 0 => ([Char.ofNat bits], none)
  | owed + 1 => ([], some ⟨owed, 0x80, 0xBF, bits⟩)

/-- What a byte comes to: the characters that are decided with it, and the one that has
been begun behind it. -/
def step : Option Partial → UInt8 → Text × Option Partial
  | none, byte => fresh byte
  | some character, byte =>
      if character.Takes byte then character.take byte
      else (replacement :: (fresh byte).1, (fresh byte).2)

theorem decodeFrom_none_cons (byte : UInt8) (rest : Bytes) :
    decodeFrom none (byte :: rest) = (fresh byte).1 ++ decodeFrom (fresh byte).2 rest := by
  rw [decodeFrom, fresh]
  cases lead byte.toNat <;> rfl

/-- A character that is not gone on is given up. -/
theorem decodeFrom_of_not_takes {character : Partial} {rest : Bytes}
    (ends : ∀ byte ∈ rest.head?, ¬ character.Takes byte) :
    decodeFrom (some character) rest = replacement :: decodeFrom none rest := by
  cases rest with
  | nil => rfl
  | cons byte rest =>
      rw [decodeFrom]
      exact if_neg (ends byte rfl)

/-- Decoding goes byte by byte. -/
theorem decodeFrom_cons (state : Option Partial) (byte : UInt8) (rest : Bytes) :
    decodeFrom state (byte :: rest) =
      (step state byte).1 ++ decodeFrom (step state byte).2 rest := by
  cases state with
  | none => exact decodeFrom_none_cons byte rest
  | some character =>
      rw [step]
      by_cases takes : character.Takes byte
      · obtain ⟨owed, low, high, bits⟩ := character
        rw [if_pos takes, decodeFrom]
        refine (if_pos takes).trans ?_
        cases owed <;> rfl
      · have ends : ∀ next ∈ (byte :: rest).head?, ¬ character.Takes next := by simpa using takes
        rw [if_neg takes, decodeFrom_of_not_takes ends, decodeFrom_none_cons]
        rfl

/-- The character that has been begun at the end of bytes, if one has. -/
def pendingFrom (state : Option Partial) (bytes : Bytes) : Option Partial :=
  bytes.foldl (fun state byte => (step state byte).2) state

/-- What is decided in a stretch of bytes does not depend on what comes behind it. -/
theorem exists_decided (state : Option Partial) (front : Bytes) :
    ∃ decided, ∀ rest, decodeFrom state (front ++ rest) =
      decided ++ decodeFrom (pendingFrom state front) rest := by
  induction front generalizing state with
  | nil => exact ⟨[], fun rest => rfl⟩
  | cons byte front ih =>
      obtain ⟨decided, same⟩ := ih (step state byte).2
      refine ⟨(step state byte).1 ++ decided, fun rest => ?_⟩
      rw [List.cons_append, decodeFrom_cons, same, List.append_assoc]
      rfl

/-! ### Characters that have been begun -/

/-- What holds of a character that has been begun: only continuation bytes go on it, and it
is none of those that a single byte spells. -/
structure Partial.Sound (character : Partial) : Prop where
  low : 0x80 ≤ character.low
  high : character.high ≤ 0xBF
  wide : 0x80 ≤ (character.bits * 64 + (character.low - 0x80)) * 64 ^ character.owed

/-- Whether what a first byte says is right about that byte. -/
def Lead.Fits (byte : Nat) : Lead → Prop
  | .whole c => byte < 0x80 ∧ c = Char.ofNat byte
  | .opens character => character.Sound
  | .illFormed => True

theorem Lead.fits_ite {byte : Nat} {condition : Prop} [Decidable condition] {yes no : Lead}
    (pos : condition → yes.Fits byte) (neg : ¬ condition → no.Fits byte) :
    (if condition then yes else no).Fits byte := by
  by_cases holds : condition
  · rw [if_pos holds]
    exact pos holds
  · rw [if_neg holds]
    exact neg holds

theorem fits_lead (byte : Nat) : (lead byte).Fits byte := by
  unfold lead
  refine Lead.fits_ite (fun narrow => ⟨narrow, rfl⟩) fun _ => ?_
  repeat' refine Lead.fits_ite (fun _ => ?_) fun _ => ?_
  all_goals first | trivial | (constructor <;> dsimp only <;> omega)

/-- A continuation byte begins no character. -/
theorem fresh_of_takes {character : Partial} (sound : character.Sound) {byte : UInt8}
    (takes : character.Takes byte) : fresh byte = ([replacement], none) := by
  have bounds : 0x80 ≤ byte.toNat ∧ byte.toNat < 0xC2 := by
    have low := sound.low
    have high := sound.high
    obtain ⟨above, below⟩ := takes
    omega
  have illFormed : lead byte.toNat = .illFormed := by
    rw [lead, if_neg (by omega), if_pos bounds.2]
  rw [fresh, illFormed]

theorem Partial.Sound.take {character next : Partial} (sound : character.Sound) {byte : UInt8}
    (takes : character.Takes byte) (goesOn : (character.take byte).2 = some next) :
    next.Sound := by
  obtain ⟨owed, low, high, bits⟩ := character
  cases owed with
  | zero => cases goesOn
  | succ owed =>
      obtain rfl := Option.some.inj goesOn
      refine ⟨Nat.le_refl _, Nat.le_refl _, Nat.le_trans sound.wide ?_⟩
      dsimp only
      rw [Nat.pow_succ, Nat.mul_comm (64 ^ owed), ← Nat.mul_assoc, Nat.sub_self, Nat.add_zero]
      refine Nat.mul_le_mul_right _ (Nat.mul_le_mul_right _ ?_)
      have least : low ≤ byte.toNat := takes.1
      omega

/-- A state in the middle of a text. -/
def Sound (state : Option Partial) : Prop :=
  ∀ character ∈ state, character.Sound

theorem sound_none : Sound none :=
  nofun

theorem sound_fresh (byte : UInt8) : Sound (fresh byte).2 := by
  intro character member
  unfold fresh at member
  split at member
  · cases member
  · next next opens =>
      obtain rfl := Option.some.inj member
      have fits := fits_lead byte.toNat
      rwa [opens] at fits
  · cases member

theorem sound_step {state : Option Partial} (sound : Sound state) (byte : UInt8) :
    Sound (step state byte).2 := by
  cases state with
  | none => exact sound_fresh byte
  | some character =>
      rw [step]
      split
      · next takes => exact fun next goesOn => (sound character rfl).take takes goesOn
      · exact sound_fresh byte

theorem sound_pendingFrom {state : Option Partial} (sound : Sound state) (bytes : Bytes) :
    Sound (pendingFrom state bytes) := by
  induction bytes generalizing state with
  | nil => exact sound
  | cons byte bytes ih => exact ih (sound_step sound byte)

/-! ### Cutting bytes -/

/-- The character that is owed bytes at the end of a text. -/
def pending (bytes : Bytes) : Option Partial :=
  pendingFrom none bytes

/-- Whether no character is cut between two stretches of bytes. -/
def Divides (front rest : Bytes) : Prop :=
  ∀ character ∈ pending front, ∀ byte ∈ rest.head?, ¬ character.Takes byte

instance {front rest : Bytes} : Decidable (Divides front rest) :=
  inferInstanceAs (Decidable (∀ character ∈ pending front, ∀ byte ∈ rest.head?, _))

section Cutting

variable {front rest : Bytes}

theorem exists_decided_decode (front rest : Bytes) :
    ∃ decided, decode front = decided ++ decodeFrom (pending front) [] ∧
      decode (front ++ rest) = decided ++ decodeFrom (pending front) rest := by
  obtain ⟨decided, same⟩ := exists_decided none front
  have alone := same []
  rw [List.append_nil] at alone
  exact ⟨decided, alone, same rest⟩

/-- Where no character is cut both sides can be decoded by themselves. -/
theorem decode_append (divides : Divides front rest) :
    decode (front ++ rest) = decode front ++ decode rest := by
  obtain ⟨decided, alone, whole⟩ := exists_decided_decode front rest
  have split : decodeFrom (pending front) rest =
      decodeFrom (pending front) [] ++ decode rest := by
    cases begun : pending front with
    | none => rfl
    | some character => exact decodeFrom_of_not_takes (divides character begun)
  rw [whole, alone, split, List.append_assoc]

/-- Giving up a character that is gone on takes no fewer characters than reading it. -/
theorem length_decodeFrom {state : Option Partial} (sound : Sound state) (rest : Bytes) :
    (decodeFrom state rest).length ≤
        (decodeFrom state []).length + (decodeFrom none rest).length ∧
      ∀ character ∈ state, ∀ byte ∈ rest.head?, character.Takes byte →
        (decodeFrom state rest).length <
          (decodeFrom state []).length + (decodeFrom none rest).length := by
  induction rest generalizing state with
  | nil => exact ⟨Nat.le_add_right _ _, nofun⟩
  | cons byte rest ih =>
      cases state with
      | none => exact ⟨Nat.le_add_left _ _, nofun⟩
      | some character =>
          by_cases takes : character.Takes byte
          · -- The byte by itself is ill-formed, and so is what has been begun.
            have alone := fresh_of_takes (sound character rfl) takes
            have later := (ih (sound_step sound byte)).1
            have one : (character.take byte).1.length +
                (decodeFrom (character.take byte).2 []).length = 1 := by
              obtain ⟨owed, low, high, bits⟩ := character
              cases owed <;> rfl
            rw [step, if_pos takes] at later
            have shorter : (decodeFrom (some character) (byte :: rest)).length <
                (decodeFrom (some character) []).length +
                  (decodeFrom none (byte :: rest)).length := by
              rw [decodeFrom_cons, decodeFrom_none_cons, alone, step, if_pos takes]
              simp only [List.length_append, decodeFrom, List.length_singleton]
              omega
            exact ⟨Nat.le_of_lt shorter, fun _ _ _ _ _ => shorter⟩
          · have ends : ∀ next ∈ (byte :: rest).head?, ¬ character.Takes next := by
              simpa using takes
            refine ⟨?_, ?_⟩
            · rw [decodeFrom_of_not_takes ends, List.length_cons, Nat.add_comm]
              exact Nat.le_refl _
            · rintro other same next here goesOn
              obtain rfl := Option.some.inj same
              exact absurd goesOn (ends next here)

/-- However bytes are cut, no fewer characters come out, -/
theorem length_decode_append (front rest : Bytes) :
    (decode (front ++ rest)).length ≤ (decode front).length + (decode rest).length := by
  obtain ⟨decided, alone, whole⟩ := exists_decided_decode front rest
  have most : _ ≤ _ + (decode rest).length :=
    (length_decodeFrom (sound_pendingFrom sound_none front) rest).1
  rw [alone, whole, List.length_append, List.length_append, Nat.add_assoc]
  exact Nat.add_le_add_left most _

/-- and not more only if no character is cut. -/
theorem divides_of_length
    (most : (decode front).length + (decode rest).length ≤ (decode (front ++ rest)).length) :
    Divides front rest := by
  obtain ⟨decided, alone, whole⟩ := exists_decided_decode front rest
  intro character begun byte first takes
  have fewer : _ < _ + (decode rest).length :=
    (length_decodeFrom (sound_pendingFrom sound_none front) rest).2 character begun byte first takes
  rw [alone, whole, List.length_append, List.length_append, Nat.add_assoc] at most
  exact absurd fewer (Nat.not_lt.mpr (Nat.le_of_add_le_add_left most))

end Cutting

/-! ### Characters and bytes -/

/-- A character that has been begun becomes a character. -/
theorem decodeFrom_some_ne_nil (character : Partial) (bytes : Bytes) :
    decodeFrom (some character) bytes ≠ [] := by
  induction bytes generalizing character with
  | nil => exact List.cons_ne_nil _ _
  | cons byte bytes ih =>
      rw [decodeFrom_cons, step]
      split
      · obtain ⟨owed, low, high, bits⟩ := character
        cases owed with
        | zero => exact List.cons_ne_nil _ _
        | succ owed => exact ih _
      · exact List.cons_ne_nil _ _

theorem decode_ne_nil {bytes : Bytes} (some : bytes ≠ []) : decode bytes ≠ [] := by
  obtain ⟨byte, rest, rfl⟩ := List.exists_cons_of_ne_nil some
  rw [decode, decodeFrom_none_cons, fresh]
  split
  · exact List.cons_ne_nil _ _
  · exact decodeFrom_some_ne_nil _ _
  · exact List.cons_ne_nil _ _

/-- A number that is no scalar value stands for the null character. -/
theorem toNat_ofNat (n : Nat) : (Char.ofNat n).toNat = if n.isValidChar then n else 0 := by
  by_cases valid : n.isValidChar
  · rw [if_pos valid, Char.ofNat, dif_pos valid]
    rfl
  · rw [if_neg valid, Char.ofNat, dif_neg valid]
    rfl

theorem toNat_replacement : replacement.toNat = 0xFFFD := by
  rfl

/-- Of the characters with a single byte, a character is spelled by that byte alone. -/
theorem toNat_of_mem_step {state : Option Partial} (sound : Sound state) {byte : UInt8} {c : Char}
    (member : c ∈ (step state byte).1) (narrow : c.toNat < 0x80) (other : c.toNat ≠ 0) :
    byte.toNat = c.toNat := by
  have wide : c ≠ replacement := by
    rintro rfl
    rw [toNat_replacement] at narrow
    omega
  have between : c ∈ (fresh byte).1 → byte.toNat = c.toNat := by
    intro member
    unfold fresh at member
    split at member
    · next d whole =>
        obtain rfl := List.mem_singleton.mp member
        have fits := fits_lead byte.toNat
        rw [whole] at fits
        obtain ⟨single, rfl⟩ := fits
        have valid : byte.toNat.isValidChar := .inl (by omega)
        rw [toNat_ofNat, if_pos valid]
    · cases member
    · exact absurd (List.mem_singleton.mp member) wide
  cases state with
  | none => exact between member
  | some character =>
      rw [step] at member
      split at member
      · next takes =>
          have wide := (sound character rfl).wide
          obtain ⟨owed, low, high, bits⟩ := character
          cases owed with
          | succ owed => cases member
          | zero =>
              change c ∈ [Char.ofNat (bits * 64 + (byte.toNat - 0x80))] at member
              rw [List.mem_singleton.mp member, toNat_ofNat] at narrow other
              have least : low ≤ byte.toNat := takes.1
              dsimp only at wide
              split at narrow <;> split at other <;> omega
      · rcases List.mem_cons.mp member with same | member
        · exact absurd same wide
        · exact between member

theorem mem_of_mem_decodeFrom {state : Option Partial} (sound : Sound state) {bytes : Bytes}
    {c : Char} (member : c ∈ decodeFrom state bytes) (narrow : c.toNat < 0x80)
    (other : c.toNat ≠ 0) : UInt8.ofNat c.toNat ∈ bytes := by
  induction bytes generalizing state with
  | nil =>
      cases state with
      | none => cases member
      | some character =>
          rw [List.mem_singleton.mp member, toNat_replacement] at narrow
          omega
  | cons byte bytes ih =>
      rw [decodeFrom_cons] at member
      rcases List.mem_append.mp member with here | later
      · have same := toNat_of_mem_step sound here narrow other
        rw [← same, UInt8.ofNat_toNat]
        exact List.mem_cons_self
      · exact List.mem_cons_of_mem _ (ih (sound_step sound byte) later)

/-- A character with a single byte comes from that byte. -/
theorem mem_of_mem_decode {bytes : Bytes} {c : Char} (member : c ∈ decode bytes)
    (narrow : c.toNat < 0x80) (other : c.toNat ≠ 0) : UInt8.ofNat c.toNat ∈ bytes :=
  mem_of_mem_decodeFrom sound_none member narrow other

end LineShell.Utf8
