import WolfCLU.ErrorCodes
import WolfCLU.Foundation.Hex

namespace WolfCLU
open CString

def hexPairs : List Byte → Option (List Byte)
  | [] => some []
  | [_] => none
  | hi :: lo :: rest =>
    if Hex.isDigit hi ∧ Hex.isDigit lo then
      (hexPairs rest).map (UInt8.ofNat (16 * Hex.digitValue hi + Hex.digitValue lo) :: ·)
    else none

theorem hexPairs_length {hex bytes : List Byte} (h : hexPairs hex = some bytes) :
    hex.length = bytes.length * 2 := by
  fun_induction hexPairs hex generalizing bytes with
  | case1 =>
    obtain rfl := Option.some.inj h
    rfl
  | case2 => cases h
  | case3 hi lo rest hdigits ih =>
    obtain ⟨bytes', hrest, rfl⟩ := Option.map_eq_some_iff.mp h
    have := ih hrest
    simp only [List.length_cons]
    omega
  | case4 => cases h

theorem hexPairs_digits {hex d : List Byte} (h : hexPairs hex = some d) :
    ∀ c ∈ hex, Hex.isDigit c = true := by
  fun_induction hexPairs hex generalizing d with
  | case1 => simp
  | case2 => cases h
  | case3 hi lo rest hdigits ih =>
    obtain ⟨bytes, hrest, -⟩ := Option.map_eq_some_iff.mp h
    intro c hc
    simp only [List.mem_cons] at hc
    rcases hc with rfl | rfl | hc
    · exact hdigits.1
    · exact hdigits.2
    · exact ih hrest c hc
  | case4 => cases h

def hexToBytes (alloc : Nat → Bool) (base16Decode : List Byte → Except Int (List Byte))
    (hex : List Byte) : Except Int (List Byte) :=
  if alloc (hex.length / 2) then base16Decode hex else .error memoryE

inductive HexSpells : List Byte → List Byte → Prop
  | nil : HexSpells [] []
  | byte {hi lo b : Byte} {hex bytes : List Byte} : Hex.isDigit hi = true → Hex.isDigit lo = true →
      16 * Hex.digitValue hi + Hex.digitValue lo = b.toNat → HexSpells hex bytes →
      HexSpells (hi :: lo :: hex) (b :: bytes)

theorem hexPair_value {hi lo b : Byte} (hhi : Hex.isDigit hi) (hlo : Hex.isDigit lo) :
    UInt8.ofNat (16 * Hex.digitValue hi + Hex.digitValue lo) = b ↔
      16 * Hex.digitValue hi + Hex.digitValue lo = b.toNat := by
  have hhigh := Hex.digitValue_lt hhi
  have hlow := Hex.digitValue_lt hlo
  rw [← UInt8.toNat_inj, UInt8.toNat_ofNat', Nat.mod_eq_of_lt (by omega)]

theorem hexPairs_iff {hex bytes : List Byte} : hexPairs hex = some bytes ↔ HexSpells hex bytes := by
  constructor
  · intro h
    fun_induction hexPairs hex generalizing bytes with
    | case1 =>
      obtain rfl := Option.some.inj h
      exact .nil
    | case2 => cases h
    | case3 hi lo rest hdigits ih =>
      obtain ⟨bytes', hrest, rfl⟩ := Option.map_eq_some_iff.mp h
      exact .byte hdigits.1 hdigits.2 ((hexPair_value hdigits.1 hdigits.2).mp rfl) (ih hrest)
    | case4 => cases h
  · intro h
    induction h with
    | nil => rfl
    | byte hhi hlo hvalue _ ih =>
      rw [hexPairs, if_pos ⟨hhi, hlo⟩, ih, (hexPair_value hhi hlo).mpr hvalue]
      rfl

end WolfCLU
