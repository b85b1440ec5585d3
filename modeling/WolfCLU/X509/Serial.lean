import WolfCLU.Foundation.Buffer
import WolfCLU.Foundation.Hex
import WolfCLU.Foundation.MachineInt

namespace WolfCLU
open CString MachineInt

def serialBufferSize : Nat := 64

structure SerialLib where
  a2i : List Byte → Option Nat
  integerGet : Nat → Int
  i2a : Int → List Byte
  a2i_digits : ∀ {digits rest : List Byte}, digits ≠ [] → digits.length % 2 = 0 →
    digits.length < serialBufferSize → (∀ c ∈ digits, Hex.isDigit c = true) →
    (∀ c ∈ rest.head?, Hex.isDigit c = false) → a2i (digits ++ rest) = some (Hex.value digits)
  integerGet_of_le : ∀ {v : Nat}, (v : Int) ≤ longMax → integerGet v = v
  integerGet_of_gt : ∀ {v : Nat}, longMax < (v : Int) → integerGet v < 0
  i2a_ne_nil : ∀ n : Int, 0 ≤ n → n ≤ longMax → i2a n ≠ []
  i2a_even : ∀ n : Int, 0 ≤ n → n ≤ longMax → (i2a n).length % 2 = 0
  i2a_length : ∀ n : Int, 0 ≤ n → n ≤ longMax → (i2a n).length < serialBufferSize
  i2a_isDigit : ∀ n : Int, 0 ≤ n → n ≤ longMax → ∀ c ∈ i2a n, Hex.isDigit c = true
  value_i2a : ∀ n : Int, 0 ≤ n → n ≤ longMax → (Hex.value (i2a n) : Int) = n

def hexA2i (text : List Byte) : Option Nat :=
  let digits := text.takeWhile Hex.isDigit
  if digits ≠ [] ∧ digits.length % 2 = 0 ∧ digits.length < serialBufferSize then
    some (Hex.value digits)
  else none

def hexIntegerGet (v : Nat) : Int := if (v : Int) ≤ longMax then v else -1

def hexI2a (n : Int) : List Byte := Hex.encode n.toNat

theorem hexA2i_digits {digits rest : List Byte} (hne : digits ≠ [])
    (heven : digits.length % 2 = 0) (hlen : digits.length < serialBufferSize)
    (hdigits : ∀ c ∈ digits, Hex.isDigit c = true)
    (hrest : ∀ c ∈ rest.head?, Hex.isDigit c = false) :
    hexA2i (digits ++ rest) = some (Hex.value digits) := by
  simp only [hexA2i, Hex.takeWhile_isDigit hdigits hrest]
  exact if_pos ⟨hne, heven, hlen⟩

theorem hexIntegerGet_of_gt {v : Nat} (h : longMax < (v : Int)) : hexIntegerGet v < 0 := by
  rw [hexIntegerGet, if_neg (by omega)]
  decide

theorem hexI2a_ne_nil (n : Int) (_ : 0 ≤ n) (_ : n ≤ longMax) : hexI2a n ≠ [] := by
  have := List.length_pos_iff.mpr (Hex.bytesOf_ne_nil n.toNat)
  rw [hexI2a, ← List.length_pos_iff, Hex.encode_length]
  omega

theorem hexI2a_even (n : Int) (_ : 0 ≤ n) (_ : n ≤ longMax) : (hexI2a n).length % 2 = 0 := by
  rw [hexI2a, Hex.encode_length]
  omega

theorem hexI2a_length (n : Int) (h0 : 0 ≤ n) (hmax : n ≤ longMax) :
    (hexI2a n).length < serialBufferSize := by
  have hlt : n.toNat < 256 ^ 8 := by
    simp only [longMax] at hmax
    omega
  have := Hex.bytesOf_length_le (by decide) hlt
  rw [hexI2a, Hex.encode_length, serialBufferSize]
  omega

theorem hexI2a_isDigit (n : Int) (_ : 0 ≤ n) (_ : n ≤ longMax) :
    ∀ c ∈ hexI2a n, Hex.isDigit c = true := Hex.isDigit_encode _

theorem value_hexI2a (n : Int) (h0 : 0 ≤ n) (_ : n ≤ longMax) :
    (Hex.value (hexI2a n) : Int) = n := by
  rw [hexI2a, Hex.value_encode]
  exact Int.toNat_of_nonneg h0

def hexSerial : SerialLib where
  a2i := hexA2i
  integerGet := hexIntegerGet
  i2a := hexI2a
  a2i_digits := hexA2i_digits
  integerGet_of_le h := if_pos h
  integerGet_of_gt := hexIntegerGet_of_gt
  i2a_ne_nil := hexI2a_ne_nil
  i2a_even := hexI2a_even
  i2a_length := hexI2a_length
  i2a_isDigit := hexI2a_isDigit
  value_i2a := value_hexI2a

def LeavesNoTail (lib : SerialLib) (text : List Byte) (v : Nat) : Prop :=
  ∀ c ∈ (text.drop (lib.i2a (v + 1)).length).head?, Hex.isDigit c = false

theorem SerialLib.a2i_rewrite (lib : SerialLib) {text : List Byte} {v : Nat}
    (hv : (v : Int) < longMax) (htail : LeavesNoTail lib text v) :
    lib.a2i (Buffer.blit text 0 (lib.i2a (v + 1))) = some (v + 1) := by
  have h0 : (0 : Int) ≤ v + 1 := by omega
  have hmax : (v : Int) + 1 ≤ longMax := by omega
  have hvalue : Hex.value (lib.i2a (v + 1)) = v + 1 := by
    have := lib.value_i2a _ h0 hmax
    omega
  rw [Buffer.blit, List.take_zero, List.nil_append, Nat.zero_add, ← hvalue]
  exact lib.a2i_digits (lib.i2a_ne_nil _ h0 hmax) (lib.i2a_even _ h0 hmax)
    (lib.i2a_length _ h0 hmax) (lib.i2a_isDigit _ h0 hmax) htail

end WolfCLU
