import Mathlib.Data.Nat.Digits.Lemmas
import WolfCLU.Foundation.CString

namespace Hex
open CString

def isDigit (c : Byte) : Bool := CString.isDigit c || (65 ≤ c && c ≤ 70) || (97 ≤ c && c ≤ 102)

def digitValue (c : Byte) : Nat :=
  if c ≤ 57 then c.toNat - 48 else if c ≤ 70 then c.toNat - 55 else c.toNat - 87

def digit (d : Nat) : Byte := UInt8.ofNat (if d < 10 then 48 + d else 55 + d)

def lowerDigit (d : Nat) : Byte := UInt8.ofNat (if d < 10 then 48 + d else 87 + d)

def lowerByte (b : Byte) : List Byte := [lowerDigit (b.toNat / 16), lowerDigit (b.toNat % 16)]

theorem lowerByte_length (b : Byte) : (lowerByte b).length = 2 := rfl

theorem digit_valid {d : Nat} (h : d < 16) :
    isDigit (digit d) = true ∧ digitValue (digit d) = d := by
  interval_cases d <;> decide

theorem digitValue_lt {c : Byte} (h : isDigit c = true) : digitValue c < 16 := by
  simp only [isDigit, CString.isDigit, Bool.or_eq_true, Bool.and_eq_true, decide_eq_true_eq,
    UInt8.le_iff_toNat_le, UInt8.reduceToNat] at h
  simp only [digitValue, UInt8.le_iff_toNat_le, UInt8.reduceToNat]
  split_ifs <;> omega

def valueFrom (v : Nat) (digits : List Byte) : Nat :=
  digits.foldl (fun v c => 16 * v + digitValue c) v

def value (digits : List Byte) : Nat := valueFrom 0 digits

def byteText (b : Nat) : List Byte := [digit (b / 16), digit (b % 16)]

theorem valueFrom_byteText {b : Nat} (h : b < 256) (v : Nat) (rest : List Byte) :
    valueFrom v (byteText b ++ rest) = valueFrom (256 * v + b) rest := by
  have hhigh : b / 16 < 16 := by omega
  have hlow : b % 16 < 16 := by omega
  simp only [byteText, valueFrom, List.cons_append, List.nil_append, List.foldl_cons,
    (digit_valid hhigh).2, (digit_valid hlow).2]
  congr 1
  omega

theorem isDigit_byteText {b : Nat} (h : b < 256) : ∀ c ∈ byteText b, isDigit c = true := by
  have hhigh : b / 16 < 16 := by omega
  have hlow : b % 16 < 16 := by omega
  intro c hc
  simp only [byteText, List.mem_cons, List.not_mem_nil, or_false] at hc
  rcases hc with rfl | rfl
  · exact (digit_valid hhigh).1
  · exact (digit_valid hlow).1

def bytesText (bytes : List Nat) : List Byte := bytes.flatMap byteText

theorem bytesText_length (bytes : List Nat) : (bytesText bytes).length = 2 * bytes.length := by
  induction bytes with
  | nil => rfl
  | cons b bytes ih =>
    simp only [bytesText, List.flatMap_cons, List.length_append] at ih ⊢
    rw [ih]
    simp only [byteText, List.length_cons, List.length_nil]
    omega

theorem valueFrom_bytesText {bytes : List Nat} (h : ∀ b ∈ bytes, b < 256) (v : Nat) :
    valueFrom v (bytesText bytes) = bytes.foldl (fun v b => 256 * v + b) v := by
  induction bytes generalizing v with
  | nil => rfl
  | cons b bytes ih =>
    simp only [bytesText, List.flatMap_cons, List.foldl_cons] at ih ⊢
    rw [valueFrom_byteText (h b List.mem_cons_self)]
    exact ih (fun b hb => h b (List.mem_cons_of_mem _ hb)) _

def bytesOf (n : Nat) : List Nat := if n = 0 then [0] else (Nat.digits 256 n).reverse

def encode (n : Nat) : List Byte := bytesText (bytesOf n)

theorem bytesOf_lt {n b : Nat} (h : b ∈ bytesOf n) : b < 256 := by
  simp only [bytesOf] at h
  split at h
  · simp only [List.mem_singleton] at h
    omega
  · exact Nat.digits_lt_base (by decide) (List.mem_reverse.mp h)

theorem bytesOf_value (n : Nat) : (bytesOf n).foldl (fun v b => 256 * v + b) 0 = n := by
  simp only [bytesOf]
  split
  · rename_i h
    rw [h]
    rfl
  · rw [List.foldl_reverse]
    conv_rhs => rw [← Nat.ofDigits_digits 256 n, Nat.ofDigits_eq_foldr]
    congr 1
    funext b v
    push_cast
    ring

theorem bytesOf_ne_nil (n : Nat) : bytesOf n ≠ [] := by
  simp only [bytesOf]
  split
  · simp
  · rename_i h
    simpa [Nat.digits_eq_nil_iff_eq_zero] using h

theorem bytesOf_length_le {n k : Nat} (hk : 0 < k) (h : n < 256 ^ k) : (bytesOf n).length ≤ k := by
  simp only [bytesOf]
  split
  · exact hk
  · rw [List.length_reverse]
    exact (Nat.digits_length_le_iff (by decide) n).mpr h

theorem value_encode (n : Nat) : value (encode n) = n := by
  rw [value, encode, valueFrom_bytesText fun b hb => bytesOf_lt hb, bytesOf_value]

theorem isDigit_encode (n : Nat) : ∀ c ∈ encode n, isDigit c = true := by
  intro c hc
  obtain ⟨b, hb, hcb⟩ := List.mem_flatMap.mp hc
  exact isDigit_byteText (bytesOf_lt hb) c hcb

theorem encode_length (n : Nat) : (encode n).length = 2 * (bytesOf n).length :=
  bytesText_length _

theorem takeWhile_isDigit {digits rest : List Byte} (hdigits : ∀ c ∈ digits, isDigit c = true)
    (hrest : ∀ c ∈ rest.head?, isDigit c = false) :
    (digits ++ rest).takeWhile isDigit = digits := by
  rw [List.takeWhile_append_of_pos hdigits]
  cases rest with
  | nil => simp
  | cons c rest => simp [hrest c rfl]

end Hex
