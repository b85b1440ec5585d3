import Mathlib.Data.Nat.Digits.Lemmas
import WolfCLU.Foundation.CString

namespace BigEndian
open CString

def value (bytes : List Byte) : Nat := bytes.foldl (fun v b => 256 * v + b.toNat) 0

theorem foldl_shift (bytes : List Byte) (v : Nat) :
    bytes.foldl (fun v b => 256 * v + b.toNat) v = 256 ^ bytes.length * v + value bytes := by
  induction bytes generalizing v with
  | nil => simp [value]
  | cons b bytes ih =>
    simp only [value, List.foldl_cons, List.length_cons, Nat.mul_zero, Nat.zero_add]
    rw [ih, ih b.toNat, pow_succ]
    ring

theorem value_append (xs ys : List Byte) :
    value (xs ++ ys) = 256 ^ ys.length * value xs + value ys := by
  rw [value, List.foldl_append, foldl_shift]
  rfl

theorem value_singleton (b : Byte) : value [b] = b.toNat := by
  simp [value]

theorem value_cons (b : Byte) (bytes : List Byte) :
    value (b :: bytes) = 256 ^ bytes.length * b.toNat + value bytes := by
  rw [← List.singleton_append, value_append, value_singleton]

theorem value_lt (bytes : List Byte) : value bytes < 256 ^ bytes.length := by
  induction bytes with
  | nil => simp [value]
  | cons b bytes ih =>
    have hb : b.toNat ≤ 255 := Nat.le_of_lt_succ b.toNat_lt
    have hscaled := Nat.mul_le_mul_left (256 ^ bytes.length) hb
    rw [value_cons, List.length_cons, pow_succ]
    omega

theorem value_take_drop (bytes : List Byte) (k : Nat) :
    value bytes = 256 ^ (bytes.drop k).length * value (bytes.take k) + value (bytes.drop k) := by
  rw [← value_append, List.take_append_drop]

theorem value_take_le {xs ys : List Byte} (hlength : xs.length = ys.length)
    (hle : value xs ≤ value ys) (k : Nat) : value (xs.take k) ≤ value (ys.take k) := by
  have hx := value_take_drop xs k
  have hy := value_take_drop ys k
  have hlt := value_lt (ys.drop k)
  have hdrop : (xs.drop k).length = (ys.drop k).length := by
    rw [List.length_drop, List.length_drop, hlength]
  rw [hdrop] at hx
  by_contra hgt
  have hstep : 256 ^ (ys.drop k).length * (value (ys.take k) + 1) ≤
      256 ^ (ys.drop k).length * value (xs.take k) :=
    Nat.mul_le_mul_left _ (by omega)
  rw [Nat.mul_add, Nat.mul_one] at hstep
  omega

theorem value_le_spliced {xs ys : List Byte} (hlength : xs.length = ys.length)
    (hle : value xs ≤ value ys) (k : Nat) : value xs ≤ value (ys.take k ++ xs.drop k) := by
  rw [value_append, value_take_drop xs k]
  have hfront := value_take_le hlength hle k
  have hscaled := Nat.mul_le_mul_left (256 ^ (xs.drop k).length) hfront
  omega

def fixed : Nat → Nat → List Byte
  | 0, _ => []
  | k + 1, n => UInt8.ofNat (n / 256 ^ k) :: fixed k n

theorem fixed_length (k n : Nat) : (fixed k n).length = k := by
  induction k with
  | zero => rfl
  | succ k ih => rw [fixed, List.length_cons, ih]

theorem value_fixed (k n : Nat) : value (fixed k n) = n % 256 ^ k := by
  induction k with
  | zero => simp [fixed, value, Nat.mod_one]
  | succ k ih =>
    have hbyte : (UInt8.ofNat (n / 256 ^ k)).toNat = n / 256 ^ k % 256 := UInt8.toNat_ofNat'
    rw [fixed, value_cons, fixed_length, ih, hbyte, Nat.mod_pow_succ]
    exact Nat.add_comm _ _

def byteLen (n : Nat) : Nat := (Nat.digits 256 n).length

theorem byteLen_le_iff {n k : Nat} : byteLen n ≤ k ↔ n < 256 ^ k :=
  Nat.digits_length_le_iff (by decide) n

theorem byteLen_pos {n : Nat} (h : 0 < n) : 0 < byteLen n := by
  by_contra hzero
  have hlt := byteLen_le_iff.mp (Nat.le_of_not_lt hzero)
  rw [pow_zero] at hlt
  omega

def bytes (n : Nat) : List Byte := fixed (byteLen n) n

theorem bytes_length (n : Nat) : (bytes n).length = byteLen n := fixed_length _ _

theorem value_bytes (n : Nat) : value (bytes n) = n := by
  rw [bytes, value_fixed]
  exact Nat.mod_eq_of_lt (byteLen_le_iff.mp le_rfl)

def topByte (n : Nat) : Nat := n / 256 ^ (byteLen n - 1)

theorem topByte_bounds {n : Nat} (h : 0 < n) : 0 < topByte n ∧ topByte n < 256 := by
  have hpos := byteLen_pos h
  constructor
  · refine Nat.div_pos ?_ (by positivity)
    by_contra hlt
    have hle := byteLen_le_iff.mpr (Nat.lt_of_not_le hlt)
    omega
  · have hlt : n < 256 ^ byteLen n := byteLen_le_iff.mp le_rfl
    have hpow : 256 ^ byteLen n = 256 * 256 ^ (byteLen n - 1) := by
      rw [← pow_succ', Nat.sub_add_cancel hpos]
    rw [topByte, Nat.div_lt_iff_lt_mul (by positivity), ← hpow]
    exact hlt

theorem bytes_cons {n : Nat} (h : 0 < n) :
    bytes n = UInt8.ofNat (topByte n) :: fixed (byteLen n - 1) n := by
  rw [bytes, topByte]
  conv_lhs => rw [← Nat.sub_add_cancel (byteLen_pos h)]
  rfl

end BigEndian
