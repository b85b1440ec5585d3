import Mathlib.Tactic

namespace MachineInt

def intMax : Int := 2147483647
def longMax : Int := 9223372036854775807
def longMin : Int := -9223372036854775808

def toInt32 (x : Int) : Int := x.bmod 4294967296

theorem toInt32_of_range {x : Int} (hlo : -2147483648 ≤ x) (hhi : x ≤ intMax) :
    toInt32 x = x := by
  simp only [toInt32, Int.bmod, intMax] at *
  split <;> omega

theorem toInt32_range (x : Int) : -2147483648 ≤ toInt32 x ∧ toInt32 x ≤ intMax := by
  simp only [toInt32, Int.bmod, intMax]
  split <;> omega

theorem toInt32_le {x : Int} (hlo : -2147483648 ≤ x) : toInt32 x ≤ x := by
  simp only [toInt32, Int.bmod]
  split <;> omega

theorem toInt32_le_sub {x : Int} (h : intMax < x) : toInt32 x ≤ x - 4294967296 := by
  simp only [toInt32, Int.bmod, intMax] at *
  split <;> omega

def sizeT (x : Int) : Nat := (x % 18446744073709551616).toNat

def toLong (x : Int) : Int := x.bmod 18446744073709551616

theorem toLong_of_range {x : Int} (hlo : longMin ≤ x) (hhi : x ≤ longMax) : toLong x = x := by
  simp only [toLong, Int.bmod, longMin, longMax] at *
  split <;> omega

def clampLong (x : Int) : Int := if x < longMin then longMin else if longMax < x then longMax else x

theorem clampLong_of_range {x : Int} (hlo : longMin ≤ x) (hhi : x ≤ longMax) :
    clampLong x = x := by
  simp only [clampLong]
  split_ifs <;> omega

abbrev Long := {x : Int // longMin ≤ x ∧ x ≤ longMax}

def long (x : Int) : Option Long := if h : longMin ≤ x ∧ x ≤ longMax then some ⟨x, h⟩ else none

theorem long_of_range {x : Int} (hlo : longMin ≤ x) (hhi : x ≤ longMax) :
    long x = some ⟨x, hlo, hhi⟩ := dif_pos ⟨hlo, hhi⟩

end MachineInt
