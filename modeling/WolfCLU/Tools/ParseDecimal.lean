import WolfCLU.ErrorCodes
import WolfCLU.Foundation.CString

namespace WolfCLU
open CString MachineInt

structure DecimalScan where
  val : Long
  isOver : Bool
  deriving DecidableEq

def decimalDigit (maxVal : Long) (scan : DecimalScan) (digit : Int) : Option DecimalScan :=
  if scan.isOver then some scan
  else if maxVal.val < digit then some { scan with isOver := true }
  else do
    let room ← long (maxVal.val - digit)
    if scan.val.val > room.val.tdiv 10 then some { scan with isOver := true }
    else
      let tens ← long (scan.val.val * 10)
      let val ← long (tens.val + digit)
      some { scan with val := val }

def decimalLoop (maxVal : Long) (scan : DecimalScan) : List Byte → Option (Option DecimalScan)
  | [] => some (some scan)
  | c :: p =>
    if c < 48 ∨ c > 57 then some none
    else do
      let scan ← decimalDigit maxVal scan (c.toNat - 48)
      decimalLoop maxVal scan p

def parseDecimalBounded (str : Option (List Byte)) (minVal maxVal : Long) (out : Option Long) :
    Option (Int × Option Long) :=
  match str, out with
  | some str, some _ => do
    match ← decimalLoop maxVal { val := ⟨0, by decide⟩, isOver := false } str with
    | none => some (wolfcluFatalError, out)
    | some scan =>
      if scan.isOver ∨ str = [] ∨ scan.val.val < minVal.val ∨ scan.val.val > maxVal.val then
        some (wolfcluFatalError, out)
      else some (wolfcluSuccess, some scan.val)
  | _, _ => some (wolfcluFatalError, out)

section Scan
variable {maxVal : Long} {scan : DecimalScan}

theorem digitsValue_append_singleton (seen : List Byte) (c : Byte) :
    digitsValue (seen ++ [c]) = 10 * digitsValue seen + (c.toNat - 48) := by
  simp only [digitsValue, List.foldl_append, List.foldl_cons, List.foldl_nil]

structure DecimalInv (maxVal : Long) (seen : List Byte) (scan : DecimalScan) : Prop where
  exact : scan.isOver = false → scan.val.val = digitsValue seen
  inside : scan.isOver = false → seen ≠ [] → (digitsValue seen : Int) ≤ maxVal.val
  exceeds : scan.isOver = true → maxVal.val < digitsValue seen

theorem decimalDigit_inv {seen : List Byte} (h : DecimalInv maxVal seen scan) (c : Byte)
    (hc : 48 ≤ c.toNat) :
    ∃ scan', decimalDigit maxVal scan (c.toNat - 48) = some scan' ∧
      DecimalInv maxVal (seen ++ [c]) scan' := by
  obtain ⟨val, isOver⟩ := scan
  have hvalue := digitsValue_append_singleton seen c
  have hmax := maxVal.property
  cases isOver with
  | true =>
    have hisOver := h.exceeds rfl
    refine ⟨⟨val, true⟩, rfl, fun h => Bool.noConfusion h, fun h => Bool.noConfusion h, ?_⟩
    intro _
    rw [hvalue]
    push_cast
    omega
  | false =>
    have hexact : val.val = digitsValue seen := h.exact rfl
    simp only [decimalDigit, Bool.false_eq_true, if_false]
    by_cases hsmall : maxVal.val < (c.toNat : Int) - 48
    · rw [if_pos hsmall]
      refine ⟨_, rfl, fun h => Bool.noConfusion h, fun h => Bool.noConfusion h, ?_⟩
      intro _
      rw [hvalue]
      omega
    · have hroom : (0 : Int) ≤ maxVal.val - (c.toNat - 48) := by omega
      rw [if_neg hsmall, long_of_range (by simp only [longMin]; omega) (by omega)]
      simp only [Option.bind_eq_bind, Option.bind_some, Int.tdiv_eq_ediv_of_nonneg hroom]
      by_cases hover : val.val > (maxVal.val - (c.toNat - 48)) / 10
      · rw [if_pos hover]
        refine ⟨_, rfl, fun h => Bool.noConfusion h, fun h => Bool.noConfusion h, ?_⟩
        intro _
        rw [hvalue]
        omega
      · have hfits : val.val * 10 + (c.toNat - 48) ≤ maxVal.val := by omega
        rw [if_neg hover, long_of_range (by simp only [longMin]; omega) (by omega),
          Option.bind_some, long_of_range (by simp only [longMin]; omega) (by simp only; omega),
          Option.bind_some]
        refine ⟨_, rfl, ?_, ?_, fun h => Bool.noConfusion h⟩
        · intro _
          rw [hvalue]
          simp only
          omega
        · intro _ _
          rw [hvalue]
          omega

theorem decimalLoop_spec {seen : List Byte} (h : DecimalInv maxVal seen scan) (p : List Byte) :
    (∃ scan', decimalLoop maxVal scan p = some (some scan') ∧ (∀ c ∈ p, isDigit c = true) ∧
        DecimalInv maxVal (seen ++ p) scan') ∨
      (decimalLoop maxVal scan p = some none ∧ ∃ c ∈ p, isDigit c = false) := by
  induction p generalizing seen scan with
  | nil => exact Or.inl ⟨scan, rfl, nofun, by rwa [List.append_nil]⟩
  | cons c p ih =>
    by_cases hc : c < 48 ∨ c > 57
    · refine Or.inr ⟨by rw [decimalLoop, if_pos hc], c, List.mem_cons_self, ?_⟩
      rcases hc with hc | hc
      · simp [isDigit, UInt8.not_le.mpr hc]
      · simp [isDigit, UInt8.not_le.mpr hc]
    · obtain ⟨hlo, hhi⟩ := not_or.mp hc
      have hdigit : isDigit c = true := by
        simp only [isDigit, Bool.and_eq_true, decide_eq_true_eq]
        exact ⟨UInt8.not_lt.mp hlo, UInt8.not_lt.mp hhi⟩
      have hfrom : 48 ≤ c.toNat := UInt8.le_iff_toNat_le.mp (UInt8.not_lt.mp hlo)
      obtain ⟨next, hnext, hinv⟩ := decimalDigit_inv h c hfrom
      have hloop : decimalLoop maxVal scan (c :: p) = decimalLoop maxVal next p := by
        rw [decimalLoop, if_neg hc, hnext]
        rfl
      rw [hloop]
      rcases ih hinv with ⟨scan', hrun, hall, hlast⟩ | ⟨hrun, d, hd, hbad⟩
      · refine Or.inl ⟨scan', hrun, ?_, by rwa [List.append_assoc] at hlast⟩
        intro d hd
        rcases List.mem_cons.mp hd with rfl | hd
        · exact hdigit
        · exact hall d hd
      · exact Or.inr ⟨hrun, d, List.mem_cons_of_mem _ hd, hbad⟩

theorem decimalInv_start : DecimalInv maxVal [] { val := ⟨0, by decide⟩, isOver := false } :=
  ⟨fun _ => rfl, fun _ h => absurd rfl h, nofun⟩

end Scan

structure DecimalWithin (minVal maxVal : Long) (str : List Byte) (n : Long) : Prop where
  numeral : ∃ value : Nat, IsNumeral str value ∧ n.val = value
  above : minVal.val ≤ n.val
  below : n.val ≤ maxVal.val

theorem DecimalWithin.value {minVal maxVal n : Long} {str : List Byte}
    (h : DecimalWithin minVal maxVal str n) : n.val = digitsValue str := by
  obtain ⟨value, hnum, hn⟩ := h.numeral
  rw [hn, hnum.value]

theorem not_within_of_nondigit {minVal maxVal n : Long} {str : List Byte} {c : Byte} (hc : c ∈ str)
    (h : isDigit c = false) : ¬ DecimalWithin minVal maxVal str n := by
  rintro ⟨⟨value, hnum, _⟩, _, _⟩
  rw [hnum.digits c hc] at h
  cases h

theorem decimalScan_within {minVal maxVal : Long} {str : List Byte} {scan : DecimalScan}
    (hdigits : ∀ c ∈ str, isDigit c = true) (h : DecimalInv maxVal str scan) :
    ¬ (scan.isOver ∨ str = [] ∨ scan.val.val < minVal.val ∨ scan.val.val > maxVal.val) →
      DecimalWithin minVal maxVal str scan.val := by
  intro hchecks
  simp only [not_or, Bool.not_eq_true, gt_iff_lt, not_lt] at hchecks
  obtain ⟨hover, hne, hmin, hmax⟩ := hchecks
  exact ⟨⟨digitsValue str, ⟨hne, hdigits, rfl⟩, h.exact hover⟩, hmin, hmax⟩

theorem decimalScan_outside {minVal maxVal n : Long} {str : List Byte} {scan : DecimalScan}
    (h : DecimalInv maxVal str scan)
    (hchecks : scan.isOver ∨ str = [] ∨ scan.val.val < minVal.val ∨ scan.val.val > maxVal.val) :
    ¬ DecimalWithin minVal maxVal str n := by
  intro hwithin
  have hvalue := hwithin.value
  have hmin := hwithin.above
  have hmax := hwithin.below
  obtain ⟨value, hnum, _⟩ := hwithin.numeral
  cases hover : scan.isOver with
  | true =>
    have := h.exceeds hover
    omega
  | false =>
    have hexact := h.exact hover
    rcases hchecks with hbad | hbad | hbad | hbad
    · rw [hover] at hbad
      cases hbad
    · exact hnum.nonempty hbad
    · omega
    · omega

theorem parseDecimalBounded_none (str : Option (List Byte)) (minVal maxVal : Long)
    (out : Option Long) (h : str = none ∨ out = none) :
    parseDecimalBounded str minVal maxVal out = some (wolfcluFatalError, out) := by
  rcases h with rfl | rfl
  · rfl
  · cases str <;> rfl

theorem parseDecimalBounded_cases (str : List Byte) (minVal maxVal out : Long) :
    (∃ n, DecimalWithin minVal maxVal str n ∧
        parseDecimalBounded (some str) minVal maxVal (some out) = some (wolfcluSuccess, some n)) ∨
      ((∀ n, ¬ DecimalWithin minVal maxVal str n) ∧
        parseDecimalBounded (some str) minVal maxVal (some out) =
          some (wolfcluFatalError, some out)) := by
  rcases decimalLoop_spec (@decimalInv_start maxVal) str with
    ⟨scan, hrun, hdigits, hinv⟩ | ⟨hrun, c, hc, hbad⟩
  · rw [List.nil_append] at hinv
    by_cases hchecks : scan.isOver ∨ str = [] ∨ scan.val.val < minVal.val ∨ scan.val.val > maxVal.val
    · refine Or.inr ⟨fun n => decimalScan_outside hinv hchecks, ?_⟩
      simp only [parseDecimalBounded, hrun, Option.bind_eq_bind, Option.bind_some, if_pos hchecks]
    · refine Or.inl ⟨scan.val, decimalScan_within hdigits hinv hchecks, ?_⟩
      simp only [parseDecimalBounded, hrun, Option.bind_eq_bind, Option.bind_some, if_neg hchecks]
  · refine Or.inr ⟨fun n => not_within_of_nondigit hc hbad, ?_⟩
    simp only [parseDecimalBounded, hrun, Option.bind_eq_bind, Option.bind_some]

theorem decimal_bounded_exact (str : Option (List Byte)) (minVal maxVal : Long)
    (out : Option Long) :
    ∃ ret out', parseDecimalBounded str minVal maxVal out = some (ret, out') ∧
      (ret = wolfcluSuccess ↔
        out ≠ none ∧ ∃ text n, str = some text ∧ DecimalWithin minVal maxVal text n) ∧
      (ret = wolfcluSuccess → ∃ text n, str = some text ∧
        DecimalWithin minVal maxVal text n ∧ out' = some n) ∧
      (ret ≠ wolfcluSuccess → ret = wolfcluFatalError ∧ out' = out) := by
  have hfatal : wolfcluFatalError ≠ wolfcluSuccess := by decide
  cases str with
  | none =>
    refine ⟨_, _, parseDecimalBounded_none none minVal maxVal out (Or.inl rfl), ?_, ?_, ?_⟩
    · simp [hfatal]
    · intro h
      exact absurd h hfatal
    · intro _
      exact ⟨rfl, rfl⟩
  | some str =>
    cases out with
    | none =>
      refine ⟨_, _, parseDecimalBounded_none (some str) minVal maxVal none (Or.inr rfl), ?_, ?_, ?_⟩
      · simp [hfatal]
      · intro h
        exact absurd h hfatal
      · intro _
        exact ⟨rfl, rfl⟩
    | some out =>
      rcases parseDecimalBounded_cases str minVal maxVal out with ⟨n, hn, hrun⟩ | ⟨hnone, hrun⟩
      · refine ⟨_, _, hrun, ?_, ?_, ?_⟩
        · exact iff_of_true rfl ⟨by simp, str, n, rfl, hn⟩
        · intro _
          exact ⟨str, n, rfl, hn, rfl⟩
        · intro h
          exact absurd rfl h
      · refine ⟨_, _, hrun, ?_, ?_, ?_⟩
        · refine iff_of_false hfatal ?_
          rintro ⟨_, text, n, heq, hwithin⟩
          cases heq
          exact hnone n hwithin
        · intro h
          exact absurd h hfatal
        · intro _
          exact ⟨rfl, rfl⟩

end WolfCLU
