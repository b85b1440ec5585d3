import Mathlib.Data.List.TakeWhile
import WolfCLU.Foundation.MachineInt

namespace CString

abbrev Byte := UInt8

def str (s : String) : List Byte := s.toList.map Char.toUInt8

section Search
variable {α : Type} [DecidableEq α]

def strstr (needle : List α) : List α → Option Nat
  | [] => if needle = [] then some 0 else none
  | b :: bs => if needle <+: b :: bs then some 0 else (strstr needle bs).map (· + 1)

theorem strstr_eq_some {needle hay : List α} {i : Nat} :
    strstr needle hay = some i ↔
      i ≤ hay.length ∧ needle <+: hay.drop i ∧ ∀ j < i, ¬ needle <+: hay.drop j := by
  induction hay generalizing i with
  | nil =>
    by_cases hn : needle = []
    · subst hn
      constructor
      · intro h
        simp [strstr] at h
        subst h
        simp
      · rintro ⟨hi, _, _⟩
        simp at hi
        simp [strstr, hi]
    · constructor
      · intro h
        simp [strstr, hn] at h
      · rintro ⟨_, hp, _⟩
        simp at hp
        exact absurd hp hn
  | cons b bs ih =>
    by_cases hp : needle <+: b :: bs
    · simp only [strstr, if_pos hp, Option.some.injEq]
      constructor
      · rintro rfl
        exact ⟨Nat.zero_le _, by simpa using hp, by simp⟩
      · rintro ⟨_, _, hfirst⟩
        cases i with
        | zero => rfl
        | succ i => exact absurd (by simpa using hp) (hfirst 0 (Nat.succ_pos i))
    · simp only [strstr, if_neg hp, Option.map_eq_some_iff]
      constructor
      · rintro ⟨k, hk, rfl⟩
        obtain ⟨hle, hpre, hfirst⟩ := ih.mp hk
        refine ⟨by simpa using hle, by simpa using hpre, ?_⟩
        intro j hj
        cases j with
        | zero => simpa using hp
        | succ j => simpa using hfirst j (by omega)
      · rintro ⟨hle, hpre, hfirst⟩
        cases i with
        | zero => exact absurd (by simpa using hpre) hp
        | succ i =>
          refine ⟨i, ih.mpr ⟨by simpa using hle, by simpa using hpre, ?_⟩, rfl⟩
          intro j hj
          simpa using hfirst (j + 1) (by omega)

theorem strstr_bound {needle hay : List α} {i : Nat} (h : strstr needle hay = some i) :
    i + needle.length ≤ hay.length := by
  obtain ⟨hle, hpre, _⟩ := strstr_eq_some.mp h
  have := hpre.length_le
  simp only [List.length_drop] at this
  omega

theorem strstr_eq_none {needle hay : List α} :
    strstr needle hay = none ↔ ∀ j ≤ hay.length, ¬ needle <+: hay.drop j := by
  induction hay with
  | nil => by_cases hn : needle = [] <;> simp [strstr, hn]
  | cons b bs ih =>
    by_cases hp : needle <+: b :: bs
    · simp only [strstr, if_pos hp, reduceCtorEq, false_iff]
      intro h
      exact h 0 (Nat.zero_le _) (by simpa using hp)
    · simp only [strstr, if_neg hp, Option.map_eq_none_iff, ih]
      constructor
      · intro h j hj
        cases j with
        | zero => simpa using hp
        | succ j => simpa using h j (by simpa using hj)
      · intro h j hj
        simpa using h (j + 1) (by simpa using hj)

omit [DecidableEq α] in
theorem prefix_drop_take {needle hay : List α} {j t : Nat} (hj : j + needle.length ≤ t) :
    needle <+: (hay.take t).drop j ↔ needle <+: hay.drop j := by
  rw [List.drop_take, List.prefix_take_iff]
  exact and_iff_left (by omega)

theorem strstr_take {needle hay : List α} {i t : Nat} (h : strstr needle hay = some i)
    (ht : i + needle.length ≤ t) : strstr needle (hay.take t) = some i := by
  obtain ⟨hle, hpre, hfirst⟩ := strstr_eq_some.mp h
  refine strstr_eq_some.mpr ⟨by simp only [List.length_take]; omega,
    (prefix_drop_take ht).mpr hpre, ?_⟩
  intro j hj hp
  exact hfirst j hj ((prefix_drop_take (by omega)).mp hp)

theorem strstr_of_take {needle hay : List α} {i t : Nat}
    (h : strstr needle (hay.take t) = some i) : strstr needle hay = some i := by
  have hb := strstr_bound h
  obtain ⟨hle, hpre, hfirst⟩ := strstr_eq_some.mp h
  simp only [List.length_take] at hb hle
  refine strstr_eq_some.mpr ⟨by omega, (prefix_drop_take (by omega)).mp hpre, ?_⟩
  intro j hj hp
  exact hfirst j hj ((prefix_drop_take (by omega)).mpr hp)

theorem strstr_take_none {needle hay : List α} {t : Nat} (h : strstr needle hay = none) :
    strstr needle (hay.take t) = none := by
  cases ht : strstr needle (hay.take t) with
  | none => rfl
  | some i =>
    rw [strstr_of_take ht] at h
    cases h

theorem strstr_drop {needle hay : List α} {i c : Nat} (h : strstr needle hay = some i)
    (hc : c ≤ i) : strstr needle (hay.drop c) = some (i - c) := by
  obtain ⟨hle, hpre, hfirst⟩ := strstr_eq_some.mp h
  refine strstr_eq_some.mpr ⟨by simp only [List.length_drop]; omega, ?_, ?_⟩
  · rwa [List.drop_drop, Nat.add_sub_cancel' hc]
  · intro j hj
    rw [List.drop_drop]
    exact hfirst (c + j) (by omega)

theorem strstr_singleton {c : α} {s : List α} {i : Nat} (h : strstr [c] s = some i) :
    c ∉ s.take i ∧ s = s.take i ++ c :: s.drop (i + 1) := by
  obtain ⟨hle, ⟨rest, hrest⟩, hfirst⟩ := strstr_eq_some.mp h
  have htail : s.drop (i + 1) = rest := by
    rw [← List.drop_drop, ← hrest]
    rfl
  refine ⟨?_, ?_⟩
  · intro hmem
    obtain ⟨j, hj, hget⟩ := List.mem_iff_getElem.mp hmem
    simp only [List.length_take] at hj
    rw [List.getElem_take] at hget
    refine hfirst j (by omega) ?_
    rw [List.drop_eq_getElem_cons (by omega), hget]
    exact ⟨_, rfl⟩
  · calc s = s.take i ++ s.drop i := (List.take_append_drop i s).symm
      _ = s.take i ++ c :: s.drop (i + 1) := by rw [← hrest, htail, List.singleton_append]

theorem strstr_append_of_not_mem {c : α} {needle l : List α} (h : c ∉ l) (s : List α) :
    strstr (c :: needle) (l ++ s) = (strstr (c :: needle) s).map (· + l.length) := by
  induction l with
  | nil => simp
  | cons x l ih =>
    simp only [List.mem_cons, not_or] at h
    have hno : ¬ c :: needle <+: x :: (l ++ s) := fun hpre =>
      h.1 (List.cons_prefix_cons.mp hpre).1
    rw [List.cons_append, strstr, if_neg hno, ih h.2, Option.map_map]
    rfl

omit [DecidableEq α] in
theorem getElem_of_prefix_drop {needle hay : List α} {i k : Nat} (h : needle <+: hay.drop i)
    (hik : i ≤ k) (hk : k < i + needle.length) : ∃ x ∈ needle, hay[k]? = some x := by
  obtain ⟨rest, hrest⟩ := h
  have hlt : k - i < needle.length := by omega
  refine ⟨needle[k - i], List.getElem_mem hlt, ?_⟩
  have hget : (hay.drop i)[k - i]? = some needle[k - i] := by
    rw [← hrest, List.getElem?_append_left hlt, List.getElem?_eq_getElem hlt]
  rwa [List.getElem?_drop, Nat.add_sub_cancel' hik] at hget

omit [DecidableEq α] in
theorem occurrences_disjoint {a b hay : List α} {i j : Nat} (ha : a <+: hay.drop i)
    (hb : b <+: hay.drop j) (hdisj : ∀ x ∈ a, x ∉ b) (ha0 : 0 < a.length) (hb0 : 0 < b.length) :
    i + a.length ≤ j ∨ j + b.length ≤ i := by
  by_contra hcon
  have hlo : max i j < i + a.length ∧ max i j < j + b.length := by omega
  obtain ⟨x, hx, hgx⟩ := getElem_of_prefix_drop ha (le_max_left i j) hlo.1
  obtain ⟨y, hy, hgy⟩ := getElem_of_prefix_drop hb (le_max_right i j) hlo.2
  rw [hgx] at hgy
  exact hdisj x hx (Option.some.inj hgy ▸ hy)

theorem isSome_strstr {needle hay : List α} :
    (strstr needle hay).isSome = true ↔ needle <:+: hay := by
  induction hay with
  | nil =>
    by_cases hn : needle = [] <;> simp [strstr, hn]
  | cons b bs ih =>
    rw [List.infix_cons_iff, ← ih]
    by_cases hp : needle <+: b :: bs <;> simp [strstr, hp]

omit [DecidableEq α] in
theorem prefix_append_cons {d : α} {needle xs ys : List α} (hd : d ∉ needle) :
    needle <+: xs ++ d :: ys ↔ needle <+: xs := by
  constructor
  · intro h
    rcases Nat.lt_or_ge xs.length needle.length with hlt | hle
    · have hpre : xs ++ [d] <+: needle :=
        List.prefix_of_prefix_length_le ⟨ys, by simp⟩ h (by simpa using hlt)
      exact absurd (hpre.subset (by simp)) hd
    · exact List.prefix_of_prefix_length_le h (List.prefix_append xs _) hle
  · intro h
    exact h.trans (List.prefix_append xs _)

theorem strstr_skip {c : α} {needle front : List α} (hc : c ∉ needle)
    (hfront : ¬ needle <:+: front) (hay : List α) :
    strstr needle (front ++ c :: hay) = (strstr needle hay).map (· + (front.length + 1)) := by
  have hne : needle ≠ [] := fun hnil => hfront (hnil ▸ List.nil_infix)
  induction front with
  | nil =>
    have hpre : ¬ needle <+: c :: hay := fun hpre => by
      obtain ⟨a, needle, rfl⟩ := List.exists_cons_of_ne_nil hne
      exact hc ((List.cons_prefix_cons.mp hpre).1 ▸ List.mem_cons_self)
    rw [List.nil_append, strstr, if_neg hpre]
    rfl
  | cons a front ih =>
    have hpre : ¬ needle <+: a :: (front ++ c :: hay) := fun hpre =>
      hfront ((prefix_append_cons hc).mp hpre).isInfix
    rw [List.cons_append, strstr, if_neg hpre, ih fun h => hfront (h.trans (List.suffix_cons a front).isInfix),
      Option.map_map]
    rfl

omit [DecidableEq α] in
theorem infix_append_cons {d : α} {needle xs ys : List α} (hd : d ∉ needle) :
    needle <:+: xs ++ d :: ys ↔ needle <:+: xs ∨ needle <:+: ys := by
  induction xs with
  | nil =>
    have hpre := @prefix_append_cons α d needle [] ys hd
    simp only [List.nil_append, List.prefix_nil] at hpre
    rw [List.nil_append, List.infix_cons_iff, hpre, List.infix_nil]
  | cons x xs ih =>
    have hpre := @prefix_append_cons α d needle (x :: xs) ys hd
    simp only [List.cons_append] at hpre
    rw [List.cons_append, List.infix_cons_iff, hpre, ih, List.infix_cons_iff, or_assoc]

omit [DecidableEq α] in
theorem infix_replicate_append {d : α} {needle xs : List α} (hd : d ∉ needle) (hne : needle ≠ [])
    (n : Nat) : needle <:+: List.replicate n d ++ xs ↔ needle <:+: xs := by
  induction n with
  | zero => simp
  | succ n ih =>
    rw [List.replicate_succ, List.cons_append, ← List.nil_append (d :: _), infix_append_cons hd, ih,
      List.infix_nil, or_iff_right hne]

omit [DecidableEq α] in
theorem infix_append_replicate {d : α} {needle xs : List α} (hd : d ∉ needle) (hne : needle ≠ [])
    (n : Nat) : needle <:+: xs ++ List.replicate n d ↔ needle <:+: xs := by
  cases n with
  | zero => simp
  | succ n =>
    rw [List.replicate_succ, infix_append_cons hd, ← List.append_nil (List.replicate n d),
      infix_replicate_append hd hne, List.infix_nil, or_iff_left hne]

omit [DecidableEq α] in
theorem infix_intercalate {d : α} {needle : List α} (hd : d ∉ needle) (hne : needle ≠ [])
    (words : List (List α)) :
    needle <:+: List.intercalate [d] words ↔ ∃ word ∈ words, needle <:+: word := by
  induction words with
  | nil => simp [List.intercalate, hne]
  | cons word words ih =>
    cases words with
    | nil => simp [List.intercalate]
    | cons next words =>
      have hsplit : List.intercalate [d] (word :: next :: words) =
          word ++ d :: List.intercalate [d] (next :: words) := by simp [List.intercalate]
      rw [hsplit, infix_append_cons hd, ih]
      simp

end Search

theorem takeWhile_before {c : Byte} {a : List Byte} (ha : c ∉ a) (s : List Byte) :
    (a ++ c :: s).takeWhile (· ≠ c) = a := by
  rw [List.takeWhile_append_of_pos]
  · simp
  · intro x hx
    have hne : x ≠ c := fun h => ha (h ▸ hx)
    simpa using hne

theorem field_unique {c : Byte} {a b s t : List Byte} (ha : c ∉ a) (hb : c ∉ b)
    (h : a ++ c :: s = b ++ c :: t) : a = b ∧ s = t := by
  have hab : a = b := by
    rw [← takeWhile_before ha s, h, takeWhile_before hb t]
  subst hab
  exact ⟨rfl, (List.cons.inj (List.append_cancel_left h)).2⟩

def cstr (m : List Byte) : List Byte := m.takeWhile (· ≠ 0)

theorem cstr_append_nul (xs ys : List Byte) : cstr (xs ++ 0 :: ys) = cstr xs := by
  induction xs with
  | nil => simp [cstr]
  | cons x xs ih =>
    by_cases hx : x = 0
    · simp [cstr, hx]
    · simpa [cstr, hx] using ih

theorem cstr_take (xs : List Byte) (t : Nat) : cstr (xs.take t) = (cstr xs).take t := by
  induction xs generalizing t with
  | nil => simp [cstr]
  | cons x xs ih =>
    cases t with
    | zero => simp [cstr]
    | succ t =>
      by_cases hx : x = 0
      · simp [cstr, hx]
      · simpa [cstr, hx] using ih t

theorem cstr_of_nul_free {xs : List Byte} (h : (0 : Byte) ∉ xs) : cstr xs = xs := by
  simp only [cstr, List.takeWhile_eq_self_iff, decide_eq_true_eq]
  intro x hx hx0
  exact h (hx0 ▸ hx)

theorem nul_not_mem_cstr (m : List Byte) : (0 : Byte) ∉ cstr m := by
  intro h
  simpa using List.mem_takeWhile_imp h

theorem cstr_length_le (xs : List Byte) : (cstr xs).length ≤ xs.length :=
  (List.takeWhile_prefix _).length_le

def strncmp (a b : List Byte) : Nat → Int
  | 0 => 0
  | n + 1 =>
    let x := a.headD 0
    let y := b.headD 0
    if x ≠ y then (x.toNat : Int) - y.toNat
    else if x = 0 then 0
    else strncmp a.tail b.tail n

theorem cstr_eq_headD (a : List Byte) :
    cstr a = if a.headD 0 = 0 then [] else a.headD 0 :: cstr a.tail := by
  cases a with
  | nil => rfl
  | cons x a => by_cases hx : x = 0 <;> simp [cstr, hx]

theorem strncmp_eq_zero {a b : List Byte} {n : Nat} :
    strncmp a b n = 0 ↔ (cstr a).take n = (cstr b).take n := by
  induction n generalizing a b with
  | zero => simp [strncmp]
  | succ n ih =>
    rw [cstr_eq_headD a, cstr_eq_headD b, strncmp]
    generalize a.headD 0 = x
    generalize b.headD 0 = y
    by_cases hxy : x = y
    · subst hxy
      by_cases hx : x = 0
      · simp [hx]
      · simp [hx, ih]
    · have hne : (x.toNat : Int) - y.toNat ≠ 0 := by
        intro h0
        exact hxy (UInt8.toNat_inj.mp (by omega))
      simp only [ne_eq, hxy, not_false_eq_true, if_true, hne, false_iff]
      split_ifs with hx hy
      · exact absurd (hx.trans hy.symm) hxy
      · simp
      · simp
      · simp [hxy]

theorem strncmp_whole {needle s : List Byte} (h : (0 : Byte) ∉ needle) :
    strncmp s needle needle.length = 0 ↔ needle <+: s := by
  rw [strncmp_eq_zero, cstr_of_nul_free h, List.take_length]
  constructor
  · intro heq
    exact (List.prefix_iff_eq_take.mpr heq.symm).trans (List.takeWhile_prefix _)
  · rintro ⟨rest, rfl⟩
    rw [cstr, List.takeWhile_append_of_pos, List.take_left]
    intro c hc
    simp only [ne_eq, decide_not, Bool.not_eq_true', decide_eq_false_iff_not]
    rintro rfl
    exact h hc

theorem strncmp_append {a rest b : List Byte} {n : Nat} (hn : n ≤ a.length) :
    strncmp (a ++ rest) b n = strncmp a b n := by
  induction n generalizing a b with
  | zero => rfl
  | succ n ih =>
    cases a with
    | nil => cases hn
    | cons x a =>
      have htail := @ih a b.tail (Nat.le_of_succ_le_succ hn)
      simp [strncmp, htail]

def toLower (c : Byte) : Byte := if 65 ≤ c ∧ c ≤ 90 then c + 32 else c

def isSpace (b : Byte) : Bool := b == 32 || (9 ≤ b && b ≤ 13)
def isDigit (b : Byte) : Bool := 48 ≤ b && b ≤ 57

def digitsValue (ds : List Byte) : Nat := ds.foldl (fun n d => 10 * n + (d.toNat - 48)) 0

def strtolMagnitude (s : List Byte) : Nat := digitsValue (s.takeWhile isDigit)

def strtol (s : List Byte) : Int :=
  match s.dropWhile isSpace with
  | [] => 0
  | b :: rest =>
    if b = 45 then MachineInt.clampLong (-(strtolMagnitude rest : Int))
    else if b = 43 then MachineInt.clampLong (strtolMagnitude rest)
    else MachineInt.clampLong (strtolMagnitude (b :: rest))

def atoi (s : List Byte) : Int := MachineInt.toInt32 (strtol s)

theorem atoi_blank {s : List Byte} (h : ∀ b ∈ s, isSpace b = true) : atoi s = 0 := by
  have hd : s.dropWhile isSpace = [] := List.dropWhile_eq_nil_iff.mpr h
  simp [atoi, strtol, hd, MachineInt.toInt32]

theorem strtolMagnitude_append {u t : List Byte} (h : ∃ b ∈ u, isDigit b = false) :
    strtolMagnitude (u ++ t) = strtolMagnitude u := by
  simp only [strtolMagnitude]
  congr 1
  induction u with
  | nil => simp at h
  | cons x u ih =>
    by_cases hx : isDigit x = true
    · have h' : ∃ b ∈ u, isDigit b = false := by
        obtain ⟨b, hb, hbd⟩ := h
        rcases List.mem_cons.mp hb with rfl | hb
        · rw [hx] at hbd
          cases hbd
        · exact ⟨b, hb, hbd⟩
      simpa [hx] using ih h'
    · simp [hx]

theorem dropWhile_append_of_exists {s t : List Byte} (h : ∃ b ∈ s, isSpace b = false) :
    (s ++ t).dropWhile isSpace = s.dropWhile isSpace ++ t := by
  induction s with
  | nil => simp at h
  | cons x s ih =>
    by_cases hx : isSpace x = true
    · have h' : ∃ b ∈ s, isSpace b = false := by
        obtain ⟨b, hb, hbs⟩ := h
        rcases List.mem_cons.mp hb with rfl | hb
        · rw [hx] at hbs
          cases hbs
        · exact ⟨b, hb, hbs⟩
      simpa [hx] using ih h'
    · simp [hx]

theorem atoi_append {s t : List Byte} {e : Byte} (he : isSpace e = true)
    (h : ∃ b ∈ s, isSpace b = false) : atoi (s ++ [e] ++ t) = atoi (s ++ [e]) := by
  have hsp (u : List Byte) : (s ++ u).dropWhile isSpace = s.dropWhile isSpace ++ u :=
    dropWhile_append_of_exists h
  have hdig : isDigit e = false := by
    simp only [isSpace, isDigit, Bool.or_eq_true, Bool.and_eq_true, beq_iff_eq, decide_eq_true_eq,
      Bool.and_eq_false_iff, decide_eq_false_iff_not, UInt8.le_iff_toNat_le, ← UInt8.toNat_inj,
      UInt8.reduceToNat] at he ⊢
    omega
  have hmag (v : List Byte) : strtolMagnitude (v ++ e :: t) = strtolMagnitude (v ++ [e]) := by
    rw [← List.singleton_append, ← List.append_assoc]
    exact strtolMagnitude_append ⟨e, by simp, hdig⟩
  simp only [atoi, strtol, List.append_assoc, List.singleton_append, hsp]
  cases hd : s.dropWhile isSpace with
  | nil =>
    obtain ⟨b, hb, hbs⟩ := h
    rw [List.dropWhile_eq_nil_iff.mp hd b hb] at hbs
    cases hbs
  | cons b rest =>
    have hwhole := hmag (b :: rest)
    simp only [List.cons_append] at hwhole ⊢
    rw [hmag rest, hwhole]

structure IsNumeral (v : List Byte) (n : Nat) : Prop where
  nonempty : v ≠ []
  digits : ∀ b ∈ v, isDigit b = true
  value : digitsValue v = n

theorem takeWhile_numeral {v rest : List Byte} {n : Nat} (hv : IsNumeral v n)
    (hrest : ∀ b ∈ rest.head?, isDigit b = false) :
    (v ++ rest).takeWhile isDigit = v := by
  rw [List.takeWhile_append_of_pos hv.digits]
  cases rest with
  | nil => simp
  | cons b rest => simp [hrest b (by simp)]

theorem numeral_head {v : List Byte} {n : Nat} (hv : IsNumeral v n) :
    ∃ b w, v = b :: w ∧ isSpace b = false ∧ b ≠ 45 ∧ b ≠ 43 := by
  cases hvs : v with
  | nil => exact absurd hvs hv.nonempty
  | cons b w =>
    have hb : isDigit b = true := hv.digits b (by simp [hvs])
    refine ⟨b, w, rfl, ?_⟩
    simp only [isSpace, isDigit, Bool.or_eq_false_iff, Bool.and_eq_true, beq_eq_false_iff_ne,
      decide_eq_true_eq, Bool.and_eq_false_iff, decide_eq_false_iff_not,
      UInt8.le_iff_toNat_le, ne_eq, ← UInt8.toNat_inj, UInt8.reduceToNat] at hb ⊢
    omega

theorem strtolMagnitude_numeral {v rest : List Byte} {n : Nat} (hv : IsNumeral v n)
    (hrest : ∀ b ∈ rest.head?, isDigit b = false) : strtolMagnitude (v ++ rest) = n := by
  rw [strtolMagnitude, takeWhile_numeral hv hrest, hv.value]

theorem strtol_numeral {v rest : List Byte} {n : Nat} (hv : IsNumeral v n)
    (hrest : ∀ b ∈ rest.head?, isDigit b = false) :
    strtol (v ++ rest) = MachineInt.clampLong n := by
  have hmag := strtolMagnitude_numeral hv hrest
  obtain ⟨b, w, rfl, hspace, hminus, hplus⟩ := numeral_head hv
  simp only [List.cons_append] at hmag
  simp only [List.cons_append, strtol, List.dropWhile_cons, hspace, hminus, hplus, if_false,
    Bool.false_eq_true, hmag]

theorem atoi_numeral {v rest : List Byte} {n : Nat} (hv : IsNumeral v n)
    (hn : (n : Int) ≤ MachineInt.intMax) (hrest : ∀ b ∈ rest.head?, isDigit b = false) :
    atoi (v ++ rest) = n := by
  simp only [MachineInt.intMax] at hn
  have hclamp : MachineInt.clampLong (n : Int) = n :=
    MachineInt.clampLong_of_range (by simp only [MachineInt.longMin]; omega)
      (by simp only [MachineInt.longMax]; omega)
  rw [atoi, strtol_numeral hv hrest, hclamp]
  exact MachineInt.toInt32_of_range (by omega) (by simpa [MachineInt.intMax] using hn)

def digit (d : Nat) : Byte := UInt8.ofNat (48 + d)

theorem digit_toNat {d : Nat} (h : d < 10) : (digit d).toNat = 48 + d := by
  simp only [digit, UInt8.toNat_ofNat']
  omega

theorem isDigit_digit {d : Nat} (h : d < 10) : isDigit (digit d) = true := by
  simp only [isDigit, Bool.and_eq_true, decide_eq_true_eq, UInt8.le_iff_toNat_le,
    digit_toNat h, UInt8.reduceToNat]
  omega

def decimal (n : Nat) : List Byte :=
  if n < 10 then [digit n] else decimal (n / 10) ++ [digit (n % 10)]

theorem decimal_isNumeral (n : Nat) : IsNumeral (decimal n) n := by
  induction n using decimal.induct with
  | case1 n hn =>
    rw [decimal, if_pos hn]
    refine ⟨by simp, ?_, ?_⟩
    · intro b hb
      rw [List.mem_singleton.mp hb]
      exact isDigit_digit hn
    · simp [digitsValue, digit_toNat hn]
  | case2 n hn ih =>
    have hlt : n % 10 < 10 := Nat.mod_lt _ (by omega)
    rw [decimal, if_neg hn]
    refine ⟨by simp, ?_, ?_⟩
    · intro b hb
      rcases List.mem_append.mp hb with hb | hb
      · exact ih.digits b hb
      · rw [List.mem_singleton.mp hb]
        exact isDigit_digit hlt
    · have hv := ih.value
      simp only [digitsValue] at hv
      simp only [digitsValue, List.foldl_append, hv, List.foldl_cons, List.foldl_nil,
        digit_toNat hlt]
      omega

theorem decimal_length_le {n k : Nat} (hk : 0 < k) (h : n < 10 ^ k) :
    (decimal n).length ≤ k := by
  induction n using decimal.induct generalizing k with
  | case1 n hn =>
    rw [decimal, if_pos hn]
    exact hk
  | case2 n hn ih =>
    rw [decimal, if_neg hn]
    cases k with
    | zero => omega
    | succ k =>
      have hk' : 0 < k := by
        rcases Nat.eq_zero_or_pos k with rfl | hpos
        · simp at h
          omega
        · exact hpos
      have := ih hk' (by rw [Nat.pow_succ] at h; omega)
      simpa using this

end CString
