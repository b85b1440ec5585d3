import WolfCLU.Foundation.Chunks

namespace Base64

def symbol (i : Nat) : UInt8 :=
  if i < 26 then UInt8.ofNat (65 + i)
  else if i < 52 then UInt8.ofNat (71 + i)
  else if i < 62 then UInt8.ofNat (i - 4)
  else if i = 62 then 43
  else 47

def sextet (c : UInt8) : Option Nat :=
  let n := c.toNat
  if 65 ≤ n ∧ n ≤ 90 then some (n - 65)
  else if 97 ≤ n ∧ n ≤ 122 then some (n - 71)
  else if 48 ≤ n ∧ n ≤ 57 then some (n + 4)
  else if n = 43 then some 62
  else if n = 47 then some 63
  else none

def pad : UInt8 := 61

theorem sextet_symbol {i : Nat} (h : i < 64) : sextet (symbol i) = some i := by
  have hall : ∀ j : Fin 64, sextet (symbol j.val) = some j.val := by decide
  exact hall ⟨i, h⟩

theorem symbol_ne_pad {i : Nat} (h : i < 64) : symbol i ≠ pad := by
  have hall : ∀ j : Fin 64, symbol j.val ≠ pad := by decide
  exact hall ⟨i, h⟩

theorem symbol_ne {c : UInt8} (hall : ∀ j : Fin 64, symbol j.val ≠ c) (i : Nat) : symbol i ≠ c := by
  rcases Nat.lt_or_ge i 64 with h | h
  · exact hall ⟨i, h⟩
  · have hlast : symbol i = symbol 63 := by
      simp only [symbol]
      rw [if_neg (by omega), if_neg (by omega), if_neg (by omega), if_neg (by omega)]
      decide
    rw [hlast]
    exact hall ⟨63, by decide⟩

def encode : List UInt8 → List UInt8
  | [] => []
  | [a] => [symbol (a.toNat / 4), symbol (a.toNat % 4 * 16), pad, pad]
  | [a, b] =>
    [symbol (a.toNat / 4), symbol (a.toNat % 4 * 16 + b.toNat / 16), symbol (b.toNat % 16 * 4), pad]
  | a :: b :: c :: rest =>
    symbol (a.toNat / 4) :: symbol (a.toNat % 4 * 16 + b.toNat / 16) ::
      symbol (b.toNat % 16 * 4 + c.toNat / 64) :: symbol (c.toNat % 64) :: encode rest

def group (w x y z : UInt8) : Option (List UInt8) := do
  let i ← sextet w
  let j ← sextet x
  let a := UInt8.ofNat (i * 4 + j / 16)
  if y = pad then some [a]
  else
    let k ← sextet y
    let b := UInt8.ofNat (j % 16 * 16 + k / 4)
    if z = pad then some [a, b]
    else
      let l ← sextet z
      some [a, b, UInt8.ofNat (k % 4 * 64 + l)]

def decode : List UInt8 → Option (List UInt8)
  | [] => some []
  | w :: x :: y :: z :: rest => do
    let bytes ← group w x y z
    let more ← decode rest
    some (bytes ++ more)
  | _ => none

theorem ofNat_eq {a : UInt8} {n : Nat} (h : n = a.toNat) : UInt8.ofNat n = a := by
  rw [h, UInt8.ofNat_toNat]

theorem group_three (a b c : UInt8) :
    group (symbol (a.toNat / 4)) (symbol (a.toNat % 4 * 16 + b.toNat / 16))
      (symbol (b.toNat % 16 * 4 + c.toNat / 64)) (symbol (c.toNat % 64)) = some [a, b, c] := by
  have ha := a.toNat_lt
  have hb := b.toNat_lt
  have hc := c.toNat_lt
  simp only [group, sextet_symbol (show a.toNat / 4 < 64 by omega),
    sextet_symbol (show a.toNat % 4 * 16 + b.toNat / 16 < 64 by omega),
    sextet_symbol (show b.toNat % 16 * 4 + c.toNat / 64 < 64 by omega),
    sextet_symbol (show c.toNat % 64 < 64 by omega), Option.bind_eq_bind, Option.bind_some,
    symbol_ne_pad (show b.toNat % 16 * 4 + c.toNat / 64 < 64 by omega),
    symbol_ne_pad (show c.toNat % 64 < 64 by omega), if_false]
  rw [ofNat_eq (a := a) (by omega), ofNat_eq (a := b) (by omega), ofNat_eq (a := c) (by omega)]

theorem group_two (a b : UInt8) :
    group (symbol (a.toNat / 4)) (symbol (a.toNat % 4 * 16 + b.toNat / 16))
      (symbol (b.toNat % 16 * 4)) pad = some [a, b] := by
  have ha := a.toNat_lt
  have hb := b.toNat_lt
  simp only [group, sextet_symbol (show a.toNat / 4 < 64 by omega),
    sextet_symbol (show a.toNat % 4 * 16 + b.toNat / 16 < 64 by omega),
    sextet_symbol (show b.toNat % 16 * 4 < 64 by omega), Option.bind_eq_bind, Option.bind_some,
    symbol_ne_pad (show b.toNat % 16 * 4 < 64 by omega), if_false, if_true]
  rw [ofNat_eq (a := a) (by omega), ofNat_eq (a := b) (by omega)]

theorem group_one (a : UInt8) :
    group (symbol (a.toNat / 4)) (symbol (a.toNat % 4 * 16)) pad pad = some [a] := by
  have ha := a.toNat_lt
  simp only [group, sextet_symbol (show a.toNat / 4 < 64 by omega),
    sextet_symbol (show a.toNat % 4 * 16 < 64 by omega), Option.bind_eq_bind, Option.bind_some,
    if_true]
  rw [ofNat_eq (a := a) (by omega)]

theorem decode_encode (xs : List UInt8) : decode (encode xs) = some xs := by
  induction xs using encode.induct with
  | case1 => rfl
  | case2 a => simp [encode, decode, group_one]
  | case3 a b => simp [encode, decode, group_two]
  | case4 a b c rest ih => simp [encode, decode, group_three, ih]

theorem encode_avoids {c : UInt8} (hpad : c ≠ pad) (hall : ∀ j : Fin 64, symbol j.val ≠ c)
    (xs : List UInt8) : c ∉ encode xs := by
  have hsymbol (i : Nat) : c ≠ symbol i := (symbol_ne hall i).symm
  induction xs using encode.induct with
  | case1 => simp [encode]
  | case2 a => simp [encode, hpad, hsymbol]
  | case3 a b => simp [encode, hpad, hsymbol]
  | case4 a b c rest ih => simp [encode, hsymbol, ih]

theorem newline_not_mem_encode (xs : List UInt8) : (10 : UInt8) ∉ encode xs :=
  encode_avoids (by decide) (by decide) xs

theorem dash_not_mem_encode (xs : List UInt8) : (45 : UInt8) ∉ encode xs :=
  encode_avoids (by decide) (by decide) xs

theorem encode_length (xs : List UInt8) : (encode xs).length = 4 * ((xs.length + 2) / 3) := by
  induction xs using encode.induct with
  | case1 => rfl
  | case2 a => simp [encode]
  | case3 a b => simp [encode]
  | case4 a b c rest ih =>
    simp only [encode, List.length_cons, ih]
    omega

def lines (text : List UInt8) : List UInt8 := (Chunks.chunks 64 text).flatMap (· ++ [10])

theorem mem_lines {c : UInt8} {text : List UInt8} (h : c ∈ lines text) : c ∈ text ∨ c = 10 := by
  obtain ⟨line, hline, hc⟩ := List.mem_flatMap.mp h
  rcases List.mem_append.mp hc with hc | hc
  · left
    rw [← Chunks.flatten_chunks (show 0 < 64 by decide) text]
    exact List.mem_flatten_of_mem hline hc
  · exact Or.inr (List.mem_singleton.mp hc)

theorem filter_lines {text : List UInt8} (h : (10 : UInt8) ∉ text) :
    (lines text).filter (fun c => c ≠ 10) = text := by
  induction text using Chunks.chunks_induct (show 0 < 64 by decide) with
  | nil => rw [lines, Chunks.chunks_nil, List.flatMap_nil, List.filter_nil]
  | more text hne ih =>
    have hfront : (10 : UInt8) ∉ text.take 64 := fun hmem => h (List.mem_of_mem_take hmem)
    have hback : (10 : UInt8) ∉ text.drop 64 := fun hmem => h (List.mem_of_mem_drop hmem)
    have hkeep : (text.take 64).filter (fun c => c ≠ 10) = text.take 64 := by
      apply List.filter_eq_self.mpr
      intro c hc
      have hne : c ≠ 10 := by
        rintro rfl
        exact hfront hc
      exact decide_eq_true hne
    have hrest := ih hback
    rw [lines] at hrest
    rw [lines, Chunks.chunks_of_ne (by decide) hne, List.flatMap_cons, List.append_assoc,
      List.filter_append, hkeep, List.filter_append, hrest,
      show ([10] : List UInt8).filter (fun c => c ≠ 10) = [] by decide, List.nil_append,
      List.take_append_drop]

end Base64
