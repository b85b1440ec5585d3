import WolfCLU.X509.AltNames

namespace WolfCLU
open CString TextLine

def arcMax : Nat := 0xFFFF

def DottedNumbers (value : List Byte) (arcs : List Nat) : Prop :=
  List.Forall₂ (fun part arc => IsNumeral part arc ∧ arc ≤ arcMax) (strsep 46 value) arcs

section Decoder

def PartReadable (part : List Byte) : Prop :=
  part.all isDigit = true ∧ 0 ≤ atoi part ∧ atoi part ≤ 0xFFFF

def PartsReadable (maxArcs : Nat) (text : List Byte) : Prop :=
  (strtok 46 text).length ≤ maxArcs ∧ ∀ part ∈ strtok 46 text, PartReadable part

def readArcs (text : List Byte) : List Nat := (strtok 46 text).map fun part => (atoi part).toNat

theorem ridComponents_ok {lib : X509Lib} {tokens : List (List Byte)} {decoded arcs : List Nat}
    (hdecoded : decoded.length ≤ lib.oidDottedMaxSz) :
    ridComponents lib tokens decoded = .ok arcs ↔
      arcs = decoded ++ tokens.map (fun part => (atoi part).toNat) ∧
        decoded.length + tokens.length ≤ lib.oidDottedMaxSz ∧
        ∀ part ∈ tokens, PartReadable part := by
  induction tokens generalizing decoded with
  | nil => simp [ridComponents, hdecoded, eq_comm]
  | cons token tokens ih =>
    rw [ridComponents]
    simp only [List.length_cons, List.forall_mem_cons]
    by_cases hfull : decoded.length ≥ lib.oidDottedMaxSz
    · rw [if_pos hfull]
      refine iff_of_false (by simp) ?_
      rintro ⟨_, hcount, _⟩
      omega
    rw [if_neg hfull]
    by_cases hdigits : token.all isDigit = true
    · rw [if_neg (not_not.mpr hdigits)]
      by_cases hrange : atoi token < 0 ∨ atoi token > 0xFFFF
      · rw [if_pos hrange]
        refine iff_of_false (by simp) ?_
        rintro ⟨_, _, ⟨_, hlo, hhi⟩, _⟩
        omega
      · rw [if_neg hrange, ih (by simp only [List.length_append, List.length_singleton]; omega)]
        have hread : PartReadable token := ⟨hdigits, by omega, by omega⟩
        simp only [List.length_append, List.length_singleton, List.map_cons, List.append_assoc,
          List.singleton_append, and_iff_right hread, Nat.add_assoc, Nat.add_comm 1]
    · rw [if_pos hdigits]
      refine iff_of_false (by simp) ?_
      rintro ⟨_, _, hread, _⟩
      exact hdigits hread.1

theorem ridComponents_strtok {lib : X509Lib} {text : List Byte} {arcs : List Nat} :
    ridComponents lib (strtok 46 text) [] = .ok arcs ↔
      arcs = readArcs text ∧ PartsReadable lib.oidDottedMaxSz text := by
  rw [ridComponents_ok (Nat.zero_le _), List.nil_append, List.length_nil, Nat.zero_add]
  rfl

theorem partReadable_numeral {part : List Byte} (hne : part ≠ []) (h : PartReadable part)
    (hwrap : digitsValue part < 4294967296) :
    IsNumeral part (atoi part).toNat ∧ (atoi part).toNat ≤ arcMax := by
  obtain ⟨hdigits, hlo, hhi⟩ := h
  have hnum : IsNumeral part (digitsValue part) := ⟨hne, List.all_eq_true.mp hdigits, rfl⟩
  have hread := @strtol_numeral part [] _ hnum (by simp)
  rw [List.append_nil, MachineInt.clampLong_of_range (by simp only [MachineInt.longMin]; omega)
    (by simp only [MachineInt.longMax]; omega)] at hread
  have hatoi : atoi part = digitsValue part := by
    rw [atoi, hread] at hlo ⊢
    refine MachineInt.toInt32_of_range (by omega) ?_
    by_contra hbig
    have := MachineInt.toInt32_le_sub (not_le.mp hbig)
    omega
  rw [hatoi] at hhi
  refine ⟨⟨hne, hnum.digits, by rw [hatoi]; rfl⟩, ?_⟩
  rw [hatoi, arcMax]
  omega

theorem numeral_partReadable {part : List Byte} {arc : Nat} (h : IsNumeral part arc)
    (harc : arc ≤ arcMax) : PartReadable part ∧ atoi part = arc := by
  simp only [arcMax] at harc
  have hread := @atoi_numeral part [] arc h (by simp only [MachineInt.intMax]; omega) (by simp)
  rw [List.append_nil] at hread
  exact ⟨⟨List.all_eq_true.mpr h.digits, by omega, by omega⟩, hread⟩

theorem forall₂_functional {α β : Type} {R : α → β → Prop} {Q : α → Prop} {f : α → β}
    (h : ∀ a b, R a b ↔ Q a ∧ b = f a) (l : List α) (m : List β) :
    List.Forall₂ R l m ↔ (∀ a ∈ l, Q a) ∧ m = l.map f := by
  induction l generalizing m with
  | nil => simp
  | cons a l ih =>
    cases m with
    | nil => simp
    | cons b m =>
      rw [List.forall₂_cons, h, ih, List.forall_mem_cons, List.map_cons, List.cons.injEq]
      tauto

theorem dottedNumbers_iff {value : List Byte} {arcs : List Nat} :
    DottedNumbers value arcs ↔
      (∀ part ∈ strsep 46 value, part ≠ [] ∧ PartReadable part ∧ digitsValue part < 4294967296) ∧
        arcs = (strsep 46 value).map fun part => (atoi part).toNat := by
  refine forall₂_functional (fun part arc => ?_) _ _
  constructor
  · rintro ⟨hnum, harc⟩
    obtain ⟨hread, hatoi⟩ := numeral_partReadable hnum harc
    have hvalue := hnum.value
    simp only [arcMax] at harc
    exact ⟨⟨hnum.nonempty, hread, by omega⟩, by omega⟩
  · rintro ⟨⟨hne, hread, hwrap⟩, rfl⟩
    exact partReadable_numeral hne hread hwrap

end Decoder

section RegisteredId
variable (maxArcs : Nat) (env : CopyEnv) (value : List Byte)

def RidClaim : Prop :=
  ∀ (lib : X509Lib) (oid : List Byte), lib.oidDottedMaxSz = maxArcs → lib.txt2obj value = none →
    ridData lib env value = .ok oid →
    ∃ arcs, DottedNumbers value arcs ∧ lib.encodeObjectId arcs = some oid ∧
      ∃ ridDup, env.copy .rid value = some ridDup ∧
        ridComponents lib (strtok 46 ridDup) [] = .ok arcs

def CopyReadsSame (ridDup : List Byte) : Prop :=
  PartsReadable maxArcs value ∧ readArcs ridDup = readArcs value

variable {maxArcs env value}

theorem ridData_manual {lib : X509Lib} {oid : List Byte} (htxt : lib.txt2obj value = none) :
    ridData lib env value = .ok oid ↔ ∃ ridDup, env.copy .rid value = some ridDup ∧
      PartsReadable lib.oidDottedMaxSz ridDup ∧ lib.encodeObjectId (readArcs ridDup) = some oid := by
  simp only [ridData, htxt]
  cases env.copy .rid value with
  | none => simp
  | some ridDup =>
    simp only [Option.some.injEq, exists_eq_left', bind_eq_ok, ridComponents_strtok]
    constructor
    · rintro ⟨arcs, ⟨rfl, hread⟩, henc⟩
      refine ⟨hread, ?_⟩
      cases hoid : lib.encodeObjectId (readArcs ridDup) with
      | none => simp [hoid] at henc
      | some oid' => simpa [hoid] using henc
    · rintro ⟨hread, henc⟩
      exact ⟨_, ⟨rfl, hread⟩, by simp [henc]⟩

theorem ridData_exact :
    RidClaim maxArcs env value ↔ ∀ ridDup, env.copy .rid value = some ridDup →
      PartsReadable maxArcs ridDup →
      CopyReadsSame maxArcs value ridDup ∧
        ∀ part ∈ strsep 46 value, part ≠ [] ∧ digitsValue part < 4294967296 := by
  constructor
  · intro h ridDup hcopy hread
    let lib : X509Lib :=
      { plainLib with encodeObjectId := fun _ => some [], oidDottedMaxSz := maxArcs }
    obtain ⟨arcs, hdotted, -, ridDup', hcopy', hcomponents⟩ :=
      h lib [] rfl rfl ((ridData_manual rfl).mpr ⟨ridDup, hcopy, hread, rfl⟩)
    rw [hcopy, Option.some.injEq] at hcopy'
    subst hcopy'
    obtain ⟨harcs, -⟩ := ridComponents_strtok.mp hcomponents
    obtain ⟨hparts, hlisted⟩ := dottedNumbers_iff.mp hdotted
    have htokens := strtok_eq_strsep fun part hpart => (hparts part hpart).1
    have hsame : readArcs ridDup = readArcs value := by rw [← harcs, hlisted, readArcs, htokens]
    have hlen := congrArg List.length hsame
    simp only [readArcs, List.length_map] at hlen
    refine ⟨⟨⟨hlen ▸ hread.1, fun part hpart => ?_⟩, hsame⟩, fun part hpart =>
      ⟨(hparts part hpart).1, (hparts part hpart).2.2⟩⟩
    rw [htokens] at hpart
    exact (hparts part hpart).2.1
  · rintro h lib oid rfl htxt hoid
    obtain ⟨ridDup, hcopy, hread, henc⟩ := (ridData_manual htxt).mp hoid
    obtain ⟨⟨hvalue, hsame⟩, hparts⟩ := h ridDup hcopy hread
    have htokens := strtok_eq_strsep fun part hpart => (hparts part hpart).1
    refine ⟨readArcs ridDup, dottedNumbers_iff.mpr ⟨fun part hpart => ?_, ?_⟩, henc, ridDup, hcopy,
      ridComponents_strtok.mpr ⟨rfl, hread⟩⟩
    · exact ⟨(hparts part hpart).1, hvalue.2 part (htokens ▸ hpart), (hparts part hpart).2⟩
    · rw [hsame, readArcs, htokens]

theorem copyReadsSame_of_copies {ridDup : List Byte} (h : env.Copies .rid value)
    (hnul : (0 : Byte) ∉ value) (hcopy : env.copy .rid value = some ridDup)
    (hread : PartsReadable maxArcs ridDup) : CopyReadsSame maxArcs value ridDup := by
  rw [h.copy hnul, Option.some.injEq] at hcopy
  subst hcopy
  exact ⟨hread, rfl⟩

end RegisteredId

def arcLib : X509Lib :=
  { plainLib with encodeObjectId := fun arcs => some (arcs.map UInt8.ofNat) }

theorem ridData_empty_part :
    ridData arcLib ⟨fun _ _ => true, fun _ => []⟩ (str "3..5") = .ok [3, 5] ∧
      ridData arcLib ⟨fun _ _ => true, fun _ => []⟩ (str "3.4294967301") = .ok [3, 5] ∧
      ¬ RidClaim 32 ⟨fun _ _ => true, fun _ => []⟩ (str "3..5") ∧
      ¬ RidClaim 32 ⟨fun _ _ => true, fun _ => []⟩ (str "3.4294967301") := by
  have hempty : ridData arcLib ⟨fun _ _ => true, fun _ => []⟩ (str "3..5") = .ok [3, 5] := by
    decide
  have hwrap : ridData arcLib ⟨fun _ _ => true, fun _ => []⟩ (str "3.4294967301") = .ok [3, 5] := by
    decide
  refine ⟨hempty, hwrap, ?_, ?_⟩
  · intro h
    obtain ⟨arcs, hdotted, _⟩ := h arcLib [3, 5] rfl rfl hempty
    have hparts := (dottedNumbers_iff.mp hdotted).1 [] (by decide)
    exact hparts.1 rfl
  · intro h
    obtain ⟨arcs, hdotted, _⟩ := h arcLib [3, 5] rfl rfl hwrap
    have hparts := (dottedNumbers_iff.mp hdotted).1 (str "4294967301") (by decide)
    exact absurd hparts.2.2 (by decide)

end WolfCLU
