import Mathlib.Data.Nat.Bitwise
import WolfCLU.ErrorCodes
import WolfCLU.X509.Name

namespace WolfCLU
open CString

inductive PolicyField where
  | country
  | state
  | locality
  | organization
  | unit
  | common
  | email
  deriving DecidableEq, Repr

namespace PolicyField

def nid : PolicyField → Nid
  | country => .countryName
  | state => .stateOrProvinceName
  | locality => .localityName
  | organization => .organizationName
  | unit => .organizationalUnitName
  | common => .commonName
  | email => .emailAddress

def key : PolicyField → List Byte
  | country => str "countryName"
  | state => str "stateOrProvinceName"
  | locality => str "localityName"
  | organization => str "organizationName"
  | unit => str "organizationalUnitName"
  | common => str "commonName"
  | email => str "emailAddress"

def matchMask : PolicyField → Nat
  | country => 0x00000001
  | state => 0x00000004
  | locality => 0x00000010
  | organization => 0x00000040
  | unit => 0x00000100
  | common => 0x00000400
  | email => 0x00001000

def suppliedMask : PolicyField → Nat
  | country => 0x00000002
  | state => 0x00000008
  | locality => 0x00000020
  | organization => 0x00000080
  | unit => 0x00000200
  | common => 0x00000800
  | email => 0x00002000

def checked : List PolicyField :=
  [country, state, locality, organization, unit, common, email]

def parsed : List PolicyField :=
  [country, state, locality, organization, unit, email, common]

end PolicyField

def checkPolicy (lib : TextByNid) (alloc : Bool) (issuer subject : X509Name) (nid : Nid)
    (supplied mustMatch : Nat) : Int :=
  let currentSz := lib.size subject nid
  if currentSz ≤ 0 ∧ (supplied ≠ 0 ∨ mustMatch ≠ 0) then wolfcluFailure
  else if mustMatch ≠ 0 ∧ currentSz > 0 then
    let expectedSz := lib.size issuer nid
    if expectedSz ≠ currentSz then wolfcluFailure
    else if ¬ alloc then wolfcluFailure
    else
      let current := lib.text subject nid currentSz.toNat
      if current.1 ≤ 0 then wolfcluFailure
      else
        let expected := lib.text issuer nid expectedSz.toNat
        if expected.1 ≤ 0 then wolfcluFailure
        else if strncmp expected.2 current.2 currentSz.toNat ≠ 0 then wolfcluFailure
        else wolfcluSuccess
  else wolfcluSuccess

def checkPolicyFields (lib : TextByNid) (alloc : PolicyField → Bool) (policy : Nat)
    (issuer subject : X509Name) : List PolicyField → Int
  | [] => wolfcluSuccess
  | f :: fs =>
    let ret := checkPolicy lib (alloc f) issuer subject f.nid (policy &&& f.suppliedMask)
      (policy &&& f.matchMask)
    if ret = wolfcluSuccess then checkPolicyFields lib alloc policy issuer subject fs else ret

def checkPolicyConstraints (lib : TextByNid) (alloc : PolicyField → Bool) (policy : Nat)
    (issuer subject : X509Name) : Int :=
  if policy > 0 then checkPolicyFields lib alloc policy issuer subject PolicyField.checked
  else wolfcluSuccess

def setPolicy (ret : Nat) (value : Option (List Byte)) (matchMask suppliedMask : Nat) : Nat :=
  match value with
  | none => ret
  | some s =>
    if strncmp s (str "match") (str "match").length = 0 then ret ||| matchMask
    else if strncmp s (str "supplied") (str "supplied").length = 0 then ret ||| suppliedMask
    else ret

abbrev Conf := List Byte → List Byte → Option (List Byte)

def parsePolicy (conf : Conf) (sect : List Byte) : Nat :=
  PolicyField.parsed.foldl
    (fun mask f => setPolicy mask (conf sect f.key) f.matchMask f.suppliedMask) 0

namespace Policy

inductive Setting where
  | mustMatch
  | supplied
  | optional
  deriving DecidableEq, Repr

def setting (value : Option (List Byte)) : Setting :=
  match value with
  | none => .optional
  | some s =>
    if str "match" <+: cstr s then .mustMatch
    else if str "supplied" <+: cstr s then .supplied
    else .optional

theorem strncmp_word {s w : List Byte} (hw : (0 : Byte) ∉ w) :
    strncmp s w w.length = 0 ↔ w <+: cstr s := by
  rw [strncmp_eq_zero, cstr_of_nul_free hw, List.take_length]
  constructor
  · intro h
    rw [← h]
    exact List.take_prefix _ _
  · intro h
    exact (List.prefix_iff_eq_take.mp h).symm

def contribution (f : PolicyField) : Setting → Nat
  | .mustMatch => f.matchMask
  | .supplied => f.suppliedMask
  | .optional => 0

theorem setPolicy_eq (ret : Nat) (value : Option (List Byte)) (f : PolicyField) :
    setPolicy ret value f.matchMask f.suppliedMask = ret ||| contribution f (setting value) := by
  cases value with
  | none => simp [setPolicy, setting, contribution]
  | some s =>
    simp only [setPolicy, setting, strncmp_word (by decide : (0 : Byte) ∉ str "match"),
      strncmp_word (by decide : (0 : Byte) ∉ str "supplied")]
    split_ifs <;> simp [contribution]

def matchBit : PolicyField → Nat
  | .country => 0
  | .state => 2
  | .locality => 4
  | .organization => 6
  | .unit => 8
  | .common => 10
  | .email => 12

theorem matchMask_eq (f : PolicyField) : f.matchMask = 2 ^ matchBit f := by cases f <;> rfl

theorem suppliedMask_eq (f : PolicyField) : f.suppliedMask = 2 ^ (matchBit f + 1) := by
  cases f <;> rfl

theorem contribution_matchBit (f g : PolicyField) (s : Setting) :
    (contribution f s).testBit (matchBit g) = true ↔ f = g ∧ s = .mustMatch := by
  cases f <;> cases g <;> cases s <;> decide

theorem contribution_suppliedBit (f g : PolicyField) (s : Setting) :
    (contribution f s).testBit (matchBit g + 1) = true ↔ f = g ∧ s = .supplied := by
  cases f <;> cases g <;> cases s <;> decide

theorem and_two_pow_ne_zero (n k : Nat) : n &&& 2 ^ k ≠ 0 ↔ n.testBit k = true := by
  rw [Nat.and_two_pow]
  cases n.testBit k <;> simp

theorem foldl_testBit (conf : Conf) (sect : List Byte) (k : Nat) (fs : List PolicyField)
    (mask : Nat) :
    (fs.foldl (fun mask f => setPolicy mask (conf sect f.key) f.matchMask f.suppliedMask)
      mask).testBit k = true ↔
      mask.testBit k = true ∨
        ∃ f ∈ fs, (contribution f (setting (conf sect f.key))).testBit k = true := by
  induction fs generalizing mask with
  | nil => simp
  | cons f fs ih =>
    rw [List.foldl_cons, ih, setPolicy_eq, Nat.testBit_or, Bool.or_eq_true]
    simp only [List.mem_cons, exists_eq_or_imp, or_assoc]

theorem mem_parsed (f : PolicyField) : f ∈ PolicyField.parsed := by cases f <;> decide

theorem mem_checked (f : PolicyField) : f ∈ PolicyField.checked := by cases f <;> decide

theorem parsePolicy_match (conf : Conf) (sect : List Byte) (f : PolicyField) :
    parsePolicy conf sect &&& f.matchMask ≠ 0 ↔ setting (conf sect f.key) = .mustMatch := by
  rw [matchMask_eq, and_two_pow_ne_zero, parsePolicy, foldl_testBit]
  simp only [Nat.zero_testBit, Bool.false_eq_true, contribution_matchBit, false_or]
  constructor
  · rintro ⟨g, _, rfl, hs⟩
    exact hs
  · intro hs
    exact ⟨f, mem_parsed f, rfl, hs⟩

theorem parsePolicy_supplied (conf : Conf) (sect : List Byte) (f : PolicyField) :
    parsePolicy conf sect &&& f.suppliedMask ≠ 0 ↔ setting (conf sect f.key) = .supplied := by
  rw [suppliedMask_eq, and_two_pow_ne_zero, parsePolicy, foldl_testBit]
  simp only [Nat.zero_testBit, Bool.false_eq_true, contribution_suppliedBit, false_or]
  constructor
  · rintro ⟨g, _, rfl, hs⟩
    exact hs
  · intro hs
    exact ⟨f, mem_parsed f, rfl, hs⟩

def Present (name : X509Name) (nid : Nid) : Prop := ∃ v, valueOf name nid = some v ∧ v ≠ []

theorem size_pos_iff (lib : TextByNid) (name : X509Name) (nid : Nid) :
    0 < lib.size name nid ↔ Present name nid := by
  cases hv : valueOf name nid with
  | none =>
    have := lib.size_absent hv
    simp only [Present, hv, reduceCtorEq, false_and, exists_false, iff_false]
    omega
  | some v =>
    rw [lib.size_present hv]
    simp only [Present, hv, Option.some.injEq, exists_eq_left', Nat.cast_pos, List.length_pos_iff]

structure AgreeBeforeLast (v w : List Byte) : Prop where
  length : v.length = w.length
  several : 2 ≤ v.length
  prefixes : cstr v.dropLast = cstr w.dropLast

def Compared (alloc : Bool) (issuer subject : X509Name) (nid : Nid) : Prop :=
  alloc = true ∧ ∃ v w, valueOf subject nid = some v ∧ valueOf issuer nid = some w ∧
    AgreeBeforeLast v w

theorem strncmp_copied {v w : List Byte} (h : v.length = w.length) :
    strncmp (w.take (v.length - 1) ++ [0]) (v.take (v.length - 1) ++ [0]) v.length = 0 ↔
      cstr v.dropLast = cstr w.dropLast := by
  have hlen (u : List Byte) (hu : u.length = v.length) : (cstr u.dropLast).length ≤ v.length := by
    have := cstr_length_le u.dropLast
    rw [List.length_dropLast] at this
    omega
  have hw : w.take (v.length - 1) = w.dropLast := by rw [h, List.dropLast_eq_take]
  rw [hw, ← List.dropLast_eq_take, strncmp_eq_zero, cstr_append_nul, cstr_append_nul,
    List.take_of_length_le (hlen w h.symm), List.take_of_length_le (hlen v rfl)]
  exact eq_comm

theorem checkPolicy_compares (lib : TextByNid) (alloc : Bool) {issuer subject : X509Name}
    {nid : Nid} {v : List Byte} (hv : valueOf subject nid = some v) (hne : v ≠ []) (supplied : Nat)
    {mustMatch : Nat} (hm : mustMatch ≠ 0) :
    checkPolicy lib alloc issuer subject nid supplied mustMatch = wolfcluSuccess ↔
      Compared alloc issuer subject nid := by
  have hfail : ¬ wolfcluFailure = wolfcluSuccess := by decide
  have hpos : 0 < v.length := List.length_pos_iff.mpr hne
  have hcur : ¬ ((v.length : Int) ≤ 0 ∧ (supplied ≠ 0 ∨ mustMatch ≠ 0)) := by omega
  have hcmp : mustMatch ≠ 0 ∧ (v.length : Int) > 0 := ⟨hm, by omega⟩
  simp only [checkPolicy, lib.size_present hv, if_neg hcur, if_pos hcmp, Int.toNat_natCast]
  cases hw : valueOf issuer nid with
  | none =>
    have hsz := lib.size_absent hw
    rw [if_pos (by omega : lib.size issuer nid ≠ v.length)]
    simp only [hfail, Compared, hw, reduceCtorEq, false_and, and_false, exists_false]
  | some w =>
    simp only [lib.size_present hw, lib.text_present hv hpos, Int.toNat_natCast]
    by_cases hlen : v.length = w.length
    · have hwpos : 0 < w.length := hlen ▸ hpos
      rw [if_neg (by omega), lib.text_present hw hwpos, ← hlen]
      simp only [strncmp_copied hlen, ne_eq, List.length_take, Compared, hv, hw, Option.some.injEq,
        exists_and_left, exists_eq_left']
      cases alloc with
      | false => simp [hfail]
      | true =>
        by_cases hone : v.length = 1
        · rw [if_neg (by simp), if_pos (by omega)]
          simp only [hfail, true_and, false_iff]
          intro h
          have := h.several
          omega
        · rw [if_neg (by simp), if_neg (by omega), if_neg (by omega)]
          simp only [true_and]
          constructor
          · intro h
            split_ifs at h with hpre
            · exact ⟨hlen, by omega, hpre⟩
            · exact absurd h hfail
          · intro h
            rw [if_neg (not_not.mpr h.prefixes)]
    · rw [if_pos (by omega)]
      simp only [hfail, Compared, hv, hw, Option.some.injEq, exists_and_left, exists_eq_left',
        false_iff, not_and]
      intro _ h
      exact hlen h.length

theorem checkPolicy_iff (lib : TextByNid) (alloc : Bool) (issuer subject : X509Name) (nid : Nid)
    (supplied mustMatch : Nat) :
    checkPolicy lib alloc issuer subject nid supplied mustMatch = wolfcluSuccess ↔
      (supplied ≠ 0 ∨ mustMatch ≠ 0 → Present subject nid) ∧
        (mustMatch ≠ 0 → Compared alloc issuer subject nid) := by
  have hfail : ¬ wolfcluFailure = wolfcluSuccess := by decide
  by_cases hpres : Present subject nid
  · by_cases hm : mustMatch ≠ 0
    · obtain ⟨v, hv, hne⟩ := hpres
      rw [checkPolicy_compares lib alloc hv hne supplied hm]
      constructor
      · intro h
        exact ⟨fun _ => ⟨v, hv, hne⟩, fun _ => h⟩
      · intro h
        exact h.2 hm
    · have hpos := (size_pos_iff lib subject nid).mpr hpres
      have hcur : ¬ (lib.size subject nid ≤ 0 ∧ (supplied ≠ 0 ∨ mustMatch ≠ 0)) := by omega
      have hskip : ¬ (mustMatch ≠ 0 ∧ lib.size subject nid > 0) := fun h => hm h.1
      simp only [checkPolicy, if_neg hcur, if_neg hskip, true_iff]
      exact ⟨fun _ => hpres, fun h => absurd h hm⟩
  · have hpos : lib.size subject nid ≤ 0 := by
      rw [← size_pos_iff lib subject nid] at hpres
      omega
    by_cases hreq : supplied ≠ 0 ∨ mustMatch ≠ 0
    · simp only [checkPolicy, if_pos (And.intro hpos hreq), hfail, false_iff, not_and]
      intro h
      exact absurd (h hreq) hpres
    · have hskip : ¬ (mustMatch ≠ 0 ∧ lib.size subject nid > 0) := fun h => hreq (Or.inr h.1)
      simp only [checkPolicy, if_neg (fun h => hreq h.2 : ¬ (lib.size subject nid ≤ 0 ∧ _)),
        if_neg hskip, true_iff]
      exact ⟨fun h => absurd h hreq, fun h => absurd (Or.inr h) hreq⟩

theorem checkPolicyFields_iff (lib : TextByNid) (alloc : PolicyField → Bool) (policy : Nat)
    (issuer subject : X509Name) (fs : List PolicyField) :
    checkPolicyFields lib alloc policy issuer subject fs = wolfcluSuccess ↔
      ∀ f ∈ fs, checkPolicy lib (alloc f) issuer subject f.nid (policy &&& f.suppliedMask)
        (policy &&& f.matchMask) = wolfcluSuccess := by
  induction fs with
  | nil => simp [checkPolicyFields]
  | cons f fs ih =>
    simp only [checkPolicyFields, List.mem_cons, forall_eq_or_imp]
    split_ifs with h
    · rw [ih]
      exact (and_iff_right h).symm
    · exact ⟨fun h' => absurd h' h, fun h' => absurd h'.1 h⟩

def fieldSetting (conf : Conf) (sect : List Byte) (f : PolicyField) : Setting :=
  setting (conf sect f.key)

def SuppliedPresent (conf : Conf) (sect : List Byte) (subject : X509Name) : Prop :=
  ∀ f, fieldSetting conf sect f ≠ .optional → Present subject f.nid

def PolicyMet (conf : Conf) (sect : List Byte) (issuer subject : X509Name) : Prop :=
  SuppliedPresent conf sect subject ∧
    ∀ f, fieldSetting conf sect f = .mustMatch →
      valueOf subject f.nid = valueOf issuer f.nid

theorem checkPolicyConstraints_iff (lib : TextByNid) (alloc : PolicyField → Bool) (conf : Conf)
    (sect : List Byte) (issuer subject : X509Name) :
    checkPolicyConstraints lib alloc (parsePolicy conf sect) issuer subject = wolfcluSuccess ↔
      SuppliedPresent conf sect subject ∧
        ∀ f, fieldSetting conf sect f = .mustMatch →
          Compared (alloc f) issuer subject f.nid := by
  have hsetting (f : PolicyField) :
      (parsePolicy conf sect &&& f.suppliedMask ≠ 0 ∨ parsePolicy conf sect &&& f.matchMask ≠ 0) ↔
        fieldSetting conf sect f ≠ .optional := by
    rw [parsePolicy_supplied, parsePolicy_match, fieldSetting]
    cases setting (conf sect f.key) <;> simp
  have hfields : checkPolicyFields lib alloc (parsePolicy conf sect) issuer subject
      PolicyField.checked = wolfcluSuccess ↔ SuppliedPresent conf sect subject ∧
        ∀ f, fieldSetting conf sect f = .mustMatch →
          Compared (alloc f) issuer subject f.nid := by
    rw [checkPolicyFields_iff]
    constructor
    · intro h
      have hf (f : PolicyField) := (checkPolicy_iff ..).mp (h f (mem_checked f))
      refine ⟨fun f hset => (hf f).1 ((hsetting f).mpr hset), fun f hset => (hf f).2 ?_⟩
      exact (parsePolicy_match conf sect f).mpr hset
    · rintro ⟨hpres, hcmp⟩ f _
      refine (checkPolicy_iff ..).mpr ⟨fun hset => hpres f ((hsetting f).mp hset), fun hset => ?_⟩
      exact hcmp f ((parsePolicy_match conf sect f).mp hset)
  rw [checkPolicyConstraints]
  split_ifs with hpolicy
  · exact hfields
  · have hzero : parsePolicy conf sect = 0 := by omega
    have hnone (f : PolicyField) : fieldSetting conf sect f = .optional := by
      by_contra hset
      have h := (hsetting f).mpr hset
      simp [hzero] at h
    simp only [true_iff]
    refine ⟨fun f hf => absurd (hnone f) hf, fun f hf => ?_⟩
    rw [hnone f] at hf
    cases hf

def MatchUnreadable (alloc : PolicyField → Bool) (conf : Conf) (sect : List Byte)
    (issuer subject : X509Name) : Prop :=
  PolicyMet conf sect issuer subject ∧
    ∃ f, fieldSetting conf sect f = .mustMatch ∧
      (alloc f = false ∨ ∃ b, valueOf subject f.nid = some [b])

def DifferenceUnseen (alloc : PolicyField → Bool) (conf : Conf) (sect : List Byte)
    (issuer subject : X509Name) : Prop :=
  SuppliedPresent conf sect subject ∧
    (∀ f, fieldSetting conf sect f = .mustMatch → Compared (alloc f) issuer subject f.nid) ∧
    ∃ f, fieldSetting conf sect f = .mustMatch ∧
      valueOf subject f.nid ≠ valueOf issuer f.nid

theorem compared_of_met {alloc : PolicyField → Bool} {conf : Conf} {sect : List Byte}
    {issuer subject : X509Name} (hmet : PolicyMet conf sect issuer subject) {f : PolicyField}
    (hf : fieldSetting conf sect f = .mustMatch) :
    Compared (alloc f) issuer subject f.nid ↔
      ¬ (alloc f = false ∨ ∃ b, valueOf subject f.nid = some [b]) := by
  obtain ⟨v, hv, hne⟩ := hmet.1 f (by rw [hf]; decide)
  have hw : valueOf issuer f.nid = some v := by rw [← hmet.2 f hf, hv]
  simp only [Compared, hv, hw, Option.some.injEq, exists_and_left, exists_eq_left', not_or,
    Bool.not_eq_false]
  refine and_congr_right fun _ => ?_
  constructor
  · rintro hagree ⟨b, rfl⟩
    have := hagree.several
    simp at this
  · intro hmany
    refine ⟨rfl, ?_, rfl⟩
    have hpos := List.length_pos_iff.mpr hne
    have hone : v.length ≠ 1 := fun h => hmany (List.length_eq_one_iff.mp h)
    omega

theorem checkPolicyConstraints_exact_iff (lib : TextByNid) (alloc : PolicyField → Bool)
    (conf : Conf) (sect : List Byte) (issuer subject : X509Name) :
    (checkPolicyConstraints lib alloc (parsePolicy conf sect) issuer subject = wolfcluSuccess ↔
        PolicyMet conf sect issuer subject) ↔
      ¬ MatchUnreadable alloc conf sect issuer subject ∧
        ¬ DifferenceUnseen alloc conf sect issuer subject := by
  rw [checkPolicyConstraints_iff]
  constructor
  · intro h
    refine ⟨?_, ?_⟩
    · rintro ⟨hmet, f, hf, hbad⟩
      exact (compared_of_met hmet hf).mp ((h.mpr hmet).2 f hf) hbad
    · rintro ⟨hpres, hcmp, f, hf, hdiff⟩
      exact hdiff ((h.mp ⟨hpres, hcmp⟩).2 f hf)
  · rintro ⟨hread, hseen⟩
    constructor
    · rintro ⟨hpres, hcmp⟩
      refine ⟨hpres, fun f hf => ?_⟩
      by_contra hdiff
      exact hseen ⟨hpres, hcmp, f, hf, hdiff⟩
    · intro hmet
      refine ⟨hmet.1, fun f hf => (compared_of_met hmet hf).mpr fun hbad => ?_⟩
      exact hread ⟨hmet, f, hf, hbad⟩

def organizationConf : Conf := fun _ key =>
  if key = str "organizationName" then some (str "match") else some (str "optional")

theorem organization_lastByte_accepted :
    ¬ ∀ (conf : Conf) (sect : List Byte) (issuer subject : X509Name),
      checkPolicyConstraints getTextByNid (fun _ => true) (parsePolicy conf sect) issuer subject
          = wolfcluSuccess ↔ PolicyMet conf sect issuer subject := by
  intro h
  have hmet := (h organizationConf (str "policy_any") [⟨.organizationName, str "Org A"⟩]
    [⟨.organizationName, str "Org B"⟩]).mp (by decide)
  have heq := hmet.2 .organization (by decide)
  revert heq
  decide

end Policy

end WolfCLU
