import WolfCLU.SignVerify.Verify

namespace WolfCLU
open CString

structure Loads (lo hi : Int) (f : VerifyFile) : Prop where
  opens : f.opens = true
  low : lo ≤ f.size
  high : f.size ≤ hi
  alloc : f.alloc = true
  seekSet : f.seekSet = true
  reads : f.reads = true

def Complete (f : VerifyFile) : Prop := f.seekEnd = true ∨ f.contents = []

def VerifyFile.loaded (f : VerifyFile) : List Byte := f.contents.take f.size.toNat

theorem fatal_negative : wolfcluFatalError < 0 := by decide
theorem memory_negative : memoryE < 0 := by decide
theorem badFuncArg_negative : badFuncArg < 0 := by decide

section Load
variable {f : VerifyFile} {lo hi openErr sizeErr : Int}

theorem loadFile_ok_iff {buf : List Byte} :
    loadFile openErr sizeErr lo hi f = .ok buf ↔ Loads lo hi f ∧ buf = f.loaded := by
  constructor
  · intro h
    simp only [loadFile] at h
    split_ifs at h with hopens hlow hhigh halloc hread
    cases h
    simp only [not_lt] at hopens hlow hhigh halloc hread
    exact ⟨⟨hopens, hlow, hhigh, halloc, hread.1, hread.2⟩, rfl⟩
  · rintro ⟨h, rfl⟩
    have hlow : ¬ f.size < lo := not_lt.mpr h.low
    have hhigh : ¬ f.size > hi := not_lt.mpr h.high
    simp [loadFile, h.opens, hlow, hhigh, h.alloc, h.seekSet, h.reads, VerifyFile.loaded]

theorem loadFile_negative (hopen : openErr < 0) (hsize : sizeErr < 0) :
    Errors (· < 0) (loadFile openErr sizeErr lo hi f) := by
  simp only [loadFile]
  split_ifs <;> first | exact errors_ok _ | exact errors_error hopen | exact errors_error hsize |
    exact errors_error fatal_negative | exact errors_error memory_negative

theorem Loads.tells (h : Loads lo hi f) (hlo : 0 ≤ lo) : f.tells = true := by
  have hlow := h.low
  by_contra htells
  simp only [VerifyFile.size, htells, if_false] at hlow
  omega

theorem Loads.loaded_eq_iff (h : Loads lo hi f) (hlo : 0 ≤ lo) :
    f.loaded = f.contents ↔ Complete f := by
  simp only [VerifyFile.loaded, VerifyFile.size, h.tells hlo, if_true, Complete]
  by_cases hseek : f.seekEnd = true
  · simp [hseek]
  · simp [hseek, eq_comm]

end Load

section Steps
variable {α : Type}

theorem succeeds_ok_iff {r : Int × α} {a : α} : succeeds r = .ok a ↔ r = (0, a) := by
  obtain ⟨ret, b⟩ := r
  simp only [succeeds, Prod.mk.injEq]
  split_ifs with h
  · simp [h]
  · simp [h]

theorem succeeds_negative {r : Int × α} (h : r.1 ≤ 0) : Errors (· < 0) (succeeds r) := by
  simp only [succeeds]
  split_ifs with hzero
  · exact errors_ok _
  · exact errors_error (lt_of_le_of_ne h hzero)

theorem allocated_negative (alloc : Bool) : Errors (· < 0) (allocated alloc) := by
  simp only [allocated]
  split_ifs
  · exact errors_ok _
  · exact errors_error memory_negative

theorem allocated_ok_iff {alloc : Bool} {u : Unit} : allocated alloc = .ok u ↔ alloc = true := by
  simp only [allocated]
  split_ifs with h
  · simp [h]
  · simp [h]

theorem paramOfOid_negative (params : List (Nat × List Byte)) (oid : Nat) :
    Errors (· < 0) (paramOfOid params oid) := by
  simp only [paramOfOid]
  split
  · exact errors_error fatal_negative
  · exact errors_ok _

end Steps

section Der
variable {κ : Type}

inductive DerOf (lib : VerifyLib κ) (pubIn : Int) (inForm : Form) (contents : List Byte) :
    List Byte → Prop
  | direct : DerOf lib pubIn inForm contents contents
  | converted {n : Int} {der : List Byte} : inForm = .pem → 0 ≤ n →
      lib.pemDer (decide (pubIn ≠ 0)) contents = (n, der) →
      DerOf lib pubIn inForm contents (der.take n.toNat)
  | empty : inForm = .pem → lib.pemSize (decide (pubIn ≠ 0)) contents = 0 →
      DerOf lib pubIn inForm contents []

variable {lib : VerifyLib κ} {env : VerifyEnv} {pubIn : Int} {inForm : Form}
  {keyBuf der : List Byte}

theorem keyPemToDer_cases (lib : VerifyLib κ) (env : VerifyEnv) (keyBuf : List Byte) (pubIn : Int) :
    ((keyPemToDer lib env keyBuf pubIn).1 < 0 ∧ (keyPemToDer lib env keyBuf pubIn).2 = keyBuf) ∨
      ((keyPemToDer lib env keyBuf pubIn).1 = 0 ∧ (lib.pemSize (decide (pubIn ≠ 0)) keyBuf = 0 ∨
        (lib.pemDer (decide (pubIn ≠ 0)) keyBuf).1 = 0)) ∨
      (keyPemToDer lib env keyBuf pubIn = lib.pemDer (decide (pubIn ≠ 0)) keyBuf ∧
        0 < (lib.pemDer (decide (pubIn ≠ 0)) keyBuf).1) := by
  simp only [keyPemToDer]
  split_ifs with hempty hsize hmax halloc hconverted
  · exact .inl ⟨badFuncArg_negative, rfl⟩
  · exact .inl ⟨fatal_negative, rfl⟩
  · exact .inr (.inr ⟨rfl, hconverted⟩)
  · rcases lt_or_eq_of_le (not_lt.mp hconverted) with hneg | hzero
    · exact .inl ⟨hneg, rfl⟩
    · exact .inr (.inl ⟨hzero, .inr hzero⟩)
  · exact .inl ⟨memory_negative, rfl⟩
  · rcases lt_or_eq_of_le (not_lt.mp hsize) with hneg | hzero
    · exact .inl ⟨hneg, rfl⟩
    · exact .inr (.inl ⟨hzero, .inl hzero⟩)

theorem keyDer_negative : Errors (· < 0) (keyDer lib env pubIn inForm keyBuf) := by
  simp only [keyDer]
  split_ifs with hpem hneg
  · exact errors_ok _
  · exact errors_error hneg
  · exact errors_ok _
  · exact errors_ok _

theorem keyDer_ok (h : keyDer lib env pubIn inForm keyBuf = .ok der) :
    DerOf lib pubIn inForm keyBuf der := by
  by_cases hpem : inForm = .pem
  · simp only [keyDer, if_pos hpem] at h
    rcases keyPemToDer_cases lib env keyBuf pubIn with ⟨hneg, hbuf⟩ | ⟨hzero, hnone⟩ | ⟨hder, hpos⟩
    · rw [if_pos hneg] at h
      split_ifs at h
      cases h
      rw [hbuf]
      exact .direct
    · rw [if_neg (by omega), hzero] at h
      cases h
      rcases hnone with hsize | hconverted
      · exact .empty hpem hsize
      · have hder : lib.pemDer (decide (pubIn ≠ 0)) keyBuf =
            (0, (lib.pemDer (decide (pubIn ≠ 0)) keyBuf).2) := Prod.ext hconverted rfl
        have hnil := DerOf.converted hpem le_rfl hder
        exact hnil
    · rw [hder, if_neg (by omega)] at h
      cases h
      exact .converted hpem (le_of_lt hpos) rfl
  · simp only [keyDer, if_neg hpem] at h
    cases h
    exact .direct

theorem keyDer_nonempty (hpem : inForm = .pem)
    (h : keyDer lib env pubIn inForm keyBuf = .ok der) : keyBuf ≠ [] := by
  rintro rfl
  simp only [keyDer, if_pos hpem, keyPemToDer, List.length_nil, if_true] at h
  rw [if_pos badFuncArg_negative, if_neg (by decide)] at h
  cases h

end Der

section Decoded
variable {κ : Type} (lib : VerifyLib κ) (pubIn : Int) (inForm : Form) (contents : List Byte)

def DecodedKey (alg : SigAlg) (key : κ) : Prop :=
  ∃ der, DerOf lib pubIn inForm contents der ∧
    (if pubIn = 1 then lib.publicDecode alg der else lib.privateDecode alg der) = (0, key)

def Ed25519PrivateOf (priv : κ) : Prop :=
  if inForm = .raw then
    2 * ed25519KeySize ≤ contents.length ∧
      lib.importPrivate (contents.take ed25519KeySize)
        ((contents.drop ed25519KeySize).take ed25519KeySize) = (0, priv)
  else ∃ der, DerOf lib pubIn inForm contents der ∧ lib.privateDecode .ed25519 der = (0, priv)

def Ed25519KeyOf (key : κ) : Prop :=
  if pubIn = 1 then
    if inForm = .raw then
      ed25519KeySize ≤ contents.length ∧
        lib.importPublic (contents.take ed25519KeySize) = (0, key)
    else ∃ der, DerOf lib pubIn inForm contents der ∧ lib.publicDecode .ed25519 der = (0, key)
  else ∃ priv, Ed25519PrivateOf lib pubIn inForm contents priv ∧ lib.makePublic priv = (0, key)

def XmssKeyOf (params : List (Nat × List Byte)) (key : κ) : Prop :=
  xmssOidLen ≤ contents.length ∧ ∃ param fresh,
    paramOfOid params (xmssOid (contents.take xmssOidLen)) = .ok param ∧
      lib.xmssSetParam param = (0, fresh) ∧ lib.xmssImport fresh contents = (0, key)

def KeyOf (alg : SigAlg) (key : κ) : Prop :=
  match alg with
  | .rsa => DecodedKey lib pubIn inForm contents .rsa key
  | .ecc => DecodedKey lib pubIn inForm contents .ecc key
  | .ed25519 => Ed25519KeyOf lib pubIn inForm contents key
  | .dilithium => DecodedKey lib 1 inForm contents .dilithium key
  | .xmss => XmssKeyOf lib contents xmssParams key
  | .xmssmt => XmssKeyOf lib contents xmssmtParams key

end Decoded

def xmssFamily : SigAlg → Option (List (Nat × List Byte))
  | .xmss => some xmssParams
  | .xmssmt => some xmssmtParams
  | _ => none

def keyLow (alg : SigAlg) (inForm : Form) : Int :=
  if alg = .dilithium ∨ (inForm = .pem ∧ xmssFamily alg = none) then 1 else 0

def keyHigh (alg : SigAlg) : Int :=
  if alg = .dilithium then dilithiumMaxBothKeyPemSize else maxFileSize

def keyMinimum (alg : SigAlg) (pubIn : Int) (inForm : Form) : Nat :=
  if alg = .ed25519 ∧ inForm = .raw then
    if pubIn = 1 then ed25519KeySize else 2 * ed25519KeySize
  else if xmssFamily alg ≠ none then xmssOidLen
  else 0

structure KeyUsable (alg : SigAlg) (inForm : Form) (f : VerifyFile) : Prop where
  loads : Loads (keyLow alg inForm) (keyHigh alg) f
  oid : ∀ params, xmssFamily alg = some params → ∃ heap param,
    paramOfOid params (xmssOid (readMemory f.loaded heap xmssOidLen)) = .ok param

theorem readMemory_take {buf : List Byte} (heap : Nat → Byte) {n : Nat} (h : n ≤ buf.length) :
    readMemory buf heap n = buf.take n := by
  apply List.ext_getElem
  · simp [readMemory, h]
  · intro i hi _
    have hlt : i < buf.length := by
      simp only [readMemory, List.length_map, List.length_range] at hi
      omega
    simp [readMemory, List.getD_eq_getElem?_getD, hlt]

def preparedKey {κ : Type} (lib : VerifyLib κ) (env : VerifyEnv) (alg : SigAlg)
    (keyPath : VerifyFile) (pubIn : Int) (inForm : Form) : Except Int κ :=
  match alg with
  | .rsa => rsaKey lib env keyPath pubIn inForm
  | .ecc => eccKey lib env keyPath pubIn inForm
  | .ed25519 => ed25519Key lib env keyPath pubIn inForm
  | .dilithium => dilithiumKey lib env keyPath inForm
  | .xmss => xmssFamilyKey lib env .xmss xmssParams keyPath
  | .xmssmt => xmssFamilyKey lib env .xmssmt xmssmtParams keyPath

section Prepared
variable {κ : Type} {lib : VerifyLib κ} {env : VerifyEnv} {f : VerifyFile} {pubIn : Int}
  {inForm : Form} {key : κ}

theorem Loads.raise {hi : Int} (h : Loads 0 hi f) (hne : f.loaded ≠ []) : Loads 1 hi f := by
  refine { h with low := ?_ }
  by_contra hlow
  have hzero : f.size.toNat = 0 := by omega
  rw [VerifyFile.loaded, hzero] at hne
  exact hne rfl

theorem Loads.keyDer {hi : Int} {alg : SigAlg} {der : List Byte} (h : Loads 0 hi f)
    (hder : keyDer lib env pubIn inForm f.loaded = .ok der) (halg : alg ≠ .dilithium) :
    Loads (keyLow alg inForm) hi f := by
  simp only [keyLow]
  split_ifs with hlow
  · rcases hlow with hdil | ⟨hpem, -⟩
    · exact absurd hdil halg
    · exact h.raise (keyDer_nonempty hpem hder)
  · exact h

theorem bufferedKey_ok {alg : SigAlg} (h : bufferedKey lib env alg f pubIn inForm = .ok key) :
    Loads 0 maxFileSize f ∧ ∃ der, keyDer lib env pubIn inForm f.loaded = .ok der ∧
      (if pubIn = 1 then lib.publicDecode alg der else lib.privateDecode alg der) = (0, key) := by
  simp only [bufferedKey, bind_eq_ok, Except.ok.injEq] at h
  obtain ⟨-, -, keyBuf, hload, der, hder, key', hkey, -, -, rfl⟩ := h
  obtain ⟨hloads, rfl⟩ := loadFile_ok_iff.mp hload
  exact ⟨hloads, der, hder, succeeds_ok_iff.mp hkey⟩

theorem xmssFamilyKey_ok {alg : SigAlg} {params : List (Nat × List Byte)}
    (h : xmssFamilyKey lib env alg params f = .ok key) :
    Loads 0 maxFileSize f ∧ ∃ param fresh,
      paramOfOid params (xmssOid (readMemory f.loaded env.heap xmssOidLen)) = .ok param ∧
        lib.xmssSetParam param = (0, fresh) ∧ lib.xmssImport fresh f.loaded = (0, key) := by
  simp only [xmssFamilyKey, bind_eq_ok] at h
  obtain ⟨-, -, -, -, keyBuf, hload, -, -, param, hparam, fresh, hfresh, himport⟩ := h
  obtain ⟨hloads, rfl⟩ := loadFile_ok_iff.mp hload
  exact ⟨hloads, param, fresh, hparam, succeeds_ok_iff.mp hfresh, succeeds_ok_iff.mp himport⟩

theorem dilithiumKey_ok (h : dilithiumKey lib env f inForm = .ok key) :
    Loads 1 dilithiumMaxBothKeyPemSize f ∧ ∃ der, keyDer lib env 1 inForm f.loaded = .ok der ∧
      lib.publicDecode .dilithium der = (0, key) := by
  simp only [dilithiumKey, bind_eq_ok] at h
  obtain ⟨-, -, -, -, keyBuf, hload, der, hder, hkey⟩ := h
  obtain ⟨hloads, rfl⟩ := loadFile_ok_iff.mp hload
  exact ⟨hloads, der, hder, succeeds_ok_iff.mp hkey⟩

theorem ed25519PublicKey_ok {keyBuf der : List Byte}
    (h : ed25519PublicKey lib env inForm keyBuf der = .ok key) :
    (inForm = .raw ∧
        lib.importPublic (readMemory (keyBuf ++ [0]) env.heap ed25519KeySize) = (0, key)) ∨
      (inForm ≠ .raw ∧ lib.publicDecode .ed25519 der = (0, key)) := by
  simp only [ed25519PublicKey] at h
  split_ifs at h with hraw
  · exact .inl ⟨hraw, succeeds_ok_iff.mp h⟩
  · exact .inr ⟨hraw, succeeds_ok_iff.mp h⟩

theorem ed25519PrivateKey_ok {keyBuf der : List Byte}
    (h : ed25519PrivateKey lib env inForm keyBuf der = .ok key) :
    ∃ priv, lib.makePublic priv = (0, key) ∧
      ((inForm = .raw ∧ lib.importPrivate
          ((readMemory (keyBuf ++ [0]) env.heap (2 * ed25519KeySize)).take ed25519KeySize)
          ((readMemory (keyBuf ++ [0]) env.heap (2 * ed25519KeySize)).drop ed25519KeySize) =
            (0, priv)) ∨
        (inForm ≠ .raw ∧ lib.privateDecode .ed25519 der = (0, priv))) := by
  simp only [ed25519PrivateKey, bind_eq_ok] at h
  obtain ⟨priv, hpriv, hpub⟩ := h
  refine ⟨priv, succeeds_ok_iff.mp hpub, ?_⟩
  split_ifs at hpriv with hraw
  · exact .inl ⟨hraw, succeeds_ok_iff.mp hpriv⟩
  · exact .inr ⟨hraw, succeeds_ok_iff.mp hpriv⟩

theorem ed25519Key_ok (h : ed25519Key lib env f pubIn inForm = .ok key) :
    Loads 0 maxFileSize f ∧ ∃ der, keyDer lib env pubIn inForm f.loaded = .ok der ∧
      (if pubIn = 1 then ed25519PublicKey lib env inForm f.loaded der
        else ed25519PrivateKey lib env inForm f.loaded der) = .ok key := by
  simp only [ed25519Key, bind_eq_ok] at h
  obtain ⟨-, -, keyBuf, hload, der, hder, hkey⟩ := h
  obtain ⟨hloads, rfl⟩ := loadFile_ok_iff.mp hload
  exact ⟨hloads, der, hder, hkey⟩

theorem readMemory_whole {buf : List Byte} (heap : Nat → Byte) {n : Nat} (h : n ≤ buf.length) :
    readMemory (buf ++ [0]) heap n = buf.take n := by
  rw [readMemory_take heap (by simp only [List.length_append]; omega),
    List.take_append_of_le_length h]

theorem ed25519KeyOf_ok (h : ed25519Key lib env f pubIn inForm = .ok key)
    (hloaded : f.loaded = f.contents)
    (hmin : keyMinimum .ed25519 pubIn inForm ≤ f.contents.length) :
    Ed25519KeyOf lib pubIn inForm f.contents key := by
  obtain ⟨-, der, hder, hkey⟩ := ed25519Key_ok h
  rw [hloaded] at hder hkey
  have hderOf := keyDer_ok hder
  by_cases hpub : pubIn = 1
  · rw [if_pos hpub] at hkey
    rw [Ed25519KeyOf, if_pos hpub]
    rcases ed25519PublicKey_ok hkey with ⟨hraw, hkey⟩ | ⟨hraw, hkey⟩
    · have hlen : ed25519KeySize ≤ f.contents.length := by
        simpa [keyMinimum, hraw, hpub] using hmin
      rw [readMemory_whole _ hlen] at hkey
      rw [if_pos hraw]
      exact ⟨hlen, hkey⟩
    · rw [if_neg hraw]
      exact ⟨der, hderOf, hkey⟩
  · rw [if_neg hpub] at hkey
    rw [Ed25519KeyOf, if_neg hpub]
    obtain ⟨priv, hpublic, hpriv⟩ := ed25519PrivateKey_ok hkey
    refine ⟨priv, ?_, hpublic⟩
    rw [Ed25519PrivateOf]
    rcases hpriv with ⟨hraw, hpriv⟩ | ⟨hraw, hpriv⟩
    · have hlen : 2 * ed25519KeySize ≤ f.contents.length := by
        simpa [keyMinimum, hraw, hpub] using hmin
      rw [readMemory_whole _ hlen, List.take_take, List.drop_take, Nat.min_eq_left (by decide)]
        at hpriv
      rw [if_pos hraw]
      exact ⟨hlen, hpriv⟩
    · rw [if_neg hraw]
      exact ⟨der, hderOf, hpriv⟩

theorem xmssKeyOf_ok {alg : SigAlg} {params : List (Nat × List Byte)}
    (h : xmssFamilyKey lib env alg params f = .ok key) (hloaded : f.loaded = f.contents)
    (hmin : xmssOidLen ≤ f.contents.length) : XmssKeyOf lib f.contents params key := by
  obtain ⟨-, param, fresh, hparam, hfresh, himport⟩ := xmssFamilyKey_ok h
  rw [hloaded] at hparam himport
  rw [readMemory_take _ hmin] at hparam
  exact ⟨hmin, param, fresh, hparam, hfresh, himport⟩

theorem keyUsable_of_plain {alg : SigAlg} (hloads : Loads (keyLow alg inForm) (keyHigh alg) f)
    (halg : xmssFamily alg = none) : KeyUsable alg inForm f := by
  refine ⟨hloads, fun params hparams => ?_⟩
  rw [halg] at hparams
  cases hparams

theorem keyUsable_of_xmss {alg : SigAlg} {params : List (Nat × List Byte)}
    (halg : xmssFamily alg = some params) (hdil : alg ≠ .dilithium)
    (h : xmssFamilyKey lib env alg params f = .ok key) : KeyUsable alg inForm f := by
  obtain ⟨hloads, param, -, hparam, -⟩ := xmssFamilyKey_ok h
  refine ⟨?_, fun params' hparams' => ?_⟩
  · simpa [keyLow, keyHigh, halg, hdil] using hloads
  · rw [halg, Option.some.injEq] at hparams'
    subst hparams'
    exact ⟨env.heap, param, hparam⟩

theorem preparedKey_usable {alg : SigAlg} (h : preparedKey lib env alg f pubIn inForm = .ok key) :
    KeyUsable alg inForm f := by
  cases alg with
  | rsa =>
    obtain ⟨hloads, der, hder, -⟩ := bufferedKey_ok h
    exact keyUsable_of_plain (hloads.keyDer hder (by decide)) rfl
  | ecc =>
    obtain ⟨hloads, der, hder, -⟩ := bufferedKey_ok h
    exact keyUsable_of_plain (hloads.keyDer hder (by decide)) rfl
  | ed25519 =>
    obtain ⟨hloads, der, hder, -⟩ := ed25519Key_ok h
    exact keyUsable_of_plain (hloads.keyDer hder (by decide)) rfl
  | dilithium => exact keyUsable_of_plain (dilithiumKey_ok h).1 rfl
  | xmss => exact keyUsable_of_xmss rfl (by decide) h
  | xmssmt => exact keyUsable_of_xmss rfl (by decide) h

theorem preparedKey_genuine {alg : SigAlg} (h : preparedKey lib env alg f pubIn inForm = .ok key)
    (hcomplete : Complete f) (hmin : keyMinimum alg pubIn inForm ≤ f.contents.length) :
    KeyOf lib pubIn inForm f.contents alg key := by
  have hlow : 0 ≤ keyLow alg inForm := by
    simp only [keyLow]
    split_ifs <;> omega
  have hloaded : f.loaded = f.contents :=
    ((preparedKey_usable h).loads.loaded_eq_iff hlow).mpr hcomplete
  cases alg with
  | rsa =>
    obtain ⟨-, der, hder, hkey⟩ := bufferedKey_ok h
    exact ⟨der, keyDer_ok (hloaded ▸ hder), hkey⟩
  | ecc =>
    obtain ⟨-, der, hder, hkey⟩ := bufferedKey_ok h
    exact ⟨der, keyDer_ok (hloaded ▸ hder), hkey⟩
  | ed25519 => exact ed25519KeyOf_ok h hloaded hmin
  | dilithium =>
    obtain ⟨-, der, hder, hkey⟩ := dilithiumKey_ok h
    exact ⟨der, keyDer_ok (hloaded ▸ hder), by rw [if_pos rfl]; exact hkey⟩
  | xmss => exact xmssKeyOf_ok h hloaded hmin
  | xmssmt => exact xmssKeyOf_ok h hloaded hmin

end Prepared

end WolfCLU
