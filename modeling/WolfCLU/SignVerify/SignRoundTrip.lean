import WolfCLU.SignVerify.SignedBuffer
import WolfCLU.SignVerify.VerifyExact

namespace WolfCLU
open CString

structure ParamSet where
  oid : Nat
  param : List Byte
  stem : List Byte
  deriving DecidableEq, Repr

def xmssSets : List ParamSet :=
  [10, 16, 20].zipIdx.map fun (height, i) =>
    let name := str "XMSS-SHA2_" ++ decimal height ++ str "_256"
    ⟨i + 1, name, name⟩

def xmssmtSets : List ParamSet :=
  [(20, 2), (20, 4), (40, 2), (40, 4), (40, 8), (60, 3), (60, 6), (60, 12)].zipIdx.map
    fun ((height, layers), i) =>
      let name (separator : String) :=
        str "XMSSMT-SHA2_" ++ decimal height ++ str separator ++ decimal layers ++ str "_256"
      ⟨i + 1, name "/", name "-"⟩

def paramSets : SigAlg → List ParamSet
  | .xmss => xmssSets
  | .xmssmt => xmssmtSets
  | _ => []

section KeyPairs
variable {κ : Type} (lib : SignatureLib κ)

def PemOf (pub : Bool) (contents der : List Byte) : Prop :=
  contents ≠ [] ∧ ((lib.pemSize pub contents = asnNoPemHeader ∧ der = contents) ∨
    (0 < lib.pemSize pub contents ∧ ∃ n converted, lib.pemDer pub contents = (n, converted) ∧
      0 < n ∧ der = converted.take n.toNat))

def DerForm (pub : Bool) (inForm : Form) (contents der : List Byte) : Prop :=
  if inForm = .pem then PemOf lib pub contents der else der = contents

def RawPrivate (contents : List Byte) (priv : κ) : Prop :=
  2 * ed25519KeySize ≤ contents.length ∧
    lib.importPrivate (contents.take ed25519KeySize)
      ((contents.drop ed25519KeySize).take ed25519KeySize) = (0, priv)

def DerPrivate (alg : SigAlg) (pub : Bool) (inForm : Form) (contents : List Byte) (priv : κ) :
    Prop :=
  ∃ der, DerForm lib pub inForm contents der ∧ lib.privateDecode alg der = (0, priv)

def DerPublic (alg : SigAlg) (inForm : Form) (contents : List Byte) (pub : κ) : Prop :=
  ∃ der, DerForm lib true inForm contents der ∧ lib.publicDecode alg der = (0, pub)

def PrivateKeyOf (alg : SigAlg) (inForm : Form) (keyName contents : List Byte) (priv : κ) : Prop :=
  match alg with
  | .rsa | .ecc | .dilithium => DerPrivate lib alg false inForm contents priv
  | .ed25519 =>
    if inForm = .raw then RawPrivate lib contents priv
    else ∃ seed, DerPrivate lib .ed25519 false inForm contents seed ∧
      lib.makePublic seed = (0, priv)
  | .xmss | .xmssmt => ∃ set ∈ paramSets alg, ∃ ext fresh, ext.length = 5 ∧
      keyName = set.stem ++ ext ∧ lib.xmssSetParam set.param = (0, fresh) ∧
      lib.xmssReload fresh (some contents) = (0, priv)

def PublicXmss (alg : SigAlg) (contents : List Byte) (pub : κ) : Prop :=
  ∃ set ∈ paramSets alg, ∃ fresh, xmssOidLen ≤ contents.length ∧
    xmssOid (contents.take xmssOidLen) = set.oid ∧ lib.xmssSetParam set.param = (0, fresh) ∧
    lib.xmssImport fresh contents = (0, pub)

def VerifyKeyOf (alg : SigAlg) (pubIn : Int) (inForm : Form) (contents : List Byte) (key : κ) :
    Prop :=
  match alg with
  | .rsa | .ecc =>
    if pubIn = 1 then DerPublic lib alg inForm contents key
    else DerPrivate lib alg (decide (pubIn ≠ 0)) inForm contents key
  | .ed25519 =>
    if pubIn = 1 then
      if inForm = .raw then
        ed25519KeySize ≤ contents.length ∧
          lib.importPublic (contents.take ed25519KeySize) = (0, key)
      else DerPublic lib .ed25519 inForm contents key
    else ∃ priv, lib.makePublic priv = (0, key) ∧
      if inForm = .raw then RawPrivate lib contents priv
      else DerPrivate lib .ed25519 (decide (pubIn ≠ 0)) inForm contents priv
  | .dilithium => DerPublic lib .dilithium inForm contents key
  | .xmss | .xmssmt => PublicXmss lib alg contents key

variable (Matches : SigAlg → κ → κ → Prop)

structure SignatureLaws : Prop where
  outputSize : ∀ {alg priv pub}, Matches alg priv pub →
    lib.outputSize alg pub = lib.outputSize alg priv
  eccSize : ∀ {priv pub}, Matches .ecc priv pub → lib.eccSize pub = lib.eccSize priv
  rsa : ∀ {priv pub msg n ret sig}, Matches .rsa priv pub → lib.rsaSign priv msg n = (ret, sig) →
    0 ≤ ret → lib.rsaVerify pub sig = msg.length ∧ (lib.rsaRecovered pub sig).take msg.length = msg
  ecc : ∀ {priv pub digest n sig}, Matches .ecc priv pub → lib.eccSign priv digest n = (0, sig) →
    sig.length ≤ n ∧ lib.eccVerify pub sig digest = (0, 1)
  ed25519 : ∀ {priv pub msg sig}, Matches .ed25519 priv pub → lib.ed25519Sign priv msg = (0, sig) →
    lib.ed25519Verify pub sig msg = (0, 1)
  dilithium : ∀ {priv pub msg n sig}, Matches .dilithium priv pub →
    lib.dilithiumSign priv msg n = (0, sig) → lib.dilithiumVerify pub sig msg = (0, 1)
  xmss : ∀ {priv pub msg n sig}, Matches .xmss priv pub ∨ Matches .xmssmt priv pub →
    lib.xmssSign priv msg n = (0, sig) → lib.xmssVerify pub sig msg = 0

structure KeyPair (alg : SigAlg) (inForm : Form) (files : SignatureFiles) (pubIn : Int)
    (contents : List Byte) : Prop where
  whole : files.key = wholeFile files.key.contents
  size : files.key.contents.length ≤ MachineInt.intMax
  matched : ∃ priv pub, PrivateKeyOf lib alg inForm files.keyName files.key.contents priv ∧
    VerifyKeyOf lib alg pubIn inForm contents pub ∧ Matches alg priv pub

end KeyPairs

structure KeyFits {κ : Type} (lib : SignatureLib κ) (alg : SigAlg) (pubIn : Int) (inForm : Form)
    (contents : List Byte) : Prop where
  low : keyLow alg inForm ≤ contents.length
  high : contents.length ≤ keyHigh alg
  der : xmssFamily alg = none → inForm = .pem →
    lib.pemSize (decide (alg = .dilithium ∨ pubIn ≠ 0)) contents ≤ maxKeyPemDerSz

structure Working (env : VerifyEnv) : Prop where
  keyAlloc : env.keyAlloc = true
  derAlloc : env.derAlloc = true
  outputAlloc : env.outputAlloc = true
  paramAlloc : env.paramAlloc = true
  outOpens : env.outOpens = true
  outWrites : env.outWrites = true

section Loading
variable {contents buf : List Byte} {hi : Int}

theorem wholeFile_size (contents : List Byte) : (wholeFile contents).size = contents.length := rfl

theorem loadMessage_ok (h : loadMessage (wholeFile contents) = .ok buf) :
    buf = contents ∧ 0 < contents.length ∧ contents.length ≤ MachineInt.intMax := by
  simp only [loadMessage, wholeFile_size] at h
  simp only [wholeFile, not_true, if_false, and_self] at h
  split_ifs at h with hsize
  cases h
  rw [Int.toNat_natCast, List.take_length]
  refine ⟨rfl, ?_, ?_⟩ <;> omega

theorem loadPrivateKey_ok (hsize : contents.length ≤ MachineInt.intMax)
    (h : loadPrivateKey hi (wholeFile contents) = .ok buf) : buf = contents := by
  simp only [loadPrivateKey, wholeFile_size,
    MachineInt.toInt32_of_range (show -2147483648 ≤ (contents.length : Int) by omega) hsize] at h
  simp only [wholeFile, not_true, if_false, and_self] at h
  split_ifs at h
  cases h
  rw [Int.toNat_natCast, List.take_length]

theorem loadFile_whole {openErr sizeErr lo : Int} (hlo : lo ≤ contents.length)
    (hhi : contents.length ≤ hi) :
    loadFile openErr sizeErr lo hi (wholeFile contents) = .ok contents := by
  rw [loadFile_ok_iff]
  refine ⟨⟨rfl, hlo, hhi, rfl, rfl, rfl⟩, ?_⟩
  rw [VerifyFile.loaded, wholeFile_size, Int.toNat_natCast]
  exact (List.take_length).symm

theorem wholeFile_loaded (contents : List Byte) : (wholeFile contents).loaded = contents := by
  rw [VerifyFile.loaded, wholeFile_size, Int.toNat_natCast]
  exact List.take_length

end Loading

section Names
variable {set : ParamSet} {ext : List Byte}

theorem strncmp_stem {stem name : List Byte} {n : Nat} (hn : n ≤ stem.length)
    (h : strncmp stem name n = 0) (ext : List Byte) : strncmp (stem ++ ext) name n = 0 := by
  rw [strncmp_eq_zero] at h ⊢
  rw [← h, ← cstr_take, ← cstr_take, List.take_append_of_le_length hn]

theorem xmssName_set (hset : set ∈ xmssSets) (hext : ext.length = 5) :
    xmssName (set.stem ++ ext) = some set.param ∧
      paramOfOid xmssParams set.oid = .ok set.param := by
  have hall : ∀ set ∈ xmssSets, set.stem.length = xmssNameLen ∧
      strncmp set.stem (str "XMSS-") 5 = 0 ∧ set.stem = set.param ∧
      paramOfOid xmssParams set.oid = .ok set.param := by decide +kernel
  obtain ⟨hlen, hhead, hsame, hoid⟩ := hall set hset
  have hpos : 5 ≤ set.stem.length := by rw [hlen]; decide
  refine ⟨?_, hoid⟩
  rw [xmssName, if_neg (not_not.mpr (strncmp_stem hpos hhead ext)), if_neg, List.take_left' hlen,
    hsame]
  rw [List.length_append]
  omega

theorem xmssmtName_set (hset : set ∈ xmssmtSets) (hext : ext.length = 5) :
    xmssmtName (set.stem ++ ext) = some set.param ∧
      paramOfOid xmssmtParams set.oid = .ok set.param := by
  have hall : ∀ set ∈ xmssmtSets,
      (set.stem.length = xmssmtNameMinLen ∨ set.stem.length = xmssmtNameMaxLen) ∧
      strncmp set.stem (str "XMSSMT-") 7 = 0 ∧
      set.stem.take 8 ++ slashDash (set.stem.drop 8) = set.param ∧
      paramOfOid xmssmtParams set.oid = .ok set.param := by decide +kernel
  obtain ⟨hlen, hhead, hparam, hoid⟩ := hall set hset
  have hpos : 7 ≤ set.stem.length := by rcases hlen with h | h <;> rw [h] <;> decide
  refine ⟨?_, hoid⟩
  simp only [xmssmtName]
  rw [if_neg (not_not.mpr (strncmp_stem hpos hhead ext)), List.length_append, hext]
  rcases hlen with hmin | hmax
  · rw [if_pos (by rw [hmin]), List.take_left' hmin, hparam]
  · rw [if_neg (by rw [hmax]; decide), if_pos (by rw [hmax]), List.take_left' hmax, hparam]

end Names

section Signing
variable {κ : Type} {lib : SignatureLib κ} {env : SignatureEnv} {venv : VerifyEnv} {inForm : Form}
  {contents der buf : List Byte} {pubIn : Int} {alg : SigAlg} {priv : κ}

theorem keyPemToDer_none (hne : contents ≠ [])
    (hnone : lib.pemSize (decide (pubIn ≠ 0)) contents = asnNoPemHeader) :
    keyPemToDer lib.toVerifyLib venv contents pubIn = (asnNoPemHeader, contents) := by
  have hlen : ¬ contents.length = 0 := fun hlen => hne (List.length_eq_zero_iff.mp hlen)
  have hneg : ¬ asnNoPemHeader > 0 := by decide
  simp only [keyPemToDer, if_neg hlen, hnone, if_neg hneg]

theorem keyPemToDer_some (hne : contents ≠ []) {n : Int} {converted : List Byte}
    (hsize : 0 < lib.pemSize (decide (pubIn ≠ 0)) contents)
    (hder : lib.pemDer (decide (pubIn ≠ 0)) contents = (n, converted)) (hn : 0 < n) :
    keyPemToDer lib.toVerifyLib venv contents pubIn =
      if maxKeyPemDerSz < lib.pemSize (decide (pubIn ≠ 0)) contents then
        (wolfcluFatalError, contents)
      else if venv.derAlloc then (n, converted) else (memoryE, contents) := by
  have hlen : ¬ contents.length = 0 := fun hlen => hne (List.length_eq_zero_iff.mp hlen)
  simp only [keyPemToDer, if_neg hlen, gt_iff_lt, if_pos hsize, hder, if_pos hn]

def DerFits (lib : SignatureLib κ) (venv : VerifyEnv) (pub : Bool) (contents : List Byte) : Prop :=
  0 < lib.pemSize pub contents → lib.pemSize pub contents ≤ maxKeyPemDerSz ∧ venv.derAlloc = true

theorem keyDer_form_iff (h : DerForm lib (decide (pubIn ≠ 0)) inForm contents der) :
    keyDer lib.toVerifyLib venv pubIn inForm contents = .ok buf ↔
      buf = der ∧ (inForm = .pem → DerFits lib venv (decide (pubIn ≠ 0)) contents) := by
  rw [DerForm] at h
  rw [keyDer]
  by_cases hpem : inForm = .pem
  · rw [if_pos hpem] at h ⊢
    obtain ⟨hne, ⟨hnone, rfl⟩ | ⟨hsize, n, converted, hder, hn, rfl⟩⟩ := h
    · have hneg : asnNoPemHeader < 0 := by decide
      have hfits : DerFits lib venv (decide (pubIn ≠ 0)) der := fun hpos =>
        absurd (hnone ▸ hpos) hneg.asymm
      simp only [keyPemToDer_none hne hnone, if_pos hneg, if_true, Except.ok.injEq, hfits,
        implies_true, and_true]
      exact eq_comm
    · rw [keyPemToDer_some hne hsize hder hn]
      have hfatal : wolfcluFatalError < 0 ∧ ¬ wolfcluFatalError = asnNoPemHeader := by decide
      have hmemory : memoryE < 0 ∧ ¬ memoryE = asnNoPemHeader := by decide
      by_cases hmax : maxKeyPemDerSz < lib.pemSize (decide (pubIn ≠ 0)) contents
      · have hbad : ¬ DerFits lib venv (decide (pubIn ≠ 0)) contents := fun hfits =>
          absurd (hfits hsize).1 (not_le.mpr hmax)
        simp only [if_pos hmax, if_pos hfatal.1, if_neg hfatal.2, reduceCtorEq, false_iff, not_and,
          hpem, true_implies]
        exact fun _ => hbad
      · by_cases halloc : venv.derAlloc = true
        · have hfits : DerFits lib venv (decide (pubIn ≠ 0)) contents := fun _ =>
            ⟨not_lt.mp hmax, halloc⟩
          simp only [if_neg hmax, if_pos halloc, if_neg (not_lt.mpr hn.le), Except.ok.injEq, hfits,
            implies_true, and_true]
          exact eq_comm
        · have hbad : ¬ DerFits lib venv (decide (pubIn ≠ 0)) contents := fun hfits =>
            halloc (hfits hsize).2
          simp only [if_neg hmax, if_neg halloc, if_pos hmemory.1, if_neg hmemory.2, reduceCtorEq,
            false_iff, not_and, hpem, true_implies]
          exact fun _ => hbad
  · rw [if_neg hpem] at h ⊢
    simp only [h, Except.ok.injEq, hpem, false_implies, and_true]
    exact eq_comm

theorem privateKeyDer_ok {hi : Int} {loaded : List Byte × List Byte}
    (hsize : contents.length ≤ MachineInt.intMax)
    (h : privateKeyDer lib env alg hi (wholeFile contents) inForm = .ok loaded) :
    lib.init alg = 0 ∧ loaded.1 = contents ∧
      keyDer lib.toVerifyLib env.toVerifyEnv 0 inForm contents = .ok loaded.2 := by
  simp only [privateKeyDer, bind_eq_ok, Except.ok.injEq] at h
  obtain ⟨_, hinit, -, -, -, -, buf, hload, der, hder, rfl⟩ := h
  obtain rfl := loadPrivateKey_ok hsize hload
  exact ⟨(Prod.mk.inj (succeeds_ok_iff.mp hinit)).1, rfl, hder⟩

theorem derPrivate_key {priv' : κ} (h : DerPrivate lib alg false inForm contents priv)
    (hder : keyDer lib.toVerifyLib env.toVerifyEnv 0 inForm contents = .ok der)
    (hdecode : lib.privateDecode alg der = (0, priv')) : priv' = priv := by
  obtain ⟨der', hform, hpriv⟩ := h
  obtain ⟨rfl, -⟩ := (@keyDer_form_iff _ _ _ _ _ _ _ 0 hform).mp hder
  exact (Prod.mk.inj (hdecode.symm.trans hpriv)).2

theorem decodedKey_ok {hi : Int} {loaded : List Byte × List Byte} {priv' : κ}
    (hsize : contents.length ≤ MachineInt.intMax)
    (hpriv : DerPrivate lib alg false inForm contents priv)
    (h : privateKeyDer lib env alg hi (wholeFile contents) inForm = .ok loaded)
    (hdecode : succeeds (lib.privateDecode alg loaded.2) = .ok priv') :
    lib.init alg = 0 ∧ priv' = priv := by
  obtain ⟨hinit, -, hder⟩ := privateKeyDer_ok hsize h
  exact ⟨hinit, derPrivate_key hpriv hder (succeeds_ok_iff.mp hdecode)⟩

theorem rsaSigningKey_ok {key : κ} (hsize : contents.length ≤ MachineInt.intMax)
    (hpriv : DerPrivate lib .rsa false inForm contents priv)
    (h : rsaSigningKey lib env (wholeFile contents) inForm = .ok key) :
    lib.init .rsa = 0 ∧ key = priv ∧ 0 < lib.outputSize .rsa priv := by
  simp only [rsaSigningKey, bind_eq_ok, Except.ok.injEq] at h
  obtain ⟨⟨buf, der⟩, hload, key', hdecode, _, hout, rfl⟩ := h
  obtain ⟨hinit, rfl⟩ := decodedKey_ok hsize hpriv hload hdecode
  refine ⟨hinit, rfl, ?_⟩
  simp only [outputBuffer] at hout
  by_contra hpos
  rw [if_pos (not_lt.mp hpos)] at hout
  cases hout

theorem eccSigningKey_ok {key : κ} (hsize : contents.length ≤ MachineInt.intMax)
    (hpriv : DerPrivate lib .ecc false inForm contents priv)
    (h : eccSigningKey lib env (wholeFile contents) inForm = .ok key) :
    lib.init .ecc = 0 ∧ key = priv := by
  simp only [eccSigningKey, bind_eq_ok, Except.ok.injEq] at h
  obtain ⟨⟨buf, der⟩, hload, key', hdecode, -, -, rfl⟩ := h
  exact decodedKey_ok hsize hpriv hload hdecode

theorem dilithiumSigningKey_ok {key : κ} (hsize : contents.length ≤ MachineInt.intMax)
    (hpriv : DerPrivate lib .dilithium false inForm contents priv)
    (h : dilithiumSigningKey lib env (wholeFile contents) inForm = .ok key) :
    lib.init .dilithium = 0 ∧ key = priv := by
  simp only [dilithiumSigningKey, bind_eq_ok, Except.ok.injEq] at h
  obtain ⟨-, -, ⟨buf, der⟩, hload, key', hdecode, -, -, rfl⟩ := h
  exact decodedKey_ok hsize hpriv hload hdecode

theorem rawPrivate_memory (heap : Nat → Byte) (h : RawPrivate lib contents priv) :
    lib.importPrivate
        ((readMemory (contents ++ [0]) heap (2 * ed25519KeySize)).take ed25519KeySize)
        ((readMemory (contents ++ [0]) heap (2 * ed25519KeySize)).drop ed25519KeySize)
      = (0, priv) := by
  rw [readMemory_whole _ h.1, List.take_take, List.drop_take, Nat.min_eq_left (by decide)]
  exact h.2

theorem ed25519SigningKey_ok {key : κ} {keyName : List Byte}
    (hsize : contents.length ≤ MachineInt.intMax)
    (hpriv : PrivateKeyOf lib .ed25519 inForm keyName contents priv)
    (h : ed25519SigningKey lib env (wholeFile contents) inForm = .ok key) :
    lib.init .ed25519 = 0 ∧ key = priv := by
  simp only [ed25519SigningKey, bind_eq_ok, Except.ok.injEq] at h
  obtain ⟨⟨buf, der⟩, hload, key', hkey, -, -, rfl⟩ := h
  obtain ⟨hinit, hbuf, hder⟩ := privateKeyDer_ok hsize hload
  dsimp only at hbuf
  subst hbuf
  refine ⟨hinit, ?_⟩
  rw [PrivateKeyOf] at hpriv
  rw [ed25519Secret] at hkey
  by_cases hraw : inForm = .raw
  · rw [if_pos hraw] at hpriv hkey
    have himport := succeeds_ok_iff.mp hkey
    rw [rawPrivate_memory _ hpriv] at himport
    exact (Prod.mk.inj himport).2.symm
  · rw [if_neg hraw] at hpriv hkey
    obtain ⟨seed, hseed, hpublic⟩ := hpriv
    obtain ⟨seed', hdecode, hpublic'⟩ := bind_eq_ok.mp hkey
    obtain rfl := derPrivate_key hseed hder (succeeds_ok_iff.mp hdecode)
    exact (Prod.mk.inj ((succeeds_ok_iff.mp hpublic').symm.trans hpublic)).2

theorem xmssFamilySigningKey_ok {name : Option (List Byte)} {param : List Byte} {fresh : κ}
    {loaded : κ × Nat} (hname : name = some param) (hparam : lib.xmssSetParam param = (0, fresh))
    (hreload : lib.xmssReload fresh (some contents) = (0, priv))
    (h : xmssFamilySigningKey lib env alg name (wholeFile contents) = .ok loaded) :
    lib.init alg = 0 ∧ loaded.1 = priv := by
  subst hname
  simp only [xmssFamilySigningKey, xmssFamilyParam, bind_eq_ok, Except.ok.injEq] at h
  obtain ⟨-, -, param', ⟨_, hinit, -, -, rfl⟩, -, -, fresh', hset, n, -, -, -, -, -, key, hkey, rfl⟩ :=
    h
  obtain rfl := (Prod.mk.inj (hparam.symm.trans (succeeds_ok_iff.mp hset))).2
  have hkey' := (succeeds_ok_iff.mp hkey).symm.trans hreload
  exact ⟨(Prod.mk.inj (succeeds_ok_iff.mp hinit)).1, (Prod.mk.inj hkey').2⟩

def Signed (lib : SignatureLib κ) (alg : SigAlg) (priv : κ) (msg sig : List Byte) : Prop :=
  match alg with
  | .rsa => 0 < lib.outputSize .rsa priv ∧
      ∃ ret, lib.rsaSign priv msg (lib.outputSize .rsa priv).toNat = (ret, sig) ∧ 0 ≤ ret
  | .ecc => ∃ digest, eccDigest lib.toVerifyLib priv msg = .ok digest ∧
      lib.eccSign priv digest (lib.outputSize .ecc priv).toNat = (0, sig)
  | .ed25519 => lib.ed25519Sign priv msg = (0, sig)
  | .dilithium => ∃ n, lib.dilithiumSign priv msg n = (0, sig)
  | .xmss | .xmssmt => ∃ n, lib.xmssSign priv msg n = (0, sig)

structure SignDone (lib : SignatureLib κ) (alg : SigAlg) (priv : κ) (msg : List Byte)
    (run : SignatureRun) (sig : List Byte) : Prop where
  out : run.out = some sig
  nonempty : 0 < sig.length
  signed : Signed lib alg priv msg sig
  init : lib.init alg = 0

section Done
variable {msg sig : List Byte} {ret : Int}

theorem signPrimitive_signed {files : SignatureFiles}
    (hwhole : files.key = wholeFile files.key.contents)
    (hsize : files.key.contents.length ≤ MachineInt.intMax)
    (hpriv : PrivateKeyOf lib alg inForm files.keyName files.key.contents priv)
    (h : signPrimitive lib env alg msg files inForm = .ok (ret, sig)) (hret : 0 ≤ ret) :
    lib.init alg = 0 ∧ Signed lib alg priv msg sig := by
  have hzero : alg ≠ .rsa → ret = 0 := fun halg => le_antisymm (signPrimitive_le halg h) hret
  simp only [signPrimitive] at h
  rw [hwhole] at h
  cases alg with
  | rsa =>
    simp only [bind_eq_ok, Except.ok.injEq] at h
    obtain ⟨key, hkey, hsign⟩ := h
    obtain ⟨hinit, rfl, hpos⟩ := rsaSigningKey_ok hsize hpriv hkey
    exact ⟨hinit, hpos, ret, hsign, hret⟩
  | ecc =>
    obtain rfl := hzero (by decide)
    simp only [bind_eq_ok, Except.ok.injEq] at h
    obtain ⟨key, hkey, digest, hdigest, hsign⟩ := h
    obtain ⟨hinit, rfl⟩ := eccSigningKey_ok hsize hpriv hkey
    exact ⟨hinit, digest, hdigest, hsign⟩
  | ed25519 =>
    obtain rfl := hzero (by decide)
    simp only [bind_eq_ok, Except.ok.injEq] at h
    obtain ⟨key, hkey, hsign⟩ := h
    obtain ⟨hinit, rfl⟩ := ed25519SigningKey_ok hsize hpriv hkey
    exact ⟨hinit, hsign⟩
  | dilithium =>
    obtain rfl := hzero (by decide)
    simp only [bind_eq_ok, Except.ok.injEq] at h
    obtain ⟨key, hkey, hsign⟩ := h
    obtain ⟨hinit, rfl⟩ := dilithiumSigningKey_ok hsize hpriv hkey
    exact ⟨hinit, _, hsign⟩
  | xmss =>
    obtain rfl := hzero (by decide)
    obtain ⟨set, hset, ext, fresh, hext, hname, hparam, hreload⟩ := hpriv
    rw [hname] at h
    simp only [bind_eq_ok, Except.ok.injEq] at h
    obtain ⟨loaded, hkey, hsign⟩ := h
    obtain ⟨hinit, rfl⟩ := xmssFamilySigningKey_ok (xmssName_set hset hext).1 hparam hreload hkey
    exact ⟨hinit, _, hsign⟩
  | xmssmt =>
    obtain rfl := hzero (by decide)
    obtain ⟨set, hset, ext, fresh, hext, hname, hparam, hreload⟩ := hpriv
    rw [hname] at h
    simp only [bind_eq_ok, Except.ok.injEq] at h
    obtain ⟨loaded, hkey, hsign⟩ := h
    obtain ⟨hinit, rfl⟩ := xmssFamilySigningKey_ok (xmssmtName_set hset hext).1 hparam hreload hkey
    exact ⟨hinit, _, hsign⟩

theorem signMessage_done {files : SignatureFiles} (hwhole : files.key = wholeFile files.key.contents)
    (hsize : files.key.contents.length ≤ MachineInt.intMax) (hcomplete : ∀ n, env.written n = n)
    (hpriv : PrivateKeyOf lib alg inForm files.keyName files.key.contents priv)
    (h : (signMessage lib env alg msg files inForm).ret = wolfcluSuccess) :
    ∃ sig, SignDone lib alg priv msg (signMessage lib env alg msg files inForm) sig := by
  obtain ⟨ret, sig, hsign, hreported⟩ := signMessage_success_iff.mp h
  obtain ⟨hinit, hsigned⟩ := signPrimitive_signed hwhole hsize hpriv hsign hreported.primitive
  have hout := signMessage_out hsign hreported
  have hpos := hreported.written
  rw [hcomplete, Int.toNat_natCast, List.take_length] at hout
  rw [hcomplete] at hpos
  exact ⟨sig, hout, Int.natCast_pos.mp hpos, hsigned, hinit⟩

end Done

end Signing

section Verifying
variable {κ : Type} {lib : SignatureLib κ} {env : VerifyEnv} {inForm : Form} {contents : List Byte}
  {pubIn : Int} {alg : SigAlg} {key : κ}

theorem fits_of_der {pub : Bool} (hworking : Working env)
    (h : lib.pemSize pub contents ≤ maxKeyPemDerSz) : DerFits lib env pub contents :=
  fun _ => ⟨h, hworking.derAlloc⟩

theorem derPrivate_loaded (hworking : Working env)
    (hfits : inForm = .pem → lib.pemSize (decide (pubIn ≠ 0)) contents ≤ maxKeyPemDerSz)
    (h : DerPrivate lib alg (decide (pubIn ≠ 0)) inForm contents key) :
    ∃ der, keyDer lib.toVerifyLib env pubIn inForm contents = .ok der ∧
      lib.privateDecode alg der = (0, key) := by
  obtain ⟨der, hform, hdecode⟩ := h
  exact ⟨der, (keyDer_form_iff hform).mpr ⟨rfl, fun hpem => fits_of_der hworking (hfits hpem)⟩,
    hdecode⟩

theorem derPublic_loaded (hworking : Working env)
    (hfits : inForm = .pem → lib.pemSize true contents ≤ maxKeyPemDerSz)
    (h : DerPublic lib alg inForm contents key) :
    ∃ der, keyDer lib.toVerifyLib env 1 inForm contents = .ok der ∧
      lib.publicDecode alg der = (0, key) := by
  obtain ⟨der, hform, hdecode⟩ := h
  exact ⟨der, (@keyDer_form_iff _ _ _ _ _ _ _ 1 hform).mpr
    ⟨rfl, fun hpem => fits_of_der hworking (hfits hpem)⟩, hdecode⟩

theorem bufferedKey_loaded (hworking : Working env) (hinit : lib.init alg = 0)
    (hfits : KeyFits lib alg pubIn inForm contents) (halg : alg = .rsa ∨ alg = .ecc)
    (hpos : 0 < lib.outputSize alg key)
    (h : if pubIn = 1 then DerPublic lib alg inForm contents key
      else DerPrivate lib alg (decide (pubIn ≠ 0)) inForm contents key) :
    bufferedKey lib.toVerifyLib env alg (wholeFile contents) pubIn inForm = .ok key := by
  have hfamily : xmssFamily alg = none ∧ alg ≠ .dilithium := by
    rcases halg with rfl | rfl <;> exact ⟨rfl, by decide⟩
  have hder := hfits.der hfamily.1
  simp only [hfamily.2, false_or] at hder
  have hhigh : keyHigh alg = maxFileSize := if_neg hfamily.2
  have hload : loadFile badFuncArg badFuncArg 0 maxFileSize (wholeFile contents) = .ok contents :=
    loadFile_whole (by omega) (hhigh ▸ hfits.high)
  have hout : outputBuffer lib.toVerifyLib env alg key = .ok () := by
    rw [outputBuffer, if_neg (not_le.mpr hpos), hworking.outputAlloc]
    rfl
  obtain ⟨der, hkeyDer, hdecode⟩ : ∃ der, keyDer lib.toVerifyLib env pubIn inForm contents = .ok der ∧
      (if pubIn = 1 then lib.publicDecode alg der else lib.privateDecode alg der) = (0, key) := by
    by_cases hpub : pubIn = 1
    · subst hpub
      rw [if_pos rfl] at h
      obtain ⟨der, hkeyDer, hdecode⟩ := derPublic_loaded hworking hder h
      exact ⟨der, hkeyDer, by rw [if_pos rfl]; exact hdecode⟩
    · rw [if_neg hpub] at h
      obtain ⟨der, hkeyDer, hdecode⟩ := derPrivate_loaded hworking hder h
      exact ⟨der, hkeyDer, by rw [if_neg hpub]; exact hdecode⟩
  exact bind_eq_ok.mpr ⟨(), succeeds_ok_iff.mpr (by rw [hinit]), bind_eq_ok.mpr ⟨_, hload,
    bind_eq_ok.mpr ⟨_, hkeyDer, bind_eq_ok.mpr ⟨_, succeeds_ok_iff.mpr hdecode,
      bind_eq_ok.mpr ⟨(), hout, rfl⟩⟩⟩⟩⟩

theorem loadFile_key {lo : Int} (halg : alg ≠ .dilithium) (hlo : lo ≤ 0)
    (hfits : KeyFits lib alg pubIn inForm contents) {openErr sizeErr : Int} :
    loadFile openErr sizeErr lo maxFileSize (wholeFile contents) = .ok contents := by
  have hhigh : keyHigh alg = maxFileSize := if_neg halg
  exact loadFile_whole (by omega) (hhigh ▸ hfits.high)

theorem ed25519Key_loaded (hworking : Working env) (hinit : lib.init .ed25519 = 0)
    (hfits : KeyFits lib .ed25519 pubIn inForm contents)
    (h : VerifyKeyOf lib .ed25519 pubIn inForm contents key) :
    ed25519Key lib.toVerifyLib env (wholeFile contents) pubIn inForm = .ok key := by
  have hload := @loadFile_key _ lib inForm contents pubIn .ed25519 0 (by decide) le_rfl hfits
    badFuncArg badFuncArg
  have hder := hfits.der rfl
  simp only [reduceCtorEq, false_or] at hder
  have hraw : inForm = .raw → keyDer lib.toVerifyLib env pubIn inForm contents = .ok contents := by
    rintro rfl
    rfl
  rw [VerifyKeyOf] at h
  refine bind_eq_ok.mpr ⟨(), succeeds_ok_iff.mpr (by rw [hinit]), bind_eq_ok.mpr ⟨_, hload, ?_⟩⟩
  by_cases hpub : pubIn = 1
  · rw [if_pos hpub] at h
    subst hpub
    by_cases hform : inForm = .raw
    · rw [if_pos hform] at h
      refine bind_eq_ok.mpr ⟨_, hraw hform, ?_⟩
      rw [if_pos rfl, ed25519PublicKey, if_pos hform, readMemory_whole _ h.1, h.2]
      rfl
    · rw [if_neg hform] at h
      obtain ⟨der, hkeyDer, hdecode⟩ := derPublic_loaded hworking hder h
      refine bind_eq_ok.mpr ⟨_, hkeyDer, ?_⟩
      rw [if_pos rfl, ed25519PublicKey, if_neg hform, hdecode]
      rfl
  · rw [if_neg hpub] at h
    obtain ⟨priv, hpublic, hpriv⟩ := h
    by_cases hform : inForm = .raw
    · rw [if_pos hform] at hpriv
      refine bind_eq_ok.mpr ⟨_, hraw hform, ?_⟩
      rw [if_neg hpub, ed25519PrivateKey]
      refine bind_eq_ok.mpr ⟨priv, ?_, succeeds_ok_iff.mpr hpublic⟩
      rw [if_pos hform, rawPrivate_memory _ hpriv]
      rfl
    · rw [if_neg hform] at hpriv
      obtain ⟨der, hkeyDer, hdecode⟩ := derPrivate_loaded hworking hder hpriv
      refine bind_eq_ok.mpr ⟨_, hkeyDer, ?_⟩
      rw [if_neg hpub, ed25519PrivateKey]
      refine bind_eq_ok.mpr ⟨priv, ?_, succeeds_ok_iff.mpr hpublic⟩
      rw [if_neg hform, hdecode]
      rfl

theorem dilithiumKey_loaded (hworking : Working env) (hinit : lib.init .dilithium = 0)
    (hfits : KeyFits lib .dilithium pubIn inForm contents)
    (h : DerPublic lib .dilithium inForm contents key) :
    dilithiumKey lib.toVerifyLib env (wholeFile contents) inForm = .ok key := by
  have hder := hfits.der rfl
  simp only [true_or, decide_true] at hder
  have hload : loadFile badFuncArg badFuncArg 1 dilithiumMaxBothKeyPemSize (wholeFile contents)
      = .ok contents := loadFile_whole hfits.low hfits.high
  obtain ⟨der, hkeyDer, hdecode⟩ := derPublic_loaded hworking hder h
  exact bind_eq_ok.mpr ⟨(), allocated_ok_iff.mpr hworking.keyAlloc, bind_eq_ok.mpr
    ⟨(), succeeds_ok_iff.mpr (by rw [hinit]), bind_eq_ok.mpr ⟨_, hload, bind_eq_ok.mpr
      ⟨_, hkeyDer, succeeds_ok_iff.mpr hdecode⟩⟩⟩⟩

theorem xmssFamilyKey_loaded {params : List (Nat × List Byte)} (hworking : Working env)
    (hinit : lib.init alg = 0) (halg : alg ≠ .dilithium)
    (hfits : KeyFits lib alg pubIn inForm contents)
    (hparams : ∀ set ∈ paramSets alg, paramOfOid params set.oid = .ok set.param)
    (h : PublicXmss lib alg contents key) :
    xmssFamilyKey lib.toVerifyLib env alg params (wholeFile contents) = .ok key := by
  obtain ⟨set, hset, fresh, hlen, hoid, hparam, himport⟩ := h
  have hload := @loadFile_key _ lib inForm contents pubIn alg 0 halg le_rfl hfits outputFileError
    wolfcluFatalError
  have hnamed : paramOfOid params (xmssOid (readMemory contents env.heap xmssOidLen))
      = .ok set.param := by
    rw [readMemory_take _ hlen, hoid]
    exact hparams set hset
  exact bind_eq_ok.mpr ⟨(), allocated_ok_iff.mpr hworking.keyAlloc, bind_eq_ok.mpr
    ⟨(), succeeds_ok_iff.mpr (by rw [hinit]), bind_eq_ok.mpr ⟨_, hload, bind_eq_ok.mpr
      ⟨(), allocated_ok_iff.mpr hworking.paramAlloc, bind_eq_ok.mpr ⟨_, hnamed, bind_eq_ok.mpr
        ⟨fresh, succeeds_ok_iff.mpr hparam, succeeds_ok_iff.mpr himport⟩⟩⟩⟩⟩⟩

theorem xmssSets_oids : ∀ set ∈ paramSets .xmss, paramOfOid xmssParams set.oid = .ok set.param :=
  fun _ hset => (xmssName_set hset (show (List.replicate 5 (0 : Byte)).length = 5 from rfl)).2

theorem xmssmtSets_oids :
    ∀ set ∈ paramSets .xmssmt, paramOfOid xmssmtParams set.oid = .ok set.param :=
  fun _ hset => (xmssmtName_set hset (show (List.replicate 5 (0 : Byte)).length = 5 from rfl)).2

theorem preparedKey_loaded (hworking : Working env) (hinit : lib.init alg = 0)
    (hfits : KeyFits lib alg pubIn inForm contents)
    (hpos : alg = .rsa ∨ alg = .ecc → 0 < lib.outputSize alg key)
    (h : VerifyKeyOf lib alg pubIn inForm contents key) :
    preparedKey lib.toVerifyLib env alg (wholeFile contents) pubIn inForm = .ok key := by
  cases alg with
  | rsa => exact bufferedKey_loaded hworking hinit hfits (.inl rfl) (hpos (.inl rfl)) h
  | ecc => exact bufferedKey_loaded hworking hinit hfits (.inr rfl) (hpos (.inr rfl)) h
  | ed25519 => exact ed25519Key_loaded hworking hinit hfits h
  | dilithium => exact dilithiumKey_loaded hworking hinit hfits h
  | xmss => exact xmssFamilyKey_loaded hworking hinit (by decide) hfits xmssSets_oids h
  | xmssmt => exact xmssFamilyKey_loaded hworking hinit (by decide) hfits xmssmtSets_oids h

theorem pem_fits {pub : Bool} {der buf : List Byte} (hpub : pub = decide (pubIn ≠ 0))
    (hform : DerForm lib pub inForm contents der)
    (hder : keyDer lib.toVerifyLib env pubIn inForm contents = .ok buf) (hpem : inForm = .pem) :
    lib.pemSize pub contents ≤ maxKeyPemDerSz := by
  subst hpub
  have hfits := ((keyDer_form_iff hform).mp hder).2 hpem
  by_contra hlarge
  have hmax : 0 < maxKeyPemDerSz := by decide
  exact hlarge (hfits (by omega)).1

theorem public_pem_fits {der buf : List Byte} (hpub : pubIn = 1)
    (hform : DerForm lib true inForm contents der)
    (hder : keyDer lib.toVerifyLib env pubIn inForm contents = .ok buf) (hpem : inForm = .pem) :
    lib.pemSize (decide (pubIn ≠ 0)) contents ≤ maxKeyPemDerSz := by
  have htrue : true = decide (pubIn ≠ 0) := by
    rw [hpub]
    rfl
  rw [← htrue]
  exact pem_fits htrue hform hder hpem

theorem keyFits_of_prepared {key' : κ} (h : VerifyKeyOf lib alg pubIn inForm contents key)
    (hprepared : preparedKey lib.toVerifyLib env alg (wholeFile contents) pubIn inForm = .ok key') :
    KeyFits lib alg pubIn inForm contents := by
  have hloads := (preparedKey_usable hprepared).loads
  refine ⟨hloads.low, hloads.high, fun hfamily hpem => ?_⟩
  have hraw : inForm ≠ .raw := by
    rw [hpem]
    decide
  cases alg with
  | rsa | ecc =>
    obtain ⟨-, buf, hder, -⟩ := bufferedKey_ok hprepared
    rw [wholeFile_loaded] at hder
    simp only [VerifyKeyOf] at h
    simp only [reduceCtorEq, false_or]
    by_cases hpub : pubIn = 1
    · rw [if_pos hpub] at h
      obtain ⟨der, hform, -⟩ := h
      exact public_pem_fits hpub hform hder hpem
    · rw [if_neg hpub] at h
      obtain ⟨der, hform, -⟩ := h
      exact pem_fits rfl hform hder hpem
  | ed25519 =>
    obtain ⟨-, buf, hder, -⟩ := ed25519Key_ok hprepared
    rw [wholeFile_loaded] at hder
    simp only [VerifyKeyOf, if_neg hraw] at h
    simp only [reduceCtorEq, false_or]
    by_cases hpub : pubIn = 1
    · rw [if_pos hpub] at h
      obtain ⟨der, hform, -⟩ := h
      exact public_pem_fits hpub hform hder hpem
    · rw [if_neg hpub] at h
      obtain ⟨priv, -, der, hform, -⟩ := h
      exact pem_fits rfl hform hder hpem
  | dilithium =>
    obtain ⟨-, buf, hder, -⟩ := dilithiumKey_ok hprepared
    rw [wholeFile_loaded] at hder
    obtain ⟨der, hform, -⟩ := h
    simp only [true_or, decide_true]
    exact @pem_fits _ lib env inForm contents 1 true der buf rfl hform hder hpem
  | xmss | xmssmt => cases hfamily

end Verifying

section RoundTrip
variable {κ : Type} {lib : SignatureLib κ} {Matches : SigAlg → κ → κ → Prop} {senv : SignatureEnv}
  {env : VerifyEnv} {inForm : Form} {contents msg sig : List Byte} {pubIn : Int} {alg : SigAlg}
  {priv pub : κ}

theorem eccDigest_size (h : lib.eccSize pub = lib.eccSize priv) :
    eccDigest lib.toVerifyLib pub msg = eccDigest lib.toVerifyLib priv msg := by
  simp only [eccDigest, h]

theorem outputSize_positive (laws : SignatureLaws lib Matches) (hmatch : Matches alg priv pub)
    (hsigned : Signed lib alg priv msg sig) (hsig : 0 < sig.length)
    (halg : alg = .rsa ∨ alg = .ecc) : 0 < lib.outputSize alg pub := by
  rw [laws.outputSize hmatch]
  rcases halg with rfl | rfl
  · exact hsigned.1
  · obtain ⟨digest, -, hsign⟩ := hsigned
    have hle := (laws.ecc hmatch hsign).1
    omega

theorem rsaOutput_working (hworking : Working env) (ret : Int) : rsaOutput env ret = ret := by
  simp [rsaOutput, hworking.outOpens, hworking.outWrites]

theorem verifyMessage_accepts (laws : SignatureLaws lib Matches) (hworking : Working env)
    (hmatch : Matches alg priv pub) (hsigned : Signed lib alg priv msg sig) {hash : List Byte}
    (hhash : alg ≠ .rsa → hash = msg) {keyPath : VerifyFile}
    (hkey : preparedKey lib.toVerifyLib env alg keyPath pubIn inForm = .ok pub) :
    (verifyMessage lib.toVerifyLib env alg sig hash keyPath pubIn inForm).ret = wolfcluSuccess := by
  cases alg with
  | rsa =>
    have hloaded : rsaKey lib.toVerifyLib env keyPath pubIn inForm = .ok pub := hkey
    obtain ⟨-, ret, hsign, hret⟩ := hsigned
    have hverify := (laws.rsa hmatch hsign hret).1
    simp only [verifyMessage, verifySignatureRsa, hloaded, rsaOutput_working hworking, hverify]
    exact finish_success_iff.mpr (Int.natCast_nonneg _)
  | ecc =>
    have hloaded : eccKey lib.toVerifyLib env keyPath pubIn inForm = .ok pub := hkey
    obtain rfl := hhash (by decide)
    obtain ⟨digest, hdigest, hsign⟩ := hsigned
    have hverify := (laws.ecc hmatch hsign).2
    rw [← eccDigest_size (laws.eccSize hmatch)] at hdigest
    simp only [verifyMessage, verifySignatureEcc, hloaded, hdigest, hverify]
    rfl
  | ed25519 =>
    have hloaded : ed25519Key lib.toVerifyLib env keyPath pubIn inForm = .ok pub := hkey
    obtain rfl := hhash (by decide)
    have hverify := laws.ed25519 hmatch hsigned
    simp only [verifyMessage, verifySignatureEd25519, hloaded, hverify]
    rfl
  | dilithium =>
    have hloaded : dilithiumKey lib.toVerifyLib env keyPath inForm = .ok pub := hkey
    obtain rfl := hhash (by decide)
    obtain ⟨n, hsign⟩ := hsigned
    have hverify := laws.dilithium hmatch hsign
    simp only [verifyMessage, verifySignatureDilithium, hloaded, hverify]
    rfl
  | xmss =>
    have hloaded : xmssFamilyKey lib.toVerifyLib env .xmss xmssParams keyPath = .ok pub := hkey
    obtain rfl := hhash (by decide)
    obtain ⟨n, hsign⟩ := hsigned
    have hverify := laws.xmss (.inl hmatch) hsign
    simp only [verifyMessage, verifySignatureXmss, verifyXmssFamily, hloaded, hverify]
    rfl
  | xmssmt =>
    have hloaded : xmssFamilyKey lib.toVerifyLib env .xmssmt xmssmtParams keyPath = .ok pub := hkey
    obtain rfl := hhash (by decide)
    obtain ⟨n, hsign⟩ := hsigned
    have hverify := laws.xmss (.inr hmatch) hsign
    simp only [verifyMessage, verifySignatureXmssmt, verifyXmssFamily, hloaded, hverify]
    rfl

def signedFiles (sig msg contents : List Byte) : VerifyFiles :=
  ⟨wholeFile sig, wholeFile msg, wholeFile contents⟩

structure VerifyReads (lib : SignatureLib κ) (alg : SigAlg) (pubIn : Int) (inForm : Form)
    (sig msg contents : List Byte) : Prop where
  signature : sig.length ≤ maxFileSize
  message : alg = .rsa ∨ msg.length ≤ maxFileSize
  key : KeyFits lib alg pubIn inForm contents

theorem whole_loads (hsize : msg.length ≤ maxFileSize) : Loads 0 maxFileSize (wholeFile msg) :=
  ⟨rfl, Int.natCast_nonneg _, hsize, rfl, rfl, rfl⟩

theorem reads_of_success (hkey : VerifyKeyOf lib alg pubIn inForm contents pub)
    (h : (verifySignature lib.toVerifyLib env (signedFiles sig msg contents) (some alg) pubIn
      inForm).ret = wolfcluSuccess) : VerifyReads lib alg pubIn inForm sig msg contents := by
  obtain ⟨hsig, hmsg⟩ := verifySignature_loads h
  obtain ⟨call, -, hverified⟩ := verifySignature_verified h
  refine ⟨hsig.high, ?_, keyFits_of_prepared hkey hverified.prepared⟩
  by_cases halg : alg = .rsa
  · exact .inl halg
  · exact .inr (hmsg halg).high

theorem success_of_reads (laws : SignatureLaws lib Matches) (hworking : Working env)
    (hinit : lib.init alg = 0) (hmatch : Matches alg priv pub)
    (hsigned : Signed lib alg priv msg sig) (hsig : 0 < sig.length)
    (hkey : VerifyKeyOf lib alg pubIn inForm contents pub)
    (hreads : VerifyReads lib alg pubIn inForm sig msg contents) :
    (verifySignature lib.toVerifyLib env (signedFiles sig msg contents) (some alg) pubIn
      inForm).ret = wolfcluSuccess := by
  have hprepared := preparedKey_loaded hworking hinit hreads.key
    (outputSize_positive laws hmatch hsigned hsig) hkey
  have hloads : Loads 0 maxFileSize (signedFiles sig msg contents).signature :=
    whole_loads hreads.signature
  by_cases halg : alg = .rsa
  · subst halg
    rw [verifySignature_rsa hloads, signedFiles, wholeFile_loaded]
    exact verifyMessage_accepts laws hworking hmatch hsigned (fun h => absurd rfl h) hprepared
  · have hmsg : Loads 0 maxFileSize (signedFiles sig msg contents).message :=
      whole_loads (hreads.message.resolve_left halg)
    rw [verifySignature_message halg hloads hmsg, signedFiles, wholeFile_loaded, wholeFile_loaded]
    exact verifyMessage_accepts laws hworking hmatch hsigned (fun _ => rfl) hprepared

theorem rsaWritten_message (laws : SignatureLaws lib Matches) (hworking : Working env)
    (hinit : lib.init .rsa = 0) (hmatch : Matches .rsa priv pub)
    (hsigned : Signed lib .rsa priv msg sig) (hsig : 0 < sig.length) (hmsg : 0 < msg.length)
    (hkey : VerifyKeyOf lib .rsa pubIn inForm contents pub)
    (hreads : VerifyReads lib .rsa pubIn inForm sig msg contents) :
    rsaWritten lib env (signedFiles sig msg contents) pubIn inForm = some msg := by
  have hloaded : rsaKey lib.toVerifyLib env (wholeFile contents) pubIn inForm = .ok pub :=
    preparedKey_loaded hworking hinit hreads.key (outputSize_positive laws hmatch hsigned hsig) hkey
  have hload : loadInput (wholeFile sig) = .ok sig :=
    loadFile_whole (Int.natCast_nonneg _) hreads.signature
  obtain ⟨-, ret, hsign, hret⟩ := hsigned
  obtain ⟨hverify, hrecovered⟩ := laws.rsa hmatch hsign hret
  simp only [rsaWritten, signedFiles, hload, hloaded, hverify, hworking.outOpens, hworking.outWrites,
    and_true, if_true, Int.toNat_natCast, hrecovered]
  rw [if_pos (by omega)]

theorem sign_verify_iff (laws : SignatureLaws lib Matches) {files : SignatureFiles}
    (hmessage : files.message = wholeFile msg)
    (hpair : KeyPair lib Matches alg inForm files pubIn contents)
    (hcomplete : ∀ n, senv.written n = n) (hworking : Working env)
    (hsign : (signData lib senv files (some alg) inForm).ret = wolfcluSuccess) :
    ∃ sig, (signData lib senv files (some alg) inForm).out = some sig ∧
      ((verifySignature lib.toVerifyLib env (signedFiles sig msg contents) (some alg) pubIn
          inForm).ret = wolfcluSuccess ↔ VerifyReads lib alg pubIn inForm sig msg contents) ∧
      (alg = .rsa → VerifyReads lib alg pubIn inForm sig msg contents →
        rsaWritten lib env (signedFiles sig msg contents) pubIn inForm = some msg) := by
  obtain ⟨priv, pub, hpriv, hkey, hmatch⟩ := hpair.matched
  cases hload : loadMessage files.message with
  | error ret =>
    have hneg : ret < 0 := loadMessage_negative _ ret hload
    simp only [signData, hload, wolfcluSuccess] at hsign
    omega
  | ok data =>
    have hdata := hload
    rw [hmessage] at hdata
    obtain ⟨rfl, hpos, -⟩ := loadMessage_ok hdata
    simp only [signData, hload] at hsign ⊢
    obtain ⟨sig, hdone⟩ := signMessage_done hpair.whole hpair.size hcomplete hpriv hsign
    refine ⟨sig, hdone.out, ⟨reads_of_success hkey, fun hreads => ?_⟩, ?_⟩
    · exact success_of_reads laws hworking hdone.init hmatch hdone.signed hdone.nonempty hkey hreads
    · rintro rfl hreads
      exact rsaWritten_message laws hworking hdone.init hmatch hdone.signed hdone.nonempty hpos hkey
        hreads

end RoundTrip

def echoLib : SignatureLib (List Byte) where
  toVerifyLib := { acceptLib with rsaVerify := fun _ sig => sig.length }
  initRng := 0
  rsaSetRng := 0
  rsaSign _ msg _ := (0, msg)
  rsaRecovered _ sig := sig
  eccSign _ digest n := (0, digest.take n)
  ed25519Sign _ _ := (0, str "signature")
  dilithiumSign _ _ _ := (0, str "signature")
  xmssSetCallbacks := 0
  xmssSigLen _ := (0, 1)
  xmssSetContext := 0
  xmssReload key _ := (0, key)
  xmssSign _ _ _ := (0, str "signature")
  rsaMaxSize := 4096
  maxEccBitsNeeded := 521
  initRng_le := le_rfl
  rsaSetRng_le := le_rfl
  eccSign_le _ _ _ := le_rfl
  ed25519Sign_le _ _ := le_rfl
  dilithiumSign_le _ _ _ := le_rfl
  xmssSetCallbacks_le := le_rfl
  xmssSigLen_le _ := le_rfl
  xmssSetContext_le := le_rfl
  xmssReload_le _ _ := le_rfl
  xmssSign_le _ _ _ := le_rfl

def AnyKey (_ : SigAlg) (_ _ : List Byte) : Prop := True

theorem echo_laws : SignatureLaws echoLib AnyKey where
  outputSize _ := rfl
  eccSize _ := rfl
  rsa _ hsign _ := by
    obtain ⟨-, rfl⟩ := Prod.mk.inj hsign
    exact ⟨rfl, List.take_length⟩
  ecc _ hsign := by
    obtain ⟨-, rfl⟩ := Prod.mk.inj hsign
    exact ⟨List.length_take_le _ _, rfl⟩
  ed25519 _ _ := rfl
  dilithium _ _ := rfl
  xmss _ _ := rfl

def echoEnv : SignatureEnv := { acceptEnv fun _ => 0 with written := fun n => n }

theorem echoEnv_working : Working echoEnv.toVerifyEnv := ⟨rfl, rfl, rfl, rfl, rfl, rfl⟩

def echoFiles (msg : List Byte) : SignatureFiles := ⟨wholeFile msg, [], wholeFile (str "private")⟩

theorem echo_pair {alg : SigAlg} {msg contents : List Byte}
    (halg : alg = .rsa ∨ alg = .ed25519 ∨ alg = .dilithium) :
    KeyPair echoLib AnyKey alg .der (echoFiles msg) 1 contents := by
  have hsize : ((str "private").length : Int) ≤ MachineInt.intMax := by decide
  refine ⟨rfl, hsize, str "private", contents, ?_, ?_, trivial⟩
  · rcases halg with rfl | rfl | rfl
    · exact ⟨_, rfl, rfl⟩
    · exact ⟨_, ⟨_, rfl, rfl⟩, rfl⟩
    · exact ⟨_, rfl, rfl⟩
  · rcases halg with rfl | rfl | rfl <;> exact ⟨_, rfl, rfl⟩

theorem echo_rsa_roundTrip :
    ∃ sig, (signData echoLib echoEnv (echoFiles (str "msg")) (some .rsa) .der).out = some sig ∧
      ((verifySignature echoLib.toVerifyLib echoEnv.toVerifyEnv
          (signedFiles sig (str "msg") (str "public")) (some .rsa) 1 .der).ret = wolfcluSuccess ↔
        VerifyReads echoLib .rsa 1 .der sig (str "msg") (str "public")) ∧
      (SigAlg.rsa = .rsa → VerifyReads echoLib .rsa 1 .der sig (str "msg") (str "public") →
        rsaWritten echoLib echoEnv.toVerifyEnv (signedFiles sig (str "msg") (str "public")) 1 .der
          = some (str "msg")) :=
  sign_verify_iff echo_laws rfl (echo_pair (.inl rfl)) (fun _ => rfl) echoEnv_working (by decide)

theorem loadMessage_whole {msg : List Byte} (hpos : 0 < msg.length)
    (hsize : msg.length ≤ MachineInt.intMax) : loadMessage (wholeFile msg) = .ok msg := by
  have hrange : ¬ ((wholeFile msg).size ≤ 0 ∨ MachineInt.intMax < (wholeFile msg).size) := by
    rw [wholeFile_size]
    omega
  simp only [loadMessage, if_neg hrange]
  simp [wholeFile, VerifyFile.size]

theorem long_message_refused {msg : List Byte} (hlen : msg.length = 268435456) :
    signData echoLib echoEnv (echoFiles msg) (some .ed25519) .der
        = ⟨wolfcluSuccess, some (str "signature")⟩ ∧
      (verifySignature echoLib.toVerifyLib echoEnv.toVerifyEnv
        (signedFiles (str "signature") msg (str "public")) (some .ed25519) 1 .der).ret
          ≠ wolfcluSuccess := by
  constructor
  · have hload : loadMessage (echoFiles msg).message = .ok msg :=
      loadMessage_whole (by omega) (by rw [hlen]; decide)
    have hkey : ed25519SigningKey echoLib echoEnv (echoFiles msg).key .der = .ok (str "private") :=
      show ed25519SigningKey echoLib echoEnv (wholeFile (str "private")) .der = _ by decide
    have hsig : echoLib.ed25519Sign (str "private") msg = (0, str "signature") := rfl
    simp only [signData, hload, signMessage, signDataEd25519, hkey, hsig]
    decide
  · intro h
    have hread := ((verifySignature_loads h).2 (by decide)).high
    simp only [signedFiles, wholeFile_size, hlen, maxFileSize] at hread
    omega

theorem long_key_refused {msg sig contents : List Byte} (hlen : contents.length = 10268) :
    (verifySignature echoLib.toVerifyLib echoEnv.toVerifyEnv (signedFiles sig msg contents)
      (some .dilithium) 1 .der).ret ≠ wolfcluSuccess := by
  intro h
  have hkey : VerifyKeyOf echoLib .dilithium 1 .der contents contents := ⟨_, rfl, rfl⟩
  have hread : contents.length ≤ dilithiumMaxBothKeyPemSize := (reads_of_success hkey h).key.high
  rw [hlen] at hread
  exact absurd hread (by decide)

theorem exists_file (n : Nat) : ∃ file : List Byte, file.length = n :=
  ⟨List.replicate n 0, List.length_replicate⟩

theorem large_files_refused :
    (∃ msg sig : List Byte, KeyPair echoLib AnyKey .ed25519 .der (echoFiles msg) 1 (str "public") ∧
      signData echoLib echoEnv (echoFiles msg) (some .ed25519) .der = ⟨wolfcluSuccess, some sig⟩ ∧
      (verifySignature echoLib.toVerifyLib echoEnv.toVerifyEnv
        (signedFiles sig msg (str "public")) (some .ed25519) 1 .der).ret ≠ wolfcluSuccess) ∧
    (∃ msg sig contents : List Byte,
      KeyPair echoLib AnyKey .dilithium .der (echoFiles msg) 1 contents ∧
      signData echoLib echoEnv (echoFiles msg) (some .dilithium) .der = ⟨wolfcluSuccess, some sig⟩ ∧
      (verifySignature echoLib.toVerifyLib echoEnv.toVerifyEnv
        (signedFiles sig msg contents) (some .dilithium) 1 .der).ret ≠ wolfcluSuccess) := by
  obtain ⟨msg, hmsg⟩ := exists_file 268435456
  obtain ⟨contents, hcontents⟩ := exists_file 10268
  exact ⟨⟨msg, str "signature", echo_pair (.inr (.inl rfl)), long_message_refused hmsg⟩,
    ⟨str "msg", str "signature", contents, echo_pair (.inr (.inr rfl)), by decide,
      long_key_refused hcontents⟩⟩

end WolfCLU
