import WolfCLU.GenKey.KeyContents
import WolfCLU.SignVerify.SignRoundTrip

namespace WolfCLU
open CString

def KeyKind.alg : KeyKind → SigAlg
  | .ed25519 => .ed25519
  | .ecc => .ecc
  | .rsa => .rsa
  | .dilithium | .mlDsa => .dilithium

section Codec
variable {κ : Type} (lib : GenKeyLib κ) (sig : SignatureLib κ) (Matches : SigAlg → κ → κ → Prop)

structure KeyCodec : Prop where
  privDecode : ∀ {kind key der}, KeyDer lib kind key .priv der →
    ∃ seed, sig.privateDecode kind.alg der = (0, seed) ∧
      if kind = .ed25519 then sig.makePublic seed = (0, key) else seed = key
  pubDecode : ∀ {kind key der}, KeyDer lib kind key .pub der →
    ∃ pub, sig.publicDecode kind.alg der = (0, pub) ∧ Matches kind.alg key pub
  pem : ∀ {pemType der n text}, lib.pem pemType der n = .ok text → text ≠ [] →
    PemOf sig (decide (pemType = .publicKey)) text der
  eccPriv : ∀ {key text}, lib.eccPem .priv key = some text → text ≠ [] →
    ∃ der, PemOf sig false text der ∧ sig.privateDecode .ecc der = (0, key)
  eccPub : ∀ {key text}, lib.eccPem .pub key = some text → text ≠ [] →
    ∃ der pub, PemOf sig true text der ∧ sig.publicDecode .ecc der = (0, pub) ∧
      Matches .ecc key pub
  rawPriv : ∀ {key raw}, lib.ed25519Export key = .ok raw → RawPrivate sig raw.1 key
  rawPub : ∀ {key raw}, lib.ed25519Export key = .ok raw →
    ed25519KeySize ≤ raw.2.length ∧
      ∃ pub, sig.importPublic (raw.2.take ed25519KeySize) = (0, pub) ∧ Matches .ed25519 key pub

end Codec

section Pair
variable {κ : Type} {lib : GenKeyLib κ} {sig : SignatureLib κ} {Matches : SigAlg → κ → κ → Prop}
  {env : GenKeyEnv} {fmt : Form} {kind : KeyKind} {key : κ} {text der : List Byte}
  {pemType : KeyPem} {keyName : List Byte}

theorem derForm_of_text (codec : KeyCodec lib sig Matches)
    (htext : FileText lib fmt pemType der text) (hne : text ≠ []) :
    DerForm sig (decide (pemType = .publicKey)) fmt text der := by
  unfold FileText at htext
  unfold DerForm
  split_ifs at htext ⊢
  · rcases htext with hempty | ⟨n, hpem⟩
    · exact absurd hempty hne
    · exact codec.pem hpem hne
  · exact htext.symm

theorem privateKeyOf_text (codec : KeyCodec lib sig Matches)
    (htext : KeyText lib fmt key .priv kind text) (hne : text ≠ []) :
    PrivateKeyOf sig kind.alg fmt keyName text key := by
  cases htext with
  | raw hfmt h =>
    simp only [KeyKind.alg, PrivateKeyOf, if_pos hfmt]
    exact codec.rawPriv h
  | ecc hfmt h =>
    obtain ⟨der, hpem, hdecode⟩ := codec.eccPriv h hne
    refine ⟨der, ?_, hdecode⟩
    rw [DerForm, if_pos hfmt]
    exact hpem
  | @encoded _ der _ pemType hraw hder htype htext =>
    have hpub : decide (pemType = .publicKey) = false :=
      decide_eq_false fun h => by cases htype.mp h
    have hform := derForm_of_text codec htext hne
    rw [hpub] at hform
    obtain ⟨seed, hdecode, hseed⟩ := codec.privDecode hder
    cases kind with
    | ed25519 =>
      simp only [KeyKind.alg, PrivateKeyOf, if_neg (hraw rfl)]
      exact ⟨seed, ⟨der, hform, hdecode⟩, hseed⟩
    | ecc =>
      obtain rfl : seed = key := hseed
      exact ⟨der, hform, hdecode⟩
    | rsa =>
      obtain rfl : seed = key := hseed
      exact ⟨der, hform, hdecode⟩
    | dilithium =>
      obtain rfl : seed = key := hseed
      exact ⟨der, hform, hdecode⟩
    | mlDsa =>
      obtain rfl : seed = key := hseed
      exact ⟨der, hform, hdecode⟩

theorem verifyKeyOf_text (codec : KeyCodec lib sig Matches)
    (htext : KeyText lib fmt key .pub kind text) (hne : text ≠ []) :
    ∃ pub, VerifyKeyOf sig kind.alg 1 fmt text pub ∧ Matches kind.alg key pub := by
  cases htext with
  | raw hfmt h =>
    obtain ⟨hlen, pub, himport, hmatch⟩ := codec.rawPub h
    refine ⟨pub, ?_, hmatch⟩
    simp only [KeyKind.alg, VerifyKeyOf, if_true, if_pos hfmt]
    exact ⟨hlen, himport⟩
  | ecc hfmt h =>
    obtain ⟨der, pub, hpem, hdecode, hmatch⟩ := codec.eccPub h hne
    refine ⟨pub, ?_, hmatch⟩
    simp only [KeyKind.alg, VerifyKeyOf, if_true]
    refine ⟨der, ?_, hdecode⟩
    rw [DerForm, if_pos hfmt]
    exact hpem
  | @encoded _ der _ pemType hraw hder htype htext =>
    have hpub : decide (pemType = .publicKey) = true := decide_eq_true (htype.mpr rfl)
    have hform := derForm_of_text codec htext hne
    rw [hpub] at hform
    obtain ⟨pub, hdecode, hmatch⟩ := codec.pubDecode hder
    have hpublic : DerPublic sig kind.alg fmt text pub := ⟨der, hform, hdecode⟩
    refine ⟨pub, ?_, hmatch⟩
    cases kind with
    | ed25519 =>
      simp only [KeyKind.alg, VerifyKeyOf, if_true, if_neg (hraw rfl)]
      exact hpublic
    | ecc =>
      simp only [KeyKind.alg, VerifyKeyOf, if_true]
      exact hpublic
    | rsa =>
      simp only [KeyKind.alg, VerifyKeyOf, if_true]
      exact hpublic
    | dilithium => exact hpublic
    | mlDsa => exact hpublic

end Pair

section Verifies
variable {κ : Type} {sig : SignatureLib κ} {Matches : SigAlg → κ → κ → Prop} {alg : SigAlg}
  {fmt : Form} {pubIn : Int} {msg priv pub privName : List Byte} {senv : SignatureEnv}
  {venv : VerifyEnv}

def PairWorks (sig : SignatureLib κ) (senv : SignatureEnv) (venv : VerifyEnv) (alg : SigAlg)
    (fmt : Form) (privName priv pub : List Byte) : Prop :=
  ∀ msg, (signData sig senv ⟨wholeFile msg, privName, wholeFile priv⟩ (some alg) fmt).ret =
      wolfcluSuccess →
    ∃ s, (signData sig senv ⟨wholeFile msg, privName, wholeFile priv⟩ (some alg) fmt).out = some s ∧
      ((verifySignature sig.toVerifyLib venv (signedFiles s msg pub) (some alg) 1 fmt).ret =
          wolfcluSuccess ↔ VerifyReads sig alg 1 fmt s msg pub)

theorem pair_works (laws : SignatureLaws sig Matches) (hcomplete : ∀ n, senv.written n = n)
    (hworking : Working venv)
    (hpair : ∀ message, KeyPair sig Matches alg fmt ⟨message, privName, wholeFile priv⟩ 1 pub) :
    PairWorks sig senv venv alg fmt privName priv pub := by
  intro msg hsign
  obtain ⟨privKey, pubKey, hpriv, hkey, hmatch⟩ := (hpair (wholeFile msg)).matched
  cases hload : loadMessage (wholeFile msg) with
  | error ret =>
    have hneg : ret < 0 := loadMessage_negative _ ret hload
    simp only [signData, hload, wolfcluSuccess] at hsign
    omega
  | ok data =>
    obtain ⟨rfl, -, -⟩ := loadMessage_ok hload
    simp only [signData, hload] at hsign ⊢
    obtain ⟨s, hdone⟩ := signMessage_done (hpair (wholeFile data)).whole
      (hpair (wholeFile data)).size hcomplete hpriv hsign
    exact ⟨s, hdone.out, reads_of_success hkey, fun hreads =>
      success_of_reads laws hworking hdone.init hmatch hdone.signed hdone.nonempty hkey hreads⟩

end Verifies

section Generated
variable {κ : Type} {lib : GenKeyLib κ} {sig : SignatureLib κ} {Matches : SigAlg → κ → κ → Prop}
  {env : GenKeyEnv} {fmt : Form} {kind : KeyKind} {request : KeyRequest} {fName : List Byte}
  {disk : Disk} {senv : SignatureEnv} {venv : VerifyEnv}

theorem PartWritten.whole {key : κ} {part : KeyPart}
    (h : PartWritten lib env fmt kind fName disk key part)
    (hstored : ∀ part n, n ≤ env.stored part n) :
    ∃ text, KeyText lib fmt key part kind text ∧ disk (fName ++ part.append) = some text := by
  obtain ⟨text, htext, -, hdisk⟩ := h
  refine ⟨text, htext, hdisk.trans ?_⟩
  rw [List.take_of_length_le (hstored part text.length)]

theorem keyTexts_pair (codec : KeyCodec lib sig Matches) {key : κ} {priv pub : List Byte}
    (hpriv : KeyText lib fmt key .priv kind priv) (hpub : KeyText lib fmt key .pub kind pub)
    (hsize : priv.length ≤ MachineInt.intMax) (hprivNe : priv ≠ []) (hpubNe : pub ≠ [])
    (privName : List Byte) (message : VerifyFile) :
    KeyPair sig Matches kind.alg fmt ⟨message, privName, wholeFile priv⟩ 1 pub := by
  obtain ⟨pubKey, hverify, hmatch⟩ := verifyKeyOf_text codec hpub hpubNe
  exact ⟨rfl, hsize, key, pubKey, privateKeyOf_text codec hpriv hprivNe, hverify, hmatch⟩

theorem genKey_sign_verify (laws : SignatureLaws sig Matches) (codec : KeyCodec lib sig Matches)
    (hstored : ∀ part n, n ≤ env.stored part n) (hkind : request.kind = some kind)
    (h : (genKeyDispatch lib env request fName .privAndPub fmt disk).ret = wolfcluSuccess)
    (hcomplete : ∀ n, senv.written n = n) (hworking : Working venv) :
    ∃ priv pub,
      (genKeyDispatch lib env request fName .privAndPub fmt disk).disk
        (fName ++ KeyPart.priv.append) = some priv ∧
      (genKeyDispatch lib env request fName .privAndPub fmt disk).disk
        (fName ++ KeyPart.pub.append) = some pub ∧
      (priv.length ≤ MachineInt.intMax → priv ≠ [] → pub ≠ [] →
        PairWorks sig senv venv kind.alg fmt (fName ++ KeyPart.priv.append) priv pub) := by
  have hrun : Generates lib env fmt kind fName .privAndPub disk
      (genKeyDispatch lib env request fName .privAndPub fmt disk) := genKeyDispatch_generates hkind
  obtain ⟨key, hwritten⟩ := hrun.written h
  obtain ⟨priv, hpriv, hprivFile⟩ := (hwritten .priv List.mem_cons_self).whole hstored
  obtain ⟨pub, hpub, hpubFile⟩ :=
    (hwritten .pub (List.mem_cons_of_mem _ List.mem_cons_self)).whole hstored
  refine ⟨priv, pub, hprivFile, hpubFile, fun hsize hprivNe hpubNe => ?_⟩
  exact pair_works laws hcomplete hworking
    (keyTexts_pair codec hpriv hpub hsize hprivNe hpubNe _)

end Generated

def paramNumber (param : List Byte) : List Byte :=
  match (xmssSets ++ xmssmtSets).find? fun set => set.param = param with
  | some set => [0, 0, 0, UInt8.ofNat set.oid]
  | none => []

theorem refused_neg {α : Type} {e : Int} (h : (Except.error (-1) : Except Int α) = .error e) :
    e < 0 := by
  cases h
  decide

theorem guarded_neg {p : Prop} [Decidable p] {α : Type} {x : α} {e : Int}
    (h : (if p then Except.ok x else .error (-1)) = .error e) : e < 0 := by
  by_cases hp : p
  · rw [if_pos hp] at h
    cases h
  · rw [if_neg hp] at h
    exact refused_neg h

theorem verdict_le {p : Prop} [Decidable p] : (if p then 0 else -1 : Int) ≤ 0 := by
  by_cases hp : p
  · rw [if_pos hp]
  · rw [if_neg hp]
    decide

theorem never_refused {α : Type} {p : Prop} {a : α} {ret : Int}
    (h : (Except.ok a : Except Int α) = .error ret) : p := by
  cases h

def bytesKeyLib : GenKeyLib (List Byte) where
  pemSize _ _ := -1
  pem _ _ _ := .error (-1)
  privSize _ key := key.length
  privDer _ key _ := .ok key
  pubSize _ key := key.length
  pubDer _ key _ := .ok key
  ed25519Init := 0
  ed25519Make := (0, List.replicate 64 5)
  ed25519PrivSize _ := 64
  ed25519PubSize _ := 32
  ed25519Export key := if key.length = 64 then .ok (key, key.take 32) else .error (-1)
  curveIdx _ := 0
  eccGenerate name := some name
  eccPem _ _ := none
  rsaInit := true
  rsaMake _ _ := some (str "rsa")
  levelInit _ := true
  levelMake _ _ := some (str "level")
  levelPubDer _ key _ _ := .ok key
  xmssInit := 0
  xmssSetParam param := (0, param)
  xmssSetWriteCb := 0
  xmssSetContext := 0
  xmssMake key := .ok (str "state", key)
  xmssMade rc := if rc = .savedToNvMemory then 0 else -1
  xmssPubLen _ := (0, 1)
  xmssExportPub key _ := .ok (paramNumber key)
  ed25519Init_le := Int.le_refl _
  ed25519Make_le := Int.le_refl _
  ed25519Export_error _ _ h := guarded_neg h
  xmssInit_le := Int.le_refl _
  xmssSetParam_le _ := Int.le_refl _
  xmssSetWriteCb_le := Int.le_refl _
  xmssSetContext_le := Int.le_refl _
  xmssMake_error _ _ h := never_refused h
  xmssMade_le _ := verdict_le
  xmssPubLen_le _ := Int.le_refl _
  xmssExportPub_error _ _ _ h := never_refused h
  pem_error _ _ _ _ h := refused_neg h
  privDer_error _ _ _ _ h := never_refused h
  pubDer_error _ _ _ _ h := never_refused h
  levelPubDer_error _ _ _ _ _ h := never_refused h

theorem bytesKey_codec : KeyCodec bytesKeyLib echoLib AnyKey where
  privDecode := by
    intro kind key der h
    cases h with
    | priv h =>
      cases h
      refine ⟨key, rfl, ?_⟩
      split_ifs <;> rfl
  pubDecode := by
    intro kind key der h
    exact ⟨der, rfl, trivial⟩
  pem h := by cases h
  eccPriv h := by cases h
  eccPub h := by cases h
  rawPriv := by
    intro key raw h
    simp only [bytesKeyLib] at h
    split_ifs at h with hlen
    cases h
    refine ⟨by rw [hlen]; decide, ?_⟩
    have htake : (key.drop ed25519KeySize).take ed25519KeySize = key.drop ed25519KeySize :=
      List.take_of_length_le (by rw [List.length_drop, hlen]; decide)
    simp only [echoLib, acceptLib, htake, List.take_append_drop]
  rawPub := by
    intro key raw h
    simp only [bytesKeyLib] at h
    split_ifs at h with hlen
    cases h
    refine ⟨?_, _, rfl, trivial⟩
    rw [List.length_take, hlen]
    decide

def plainKeyEnv : GenKeyEnv where
  nameAlloc := true
  derAlloc _ := true
  pemAlloc _ := true
  opens _ := true
  written _ n := n
  stored _ n := n
  saved := ⟨true, true, 5, 5, true, true, true, 5, true⟩

theorem rawKeys_generated :
    (genKeyDispatch bytesKeyLib plainKeyEnv .ed25519 (str "key") .privAndPub .raw
      fun _ => none).ret = wolfcluSuccess := by
  decide +kernel

theorem genKey_sign_verify_ed25519 :
    ∃ priv pub,
      (genKeyDispatch bytesKeyLib plainKeyEnv .ed25519 (str "key") .privAndPub .raw
        fun _ => none).disk (str "key" ++ KeyPart.priv.append) = some priv ∧
      (genKeyDispatch bytesKeyLib plainKeyEnv .ed25519 (str "key") .privAndPub .raw
        fun _ => none).disk (str "key" ++ KeyPart.pub.append) = some pub ∧
      (priv.length ≤ MachineInt.intMax → priv ≠ [] → pub ≠ [] →
        PairWorks echoLib echoEnv echoEnv.toVerifyEnv .ed25519 .raw
          (str "key" ++ KeyPart.priv.append) priv pub) := by
  have hworks := genKey_sign_verify echo_laws bytesKey_codec
    (show ∀ part n, n ≤ plainKeyEnv.stored part n from fun _ _ => le_rfl)
    (show KeyRequest.ed25519.kind = some .ed25519 from rfl) rawKeys_generated
    (show ∀ n, echoEnv.written n = n from fun _ => rfl) echoEnv_working
  exact hworks

section Xmss
variable {κ : Type} {lib : GenKeyLib κ} {sig : SignatureLib κ} {Matches : SigAlg → κ → κ → Prop}
  {env : GenKeyEnv} {fName param : List Byte} {disk : Disk} {alg : SigAlg} {set : ParamSet}
  {senv : SignatureEnv} {venv : VerifyEnv} {directive : Directive}

theorem slashToDash_append {front back : List Byte} (h : (47 : Byte) ∉ back) :
    slashToDash (front ++ back) = slashToDash front ++ back := by
  induction front with
  | nil =>
    rw [List.nil_append]
    induction back with
    | nil => rfl
    | cons c back ih =>
      rw [List.mem_cons, not_or] at h
      have hrest := ih h.2
      simp only [slashToDash, List.nil_append] at hrest ⊢
      rw [if_neg (Ne.symm h.1), hrest]
  | cons c front ih =>
    rw [List.cons_append, slashToDash, slashToDash, ih]
    split_ifs <;> rfl

theorem slashToDash_length (name : List Byte) : (slashToDash name).length = name.length := by
  induction name with
  | nil => rfl
  | cons c name ih =>
    rw [slashToDash]
    split_ifs
    · rfl
    · rw [List.length_cons, ih, List.length_cons]

theorem slashToDash_priv (fName : List Byte) :
    slashToDash (fName ++ KeyPart.priv.append) = slashToDash fName ++ KeyPart.priv.append :=
  slashToDash_append (by decide)

theorem slashToDash_param (hset : set ∈ paramSets alg) : slashToDash set.param = set.stem := by
  have hxmss : ∀ set ∈ xmssSets, slashToDash set.param = set.stem := by decide +kernel
  have hxmssmt : ∀ set ∈ xmssmtSets, slashToDash set.param = set.stem := by decide +kernel
  cases alg with
  | xmss => exact hxmss set hset
  | xmssmt => exact hxmssmt set hset
  | rsa => cases hset
  | ecc => cases hset
  | ed25519 => cases hset
  | dilithium => cases hset

structure XmssMakeLaws (lib : GenKeyLib κ) : Prop where
  made : ∀ {rc}, lib.xmssMade rc = 0 → rc = .savedToNvMemory
  state : ∀ {fresh state key}, lib.xmssMake fresh = .ok (state, key) → 0 < state.length

structure XmssCodec (lib : GenKeyLib κ) (sig : SignatureLib κ) (Matches : SigAlg → κ → κ → Prop)
    (alg : SigAlg) : Prop extends XmssMakeLaws lib where
  param : ∀ param, sig.xmssSetParam param = lib.xmssSetParam param
  reload : ∀ {fresh state key contents}, lib.xmssMake fresh = .ok (state, key) →
    Holds (some contents) state → sig.xmssReload fresh (some contents) = (0, key)
  oid : ∀ {set fresh state key n pub}, set ∈ paramSets alg →
    lib.xmssSetParam set.param = (0, fresh) →
    lib.xmssMake fresh = .ok (state, key) → lib.xmssExportPub key n = .ok pub →
    xmssOidLen ≤ pub.length ∧ xmssOid (pub.take xmssOidLen) = set.oid
  load : ∀ {fresh state key n pub}, lib.xmssMake fresh = .ok (state, key) →
    lib.xmssExportPub key n = .ok pub →
    ∃ pubKey, sig.xmssImport fresh pub = (0, pubKey) ∧ Matches alg key pubKey

theorem xmssPubFile_cases {key : κ} : (xmssPubFile lib env key).ret < 0 ∨
    ∃ n pub, lib.xmssExportPub key n = .ok pub ∧
      xmssPubFile lib env key = ⟨0, some (pub.take (env.stored .pub pub.length))⟩ := by
  unfold xmssPubFile
  by_cases hopens : ¬ env.opens .pub = true
  · rw [if_pos hopens]
    exact .inl (show outputFileError < 0 by decide)
  rw [if_neg hopens]
  have hle := lib.xmssPubLen_le key
  generalize lib.xmssPubLen key = len at hle
  obtain ⟨ret, pubSz⟩ := len
  simp only
  by_cases hzero : pubSz = 0
  · rw [if_pos hzero]
    exact .inl (show badFuncArg < 0 by decide)
  rw [if_neg hzero]
  by_cases hret : ret ≠ 0
  · rw [if_pos hret]
    exact .inl (lt_of_le_of_ne hle hret)
  rw [if_neg hret]
  by_cases halloc : ¬ env.derAlloc .pub = true
  · rw [if_pos halloc]
    exact .inl (show memoryE < 0 by decide)
  rw [if_neg halloc]
  cases hpub : lib.xmssExportPub key pubSz with
  | error e => exact .inl (lib.xmssExportPub_error _ _ _ hpub)
  | ok pub =>
    simp only
    by_cases hnone : (keyFwrite env .pub pub).1 = 0
    · rw [if_pos hnone]
      exact .inl (show outputFileError < 0 by decide)
    · rw [if_neg hnone]
      exact .inr ⟨pubSz, pub, hpub, rfl⟩

structure XmssMade (lib : GenKeyLib κ) (env : GenKeyEnv) (fName : List Byte) (directive : Directive)
    (param : List Byte) (disk disk' : Disk) (fresh : κ) (state : List Byte) (key : κ) : Prop where
  param : lib.xmssSetParam param = (0, fresh)
  made : lib.xmssMake fresh = .ok (state, key)
  saved : lib.xmssMade (xmssKeyWriteCb env.saved (some state) true
    (disk (slashToDash fName ++ KeyPart.priv.append))).1 = 0
  private_file : disk' (slashToDash fName ++ KeyPart.priv.append) =
    (xmssKeyWriteCb env.saved (some state) true
      (disk (slashToDash fName ++ KeyPart.priv.append))).2
  public_file : directive ≠ .privOnly → ∃ n pub, lib.xmssExportPub key n = .ok pub ∧
    disk' (slashToDash fName ++ KeyPart.pub.append) =
      some (pub.take (env.stored .pub pub.length))

theorem genKeyXMSSFiles_cases :
    (genKeyXMSSFiles lib env fName directive param disk).ret < 0 ∨
      (genKeyXMSSFiles lib env fName directive param disk).ret = 0 ∧ ∃ fresh state key,
        XmssMade lib env fName directive param disk
          (genKeyXMSSFiles lib env fName directive param disk).disk fresh state key := by
  have hne : slashToDash fName ++ KeyPart.priv.append ≠ slashToDash fName ++ KeyPart.pub.append :=
    append_ne
  unfold genKeyXMSSFiles
  simp only [slashToDash_priv, List.take_left' (slashToDash_length fName)]
  by_cases hinit : lib.xmssInit ≠ 0
  · rw [if_pos hinit]
    exact .inl (lt_of_le_of_ne lib.xmssInit_le hinit)
  rw [if_neg hinit]
  have hle := lib.xmssSetParam_le param
  by_cases hret : (lib.xmssSetParam param).1 ≠ 0
  · rw [if_pos hret]
    exact .inl (lt_of_le_of_ne hle hret)
  rw [if_neg hret]
  by_cases hcb : lib.xmssSetWriteCb ≠ 0
  · rw [if_pos hcb]
    exact .inl (lt_of_le_of_ne lib.xmssSetWriteCb_le hcb)
  rw [if_neg hcb]
  by_cases halloc : ¬ env.nameAlloc = true
  · rw [if_pos halloc]
    exact .inl (show memoryE < 0 by decide)
  rw [if_neg halloc]
  by_cases hcontext : lib.xmssSetContext ≠ 0
  · rw [if_pos hcontext]
    exact .inl (lt_of_le_of_ne lib.xmssSetContext_le hcontext)
  rw [if_neg hcontext]
  have hparam : lib.xmssSetParam param = (0, (lib.xmssSetParam param).2) :=
    Prod.ext (not_not.mp hret) rfl
  cases hmake : lib.xmssMake (lib.xmssSetParam param).2 with
  | error e => exact .inl (lib.xmssMake_error _ _ hmake)
  | ok made =>
    obtain ⟨state, key⟩ := made
    simp only
    by_cases hsaved : lib.xmssMade (xmssKeyWriteCb env.saved (some state) true
        (disk (slashToDash fName ++ KeyPart.priv.append))).1 ≠ 0
    · rw [if_pos hsaved]
      exact .inl (lt_of_le_of_ne (lib.xmssMade_le _) hsaved)
    rw [if_neg hsaved]
    by_cases hdirective : directive = .privOnly
    · rw [if_pos hdirective]
      exact .inr ⟨rfl, _, state, key, hparam, hmake, not_not.mp hsaved,
        Function.update_self _ _ _, fun h => absurd hdirective h⟩
    · rw [if_neg hdirective]
      rcases @xmssPubFile_cases κ lib env key with hneg | ⟨n, pub, hpub, hrun⟩
      · exact .inl hneg
      · refine .inr ⟨by rw [hrun], _, state, key, hparam, hmake, not_not.mp hsaved, ?_, fun _ => ?_⟩
        · exact (KeyFileRun.onDisk_of_ne hne _ _).trans (Function.update_self _ _ _)
        · exact ⟨n, pub, hpub, KeyFileRun.onDisk_self (by rw [hrun]) _ _⟩

theorem genKeyXMSS_made (h : (genKeyXMSS lib env fName directive param disk).ret = wolfcluSuccess) :
    ∃ fresh state key, XmssMade lib env fName directive param disk
      (genKeyXMSS lib env fName directive param disk).disk fresh state key := by
  simp only [genKeyXMSS] at h ⊢
  rcases @genKeyXMSSFiles_cases κ lib env fName param disk directive with hneg | ⟨-, hmade⟩
  · rw [if_neg hneg.ne] at h
    rw [h] at hneg
    exact absurd hneg (by decide)
  · exact hmade

structure XmssTouched (lib : GenKeyLib κ) (env : GenKeyEnv) (fName : List Byte)
    (directive : Directive) (disk disk' : Disk) (fresh : κ) (state : List Byte) (key : κ)
    (write : XmssRc × Option (List Byte)) : Prop where
  made : lib.xmssMake fresh = .ok (state, key)
  answered : write = xmssKeyWriteCb env.saved (some state) true
    (disk (slashToDash fName ++ KeyPart.priv.append))
  files : disk' = Function.update disk (slashToDash fName ++ KeyPart.priv.append) write.2 ∨
    lib.xmssMade write.1 = 0 ∧ directive ≠ .privOnly ∧
      disk' = (xmssPubFile lib env key).onDisk (slashToDash fName ++ KeyPart.pub.append)
        (Function.update disk (slashToDash fName ++ KeyPart.priv.append) write.2)

theorem genKeyXMSS_touched :
    (genKeyXMSS lib env fName directive param disk).disk = disk ∨
      ∃ fresh state key write, XmssTouched lib env fName directive disk
        (genKeyXMSS lib env fName directive param disk).disk fresh state key write := by
  simp only [genKeyXMSS, genKeyXMSSFiles, slashToDash_priv,
    List.take_left' (slashToDash_length fName)]
  by_cases hinit : lib.xmssInit ≠ 0
  · exact .inl (by rw [if_pos hinit])
  rw [if_neg hinit]
  by_cases hret : (lib.xmssSetParam param).1 ≠ 0
  · exact .inl (by rw [if_pos hret])
  rw [if_neg hret]
  by_cases hcb : lib.xmssSetWriteCb ≠ 0
  · exact .inl (by rw [if_pos hcb])
  rw [if_neg hcb]
  by_cases halloc : ¬ env.nameAlloc = true
  · exact .inl (by rw [if_pos halloc])
  rw [if_neg halloc]
  by_cases hcontext : lib.xmssSetContext ≠ 0
  · exact .inl (by rw [if_pos hcontext])
  rw [if_neg hcontext]
  cases hmake : lib.xmssMake (lib.xmssSetParam param).2 with
  | error e => exact .inl rfl
  | ok made =>
    obtain ⟨state, key⟩ := made
    refine .inr ⟨_, state, key, _, hmake, rfl, ?_⟩
    simp only
    by_cases hmade : lib.xmssMade (xmssKeyWriteCb env.saved (some state) true
        (disk (slashToDash fName ++ KeyPart.priv.append))).1 ≠ 0
    · rw [if_pos hmade]
      exact .inl rfl
    rw [if_neg hmade]
    by_cases hdirective : directive = .privOnly
    · rw [if_pos hdirective]
      exact .inl rfl
    · rw [if_neg hdirective]
      exact .inr ⟨not_not.mp hmade, hdirective, rfl⟩

theorem genKeyXMSS_same {name : List Byte}
    (hpriv : name ≠ slashToDash fName ++ KeyPart.priv.append)
    (hpub : directive = .privOnly ∨ name ≠ slashToDash fName ++ KeyPart.pub.append) :
    (genKeyXMSS lib env fName directive param disk).disk name = disk name := by
  rcases @genKeyXMSS_touched κ lib env fName param disk directive with hsame | ⟨_, _, _, _, htouched⟩
  · rw [hsame]
  · rcases htouched.files with hdisk | ⟨-, hdirective, hdisk⟩
    · rw [hdisk]
      exact Function.update_of_ne hpriv _ _
    · rw [hdisk]
      exact (KeyFileRun.onDisk_of_ne (hpub.resolve_left hdirective) _ _).trans
        (Function.update_of_ne hpriv _ _)

theorem genKeyXMSS_pub_touched
    (h : (genKeyXMSS lib env fName directive param disk).disk
        (slashToDash fName ++ KeyPart.pub.append) ≠
      disk (slashToDash fName ++ KeyPart.pub.append)) :
    ∃ fresh state key, lib.xmssMake fresh = .ok (state, key) ∧
      lib.xmssMade (xmssKeyWriteCb env.saved (some state) true
        (disk (slashToDash fName ++ KeyPart.priv.append))).1 = 0 ∧
      (genKeyXMSS lib env fName directive param disk).disk
          (slashToDash fName ++ KeyPart.priv.append) =
        (xmssKeyWriteCb env.saved (some state) true
          (disk (slashToDash fName ++ KeyPart.priv.append))).2 := by
  rcases @genKeyXMSS_touched κ lib env fName param disk directive with
    hsame | ⟨fresh, state, key, write, hmade, rfl, hfiles⟩
  · exact absurd (by rw [hsame]) h
  · rcases hfiles with hdisk | ⟨hzero, -, hdisk⟩
    · rw [hdisk] at h
      exact absurd (Function.update_of_ne append_ne.symm _ _) h
    · refine ⟨fresh, state, key, hmade, hzero, ?_⟩
      rw [hdisk]
      exact (KeyFileRun.onDisk_of_ne append_ne _ _).trans (Function.update_self _ _ _)

theorem genKeyXMSS_sign_verify (laws : SignatureLaws sig Matches)
    (codec : XmssCodec lib sig Matches alg) (hstored : ∀ n, n ≤ env.stored .pub n)
    (hset : set ∈ paramSets alg) (hname : slashToDash fName = set.stem)
    (h : (genKeyXMSS lib env fName .privAndPub set.param disk).ret = wolfcluSuccess)
    (hcomplete : ∀ n, senv.written n = n) (hworking : Working venv) (fmt : Form) :
    ∃ priv pub,
      (genKeyXMSS lib env fName .privAndPub set.param disk).disk
        (set.stem ++ KeyPart.priv.append) = some priv ∧
      (genKeyXMSS lib env fName .privAndPub set.param disk).disk
        (set.stem ++ KeyPart.pub.append) = some pub ∧
      (priv.length ≤ MachineInt.intMax →
        PairWorks sig senv venv alg fmt (set.stem ++ KeyPart.priv.append) priv pub) := by
  obtain ⟨fresh, state, key, hmade⟩ := genKeyXMSS_made h
  obtain ⟨n, pub, hexport, hpub⟩ := hmade.public_file (by decide)
  have hholds := keeps_of_saved (codec.state hmade.made) (codec.made hmade.saved)
  rw [← hmade.private_file] at hholds
  obtain ⟨-, priv, hpriv, -, -⟩ := holds_iff.mp hholds
  rw [hpriv] at hholds
  rw [List.take_of_length_le (hstored pub.length)] at hpub
  rw [hname] at hpriv hpub
  refine ⟨priv, pub, hpriv, hpub, fun hsize => pair_works laws hcomplete hworking fun message =>
    ⟨rfl, hsize, ?_⟩⟩
  obtain ⟨pubKey, himport, hmatch⟩ := codec.load hmade.made hexport
  obtain ⟨hlen, hoid⟩ := codec.oid hset hmade.param hmade.made hexport
  have hfresh : sig.xmssSetParam set.param = (0, fresh) := (codec.param _).trans hmade.param
  have hprivate : ∃ set' ∈ paramSets alg, ∃ ext fresh, ext.length = 5 ∧
      set.stem ++ KeyPart.priv.append = set'.stem ++ ext ∧
      sig.xmssSetParam set'.param = (0, fresh) ∧ sig.xmssReload fresh (some priv) = (0, key) :=
    ⟨set, hset, KeyPart.priv.append, fresh, rfl, rfl, hfresh, codec.reload hmade.made hholds⟩
  have hpublic : PublicXmss sig alg pub pubKey := ⟨set, hset, fresh, hlen, hoid, hfresh, himport⟩
  cases alg with
  | xmss => exact ⟨key, pubKey, hprivate, hpublic, hmatch⟩
  | xmssmt => exact ⟨key, pubKey, hprivate, hpublic, hmatch⟩
  | rsa => cases hset
  | ecc => cases hset
  | ed25519 => cases hset
  | dilithium => cases hset

end Xmss

theorem bytesKey_xmssCodec (alg : SigAlg) : XmssCodec bytesKeyLib echoLib AnyKey alg where
  param _ := rfl
  made := by
    intro rc h
    simp only [bytesKeyLib] at h
    split_ifs at h with hsaved
    exact hsaved
  state := by
    intro fresh state key h
    cases h
    decide
  reload := by
    intro fresh state key contents h _
    cases h
    rfl
  oid := by
    intro set fresh state key n pub hset hfresh hmake hpub
    cases hfresh
    cases hmake
    cases hpub
    have hall : ∀ set ∈ xmssSets ++ xmssmtSets, xmssOidLen ≤ (paramNumber set.param).length ∧
        xmssOid ((paramNumber set.param).take xmssOidLen) = set.oid := by decide +kernel
    cases alg with
    | xmss => exact hall set (List.mem_append_left _ hset)
    | xmssmt => exact hall set (List.mem_append_right _ hset)
    | rsa => cases hset
    | ecc => cases hset
    | ed25519 => cases hset
    | dilithium => cases hset
  load := by
    intro fresh state key n pub _ _
    exact ⟨pub, rfl, trivial⟩

end WolfCLU
