import WolfCLU.SignVerify.VerifySound

namespace WolfCLU
open CString

def acceptLib : VerifyLib (List Byte) where
  init _ := 0
  pemSize _ _ := asnNoPemHeader
  pemDer _ _ := (-1, [])
  publicDecode _ der := (0, der)
  privateDecode _ der := (0, der)
  importPublic pub := (0, pub)
  importPrivate priv pub := (0, priv ++ pub)
  makePublic key := (0, key)
  xmssSetParam param := (0, param)
  xmssImport _ bytes := (0, bytes)
  outputSize _ _ := 1
  eccSize _ := 32
  digestSize _ := 32
  hash _ bytes := (0, bytes)
  rsaVerify _ _ := 1
  eccVerify _ _ _ := (0, 1)
  ed25519Verify _ _ _ := (0, 1)
  dilithiumVerify _ _ _ := (0, 1)
  xmssVerify _ _ _ := 0
  init_le _ := le_rfl
  publicDecode_le _ _ := le_rfl
  privateDecode_le _ _ := le_rfl
  importPublic_le _ := le_rfl
  importPrivate_le _ _ := le_rfl
  makePublic_le _ := le_rfl
  xmssSetParam_le _ := le_rfl
  xmssImport_le _ _ := le_rfl
  hash_le _ _ := le_rfl
  eccVerify_le _ _ _ := le_rfl
  ed25519Verify_le _ _ _ := le_rfl
  dilithiumVerify_le _ _ _ := le_rfl
  xmssVerify_le _ _ _ := le_rfl

def acceptEnv (heap : Nat → Byte) : VerifyEnv := ⟨true, true, true, true, true, true, heap⟩

def acceptKey (heap : Nat → Byte) (alg : SigAlg) (pubIn : Int) (inForm : Form) (keyBuf : List Byte) :
    List Byte :=
  if alg = .ed25519 ∧ inForm = .raw then
    readMemory (keyBuf ++ [0]) heap (if pubIn = 1 then ed25519KeySize else 2 * ed25519KeySize)
  else keyBuf

section Accept
variable {heap : Nat → Byte} {alg : SigAlg} {pubIn : Int} {inForm : Form} {f : VerifyFile}

theorem keyDer_accept {keyBuf : List Byte} (h : inForm = .pem → keyBuf ≠ []) :
    keyDer acceptLib (acceptEnv heap) pubIn inForm keyBuf = .ok keyBuf := by
  by_cases hpem : inForm = .pem
  · have hlen : ¬ keyBuf.length = 0 := fun hlen => h hpem (List.length_eq_zero_iff.mp hlen)
    have hpemToDer : keyPemToDer acceptLib (acceptEnv heap) keyBuf pubIn = (asnNoPemHeader, keyBuf) := by
      have hnone : ¬ asnNoPemHeader > 0 := by decide
      have hpos : ¬ acceptLib.pemSize (decide (pubIn ≠ 0)) keyBuf > 0 := hnone
      simp only [keyPemToDer, if_neg hlen, if_neg hpos]
      rfl
    have hneg : asnNoPemHeader < 0 := by decide
    simp only [keyDer, if_pos hpem, hpemToDer, if_pos hneg, if_true]
  · simp only [keyDer, if_neg hpem]

theorem Loads.seekEnd {lo hi : Int} (h : Loads lo hi f) (hlo : 1 ≤ lo) :
    f.seekEnd = true ∧ f.contents ≠ [] := by
  have hlow := h.low
  simp only [VerifyFile.size, h.tells (by omega), if_true] at hlow
  by_cases hseek : f.seekEnd = true
  · refine ⟨hseek, ?_⟩
    rintro hnil
    simp only [hseek, if_true, hnil, List.length_nil] at hlow
    omega
  · simp only [hseek] at hlow
    simp at hlow
    omega

theorem Loads.loaded_ne_nil {lo hi : Int} (h : Loads lo hi f) (hlo : 1 ≤ lo) : f.loaded ≠ [] := by
  obtain ⟨hseek, hne⟩ := h.seekEnd hlo
  rw [(h.loaded_eq_iff (by omega)).mpr (.inl hseek)]
  exact hne

theorem Loads.lower {lo lo' hi : Int} (h : Loads lo hi f) (hle : lo' ≤ lo) : Loads lo' hi f :=
  { h with low := le_trans hle h.low }

theorem keyLow_nonneg : 0 ≤ keyLow alg inForm := by
  simp only [keyLow]
  split_ifs <;> omega

theorem keyDer_usable (h : KeyUsable alg inForm f) (halg : xmssFamily alg = none) (pub : Int) :
    keyDer acceptLib (acceptEnv heap) pub inForm f.loaded = .ok f.loaded := by
  refine keyDer_accept fun hpem => h.loads.loaded_ne_nil ?_
  simp [keyLow, hpem, halg]

theorem bufferedKey_accept (h : KeyUsable alg inForm f) (halg : xmssFamily alg = none)
    (hdil : alg ≠ .dilithium) :
    bufferedKey acceptLib (acceptEnv heap) alg f pubIn inForm = .ok f.loaded := by
  have hhigh : keyHigh alg = maxFileSize := if_neg hdil
  have hload : loadFile badFuncArg badFuncArg 0 maxFileSize f = .ok f.loaded :=
    loadFile_ok_iff.mpr ⟨hhigh ▸ h.loads.lower keyLow_nonneg, rfl⟩
  have hkey : succeeds (if pubIn = 1 then acceptLib.publicDecode alg f.loaded
      else acceptLib.privateDecode alg f.loaded) = .ok f.loaded := by
    simp [acceptLib, succeeds]
  have hout : outputBuffer acceptLib (acceptEnv heap) alg f.loaded = .ok () := rfl
  refine bind_eq_ok.mpr ⟨(), rfl, bind_eq_ok.mpr ⟨_, hload, bind_eq_ok.mpr
    ⟨_, keyDer_usable h halg pubIn, bind_eq_ok.mpr ⟨_, hkey, bind_eq_ok.mpr ⟨(), hout, rfl⟩⟩⟩⟩⟩

theorem ed25519Key_accept (h : KeyUsable .ed25519 inForm f) :
    ed25519Key acceptLib (acceptEnv heap) f pubIn inForm =
      .ok (acceptKey heap .ed25519 pubIn inForm f.loaded) := by
  have hload : loadFile badFuncArg badFuncArg 0 maxFileSize f = .ok f.loaded :=
    loadFile_ok_iff.mpr ⟨h.loads.lower keyLow_nonneg, rfl⟩
  refine bind_eq_ok.mpr ⟨(), rfl, bind_eq_ok.mpr ⟨_, hload, bind_eq_ok.mpr
    ⟨_, keyDer_usable h rfl pubIn, ?_⟩⟩⟩
  by_cases hraw : inForm = .raw
  · by_cases hpub : pubIn = 1
    · simp [hraw, hpub, ed25519PublicKey, acceptLib, acceptEnv, succeeds, acceptKey]
    · simp [hraw, hpub, ed25519PrivateKey, acceptLib, acceptEnv, succeeds, acceptKey, bind,
        Except.bind]
  · by_cases hpub : pubIn = 1
    · simp [hraw, hpub, ed25519PublicKey, acceptLib, succeeds, acceptKey]
    · simp [hraw, hpub, ed25519PrivateKey, acceptLib, succeeds, acceptKey, bind, Except.bind]

theorem dilithiumKey_accept (h : KeyUsable .dilithium inForm f) :
    dilithiumKey acceptLib (acceptEnv heap) f inForm = .ok f.loaded := by
  have hload : loadFile badFuncArg badFuncArg 1 dilithiumMaxBothKeyPemSize f = .ok f.loaded :=
    loadFile_ok_iff.mpr ⟨h.loads, rfl⟩
  exact bind_eq_ok.mpr ⟨(), rfl, bind_eq_ok.mpr ⟨(), rfl, bind_eq_ok.mpr ⟨_, hload, bind_eq_ok.mpr
    ⟨_, keyDer_usable h rfl 1, rfl⟩⟩⟩⟩

theorem xmssFamilyKey_accept {params : List (Nat × List Byte)} {param : List Byte}
    (hloads : Loads 0 maxFileSize f)
    (hparam : paramOfOid params (xmssOid (readMemory f.loaded heap xmssOidLen)) = .ok param) :
    xmssFamilyKey acceptLib (acceptEnv heap) alg params f = .ok f.loaded := by
  have hload : loadFile outputFileError wolfcluFatalError 0 maxFileSize f = .ok f.loaded :=
    loadFile_ok_iff.mpr ⟨hloads, rfl⟩
  exact bind_eq_ok.mpr ⟨(), rfl, bind_eq_ok.mpr ⟨(), rfl, bind_eq_ok.mpr ⟨_, hload, bind_eq_ok.mpr
    ⟨(), rfl, bind_eq_ok.mpr ⟨_, hparam, bind_eq_ok.mpr ⟨_, rfl, rfl⟩⟩⟩⟩⟩⟩

theorem derOf_accept {pub : Int} {contents der : List Byte}
    (h : DerOf acceptLib pub inForm contents der) : der = contents := by
  cases h with
  | direct => rfl
  | converted hpem hn hder =>
    have hneg := congrArg Prod.fst hder
    simp only [acceptLib] at hneg
    omega
  | empty hpem hsize =>
    have hne : asnNoPemHeader ≠ 0 := by decide
    exact absurd hsize hne

theorem decodedKey_accept {pub : Int} {contents key : List Byte}
    (h : DecodedKey acceptLib pub inForm contents alg key) : key = contents := by
  obtain ⟨der, hder, hkey⟩ := h
  have hsame : (0, der) = ((0, key) : Int × List Byte) := by
    simpa [acceptLib] using hkey
  rw [← (Prod.mk.inj hsame).2, derOf_accept hder]

theorem xmssKeyOf_accept {params : List (Nat × List Byte)} {contents key : List Byte}
    (h : XmssKeyOf acceptLib contents params key) :
    xmssOidLen ≤ contents.length ∧ key = contents := by
  obtain ⟨hlen, param, fresh, -, -, himport⟩ := h
  exact ⟨hlen, (Prod.mk.inj himport).2.symm⟩

theorem ed25519KeyOf_accept {contents key : List Byte}
    (h : Ed25519KeyOf acceptLib pubIn inForm contents key) :
    keyMinimum .ed25519 pubIn inForm ≤ contents.length ∧
      key = if inForm = .raw then contents.take (keyMinimum .ed25519 pubIn inForm) else contents := by
  simp only [Ed25519KeyOf] at h
  by_cases hpub : pubIn = 1
  · rw [if_pos hpub] at h
    by_cases hraw : inForm = .raw
    · rw [if_pos hraw] at h
      simp only [keyMinimum, hraw, hpub, and_self, if_true]
      exact ⟨h.1, (Prod.mk.inj h.2).2.symm⟩
    · rw [if_neg hraw] at h
      obtain ⟨der, hder, hkey⟩ := h
      simp only [keyMinimum, hraw, and_false, if_false, xmssFamily, ne_eq, not_true_eq_false]
      exact ⟨Nat.zero_le _, (Prod.mk.inj hkey).2.symm.trans (derOf_accept hder)⟩
  · rw [if_neg hpub] at h
    obtain ⟨priv, hpriv, hkey⟩ := h
    have hsame : key = priv := (Prod.mk.inj hkey).2.symm
    rw [hsame]
    simp only [Ed25519PrivateOf] at hpriv
    by_cases hraw : inForm = .raw
    · rw [if_pos hraw] at hpriv
      simp only [keyMinimum, hraw, hpub, and_true, if_true, if_false]
      refine ⟨hpriv.1, ?_⟩
      have hjoin := (Prod.mk.inj hpriv.2).2
      rw [← hjoin, two_mul, List.take_add]
    · rw [if_neg hraw] at hpriv
      obtain ⟨der, hder, hkey⟩ := hpriv
      simp only [keyMinimum, hraw, and_false, if_false, xmssFamily, ne_eq, not_true_eq_false]
      exact ⟨Nat.zero_le _, (Prod.mk.inj hkey).2.symm.trans (derOf_accept hder)⟩

theorem preparedKey_accept (h : KeyUsable alg inForm f)
    (hheap : ∀ params, xmssFamily alg = some params → ∃ param,
      paramOfOid params (xmssOid (readMemory f.loaded heap xmssOidLen)) = .ok param) :
    preparedKey acceptLib (acceptEnv heap) alg f pubIn inForm =
      .ok (acceptKey heap alg pubIn inForm f.loaded) := by
  cases alg with
  | rsa => exact bufferedKey_accept h rfl (by decide)
  | ecc => exact bufferedKey_accept h rfl (by decide)
  | ed25519 => exact ed25519Key_accept h
  | dilithium => exact dilithiumKey_accept h
  | xmss =>
    obtain ⟨param, hparam⟩ := hheap _ rfl
    exact xmssFamilyKey_accept (h.loads.lower keyLow_nonneg) hparam
  | xmssmt =>
    obtain ⟨param, hparam⟩ := hheap _ rfl
    exact xmssFamilyKey_accept (h.loads.lower keyLow_nonneg) hparam

theorem verifyMessage_accept {sig hash key : List Byte}
    (h : preparedKey acceptLib (acceptEnv heap) alg f pubIn inForm = .ok key) :
    verifyMessage acceptLib (acceptEnv heap) alg sig hash f pubIn inForm =
      ⟨wolfcluSuccess, [⟨alg, key, sig, if alg = .rsa then none else some hash⟩]⟩ := by
  cases alg with
  | rsa =>
    have hkey : rsaKey acceptLib (acceptEnv heap) f pubIn inForm = .ok key := h
    simp only [verifyMessage, verifySignatureRsa, hkey]
    rfl
  | ecc =>
    have hkey : eccKey acceptLib (acceptEnv heap) f pubIn inForm = .ok key := h
    have hdigest : eccDigest acceptLib key hash = .ok hash := rfl
    simp only [verifyMessage, verifySignatureEcc, hkey, hdigest]
    rfl
  | ed25519 =>
    have hkey : ed25519Key acceptLib (acceptEnv heap) f pubIn inForm = .ok key := h
    simp only [verifyMessage, verifySignatureEd25519, hkey]
    rfl
  | dilithium =>
    have hkey : dilithiumKey acceptLib (acceptEnv heap) f inForm = .ok key := h
    simp only [verifyMessage, verifySignatureDilithium, hkey]
    rfl
  | xmss =>
    have hkey : xmssFamilyKey acceptLib (acceptEnv heap) .xmss xmssParams f = .ok key := h
    simp only [verifyMessage, verifySignatureXmss, verifyXmssFamily, hkey]
    rfl
  | xmssmt =>
    have hkey : xmssFamilyKey acceptLib (acceptEnv heap) .xmssmt xmssmtParams f = .ok key := h
    simp only [verifyMessage, verifySignatureXmssmt, verifyXmssFamily, hkey]
    rfl

theorem loaded_incomplete (h : ¬ Complete f) (htells : f.tells = true) : f.loaded = [] := by
  have hseek : f.seekEnd = false := Bool.eq_false_of_not_eq_true fun hseek => h (.inl hseek)
  simp [VerifyFile.loaded, VerifyFile.size, htells, hseek]

theorem raw_complete {n : Nat} (htells : f.tells = true) (hn : 1 < n) (hlen : n ≤ f.contents.length)
    (hheap : ∀ i, heap i = f.contents.getD i 0 + 1)
    (h : readMemory (f.loaded ++ [0]) heap n = f.contents.take n) : Complete f := by
  by_contra hcomplete
  rw [loaded_incomplete hcomplete htells] at h
  have hread : (readMemory ([] ++ [0]) heap n)[1]? = some (heap 1) := by
    simp [readMemory, hn]
  have hfile : (f.contents.take n)[1]? = some (f.contents.getD 1 0) := by
    simp [hn, List.getD_eq_getElem?_getD, show 1 < f.contents.length by omega]
  rw [h, hfile, hheap, Option.some.injEq] at hread
  simp at hread

theorem keyOf_accept (h : KeyUsable alg inForm f)
    (hheap : xmssFamily alg = none → ∀ i, heap i = f.contents.getD i 0 + 1)
    (hkey : KeyOf acceptLib pubIn inForm f.contents alg
      (acceptKey heap alg pubIn inForm f.loaded)) :
    Complete f ∧ keyMinimum alg pubIn inForm ≤ f.contents.length := by
  have hwhole : f.loaded = f.contents → Complete f :=
    (h.loads.loaded_eq_iff keyLow_nonneg).mp
  have htells : f.tells = true := h.loads.tells keyLow_nonneg
  cases alg with
  | rsa => exact ⟨hwhole (decodedKey_accept hkey), Nat.zero_le _⟩
  | ecc => exact ⟨hwhole (decodedKey_accept hkey), Nat.zero_le _⟩
  | ed25519 =>
    obtain ⟨hmin, hkey⟩ := ed25519KeyOf_accept hkey
    refine ⟨?_, hmin⟩
    by_cases hraw : inForm = .raw
    · have hsize : keyMinimum .ed25519 pubIn inForm =
          if pubIn = 1 then ed25519KeySize else 2 * ed25519KeySize := if_pos ⟨rfl, hraw⟩
      have hlong : 1 < keyMinimum .ed25519 pubIn inForm := by
        rw [hsize]
        split_ifs <;> decide
      rw [if_pos hraw, acceptKey, if_pos ⟨rfl, hraw⟩, ← hsize] at hkey
      exact raw_complete htells hlong hmin (hheap rfl) hkey
    · rw [if_neg hraw, acceptKey, if_neg (fun hboth => hraw hboth.2)] at hkey
      exact hwhole hkey
  | dilithium => exact ⟨hwhole (decodedKey_accept hkey), Nat.zero_le _⟩
  | xmss =>
    obtain ⟨hmin, hkey⟩ := xmssKeyOf_accept hkey
    exact ⟨hwhole hkey, hmin⟩
  | xmssmt =>
    obtain ⟨hmin, hkey⟩ := xmssKeyOf_accept hkey
    exact ⟨hwhole hkey, hmin⟩

theorem messageOf_accept {key sig contents : List Byte} (halg : alg ≠ .rsa)
    (h : MessageOf acceptLib alg key contents (some sig)) : sig = contents := by
  cases alg with
  | rsa => exact absurd rfl halg
  | ecc =>
    obtain ⟨digest, hdigest, hsig⟩ := h
    rw [Option.some.inj hsig]
    exact (Prod.mk.inj hdigest).2.symm
  | ed25519 | dilithium | xmss | xmssmt => exact Option.some.inj h

theorem exists_heap (h : KeyUsable alg inForm f) : ∃ heap : Nat → Byte,
    (∀ params, xmssFamily alg = some params → ∃ param,
      paramOfOid params (xmssOid (readMemory f.loaded heap xmssOidLen)) = .ok param) ∧
      (xmssFamily alg = none → ∀ i, heap i = f.contents.getD i 0 + 1) := by
  cases hfamily : xmssFamily alg with
  | none =>
    refine ⟨fun i => f.contents.getD i 0 + 1, ?_, fun _ i => rfl⟩
    intro params hparams
    cases hparams
  | some params =>
    obtain ⟨heap, param, hparam⟩ := h.oid params hfamily
    refine ⟨heap, ?_, ?_⟩
    · intro params' hparams'
      cases hparams'
      exact ⟨param, hparam⟩
    · intro hnone
      cases hnone

theorem verifySignature_accept {files : VerifyFiles} {key : List Byte}
    (hreach : Reaches files alg inForm)
    (hkey : preparedKey acceptLib (acceptEnv heap) alg files.key pubIn inForm = .ok key) :
    verifySignature acceptLib (acceptEnv heap) files (some alg) pubIn inForm =
      ⟨wolfcluSuccess, [⟨alg, key, files.signature.loaded,
        if alg = .rsa then none else some files.message.loaded⟩]⟩ := by
  by_cases halg : alg = .rsa
  · subst halg
    rw [verifySignature_rsa hreach.signature, verifyMessage_accept hkey]
    rfl
  · rw [verifySignature_message halg hreach.signature (hreach.message halg),
      verifyMessage_accept hkey]

theorem whole_of_sound {files : VerifyFiles}
    (h : ∀ heap, Sound acceptLib files alg pubIn inForm
      (verifySignature acceptLib (acceptEnv heap) files (some alg) pubIn inForm))
    (hreach : Reaches files alg inForm) : FilesWhole files alg pubIn inForm := by
  obtain ⟨heap, hparams, hother⟩ := exists_heap hreach.key
  have hrun : verifySignature acceptLib (acceptEnv heap) files (some alg) pubIn inForm = _ :=
    verifySignature_accept hreach (preparedKey_accept hreach.key hparams)
  obtain ⟨call, hcall, hgenuine⟩ := h heap (by rw [hrun])
  rw [hrun, List.mem_singleton] at hcall
  subst hcall
  obtain ⟨hkey, hmin⟩ := keyOf_accept hreach.key hother hgenuine.key_eq
  refine ⟨(hreach.signature.loaded_eq_iff le_rfl).mp hgenuine.sig_eq, fun halg => ?_, hkey, hmin⟩
  have hmessage := hgenuine.message_eq
  rw [if_neg halg] at hmessage
  exact ((hreach.message halg).loaded_eq_iff le_rfl).mp (messageOf_accept halg hmessage)

end Accept

theorem verifySignature_sound_iff (files : VerifyFiles) (alg : SigAlg) (pubIn : Int)
    (inForm : Form) :
    (∀ (κ : Type) (lib : VerifyLib κ) (env : VerifyEnv), Sound lib files alg pubIn inForm
      (verifySignature lib env files (some alg) pubIn inForm)) ↔
      (Reaches files alg inForm → FilesWhole files alg pubIn inForm) := by
  constructor
  · intro h hreach
    exact whole_of_sound (fun heap => h _ acceptLib (acceptEnv heap)) hreach
  · intro h κ lib env
    exact sound_of_whole h

def wholeFile (contents : List Byte) : VerifyFile := ⟨true, contents, true, true, true, true, true⟩

def unseekableMessage : VerifyFiles where
  signature := wholeFile (str "signature")
  message := { wholeFile (str "pay 100") with seekEnd := false }
  key := wholeFile (str "key")

theorem unseekable_message_accepted :
    ¬ ∀ (files : VerifyFiles) (alg : SigAlg) (pubIn : Int) (inForm : Form) (κ : Type)
      (lib : VerifyLib κ) (env : VerifyEnv), Sound lib files alg pubIn inForm
        (verifySignature lib env files (some alg) pubIn inForm) := by
  intro h
  obtain ⟨call, hcall, hgenuine⟩ := h unseekableMessage .ed25519 1 .der _ acceptLib
    (acceptEnv fun _ => 0) (by decide)
  have hempty : (verifySignature acceptLib (acceptEnv fun _ => 0) unseekableMessage (some .ed25519) 1
      .der).calls = [⟨.ed25519, str "key", str "signature", some []⟩] := by decide
  rw [hempty, List.mem_singleton] at hcall
  subst hcall
  have hmessage : some ([] : List Byte) = some (str "pay 100") := hgenuine.message_eq
  revert hmessage
  decide

end WolfCLU
