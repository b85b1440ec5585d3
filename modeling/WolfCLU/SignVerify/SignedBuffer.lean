import WolfCLU.SignVerify.Sign
import WolfCLU.SignVerify.VerifySound

namespace WolfCLU
open CString

section Primitive
variable {κ : Type} (lib : SignatureLib κ) (env : SignatureEnv)

def signPrimitive (alg : SigAlg) (data : List Byte) (files : SignatureFiles) (inForm : Form) :
    Except Int (Int × List Byte) :=
  match alg with
  | .rsa => do
    let key ← rsaSigningKey lib env files.key inForm
    .ok (lib.rsaSign key data (lib.outputSize .rsa key).toNat)
  | .ecc => do
    let key ← eccSigningKey lib env files.key inForm
    let digest ← eccDigest lib.toVerifyLib key data
    .ok (lib.eccSign key digest (lib.outputSize .ecc key).toNat)
  | .ed25519 => do
    let key ← ed25519SigningKey lib env files.key inForm
    .ok (lib.ed25519Sign key data)
  | .dilithium => do
    let key ← dilithiumSigningKey lib env files.key inForm
    .ok (lib.dilithiumSign key data (lib.outputSize .dilithium key).toNat)
  | .xmss => do
    let (key, outBufSz) ← xmssFamilySigningKey lib env .xmss (xmssName files.keyName) files.key
    .ok (lib.xmssSign key data outBufSz)
  | .xmssmt => do
    let (key, outBufSz) ← xmssFamilySigningKey lib env .xmssmt (xmssmtName files.keyName) files.key
    .ok (lib.xmssSign key data outBufSz)

def openError : SigAlg → Int
  | .xmss | .xmssmt => outputFileError
  | _ => badFuncArg

def signResult : SigAlg → Int → Int
  | .xmss | .xmssmt => finishZero
  | _ => finish

def writeBuffer (alg : SigAlg) : Except Int (Int × List Byte) → SignatureRun
  | .error ret => ⟨signResult alg ret, none⟩
  | .ok (ret, outBuf) =>
    if 0 ≤ ret then
      let (ret, out) := writeSignature env (openError alg) ret outBuf
      ⟨signResult alg ret, out⟩
    else ⟨signResult alg ret, none⟩

end Primitive

section Negative
variable {κ : Type} {lib : SignatureLib κ} {env : SignatureEnv}

theorem loadMessage_negative (f : VerifyFile) : Errors (· < 0) (loadMessage f) := by
  simp only [loadMessage]
  split_ifs <;> first | exact errors_ok _ | exact errors_error badFuncArg_negative |
    exact errors_error fatal_negative | exact errors_error memory_negative

theorem loadPrivateKey_negative (hi : Int) (f : VerifyFile) :
    Errors (· < 0) (loadPrivateKey hi f) := by
  simp only [loadPrivateKey]
  split_ifs <;> first | exact errors_ok _ | exact errors_error badFuncArg_negative |
    exact errors_error fatal_negative | exact errors_error memory_negative

theorem privateKeyDer_negative (alg : SigAlg) (hi : Int) (f : VerifyFile) (inForm : Form) :
    Errors (· < 0) (privateKeyDer lib env alg hi f inForm) := by
  refine (succeeds_negative (lib.init_le alg)).bind fun _ =>
    (succeeds_negative lib.initRng_le).bind fun _ => (succeeds_negative ?_).bind fun _ =>
      (loadPrivateKey_negative hi f).bind fun _ => keyDer_negative.bind fun _ => errors_ok _
  split_ifs
  · exact lib.rsaSetRng_le
  · exact le_rfl

theorem rsaSigningKey_negative (f : VerifyFile) (inForm : Form) :
    Errors (· < 0) (rsaSigningKey lib env f inForm) := by
  refine (privateKeyDer_negative _ _ _ _).bind fun _ =>
    (succeeds_negative (lib.privateDecode_le _ _)).bind fun _ => Errors.bind ?_ fun _ => errors_ok _
  simp only [outputBuffer]
  split_ifs
  · exact errors_error fatal_negative
  · exact allocated_negative _

theorem eccSigningKey_negative (f : VerifyFile) (inForm : Form) :
    Errors (· < 0) (eccSigningKey lib env f inForm) :=
  (privateKeyDer_negative _ _ _ _).bind fun _ =>
    (succeeds_negative (lib.privateDecode_le _ _)).bind fun _ =>
      (allocated_negative _).bind fun _ => errors_ok _

theorem ed25519SigningKey_negative (f : VerifyFile) (inForm : Form) :
    Errors (· < 0) (ed25519SigningKey lib env f inForm) := by
  refine (privateKeyDer_negative _ _ _ _).bind fun _ => Errors.bind ?_ fun _ =>
    (allocated_negative _).bind fun _ => errors_ok _
  simp only [ed25519Secret]
  split_ifs
  · exact succeeds_negative (lib.importPrivate_le _ _)
  · exact (succeeds_negative (lib.privateDecode_le _ _)).bind fun _ =>
      succeeds_negative (lib.makePublic_le _)

theorem dilithiumSigningKey_negative (f : VerifyFile) (inForm : Form) :
    Errors (· < 0) (dilithiumSigningKey lib env f inForm) :=
  (allocated_negative _).bind fun _ => (privateKeyDer_negative _ _ _ _).bind fun _ =>
    (succeeds_negative (lib.privateDecode_le _ _)).bind fun _ =>
      (allocated_negative _).bind fun _ => errors_ok _

theorem xmssFamilySigningKey_negative (alg : SigAlg) (name : Option (List Byte)) (f : VerifyFile) :
    Errors (· < 0) (xmssFamilySigningKey lib env alg name f) := by
  refine (allocated_negative _).bind fun _ => Errors.bind ?_ fun _ => (allocated_negative _).bind
    fun _ => (succeeds_negative (lib.xmssSetParam_le _)).bind fun _ =>
      (succeeds_negative (lib.xmssSigLen_le _)).bind fun _ => (allocated_negative _).bind fun _ =>
        (succeeds_negative lib.xmssSetContext_le).bind fun _ =>
          (succeeds_negative (lib.xmssReload_le _ _)).bind fun _ => errors_ok _
  cases name with
  | none => exact errors_error badFuncArg_negative
  | some param =>
    exact (succeeds_negative (lib.init_le _)).bind fun _ =>
      (succeeds_negative lib.xmssSetCallbacks_le).bind fun _ => errors_ok _

theorem openError_negative (alg : SigAlg) : openError alg < 0 := by
  cases alg <;> decide

theorem signPrimitive_negative (alg : SigAlg) (data : List Byte) (files : SignatureFiles)
    (inForm : Form) : Errors (· < 0) (signPrimitive lib env alg data files inForm) := by
  cases alg with
  | rsa => exact (rsaSigningKey_negative _ _).bind fun _ => errors_ok _
  | ecc =>
    exact (eccSigningKey_negative _ _).bind fun key =>
      Errors.bind (eccDigest_negative key data) fun _ => errors_ok _
  | ed25519 => exact (ed25519SigningKey_negative _ _).bind fun _ => errors_ok _
  | dilithium => exact (dilithiumSigningKey_negative _ _).bind fun _ => errors_ok _
  | xmss | xmssmt => exact (xmssFamilySigningKey_negative _ _ _).bind fun _ => errors_ok _

end Negative

section Buffer
variable {κ : Type} {lib : SignatureLib κ} {env : SignatureEnv} {alg : SigAlg} {data : List Byte}
  {files : SignatureFiles} {inForm : Form}

theorem signPrimitive_le {ret : Int} {outBuf : List Byte} (halg : alg ≠ .rsa)
    (h : signPrimitive lib env alg data files inForm = .ok (ret, outBuf)) : ret ≤ 0 := by
  cases alg with
  | rsa => exact absurd rfl halg
  | ecc =>
    simp only [signPrimitive, bind_eq_ok, Except.ok.injEq] at h
    obtain ⟨key, -, digest, -, hsign⟩ := h
    simpa [hsign] using lib.eccSign_le key digest (lib.outputSize .ecc key).toNat
  | ed25519 =>
    simp only [signPrimitive, bind_eq_ok, Except.ok.injEq] at h
    obtain ⟨key, -, hsign⟩ := h
    simpa [hsign] using lib.ed25519Sign_le key data
  | dilithium =>
    simp only [signPrimitive, bind_eq_ok, Except.ok.injEq] at h
    obtain ⟨key, -, hsign⟩ := h
    simpa [hsign] using lib.dilithiumSign_le key data (lib.outputSize .dilithium key).toNat
  | xmss | xmssmt =>
    simp only [signPrimitive, bind_eq_ok, Except.ok.injEq] at h
    obtain ⟨⟨key, outBufSz⟩, -, hsign⟩ := h
    simpa [hsign] using lib.xmssSign_le key data outBufSz

theorem signXmssFamily_writes (halg : alg = .xmss ∨ alg = .xmssmt) (name : Option (List Byte))
    (key : VerifyFile) :
    signXmssFamily lib env alg name data key =
      writeBuffer env alg (do
        let (key, outBufSz) ← xmssFamilySigningKey lib env alg name key
        .ok (lib.xmssSign key data outBufSz)) := by
  have hresult : signResult alg = finishZero := by rcases halg with rfl | rfl <;> rfl
  have hopen : openError alg = outputFileError := by rcases halg with rfl | rfl <;> rfl
  rw [signXmssFamily]
  cases xmssFamilySigningKey lib env alg name key with
  | error ret => rw [← hresult]; rfl
  | ok loaded =>
    have hle := lib.xmssSign_le loaded.1 data loaded.2
    have hzero : (lib.xmssSign loaded.1 data loaded.2).1 = 0 ↔
        0 ≤ (lib.xmssSign loaded.1 data loaded.2).1 := by omega
    simp only [hzero, ← hresult, ← hopen]
    rfl

theorem signMessage_writes (lib : SignatureLib κ) (env : SignatureEnv) (alg : SigAlg)
    (data : List Byte) (files : SignatureFiles) (inForm : Form) :
    signMessage lib env alg data files inForm =
      writeBuffer env alg (signPrimitive lib env alg data files inForm) := by
  cases alg with
  | rsa =>
    simp only [signMessage, signDataRsa, signPrimitive]
    cases rsaSigningKey lib env files.key inForm <;> rfl
  | ecc =>
    simp only [signMessage, signDataEcc, signPrimitive]
    cases eccSigningKey lib env files.key inForm with
    | error ret => rfl
    | ok key =>
      dsimp only
      cases hdigest : eccDigest lib.toVerifyLib key data with
      | error ret => simp only [bind, Except.bind, hdigest]; rfl
      | ok digest => simp only [bind, Except.bind, hdigest]; rfl
  | ed25519 =>
    simp only [signMessage, signDataEd25519, signPrimitive]
    cases ed25519SigningKey lib env files.key inForm <;> rfl
  | dilithium =>
    simp only [signMessage, signDataDilithium, signPrimitive]
    cases dilithiumSigningKey lib env files.key inForm with
    | error ret => rfl
    | ok key =>
      have hle := lib.dilithiumSign_le key data (lib.outputSize .dilithium key).toNat
      have hzero : (lib.dilithiumSign key data (lib.outputSize .dilithium key).toNat).1 = 0 ↔
          0 ≤ (lib.dilithiumSign key data (lib.outputSize .dilithium key).toNat).1 := by omega
      simp only [hzero]
      rfl
  | xmss => exact signXmssFamily_writes (.inl rfl) _ _
  | xmssmt => exact signXmssFamily_writes (.inr rfl) _ _

theorem signResult_success_iff {ret : Int} (h : alg ≠ .rsa → ret ≤ 0) :
    signResult alg ret = wolfcluSuccess ↔ 0 ≤ ret := by
  cases alg with
  | rsa | ecc | ed25519 | dilithium => exact finish_success_iff
  | xmss | xmssmt =>
    have hle : ret ≤ 0 := h (by decide)
    rw [signResult, finishZero_success_iff hle]
    omega

structure Reported (env : SignatureEnv) (ret : Int) (outBuf : List Byte) : Prop where
  primitive : 0 ≤ ret
  opens : env.outOpens = true
  written : 0 < env.written outBuf.length

theorem writeSignature_nonneg_iff {openErr ret : Int} {outBuf : List Byte} (hopen : openErr < 0) :
    0 ≤ (writeSignature env openErr ret outBuf).1 ↔ Reported env ret outBuf := by
  have herr : outputFileError < 0 := by decide
  rw [writeSignature]
  by_cases hopens : env.outOpens = true
  · rw [if_neg (not_not.mpr hopens)]
    dsimp only
    split_ifs with hwritten
    · exact ⟨fun h => absurd h (not_le.mpr herr), fun h => absurd h.written (not_lt.mpr hwritten)⟩
    · exact ⟨fun h => ⟨h, hopens, not_le.mp hwritten⟩, Reported.primitive⟩
  · rw [if_pos hopens]
    exact ⟨fun h => absurd h (not_le.mpr hopen), fun h => absurd h.opens hopens⟩

theorem writeSignature_le {openErr ret : Int} {outBuf : List Byte} (hopen : openErr < 0)
    (hret : ret ≤ 0) : (writeSignature env openErr ret outBuf).1 ≤ 0 := by
  have herr : outputFileError ≤ 0 := by decide
  rw [writeSignature]
  by_cases hopens : env.outOpens = true
  · rw [if_neg (not_not.mpr hopens)]
    dsimp only
    split_ifs
    · exact herr
    · exact hret
  · rw [if_pos hopens]
    exact hopen.le

theorem Reported.out {ret openErr : Int} {outBuf : List Byte} (h : Reported env ret outBuf) :
    (writeSignature env openErr ret outBuf).2 =
      some (outBuf.take (env.written outBuf.length).toNat) := by
  rw [writeSignature, if_neg (not_not.mpr h.opens)]

theorem signMessage_success_iff :
    (signMessage lib env alg data files inForm).ret = wolfcluSuccess ↔
      ∃ ret outBuf, signPrimitive lib env alg data files inForm = .ok (ret, outBuf) ∧
        Reported env ret outBuf := by
  rw [signMessage_writes]
  cases hsign : signPrimitive lib env alg data files inForm with
  | error ret =>
    have hneg : ret < 0 := signPrimitive_negative _ _ _ _ ret hsign
    simp only [writeBuffer, signResult_success_iff fun _ => hneg.le, reduceCtorEq, false_and,
      exists_false, iff_false]
    omega
  | ok result =>
    obtain ⟨ret, outBuf⟩ := result
    have hle : alg ≠ .rsa → ret ≤ 0 := fun halg => signPrimitive_le halg hsign
    simp only [writeBuffer, Except.ok.injEq, Prod.mk.injEq]
    split_ifs with hret
    · have hopen := openError_negative alg
      rw [signResult_success_iff fun halg => writeSignature_le hopen (hle halg),
        writeSignature_nonneg_iff hopen]
      exact ⟨fun h => ⟨ret, outBuf, ⟨rfl, rfl⟩, h⟩, by rintro ⟨_, _, ⟨rfl, rfl⟩, h⟩; exact h⟩
    · rw [signResult_success_iff hle]
      exact ⟨fun h => absurd h hret, by rintro ⟨_, _, ⟨rfl, rfl⟩, h⟩; exact h.primitive⟩

theorem signMessage_out {ret : Int} {outBuf : List Byte}
    (hsign : signPrimitive lib env alg data files inForm = .ok (ret, outBuf))
    (h : Reported env ret outBuf) :
    (signMessage lib env alg data files inForm).out =
      some (outBuf.take (env.written outBuf.length).toNat) := by
  rw [signMessage_writes, hsign, writeBuffer, if_pos h.primitive]
  exact h.out

end Buffer

end WolfCLU
