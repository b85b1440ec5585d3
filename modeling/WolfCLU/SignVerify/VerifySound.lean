import WolfCLU.SignVerify.KeyLoading

namespace WolfCLU
open CString

section Outcome
variable {κ : Type} {lib : VerifyLib κ} {env : VerifyEnv} {verified : Int × Int} {ret : Int}

theorem finish_success_iff : finish ret = wolfcluSuccess ↔ 0 ≤ ret := by
  simp only [finish, wolfcluSuccess]
  split_ifs with h
  · simp [h]
  · omega

theorem finishZero_success_iff (h : ret ≤ 0) : finishZero ret = wolfcluSuccess ↔ ret = 0 := by
  simp only [finishZero, wolfcluSuccess]
  split_ifs with hzero
  · simp [hzero]
  · omega

theorem statOutcome_nonneg_iff (h : verified.1 ≤ 0) :
    0 ≤ statOutcome verified ↔ verified = (0, 1) := by
  obtain ⟨ret, stat⟩ := verified
  simp only [statOutcome, Prod.mk.injEq] at h ⊢
  split_ifs with hneg hstat
  · omega
  · simp only [hstat, and_true]
    omega
  · simp only [hstat, and_false, iff_false, not_le]
    exact fatal_negative

theorem dilithiumOutcome_success_iff (h : verified.1 ≤ 0) :
    dilithiumOutcome verified = wolfcluSuccess ↔ verified = (0, 1) := by
  obtain ⟨ret, stat⟩ := verified
  simp only [dilithiumOutcome, Prod.mk.injEq] at h ⊢
  by_cases hzero : ret = 0
  · subst hzero
    by_cases hstat : stat = 1
    · simp [hstat, finish_success_iff]
    · simp [hstat, finish_success_iff, wolfcluFatalError]
  · simp only [ne_eq, hzero, not_false_eq_true, if_true, wolfcluSuccess, false_and, iff_false]
    omega

theorem rsaOutput_nonneg (h : 0 ≤ rsaOutput env ret) : 0 ≤ ret := by
  simp only [rsaOutput] at h
  by_contra hneg
  rw [if_neg (by omega)] at h
  exact hneg h

theorem bufferedKey_negative (alg : SigAlg) (keyPath : VerifyFile) (pubIn : Int) (inForm : Form) :
    Errors (· < 0) (bufferedKey lib env alg keyPath pubIn inForm) := by
  refine (succeeds_negative (lib.init_le alg)).bind fun _ =>
    (loadFile_negative badFuncArg_negative badFuncArg_negative).bind fun keyBuf =>
      keyDer_negative.bind fun der => (succeeds_negative ?_).bind fun key =>
        Errors.bind ?_ fun _ => errors_ok _
  · split_ifs
    · exact lib.publicDecode_le _ _
    · exact lib.privateDecode_le _ _
  · simp only [outputBuffer]
    split_ifs
    · exact errors_error fatal_negative
    · exact allocated_negative _

theorem ed25519Key_negative (keyPath : VerifyFile) (pubIn : Int) (inForm : Form) :
    Errors (· < 0) (ed25519Key lib env keyPath pubIn inForm) := by
  refine (succeeds_negative (lib.init_le _)).bind fun _ =>
    (loadFile_negative badFuncArg_negative badFuncArg_negative).bind fun keyBuf =>
      keyDer_negative.bind fun der => ?_
  split_ifs
  · simp only [ed25519PublicKey]
    split_ifs
    · exact succeeds_negative (lib.importPublic_le _)
    · exact succeeds_negative (lib.publicDecode_le _ _)
  · refine (succeeds_negative ?_).bind fun priv => succeeds_negative (lib.makePublic_le _)
    split_ifs
    · exact lib.importPrivate_le _ _
    · exact lib.privateDecode_le _ _

theorem dilithiumKey_negative (keyPath : VerifyFile) (inForm : Form) :
    Errors (· < 0) (dilithiumKey lib env keyPath inForm) :=
  (allocated_negative _).bind fun _ => (succeeds_negative (lib.init_le _)).bind fun _ =>
    (loadFile_negative badFuncArg_negative badFuncArg_negative).bind fun _ =>
      keyDer_negative.bind fun _ => succeeds_negative (lib.publicDecode_le _ _)

theorem xmssFamilyKey_negative (alg : SigAlg) (params : List (Nat × List Byte))
    (pubKey : VerifyFile) : Errors (· < 0) (xmssFamilyKey lib env alg params pubKey) :=
  (allocated_negative _).bind fun _ => (succeeds_negative (lib.init_le _)).bind fun _ =>
    (loadFile_negative (by decide) fatal_negative).bind fun _ => (allocated_negative _).bind fun _ =>
      (paramOfOid_negative _ _).bind fun _ => (succeeds_negative (lib.xmssSetParam_le _)).bind
        fun _ => succeeds_negative (lib.xmssImport_le _ _)

theorem eccDigest_negative (key : κ) (hash : List Byte) :
    Errors (· < 0) (eccDigest lib key hash) := by
  simp only [eccDigest]
  split_ifs with hsize hzero hneg
  · exact errors_ok _
  · exact errors_error hneg
  · exact errors_error fatal_negative
  · exact errors_error badFuncArg_negative

theorem eccDigest_ok {key : κ} {hash digest : List Byte} (h : eccDigest lib key hash = .ok digest) :
    lib.hash (eccHashType (lib.eccSize key)) hash = (0, digest) := by
  simp only [eccDigest] at h
  split_ifs at h with hsize hzero
  cases h
  exact Prod.ext hzero rfl

end Outcome

section Accepted
variable {κ : Type} (lib : VerifyLib κ)

def MessageOf (alg : SigAlg) (key : κ) (contents : List Byte) (message : Option (List Byte)) : Prop :=
  match alg with
  | .rsa => message = none
  | .ecc => ∃ digest, lib.hash (eccHashType (lib.eccSize key)) contents = (0, digest) ∧
      message = some digest
  | _ => message = some contents

def Accepted (call : VerifyCall κ) : Prop :=
  match call.alg, call.message with
  | .rsa, none => 0 ≤ lib.rsaVerify call.key call.sig
  | .ecc, some digest => lib.eccVerify call.key call.sig digest = (0, 1)
  | .ed25519, some msg => lib.ed25519Verify call.key call.sig msg = (0, 1)
  | .dilithium, some msg => lib.dilithiumVerify call.key call.sig msg = (0, 1)
  | .xmss, some msg => lib.xmssVerify call.key call.sig msg = 0
  | .xmssmt, some msg => lib.xmssVerify call.key call.sig msg = 0
  | _, _ => False

structure Genuine (files : VerifyFiles) (alg : SigAlg) (pubIn : Int) (inForm : Form)
    (call : VerifyCall κ) : Prop where
  alg_eq : call.alg = alg
  sig_eq : call.sig = files.signature.contents
  message_eq : MessageOf lib alg call.key files.message.contents call.message
  key_eq : KeyOf lib pubIn inForm files.key.contents alg call.key
  accepted : Accepted lib call

def Sound (files : VerifyFiles) (alg : SigAlg) (pubIn : Int) (inForm : Form)
    (run : VerifyRun κ) : Prop :=
  run.ret = wolfcluSuccess → ∃ call ∈ run.calls, Genuine lib files alg pubIn inForm call

end Accepted

section Success
variable {κ : Type} {lib : VerifyLib κ} {env : VerifyEnv} {keyPath : VerifyFile} {pubIn : Int}
  {inForm : Form} {sig hash : List Byte}

structure Verified (lib : VerifyLib κ) (env : VerifyEnv) (alg : SigAlg) (keyPath : VerifyFile)
    (pubIn : Int) (inForm : Form) (sig hash : List Byte) (call : VerifyCall κ) : Prop where
  alg_eq : call.alg = alg
  sig_eq : call.sig = sig
  prepared : preparedKey lib env alg keyPath pubIn inForm = .ok call.key
  message_eq : MessageOf lib alg call.key hash call.message
  accepted : Accepted lib call

theorem finish_negative_ne {ret : Int} (h : ret < 0) : finish ret ≠ wolfcluSuccess := by
  intro hfinish
  have := finish_success_iff.mp hfinish
  omega

theorem verifyXmssFamily_success {alg : SigAlg} {params : List (Nat × List Byte)}
    (h : (verifyXmssFamily lib env alg params sig hash keyPath).ret = wolfcluSuccess) :
    ∃ key, xmssFamilyKey lib env alg params keyPath = .ok key ∧
      lib.xmssVerify key sig hash = 0 ∧
        (verifyXmssFamily lib env alg params sig hash keyPath).calls = [⟨alg, key, sig, some hash⟩] := by
  cases hkey : xmssFamilyKey lib env alg params keyPath with
  | error ret =>
    have hneg : ret < 0 := xmssFamilyKey_negative alg params keyPath ret hkey
    simp only [verifyXmssFamily, hkey] at h
    have := (finishZero_success_iff (le_of_lt hneg)).mp h
    omega
  | ok key =>
    simp only [verifyXmssFamily, hkey] at h ⊢
    exact ⟨key, rfl, (finishZero_success_iff (lib.xmssVerify_le _ _ _)).mp h, rfl⟩

theorem verifyMessage_success {alg : SigAlg}
    (h : (verifyMessage lib env alg sig hash keyPath pubIn inForm).ret = wolfcluSuccess) :
    ∃ call ∈ (verifyMessage lib env alg sig hash keyPath pubIn inForm).calls,
      Verified lib env alg keyPath pubIn inForm sig hash call := by
  cases alg with
  | rsa =>
    simp only [verifyMessage, verifySignatureRsa] at h ⊢
    cases hkey : rsaKey lib env keyPath pubIn inForm with
    | error ret =>
      rw [hkey] at h
      exact absurd h (finish_negative_ne (bufferedKey_negative _ _ _ _ ret hkey))
    | ok key =>
      rw [hkey] at h
      have haccept : 0 ≤ lib.rsaVerify key sig := rsaOutput_nonneg (finish_success_iff.mp h)
      exact ⟨_, List.mem_singleton_self _, rfl, rfl, hkey, rfl, haccept⟩
  | ecc =>
    simp only [verifyMessage, verifySignatureEcc] at h ⊢
    cases hkey : eccKey lib env keyPath pubIn inForm with
    | error ret =>
      rw [hkey] at h
      exact absurd h (finish_negative_ne (bufferedKey_negative _ _ _ _ ret hkey))
    | ok key =>
      cases hdigest : eccDigest lib key hash with
      | error ret =>
        simp only [hkey, hdigest] at h
        exact absurd h (finish_negative_ne (eccDigest_negative key hash ret hdigest))
      | ok digest =>
        simp only [hkey, hdigest] at h ⊢
        have haccept : lib.eccVerify key sig digest = (0, 1) :=
          (statOutcome_nonneg_iff (lib.eccVerify_le _ _ _)).mp (finish_success_iff.mp h)
        exact ⟨_, List.mem_singleton_self _, rfl, rfl, hkey, ⟨digest, eccDigest_ok hdigest, rfl⟩,
          haccept⟩
  | ed25519 =>
    simp only [verifyMessage, verifySignatureEd25519] at h ⊢
    cases hkey : ed25519Key lib env keyPath pubIn inForm with
    | error ret =>
      rw [hkey] at h
      exact absurd h (finish_negative_ne (ed25519Key_negative _ _ _ ret hkey))
    | ok key =>
      rw [hkey] at h
      have haccept : lib.ed25519Verify key sig hash = (0, 1) :=
        (statOutcome_nonneg_iff (lib.ed25519Verify_le _ _ _)).mp (finish_success_iff.mp h)
      exact ⟨_, List.mem_singleton_self _, rfl, rfl, hkey, rfl, haccept⟩
  | dilithium =>
    simp only [verifyMessage, verifySignatureDilithium] at h ⊢
    cases hkey : dilithiumKey lib env keyPath inForm with
    | error ret =>
      have hneg : ret < 0 := dilithiumKey_negative _ _ ret hkey
      rw [hkey] at h
      simp only [wolfcluSuccess] at h
      omega
    | ok key =>
      rw [hkey] at h
      have haccept : lib.dilithiumVerify key sig hash = (0, 1) :=
        (dilithiumOutcome_success_iff (lib.dilithiumVerify_le _ _ _)).mp h
      exact ⟨_, List.mem_singleton_self _, rfl, rfl, hkey, rfl, haccept⟩
  | xmss =>
    obtain ⟨key, hkey, haccept, hcalls⟩ := verifyXmssFamily_success h
    refine ⟨⟨.xmss, key, sig, some hash⟩, ?_, rfl, rfl, hkey, rfl, haccept⟩
    exact hcalls ▸ List.mem_singleton_self _
  | xmssmt =>
    obtain ⟨key, hkey, haccept, hcalls⟩ := verifyXmssFamily_success h
    refine ⟨⟨.xmssmt, key, sig, some hash⟩, ?_, rfl, rfl, hkey, rfl, haccept⟩
    exact hcalls ▸ List.mem_singleton_self _

structure Reaches (files : VerifyFiles) (alg : SigAlg) (inForm : Form) : Prop where
  signature : Loads 0 maxFileSize files.signature
  message : alg ≠ .rsa → Loads 0 maxFileSize files.message
  key : KeyUsable alg inForm files.key

structure FilesWhole (files : VerifyFiles) (alg : SigAlg) (pubIn : Int) (inForm : Form) : Prop where
  signature : Complete files.signature
  message : alg ≠ .rsa → Complete files.message
  key : Complete files.key
  minimum : keyMinimum alg pubIn inForm ≤ files.key.contents.length

theorem loadInput_ok_iff {f : VerifyFile} {buf : List Byte} :
    loadInput f = .ok buf ↔ Loads 0 maxFileSize f ∧ buf = f.loaded :=
  loadFile_ok_iff

theorem loadInput_error_ne {f : VerifyFile} {ret : Int} (h : loadInput f = .error ret) :
    ret ≠ wolfcluSuccess := by
  have hneg : ret < 0 := loadFile_negative badFuncArg_negative badFuncArg_negative ret h
  simp only [wolfcluSuccess]
  omega

theorem verifySignature_rsa {files : VerifyFiles} (hsig : Loads 0 maxFileSize files.signature) :
    verifySignature lib env files (some .rsa) pubIn inForm =
      verifyMessage lib env .rsa files.signature.loaded [] files.key pubIn inForm := by
  simp only [verifySignature, loadInput_ok_iff.mpr ⟨hsig, rfl⟩]

theorem verifySignature_message {files : VerifyFiles} {alg : SigAlg} (halg : alg ≠ .rsa)
    (hsig : Loads 0 maxFileSize files.signature) (hmsg : Loads 0 maxFileSize files.message) :
    verifySignature lib env files (some alg) pubIn inForm =
      verifyMessage lib env alg files.signature.loaded files.message.loaded files.key pubIn
        inForm := by
  cases alg with
  | rsa => exact absurd rfl halg
  | ecc | ed25519 | dilithium | xmss | xmssmt =>
    simp only [verifySignature, loadInput_ok_iff.mpr ⟨hsig, rfl⟩, loadInput_ok_iff.mpr ⟨hmsg, rfl⟩]

theorem verifySignature_loads {files : VerifyFiles} {alg : SigAlg}
    (h : (verifySignature lib env files (some alg) pubIn inForm).ret = wolfcluSuccess) :
    Loads 0 maxFileSize files.signature ∧ (alg ≠ .rsa → Loads 0 maxFileSize files.message) := by
  cases hsig : loadInput files.signature with
  | error ret =>
    simp only [verifySignature, hsig] at h
    exact absurd h (loadInput_error_ne hsig)
  | ok sig =>
    refine ⟨(loadInput_ok_iff.mp hsig).1, fun halg => ?_⟩
    cases hmsg : loadInput files.message with
    | error ret =>
      cases alg with
      | rsa => exact absurd rfl halg
      | ecc | ed25519 | dilithium | xmss | xmssmt =>
        simp only [verifySignature, hsig, hmsg] at h
        exact absurd h (loadInput_error_ne hmsg)
    | ok msg => exact (loadInput_ok_iff.mp hmsg).1

theorem messageOf_rsa {key : κ} {contents contents' : List Byte} {message : Option (List Byte)}
    (h : MessageOf lib .rsa key contents message) : MessageOf lib .rsa key contents' message := h

theorem verifySignature_verified {files : VerifyFiles} {alg : SigAlg}
    (h : (verifySignature lib env files (some alg) pubIn inForm).ret = wolfcluSuccess) :
    ∃ call ∈ (verifySignature lib env files (some alg) pubIn inForm).calls,
      Verified lib env alg files.key pubIn inForm files.signature.loaded files.message.loaded call := by
  obtain ⟨hsig, hmsg⟩ := verifySignature_loads h
  by_cases halg : alg = .rsa
  · subst halg
    rw [verifySignature_rsa hsig] at h ⊢
    obtain ⟨call, hcall, hverified⟩ := verifyMessage_success h
    exact ⟨call, hcall, { hverified with message_eq := messageOf_rsa hverified.message_eq }⟩
  · rw [verifySignature_message halg hsig (hmsg halg)] at h ⊢
    exact verifyMessage_success h

theorem reaches_of_success {files : VerifyFiles} {alg : SigAlg}
    (h : (verifySignature lib env files (some alg) pubIn inForm).ret = wolfcluSuccess) :
    Reaches files alg inForm := by
  obtain ⟨hsig, hmsg⟩ := verifySignature_loads h
  obtain ⟨call, -, hverified⟩ := verifySignature_verified h
  exact ⟨hsig, hmsg, preparedKey_usable hverified.prepared⟩

theorem sound_of_whole {files : VerifyFiles} {alg : SigAlg}
    (h : Reaches files alg inForm → FilesWhole files alg pubIn inForm) :
    Sound lib files alg pubIn inForm (verifySignature lib env files (some alg) pubIn inForm) := by
  intro hret
  have hreach := reaches_of_success hret
  have hwhole := h hreach
  obtain ⟨call, hcall, hverified⟩ := verifySignature_verified hret
  refine ⟨call, hcall, hverified.alg_eq, ?_, ?_, ?_, hverified.accepted⟩
  · rw [hverified.sig_eq, (hreach.signature.loaded_eq_iff le_rfl).mpr hwhole.signature]
  · by_cases halg : alg = .rsa
    · subst halg
      exact messageOf_rsa hverified.message_eq
    · rw [← ((hreach.message halg).loaded_eq_iff le_rfl).mpr (hwhole.message halg)]
      exact hverified.message_eq
  · exact preparedKey_genuine hverified.prepared hwhole.key hwhole.minimum

end Success

end WolfCLU
