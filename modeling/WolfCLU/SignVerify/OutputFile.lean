import WolfCLU.SignVerify.SignRoundTrip

namespace WolfCLU
open CString

-- what stood under the output name before, and how much of the bytes that the stream took is in the
-- file once the stream is closed
structure OutputFile where
  old : Option (List Byte)
  flushed : Nat → Nat

def OutputFile.after (file : OutputFile) : Option (List Byte) → Option (List Byte)
  | none => file.old
  | some taken => some (taken.take (file.flushed taken.length))

def OutputFile.kept (file : OutputFile) (env : SignatureEnv) (n : Nat) : Nat :=
  let taken := min (env.written n).toNat n
  min (file.flushed taken) taken

section Runs
variable {κ : Type} (lib : SignatureLib κ) (env : SignatureEnv)

def signatureBytes : SigAlg → Int × List Byte → List Byte
  | .rsa, (ret, outBuf) => outBuf.take ret.toNat
  | _, (_, outBuf) => outBuf

def signResultOf (files : SignatureFiles) (keyType : Option SigAlg) (inForm : Form) :
    Except Int (SigAlg × Int × List Byte) := do
  let data ← loadMessage files.message
  match keyType with
  | none => .error wolfcluFatalError
  | some alg =>
    let result ← signPrimitive lib env alg data files inForm
    .ok (alg, result)

def rsaVerifyResult (files : VerifyFiles) (pubIn : Int) (inForm : Form) :
    Except Int (Int × List Byte) := do
  let sig ← loadInput files.signature
  let key ← rsaKey lib.toVerifyLib env.toVerifyEnv files.key pubIn inForm
  .ok (lib.rsaVerify key sig, lib.rsaRecovered key sig)

def verifyRsaRun (files : VerifyFiles) (pubIn : Int) (inForm : Form) : SignatureRun :=
  match loadInput files.signature with
  | .error ret => ⟨ret, none⟩
  | .ok sig =>
    match rsaKey lib.toVerifyLib env.toVerifyEnv files.key pubIn inForm with
    | .error ret => ⟨finish ret, none⟩
    | .ok key =>
      let ret := lib.rsaVerify key sig
      if 0 < ret then
        let (ret, out) := writeSignature env badFuncArg ret
          ((lib.rsaRecovered key sig).take ret.toNat)
        ⟨finish ret, out⟩
      else ⟨finish ret, none⟩

end Runs

section Exact
variable {κ : Type} (lib : SignatureLib κ) (env : SignatureEnv) (file : OutputFile)

def SignWritesExactly (files : SignatureFiles) (keyType : Option SigAlg) (inForm : Form) : Prop :=
  (signData lib env files keyType inForm).ret = wolfcluSuccess →
    ∃ alg result, signResultOf lib env files keyType inForm = .ok (alg, result) ∧
      file.after (signData lib env files keyType inForm).out = some (signatureBytes alg result)

def VerifyWritesExactly (files : VerifyFiles) (pubIn : Int) (inForm : Form) : Prop :=
  (verifyRsaRun lib env files pubIn inForm).ret = wolfcluSuccess →
    ∃ ret recovered, rsaVerifyResult lib env files pubIn inForm = .ok (ret, recovered) ∧
      file.after (verifyRsaRun lib env files pubIn inForm).out = some (recovered.take ret.toNat)

def Keeps (buf wanted : List Byte) : Prop :=
  env.outOpens = true → 0 < env.written buf.length → file.kept env buf.length = wanted.length

def SignatureKept (files : SignatureFiles) (keyType : Option SigAlg) (inForm : Form) : Prop :=
  ∀ alg ret outBuf, signResultOf lib env files keyType inForm = .ok (alg, ret, outBuf) → 0 ≤ ret →
    Keeps env file outBuf (signatureBytes alg (ret, outBuf))

def RecoveredKept (files : VerifyFiles) (pubIn : Int) (inForm : Form) : Prop :=
  ∀ ret recovered, rsaVerifyResult lib env files pubIn inForm = .ok (ret, recovered) →
    (ret = 0 → file.old = some []) ∧
      (0 < ret → Keeps env file (recovered.take ret.toNat) (recovered.take ret.toNat))

end Exact

section Kept
variable {κ : Type} {lib : SignatureLib κ} {env : SignatureEnv} {file : OutputFile}
  {buf wanted : List Byte}

theorem after_taken (buf : List Byte) :
    file.after (some (buf.take (env.written buf.length).toNat)) =
      some (buf.take (file.kept env buf.length)) := by
  rw [OutputFile.after, OutputFile.kept, List.length_take, List.take_take]
  congr 1
  rw [List.take_eq_take_iff]
  omega

theorem after_wanted_iff {n : Nat} (hwanted : wanted = buf.take n) :
    file.after (some (buf.take (env.written buf.length).toNat)) = some wanted ↔
      file.kept env buf.length = wanted.length := by
  have hle : file.kept env buf.length ≤ buf.length :=
    (min_le_right _ _).trans (min_le_right _ _)
  rw [after_taken, Option.some.injEq]
  constructor
  · intro h
    rw [← h, List.length_take, Nat.min_eq_left hle]
  · intro h
    rw [h, hwanted, List.length_take, List.take_eq_take_iff]
    omega

end Kept

section Signing
variable {κ : Type} {lib : SignatureLib κ} {env : SignatureEnv} {file : OutputFile}
  {files : SignatureFiles} {keyType : Option SigAlg} {inForm : Form}

theorem signatureBytes_take (alg : SigAlg) (ret : Int) (outBuf : List Byte) :
    ∃ n, signatureBytes alg (ret, outBuf) = outBuf.take n := by
  cases alg with
  | rsa => exact ⟨ret.toNat, rfl⟩
  | ecc | ed25519 | dilithium | xmss | xmssmt => exact ⟨outBuf.length, List.take_length.symm⟩

theorem signData_message {data : List Byte} {alg : SigAlg}
    (hload : loadMessage files.message = .ok data) :
    signData lib env files (some alg) inForm = signMessage lib env alg data files inForm := by
  simp only [signData, hload]

theorem signResultOf_ok_iff {alg : SigAlg} {result : Int × List Byte} :
    signResultOf lib env files keyType inForm = .ok (alg, result) ↔
      keyType = some alg ∧ ∃ data, loadMessage files.message = .ok data ∧
        signPrimitive lib env alg data files inForm = .ok result := by
  cases keyType with
  | none => simp [signResultOf, bind_eq_ok]
  | some alg' =>
    simp only [signResultOf, bind_eq_ok, Except.ok.injEq, Prod.mk.injEq, Option.some.injEq]
    constructor
    · rintro ⟨data, hload, result', hsign, rfl, rfl⟩
      exact ⟨rfl, data, hload, hsign⟩
    · rintro ⟨rfl, data, hload, hsign⟩
      exact ⟨data, hload, result, hsign, rfl, rfl⟩

theorem signData_success_iff :
    (signData lib env files keyType inForm).ret = wolfcluSuccess ↔
      ∃ alg ret outBuf, signResultOf lib env files keyType inForm = .ok (alg, ret, outBuf) ∧
        Reported env ret outBuf := by
  simp only [signResultOf_ok_iff]
  cases hload : loadMessage files.message with
  | error ret =>
    have hneg : ret < 0 := loadMessage_negative _ ret hload
    simp only [signData, hload, wolfcluSuccess, reduceCtorEq, false_and, exists_false, and_false,
      iff_false]
    omega
  | ok data =>
    cases keyType with
    | none => simp [signData, hload, wolfcluFatalError, wolfcluSuccess]
    | some alg =>
      rw [signData_message hload, signMessage_success_iff]
      constructor
      · rintro ⟨ret, outBuf, hsign, hreported⟩
        exact ⟨alg, ret, outBuf, ⟨rfl, data, rfl, hsign⟩, hreported⟩
      · rintro ⟨_, ret, outBuf, ⟨⟨rfl⟩, _, ⟨rfl⟩, hsign⟩, hreported⟩
        exact ⟨ret, outBuf, hsign, hreported⟩

theorem signData_out {alg : SigAlg} {ret : Int} {outBuf : List Byte}
    (hresult : signResultOf lib env files keyType inForm = .ok (alg, ret, outBuf))
    (hreported : Reported env ret outBuf) :
    (signData lib env files keyType inForm).out =
      some (outBuf.take (env.written outBuf.length).toNat) := by
  obtain ⟨rfl, data, hload, hsign⟩ := signResultOf_ok_iff.mp hresult
  rw [signData_message hload]
  exact signMessage_out hsign hreported

theorem signWritesExactly_iff :
    SignWritesExactly lib env file files keyType inForm ↔
      SignatureKept lib env file files keyType inForm := by
  constructor
  · intro h alg ret outBuf hresult hret hopens hwritten
    have hreported : Reported env ret outBuf := ⟨hret, hopens, hwritten⟩
    obtain ⟨alg', result, hresult', hafter⟩ :=
      h (signData_success_iff.mpr ⟨alg, ret, outBuf, hresult, hreported⟩)
    obtain ⟨rfl, rfl⟩ := Prod.mk.inj (Except.ok.inj (hresult'.symm.trans hresult))
    obtain ⟨n, htake⟩ := signatureBytes_take alg' ret outBuf
    rw [signData_out hresult hreported] at hafter
    exact (after_wanted_iff htake).mp hafter
  · intro h hsuccess
    obtain ⟨alg, ret, outBuf, hresult, hreported⟩ := signData_success_iff.mp hsuccess
    obtain ⟨n, htake⟩ := signatureBytes_take alg ret outBuf
    refine ⟨alg, (ret, outBuf), hresult, ?_⟩
    rw [signData_out hresult hreported]
    exact (after_wanted_iff htake).mpr
      (h alg ret outBuf hresult hreported.primitive hreported.opens hreported.written)

end Signing

section Verifying
variable {κ : Type} {lib : SignatureLib κ} {env : SignatureEnv} {file : OutputFile}
  {files : VerifyFiles} {pubIn : Int} {inForm : Form}

theorem rsaKey_negative (keyPath : VerifyFile) :
    Errors (· < 0) (rsaKey lib.toVerifyLib env.toVerifyEnv keyPath pubIn inForm) :=
  bufferedKey_negative .rsa keyPath pubIn inForm

theorem loadInput_negative (f : VerifyFile) : Errors (· < 0) (loadInput f) :=
  loadFile_negative badFuncArg_negative badFuncArg_negative

theorem verifyRsaRun_error {ret : Int} (h : rsaVerifyResult lib env files pubIn inForm = .error ret) :
    (verifyRsaRun lib env files pubIn inForm).ret ≠ wolfcluSuccess := by
  rw [rsaVerifyResult] at h
  rw [verifyRsaRun]
  cases hsig : loadInput files.signature with
  | error ret' =>
    have hneg : ret' < 0 := loadInput_negative _ ret' hsig
    simp only [wolfcluSuccess]
    omega
  | ok sig =>
    cases hkey : rsaKey lib.toVerifyLib env.toVerifyEnv files.key pubIn inForm with
    | error ret' => exact finish_negative_ne (rsaKey_negative _ ret' hkey)
    | ok key =>
      rw [hsig, hkey] at h
      cases h

theorem verifyRsaRun_result {ret : Int} {recovered : List Byte}
    (h : rsaVerifyResult lib env files pubIn inForm = .ok (ret, recovered)) :
    verifyRsaRun lib env files pubIn inForm =
      if 0 < ret then
        ⟨finish (writeSignature env badFuncArg ret (recovered.take ret.toNat)).1,
          (writeSignature env badFuncArg ret (recovered.take ret.toNat)).2⟩
      else ⟨finish ret, none⟩ := by
  simp only [rsaVerifyResult, bind_eq_ok, Except.ok.injEq, Prod.mk.injEq] at h
  obtain ⟨sig, hsig, key, hkey, rfl, rfl⟩ := h
  simp only [verifyRsaRun, hsig, hkey]

theorem verifyWritesExactly_iff :
    VerifyWritesExactly lib env file files pubIn inForm ↔
      RecoveredKept lib env file files pubIn inForm := by
  cases hresult : rsaVerifyResult lib env files pubIn inForm with
  | error ret =>
    simp only [VerifyWritesExactly, RecoveredKept, hresult, reduceCtorEq, false_implies,
      implies_true, iff_true]
    exact fun hsuccess => absurd hsuccess (verifyRsaRun_error hresult)
  | ok result =>
    obtain ⟨ret, recovered⟩ := result
    have hrecovered : RecoveredKept lib env file files pubIn inForm ↔
        (ret = 0 → file.old = some []) ∧
          (0 < ret → Keeps env file (recovered.take ret.toNat) (recovered.take ret.toNat)) := by
      simp only [RecoveredKept, hresult, Except.ok.injEq, Prod.mk.injEq]
      exact ⟨fun h => h ret recovered ⟨rfl, rfl⟩, by rintro h _ _ ⟨rfl, rfl⟩; exact h⟩
    have hwrites : VerifyWritesExactly lib env file files pubIn inForm ↔
        ((verifyRsaRun lib env files pubIn inForm).ret = wolfcluSuccess →
          file.after (verifyRsaRun lib env files pubIn inForm).out =
            some (recovered.take ret.toNat)) := by
      simp only [VerifyWritesExactly, hresult, Except.ok.injEq, Prod.mk.injEq]
      exact ⟨fun h hsuccess => by obtain ⟨_, _, ⟨rfl, rfl⟩, hafter⟩ := h hsuccess; exact hafter,
        fun h hsuccess => ⟨ret, recovered, ⟨rfl, rfl⟩, h hsuccess⟩⟩
    rw [hrecovered, hwrites, verifyRsaRun_result hresult]
    rcases lt_trichotomy ret 0 with hneg | rfl | hpos
    · rw [if_neg (by omega)]
      simp only [finish_success_iff]
      exact ⟨fun _ => ⟨fun h => by omega, fun h => by omega⟩, fun _ h => by omega⟩
    · simp [finish, OutputFile.after]
    · rw [if_pos hpos]
      simp only [finish_success_iff, writeSignature_nonneg_iff badFuncArg_negative]
      constructor
      · intro h
        refine ⟨fun hzero => by omega, fun _ hopens hwritten => ?_⟩
        have hreported : Reported env ret (recovered.take ret.toNat) := ⟨hpos.le, hopens, hwritten⟩
        have hafter := h hreported
        rw [hreported.out] at hafter
        exact (after_wanted_iff List.take_length.symm).mp hafter
      · rintro ⟨-, h⟩ hreported
        rw [hreported.out]
        exact (after_wanted_iff List.take_length.symm).mpr (h hpos hreported.opens hreported.written)

theorem verifyRsaRun_ret (hwrites : ∀ n, 0 < n → (env.outWrites = true ↔ 0 < env.written n))
    (hfits : ∀ key sig, lib.rsaVerify key sig ≤ (lib.rsaRecovered key sig).length) :
    (verifyRsaRun lib env files pubIn inForm).ret =
      (verifySignature lib.toVerifyLib env.toVerifyEnv files (some .rsa) pubIn inForm).ret := by
  simp only [verifyRsaRun, verifySignature, verifyMessage, verifySignatureRsa]
  cases loadInput files.signature with
  | error ret => rfl
  | ok sig =>
    dsimp only
    cases rsaKey lib.toVerifyLib env.toVerifyEnv files.key pubIn inForm with
    | error ret => rfl
    | ok key =>
      dsimp only [rsaOutput]
      have hsize := hfits key sig
      by_cases hret : 0 < lib.rsaVerify key sig
      · have hlen : ((lib.rsaRecovered key sig).take (lib.rsaVerify key sig).toNat).length =
            (lib.rsaVerify key sig).toNat := by
          rw [List.length_take]
          omega
        have hreported := hwrites (lib.rsaVerify key sig).toNat (by omega)
        rw [if_pos hret, if_pos hret, writeSignature, hlen]
        by_cases hopens : env.outOpens = true
        · simp only [hopens, hreported, not_true_eq_false, if_false, not_lt]
        · rw [if_pos hopens, if_pos hopens]
      · rw [if_neg hret, if_neg hret]

theorem verifyRsaRun_out (hcomplete : ∀ n, env.written n = n) (hwrites : env.outWrites = true) :
    (verifyRsaRun lib env files pubIn inForm).out =
      rsaWritten lib env.toVerifyEnv files pubIn inForm := by
  simp only [verifyRsaRun, rsaWritten]
  cases loadInput files.signature with
  | error ret => rfl
  | ok sig =>
    dsimp only
    cases rsaKey lib.toVerifyLib env.toVerifyEnv files.key pubIn inForm with
    | error ret => rfl
    | ok key =>
      dsimp only
      by_cases hret : 0 < lib.rsaVerify key sig
      · by_cases hopens : env.outOpens = true
        · rw [if_pos hret, if_pos ⟨hret, hopens⟩, if_pos hwrites, writeSignature,
            if_neg (not_not.mpr hopens), hcomplete]
          dsimp only
          rw [Int.toNat_natCast, List.take_length]
        · simp [hret, hopens, writeSignature]
      · simp [hret]

end Verifying

theorem output_exact_iff {κ : Type} (lib : SignatureLib κ) (env : SignatureEnv) (file : OutputFile)
    (sign : SignatureFiles) (keyType : Option SigAlg) (verify : VerifyFiles) (pubIn : Int)
    (inForm : Form) :
    (SignWritesExactly lib env file sign keyType inForm ↔
        SignatureKept lib env file sign keyType inForm) ∧
      (VerifyWritesExactly lib env file verify pubIn inForm ↔
        RecoveredKept lib env file verify pubIn inForm) :=
  ⟨signWritesExactly_iff, verifyWritesExactly_iff⟩

def fullDiskEnv : SignatureEnv := { echoEnv with written := fun _ => 1 }

def freshFile : OutputFile := ⟨none, fun n => n⟩

theorem one_byte_is_a_signature :
    ¬ SignWritesExactly echoLib fullDiskEnv freshFile (echoFiles (str "msg")) (some .ed25519) .der ∧
      ¬ VerifyWritesExactly echoLib fullDiskEnv freshFile
        (signedFiles (str "msg") [] (str "public")) 1 .der := by
  rw [signWritesExactly_iff, verifyWritesExactly_iff]
  constructor
  · intro h
    exact absurd (h .ed25519 0 (str "signature") rfl le_rfl rfl (by decide)) (by decide)
  · intro h
    exact absurd ((h 3 (str "msg") rfl).2 (by decide) rfl (by decide)) (by decide)

end WolfCLU
