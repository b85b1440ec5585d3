import WolfCLU.Foundation.Run
import WolfCLU.X509.CertSign

namespace WolfCLU
open Buffer CString

def Signable (keyType : CertKeyType) : Prop := keyType = .rsa ∨ keyType = .ecdsa

instance (keyType : CertKeyType) : Decidable (Signable keyType) :=
  inferInstanceAs (Decidable (_ ∨ _))

section Spec
variable {lib : SignLib} {env : SignEnv} {csign : CertSign} {ca x509 y : X509}

theorem signingCertificate_ok (h : signingCertificate csign = .ok ca) : csign.ca = some ca := by
  simp only [signingCertificate] at h
  split at h
  · cases h
  · rename_i hca
    cases h
    exact hca

theorem certSetDate_ok {days : Int} (h : certSetDate env x509 days = .ok y) :
    y = { x509 with notAfter := y.notAfter } := by
  simp only [certSetDate] at h
  split_ifs at h
  · split at h
    · cases h
    · cases h
      rfl
  · cases h
    rfl

theorem certSetIssuer_ok (h : certSetIssuer env ca x509 = .ok y) :
    y = { x509 with issuer := ca.subject } := by
  simp only [certSetIssuer] at h
  split_ifs at h
  cases h
  rfl

theorem digestFor_ok {hashType md : HashType} (h : digestFor env hashType = .ok md) :
    hashType ≠ .none := by
  rintro rfl
  simp [digestFor] at h

theorem certSetSerial_ok {serial : List Byte} (h : certSetSerial lib env csign serial x509 = .ok y) :
    ∃ s, serialNumber lib env csign serial = some s ∧ y = { x509 with serial := some s } := by
  simp only [certSetSerial] at h
  split at h
  · cases h
  · rename_i s hs
    cases h
    exact ⟨s, hs, rfl⟩

theorem certSetExtensions_ok (h : certSetExtensions lib env csign x509 = .ok y) :
    y = { x509 with extensions := y.extensions } := by
  simp only [certSetExtensions] at h
  split at h
  · cases h
    rfl
  · split_ifs at h
    cases h
    rfl

theorem certSignPrepare_ok {serial : List Byte} {md : HashType}
    (h : certSignPrepare lib env csign x509 serial = .ok (ca, y, md)) :
    csign.ca = some ca ∧ csign.hashType ≠ .none ∧
      ∃ dated s, certSetDate env x509 csign.days = .ok dated ∧
        serialNumber lib env csign serial = some s ∧ y.subject = x509.subject ∧
        y.issuer = ca.subject ∧ y.serial = some s ∧ y.notAfter = dated.notAfter := by
  simp only [certSignPrepare, bind_eq_ok, Except.ok.injEq, Prod.mk.injEq] at h
  obtain ⟨_, hca, dated, hdated, issued, hissued, _, hmd, numbered, hserial, _, hext, rfl, rfl, rfl⟩ := h
  obtain ⟨s, hs, hnumbered⟩ := certSetSerial_ok hserial
  have hdate := certSetDate_ok hdated
  have hissuer := certSetIssuer_ok hissued
  have hexts := certSetExtensions_ok hext
  refine ⟨signingCertificate_ok hca, digestFor_ok hmd, dated, s, hdated, hs, ?_, ?_, ?_, ?_⟩
  · rw [hexts, hnumbered, hissuer, hdate]
  · rw [hexts, hnumbered, hissuer]
  · rw [hexts, hnumbered]
  · rw [hexts, hnumbered, hissuer]

theorem certSignSign_success {md : HashType} {events : List SignEvent}
    (h : certSignSign env csign ca x509 md = (wolfcluSuccess, events)) :
    events = if Signable csign.keyType then
      [.keyMatched ca csign.caKey, .signed x509 csign.caKey] else [] := by
  have hfatal : wolfcluFatalError ≠ wolfcluSuccess := by decide
  simp only [certSignSign] at h
  by_cases hkey : csign.keyType = .rsa ∨ csign.keyType = .ecdsa
  · rw [if_pos hkey] at h
    split_ifs at h
    · exact absurd (congrArg Prod.fst h) hfatal
    · rw [if_pos (show Signable csign.keyType from hkey)]
      exact (congrArg Prod.snd h).symm
    · exact absurd (congrArg Prod.fst h) hfatal
  · rw [if_neg hkey] at h
    rw [if_neg (show ¬ Signable csign.keyType from hkey)]
    exact (congrArg Prod.snd h).symm

def SignEvent.BeforeOutput : SignEvent → Prop
  | .keyMatched _ _ => True
  | .signed _ _ => True
  | _ => False

theorem certSignSign_events (md : HashType) :
    ∀ event ∈ (certSignSign env csign ca x509 md).2, event.BeforeOutput := by
  intro event hevent
  simp only [certSignSign] at hevent
  split_ifs at hevent <;> simp only [List.mem_cons, List.not_mem_nil, or_false] at hevent
  · rw [hevent]
    trivial
  · rcases hevent with rfl | rfl <;> trivial

structure Admitted (lib : SignLib) (env : SignEnv) (csign : CertSign) (x509 : X509)
    (files : SignFiles) (ca y : X509) : Prop where
  ca_set : csign.ca = some ca
  hash_set : csign.hashType ≠ .none
  subject_eq : y.subject = x509.subject
  dated : ∃ d, certSetDate env x509 csign.days = .ok d ∧ y.notAfter = d.notAfter
  numbered : ∃ s, serialNumber lib env csign files.serial = some s ∧ y.serial = some s
  events_eq : (certSignAdmit lib env csign x509 files).events =
    if Signable csign.keyType then [.keyMatched ca csign.caKey, .signed y csign.caKey] else []
  policy_ok : checkPolicyConstraints lib.text env.policyAlloc csign.policy ca.subject x509.subject =
    wolfcluSuccess

variable {files : SignFiles}

theorem certSetDate_fails (x509 : X509) (days : Int) : Errors Fails (certSetDate env x509 days) := by
  simp only [certSetDate]
  split_ifs
  · split
    · exact errors_error fails_fatal
    · exact errors_ok _
  · exact errors_ok _

theorem certSetIssuer_fails (ca x509 : X509) : Errors Fails (certSetIssuer env ca x509) := by
  simp only [certSetIssuer]
  split_ifs
  · exact errors_error fails_fatal
  · exact errors_ok _

theorem digestFor_fails (hashType : HashType) : Errors Fails (digestFor env hashType) := by
  simp only [digestFor]
  split_ifs
  · exact errors_error fails_fatal
  · exact errors_error (fails_of_neg (by decide))
  · exact errors_ok _

theorem certSetSerial_fails (serial : List Byte) (x509 : X509) :
    Errors Fails (certSetSerial lib env csign serial x509) := by
  simp only [certSetSerial]
  split
  · exact errors_error fails_fatal
  · exact errors_ok _

theorem certSetExtensions_fails (x509 : X509) : Errors Fails (certSetExtensions lib env csign x509) := by
  simp only [certSetExtensions]
  split
  · exact errors_ok _
  · split_ifs with hret
    · exact errors_ok _
    · exact errors_error hret

theorem certSignPrepare_fails (serial : List Byte) :
    Errors Fails (certSignPrepare lib env csign x509 serial) := by
  have hca : Errors Fails (signingCertificate csign) := by
    simp only [signingCertificate]
    split
    · exact errors_error fails_fatal
    · exact errors_ok _
  refine hca.bind fun ca => (certSetDate_fails _ _).bind fun dated =>
    (certSetIssuer_fails _ _).bind fun issued => (digestFor_fails _).bind fun md =>
      (certSetSerial_fails _ _).bind fun numbered => (certSetExtensions_fails _).bind fun _ => ?_
  exact errors_ok _

theorem certSignConstrain_success
    (h : certSignConstrain lib env csign x509 files = wolfcluSuccess) :
    (uniqueCheck lib csign x509 files).getD wolfcluSuccess = wolfcluSuccess ∧
      checkPolicyConstraints lib.text env.policyAlloc csign.policy x509.issuer x509.subject =
        wolfcluSuccess := by
  simp only [certSignConstrain] at h
  split_ifs at h with hunique
  · exact ⟨hunique, h⟩
  · exact absurd h hunique

theorem certSignAdmit_ok (h : (certSignAdmit lib env csign x509 files).result = .ok y) :
    ∃ ca, Admitted lib env csign x509 files ca y := by
  cases hprep : certSignPrepare lib env csign x509 files.serial with
  | error ret => simp [certSignAdmit, hprep] at h
  | ok prepared =>
    obtain ⟨ca, prepared, md⟩ := prepared
    obtain ⟨hca, hhash, dated, s, hdated, hs, hsubject, hissuer, hserial, hdate⟩ :=
      certSignPrepare_ok hprep
    simp only [certSignAdmit, hprep] at h
    by_cases hsigned : (certSignSign env csign ca prepared md).1 = wolfcluSuccess
    · rw [if_pos hsigned] at h
      split_ifs at h with hconstrain
      cases h
      have hpolicy := (certSignConstrain_success hconstrain).2
      refine ⟨ca, hca, hhash, hsubject, ⟨dated, hdated, hdate⟩, ⟨s, hs, hserial⟩, ?_, ?_⟩
      · simp only [certSignAdmit, hprep, if_pos hsigned]
        exact certSignSign_success (Prod.ext hsigned rfl)
      · rw [← hissuer, ← hsubject]
        exact hpolicy
    · rw [if_neg hsigned] at h
      cases h

theorem certSignAdmit_fails : Errors Fails (certSignAdmit lib env csign x509 files).result := by
  cases hprep : certSignPrepare lib env csign x509 files.serial with
  | error ret =>
    simp only [certSignAdmit, hprep]
    exact errors_error (certSignPrepare_fails _ ret hprep)
  | ok prepared =>
    simp only [certSignAdmit, hprep]
    split_ifs with hsigned hconstrain
    · exact errors_ok _
    · exact errors_error hconstrain
    · exact errors_error hsigned

theorem certSignAdmit_events :
    ∀ event ∈ (certSignAdmit lib env csign x509 files).events, event.BeforeOutput := by
  intro event hevent
  cases hprep : certSignPrepare lib env csign x509 files.serial with
  | error ret => simp [certSignAdmit, hprep] at hevent
  | ok prepared =>
    simp only [certSignAdmit, hprep] at hevent
    split_ifs at hevent <;> exact certSignSign_events _ event hevent

theorem certSignAdmit_unique {u : Int} (h : (certSignAdmit lib env csign x509 files).unique = some u) :
    csign.unique = true ∧
      u = checkUnique lib.names x509.subject (if csign.dataBase then files.database else []) := by
  cases hprep : certSignPrepare lib env csign x509 files.serial with
  | error ret => simp [certSignAdmit, hprep] at h
  | ok prepared =>
    obtain ⟨ca, prepared, md⟩ := prepared
    obtain ⟨-, -, -, -, -, -, hsubject, -⟩ := certSignPrepare_ok hprep
    simp only [certSignAdmit, hprep] at h
    by_cases hsigned : (certSignSign env csign ca prepared md).1 = wolfcluSuccess
    · rw [if_pos hsigned] at h
      simp only [uniqueCheck, hsubject] at h
      by_cases hunique : csign.unique = true
      · rw [if_pos hunique] at h
        exact ⟨hunique, (Option.some.inj h).symm⟩
      · rw [if_neg hunique] at h
        cases h
    · rw [if_neg hsigned] at h
      cases h

theorem certSignRecord_events : ∀ event ∈ (certSignRecord lib env csign y files).2.2,
    event = .logged y := by
  intro event hevent
  simp only [certSignRecord] at hevent
  split_ifs at hevent <;> simp_all

theorem certSign_written {z : X509} :
    .written z ∈ (certSign lib env csign x509 files).events ↔
      (certSignAdmit lib env csign x509 files).result = .ok z ∧ outputWritten env csign = true := by
  have hbefore : .written z ∉ (certSignAdmit lib env csign x509 files).events :=
    fun hmem => certSignAdmit_events _ hmem
  cases hresult : (certSignAdmit lib env csign x509 files).result with
  | error ret => simp [certSign, hresult, hbefore]
  | ok y =>
    have hlogged : .written z ∉ (certSignRecord lib env csign y files).2.2 := by
      intro hmem
      cases certSignRecord_events _ hmem
    simp only [certSign, hresult]
    by_cases hout : outputWritten env csign = true
    · simp [hout, hbefore, hlogged, eq_comm]
    · simp [hout, hbefore]

theorem certSign_success (h : (certSign lib env csign x509 files).ret = wolfcluSuccess) :
    ∃ z, (certSignAdmit lib env csign x509 files).result = .ok z ∧ outputWritten env csign = true := by
  cases hresult : (certSignAdmit lib env csign x509 files).result with
  | error ret =>
    simp only [certSign, hresult] at h
    exact absurd h (certSignAdmit_fails ret hresult)
  | ok y =>
    simp only [certSign, hresult] at h
    by_cases hout : outputWritten env csign = true
    · exact ⟨y, rfl, hout⟩
    · have hfatal : wolfcluFatalError ≠ wolfcluSuccess := by decide
      rw [if_neg hout] at h
      exact absurd h hfatal

end Spec

structure SignInput where
  env : SignEnv
  csign : CertSign
  x509 : X509

structure SignStep where
  before : SignFiles
  run : SignRun

def signStep (lib : SignLib) (input : SignInput) (files : SignFiles) : SignFiles × SignStep :=
  let run := certSign lib input.env input.csign input.x509 files
  (run.files, ⟨files, run⟩)

def ReachesOutput (lib : SignLib) (input : SignInput) (files : SignFiles) : Prop :=
  outputWritten input.env input.csign = true ∧
    ∃ y, (certSignAdmit lib input.env input.csign input.x509 files).result = .ok y

section Stopped
variable {lib : SignLib} {env : SignEnv} {csign : CertSign} {x509 y : X509} {files : SignFiles}

theorem certSign_files (hok : (certSignAdmit lib env csign x509 files).result = .ok y)
    (hout : outputWritten env csign = true) : (certSign lib env csign x509 files).files =
      (certSignRecord lib env csign y files).2.1 := by
  simp only [certSign, hok, if_pos hout]

theorem certSign_stopped (h : ¬ ReachesOutput lib ⟨env, csign, x509⟩ files) :
    (certSign lib env csign x509 files).files = files ∧
      (certSign lib env csign x509 files).events = (certSignAdmit lib env csign x509 files).events ∧
        (certSign lib env csign x509 files).ret ≠ wolfcluSuccess := by
  cases hresult : (certSignAdmit lib env csign x509 files).result with
  | error ret =>
    have hret := certSignAdmit_fails ret hresult
    simp only [certSign, hresult]
    exact ⟨trivial, trivial, hret⟩
  | ok y =>
    have hout : ¬ outputWritten env csign = true := fun hout => h ⟨hout, y, hresult⟩
    have hfatal : wolfcluFatalError ≠ wolfcluSuccess := by decide
    simp only [certSign, hresult, if_neg hout]
    exact ⟨trivial, trivial, hfatal⟩

end Stopped

def willingEnv : SignEnv where
  fault _ := false
  dateAfter _ := some (str "300101000000Z")
  randomSerial := some 1
  answer _ _ _ := wolfcluSuccess
  pubkey _ _ := none
  copies := ⟨fun _ _ => true, fun _ => []⟩
  checkPrivateKey _ _ := true
  sign _ _ _ := 1
  policyAlloc _ := true

def sampleCert : X509 where
  subject := [⟨.commonName, str "Test CA"⟩]
  publicKey := str "ca"
  issuer := []
  serial := none
  notAfter := []
  extensions := []

def sampleRequest : X509 where
  subject := [⟨.commonName, str "server"⟩]
  publicKey := str "server"
  issuer := []
  serial := none
  notAfter := []
  extensions := []

def sampleSigner : CertSign :=
  { CertSign.new with
    outDir := some (str "out.pem")
    ca := some sampleCert
    caKey := some ⟨.rsa, str "ca"⟩
    keyType := .rsa }

end WolfCLU
