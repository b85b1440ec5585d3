import WolfCLU.X509.CaSetup
import WolfCLU.X509.CertSignSpec

namespace WolfCLU
open CString

def Keyed (csign : CertSign) : Prop := Signable csign.keyType → csign.caKey ≠ none

theorem keyed_new : Keyed CertSign.new := by
  intro h
  rcases h with h | h <;> cases h

theorem Keyed.setCA {csign : CertSign} (h : Keyed csign) (ca : Option X509) (key : Option PKey) :
    Keyed (csign.setCA ca key (getTypeFromPKey key)) := by
  cases key with
  | none => exact h
  | some key =>
    simp only [CertSign.setCA]
    split_ifs with htype
    · intro _
      simp
    · intro hsignable
      exact absurd hsignable htype

theorem appendOut_key {alloc : Bool} {csign csign' : CertSign} {out : Option (List Byte)}
    (h : csign.appendOut alloc out = .ok csign') :
    csign'.keyType = csign.keyType ∧ csign'.caKey = csign.caKey := by
  simp only [CertSign.appendOut] at h
  split at h
  · cases h
    exact ⟨rfl, rfl⟩
  · split_ifs at h
    cases h
    exact ⟨rfl, rfl⟩

theorem Keyed.of_same {csign csign' : CertSign} (h : Keyed csign)
    (hsame : csign'.keyType = csign.keyType ∧ csign'.caKey = csign.caKey) : Keyed csign' := by
  intro hsignable
  rw [hsame.2]
  exact h (hsame.1 ▸ hsignable)

section Reachable
variable {env : CaEnv}

theorem readSignConfig_keyed {config sect : List Byte} {csign : CertSign}
    (h : readSignConfig env config sect = some csign) : Keyed csign := by
  simp only [readSignConfig] at h
  split_ifs at h
  simp only [Option.bind_eq_bind, Option.bind_eq_some_iff, Option.some.injEq] at h
  obtain ⟨conf, -, dir, -, signer, hout, dataBase, -, ca, -, serialFile, -, caKey, -, rfl⟩ := h
  have hconf : Keyed (CertSign.new.setConfig (confFile env conf)) := keyed_new.of_same ⟨rfl, rfl⟩
  have hkeyed : Keyed signer := hconf.of_same (appendOut_key (ok_of_toOption hout))
  have hset : Keyed (signer.configure env conf ((conf sect (str "default_ca")).getD sect) dataBase
      serialFile) := hkeyed.of_same ⟨rfl, rfl⟩
  exact hset.setCA ca caKey

theorem newSigner_keyed {config : Option (List Byte)} {csign : CertSign}
    (h : newSigner env config = some csign) : Keyed csign := by
  cases config with
  | some config => exact readSignConfig_keyed h
  | none =>
    simp only [newSigner] at h
    split_ifs at h
    cases h
    exact keyed_new

theorem signer_keyed {s : CaState} {csign : CertSign} {x509 : X509}
    (h : s.signer env = some (csign, x509)) : Keyed csign := by
  simp only [CaState.signer] at h
  split_ifs at h
  simp only [Option.bind_eq_bind, Option.bind_eq_some_iff] at h
  obtain ⟨reqIn, -, signer, hnew, pkey, -, signer', hout, request, -, h⟩ := h
  split_ifs at h
  cases h
  have hover : Keyed (s.override signer) := by
    refine (newSigner_keyed hnew).of_same ?_
    simp only [CaState.override]
    split_ifs <;> exact ⟨rfl, rfl⟩
  have hout : Keyed signer' := hover.of_same (appendOut_key (ok_of_toOption hout))
  have hdate : Keyed (s.setDate signer') := by
    refine hout.of_same ?_
    simp only [CaState.setDate]
    split_ifs <;> exact ⟨rfl, rfl⟩
  have hca : Keyed (s.setCA x509 pkey (s.setDate signer')) := by
    simp only [CaState.setCA]
    split_ifs
    · exact hdate.setCA _ _
    · exact hdate.setCA _ _
    · exact hdate
  refine hca.of_same ?_
  simp only [CaState.setExt]
  split <;> exact ⟨rfl, rfl⟩

end Reachable

structure SignedFirst (csign : CertSign) (run : SignRun) : Prop where
  written : ∀ z, .written z ∈ run.events → ∃ ca key, csign.ca = some ca ∧ csign.caKey = some key ∧
    List.Sublist [.keyMatched ca (some key), .signed z (some key), .written z] run.events
  success : run.ret = wolfcluSuccess → ∃ z, .written z ∈ run.events

section Extensions

def AltNameReadable (lib : X509Lib) (copies : CopyEnv) (entry : List Byte × List Byte) : Prop :=
  ∃ data, altNameData lib copies entry.1 entry.2 = .ok data

def AltNamesReadable (lib : X509Lib) (copies : CopyEnv) (conf : ConfFile) (sect : List Byte) :
    Prop :=
  match conf.string (some sect) (str "subjectAltName") with
  | none => True
  | some current =>
    if current.headD 0 = 64 then
      ∀ entry ∈ (conf.pairs (current.drop 1)).getD [], AltNameReadable lib copies entry
    else
      ∃ dup, copies.copy .subjectAltName current = some dup ∧ ∀ token ∈ TextLine.strtok 44 dup,
        ∃ entry, inlineEntry token = some entry ∧ AltNameReadable lib copies entry

variable {lib : X509Lib} {copies : CopyEnv} {x509 : X509Object}

theorem altNamesLoop_readable {entries : List (List Byte × List Byte)}
    (h : (altNamesLoop lib copies x509 entries).1 = wolfcluSuccess) :
    ∀ entry ∈ entries, AltNameReadable lib copies entry := by
  induction entries generalizing x509 with
  | nil => simp
  | cons entry entries ih =>
    simp only [altNamesLoop] at h
    by_cases hadd : (addAltName lib copies x509 entry.1 entry.2).1 = wolfcluSuccess
    · rw [if_pos hadd] at h
      exact List.forall_mem_cons.mpr ⟨addAltName_ok hadd, ih h⟩
    · rw [if_neg hadd] at h
      exact absurd h hadd

theorem inlineLoop_readable {tokens : List (List Byte)}
    (h : (inlineLoop lib copies x509 tokens).1 = wolfcluSuccess) :
    ∀ token ∈ tokens, ∃ entry, inlineEntry token = some entry ∧
      AltNameReadable lib copies entry := by
  induction tokens generalizing x509 with
  | nil => simp
  | cons token tokens ih =>
    rw [inlineLoop] at h
    rcases hentry : inlineEntry token with _ | entry
    · rw [hentry] at h
      exact absurd h fails_fatal
    · simp only [hentry] at h
      by_cases hadd : (addAltName lib copies x509 entry.1 entry.2).1 = wolfcluSuccess
      · rw [if_pos hadd] at h
        exact List.forall_mem_cons.mpr ⟨⟨entry, hentry, addAltName_ok hadd⟩, ih h⟩
      · rw [if_neg hadd] at h
        exact absurd h hadd

theorem setExtensions_readable {conf : ConfFile} {sect : List Byte}
    (h : (setExtensions lib copies x509 conf (some sect)).1 = wolfcluSuccess) :
    AltNamesReadable lib copies conf sect := by
  rw [AltNamesReadable]
  rcases hcurrent : conf.string (some sect) (str "subjectAltName") with _ | current
  · trivial
  · simp only [setExtensions, setSubjectAltName, hcurrent] at h
    dsimp only
    by_cases hat : current.headD 0 = 64
    · rw [if_pos hat] at h ⊢
      rw [setAltNames] at h
      rcases hpairs : conf.pairs (current.drop 1) with _ | entries
      · simp
      · simp only [hpairs] at h
        exact altNamesLoop_readable h
    · rw [if_neg hat] at h ⊢
      rcases hcopy : copies.copy .subjectAltName current with _ | dup
      · rw [hcopy] at h
        exact absurd h fails_fatal
      · rw [hcopy] at h
        exact ⟨dup, rfl, inlineLoop_readable h⟩

variable (hadds : ∀ x509 call, lib.answer x509 call = wolfcluSuccess)

include hadds

theorem addAltName_adds {entry : List Byte × List Byte} (h : AltNameReadable lib copies entry) :
    (addAltName lib copies x509 entry.1 entry.2).1 = wolfcluSuccess := by
  obtain ⟨data, hdata⟩ := h
  simp only [addAltName, hdata, X509Lib.call, hadds, if_true]

theorem altNamesLoop_adds {entries : List (List Byte × List Byte)}
    (h : ∀ entry ∈ entries, AltNameReadable lib copies entry) :
    (altNamesLoop lib copies x509 entries).1 = wolfcluSuccess := by
  induction entries generalizing x509 with
  | nil => rfl
  | cons entry entries ih =>
    obtain ⟨hentry, hentries⟩ := List.forall_mem_cons.mp h
    simp only [altNamesLoop, addAltName_adds hadds hentry, if_true]
    exact ih hentries

theorem inlineLoop_adds {tokens : List (List Byte)}
    (h : ∀ token ∈ tokens, ∃ entry, inlineEntry token = some entry ∧
      AltNameReadable lib copies entry) :
    (inlineLoop lib copies x509 tokens).1 = wolfcluSuccess := by
  induction tokens generalizing x509 with
  | nil => rfl
  | cons token tokens ih =>
    obtain ⟨⟨entry, hentry, hreadable⟩, htokens⟩ := List.forall_mem_cons.mp h
    simp only [inlineLoop, hentry, addAltName_adds hadds hreadable, if_true]
    exact ih htokens

theorem setExtensions_adds {conf : ConfFile} {sect : List Byte}
    (h : AltNamesReadable lib copies conf sect) :
    (setExtensions lib copies x509 conf (some sect)).1 = wolfcluSuccess := by
  rw [AltNamesReadable] at h
  rcases hcurrent : conf.string (some sect) (str "subjectAltName") with _ | current
  · simp only [setExtensions, setSubjectAltName, hcurrent]
  · simp only [setExtensions, setSubjectAltName, hcurrent]
    rw [hcurrent] at h
    dsimp only at h
    by_cases hat : current.headD 0 = 64
    · rw [if_pos hat] at h ⊢
      rw [setAltNames]
      rcases hpairs : conf.pairs (current.drop 1) with _ | entries
      · rfl
      · rw [hpairs] at h
        exact altNamesLoop_adds hadds h
    · rw [if_neg hat] at h ⊢
      obtain ⟨dup, hcopy, htokens⟩ := h
      rw [hcopy]
      exact inlineLoop_adds hadds htokens

end Extensions

def ExtensionsReadable (lib : SignLib) (csign : CertSign) (copies : CopyEnv) : Prop :=
  ∀ ext, csign.ext = some ext → AltNamesReadable lib.x509 copies (csign.config.getD noConf) ext

def Issuable (lib : SignLib) (csign : CertSign) (x509 : X509) : Prop :=
  csign.outDir ≠ none ∧ csign.hashType ≠ .none ∧
    (∃ ca, csign.ca = some ca ∧
      checkPolicyConstraints lib.text (fun _ => true) csign.policy ca.subject x509.subject =
        wolfcluSuccess) ∧
    ∃ copies, ExtensionsReadable lib csign copies

section Signed
variable {lib : SignLib} {env : SignEnv} {csign : CertSign} {x509 z : X509} {files : SignFiles}

theorem checkPolicyConstraints_alloc {text : TextByNid} {alloc : PolicyField → Bool} {policy : Nat}
    {issuer subject : X509Name}
    (h : checkPolicyConstraints text alloc policy issuer subject = wolfcluSuccess) :
    checkPolicyConstraints text (fun _ => true) policy issuer subject = wolfcluSuccess := by
  simp only [checkPolicyConstraints] at h ⊢
  split_ifs with hpolicy
  · rw [if_pos hpolicy, Policy.checkPolicyFields_iff] at h
    refine (Policy.checkPolicyFields_iff _ _ _ _ _ _).mpr fun f hf => ?_
    obtain ⟨hpresent, hcompared⟩ := (Policy.checkPolicy_iff _ _ _ _ _ _ _).mp (h f hf)
    exact (Policy.checkPolicy_iff _ _ _ _ _ _ _).mpr ⟨hpresent, fun hm => ⟨rfl, (hcompared hm).2⟩⟩
  · rfl

theorem certSign_success_written
    (h : (certSign lib env csign x509 files).ret = wolfcluSuccess) :
    ∃ z, .written z ∈ (certSign lib env csign x509 files).events := by
  obtain ⟨z, hok, hout⟩ := certSign_success h
  exact ⟨z, certSign_written.mpr ⟨hok, hout⟩⟩

theorem certSign_events_written (hok : (certSignAdmit lib env csign x509 files).result = .ok z)
    (hout : outputWritten env csign = true) :
    (certSign lib env csign x509 files).events =
      (certSignAdmit lib env csign x509 files).events ++
        .written z :: (certSignRecord lib env csign z files).2.2 := by
  simp only [certSign, hok, if_pos hout]

theorem ridComponents_extension {value : List (List Byte)} {decoded : List Nat} :
    ridComponents (extensionLib lib env x509) value decoded =
      ridComponents lib.x509 value decoded := by
  induction value generalizing decoded with
  | nil => rfl
  | cons token tokens ih =>
    simp only [ridComponents, ih]
    rfl

theorem altNameReadable_extension {copies : CopyEnv} {entry : List Byte × List Byte} :
    AltNameReadable (extensionLib lib env x509) copies entry ↔
      AltNameReadable lib.x509 copies entry := by
  simp only [AltNameReadable, altNameData, ridData, ridComponents_extension]
  rfl

theorem altNamesReadable_extension {copies : CopyEnv} {conf : ConfFile} {sect : List Byte} :
    AltNamesReadable (extensionLib lib env x509) copies conf sect ↔
      AltNamesReadable lib.x509 copies conf sect := by
  rw [AltNamesReadable, AltNamesReadable]
  simp only [altNameReadable_extension]

theorem extensionsReadable_of_ok (h : certSetExtensions lib env csign x509 = .ok z) :
    ExtensionsReadable lib csign env.copies := by
  intro ext hext
  simp only [certSetExtensions, hext] at h
  split_ifs at h with hret
  exact altNamesReadable_extension.mp (setExtensions_readable hret)

theorem admitted_extensions (h : (certSignAdmit lib env csign x509 files).result = .ok z) :
    ExtensionsReadable lib csign env.copies := by
  rcases hprep : certSignPrepare lib env csign x509 files.serial with ret | prepared
  · simp [certSignAdmit, hprep] at h
  · simp only [certSignPrepare, bind_eq_ok] at hprep
    obtain ⟨_, -, _, -, _, -, _, -, _, -, _, hext, -⟩ := hprep
    exact extensionsReadable_of_ok hext

theorem issuable_of_written (h : .written z ∈ (certSign lib env csign x509 files).events) :
    Issuable lib csign x509 := by
  obtain ⟨hok, hout⟩ := certSign_written.mp h
  obtain ⟨ca, hadmitted⟩ := certSignAdmit_ok hok
  simp only [outputWritten, decide_eq_true_eq] at hout
  exact ⟨hout.1, hadmitted.hash_set,
    ⟨ca, hadmitted.ca_set, checkPolicyConstraints_alloc hadmitted.policy_ok⟩,
    env.copies, admitted_extensions hok⟩

theorem signedFirst_of_signable (hkeyed : Keyed csign) (hsignable : Signable csign.keyType) :
    SignedFirst csign (certSign lib env csign x509 files) := by
  refine ⟨fun z hz => ?_, certSign_success_written⟩
  obtain ⟨hok, hout⟩ := certSign_written.mp hz
  obtain ⟨ca, hadmitted⟩ := certSignAdmit_ok hok
  obtain ⟨key, hkey⟩ := Option.ne_none_iff_exists'.mp (hkeyed hsignable)
  refine ⟨ca, key, hadmitted.ca_set, hkey, ?_⟩
  rw [certSign_events_written hok hout, hadmitted.events_eq, if_pos hsignable, hkey]
  simp

def freshFiles : SignFiles := ⟨str "01", []⟩

theorem a2i_freshFiles (serials : SerialLib) : serials.a2i freshFiles.serial = some 1 := by
  have hread := @serials.a2i_digits (str "01") [] (by decide) (by decide)
    (by decide +kernel) (by decide +kernel)
    (by simp)
  rw [List.append_nil] at hread
  exact hread

def copyingEnv (copies : CopyEnv) : SignEnv := { willingEnv with copies := copies }

theorem prepare_willing (lib : SignLib) {ca : X509} (hca : csign.ca = some ca)
    (hhash : csign.hashType ≠ .none) {copies : CopyEnv}
    (hreadable : ExtensionsReadable lib csign copies) :
    ∃ y md, certSignPrepare lib (copyingEnv copies) csign x509 freshFiles.serial =
      .ok (ca, y, md) := by
  have hdate (x : X509) : ∃ y, certSetDate (copyingEnv copies) x csign.days = .ok y := by
    simp only [certSetDate]
    split_ifs
    · exact ⟨_, rfl⟩
    · exact ⟨_, rfl⟩
  have hserial (x : X509) :
      ∃ y, certSetSerial lib (copyingEnv copies) csign freshFiles.serial x = .ok y := by
    have hnumber : serialNumber lib (copyingEnv copies) csign freshFiles.serial = some 1 := by
      simp only [serialNumber, a2i_freshFiles]
      split_ifs with hfile hfault
      · cases hfault
      · rfl
      · rfl
    exact ⟨{ x with serial := some 1 }, by simp only [certSetSerial, hnumber]⟩
  have hext (x : X509) : ∃ y, certSetExtensions lib (copyingEnv copies) csign x = .ok y := by
    rcases h : csign.ext with _ | ext
    · exact ⟨x, by simp only [certSetExtensions, h]⟩
    · have hadded := @setExtensions_adds (extensionLib lib (copyingEnv copies) x) copies x.extensions
        (fun _ _ => rfl) (csign.config.getD noConf) ext
        (altNamesReadable_extension.mpr (hreadable ext h))
      exact ⟨_, by simp only [certSetExtensions, h]; exact if_pos hadded⟩
  have hmd : digestFor (copyingEnv copies) csign.hashType = .ok csign.hashType := by
    simp [digestFor, hhash, copyingEnv, willingEnv]
  have hissuer (x : X509) :
      certSetIssuer (copyingEnv copies) ca x = .ok { x with issuer := ca.subject } := by
    simp [certSetIssuer, copyingEnv, willingEnv]
  obtain ⟨dated, hdate⟩ := hdate x509
  obtain ⟨numbered, hserial⟩ := hserial { dated with issuer := ca.subject }
  obtain ⟨y, hext⟩ := hext numbered
  have hsigning : signingCertificate csign = .ok ca := by simp only [signingCertificate, hca]
  exact ⟨y, csign.hashType, bind_eq_ok.mpr ⟨ca, hsigning, bind_eq_ok.mpr ⟨dated, hdate,
    bind_eq_ok.mpr ⟨_, hissuer dated, bind_eq_ok.mpr ⟨_, hmd, bind_eq_ok.mpr ⟨numbered, hserial,
      bind_eq_ok.mpr ⟨y, hext, rfl⟩⟩⟩⟩⟩⟩⟩

theorem admits_issuable (hsignable : ¬ Signable csign.keyType) (hissuable : Issuable lib csign x509) :
    ∃ copies z,
      (certSignAdmit lib (copyingEnv copies) csign x509 freshFiles).result = .ok z := by
  obtain ⟨-, hhash, ⟨ca, hca, hpolicy⟩, copies, hreadable⟩ := hissuable
  obtain ⟨y, md, hprep⟩ := @prepare_willing _ x509 lib _ hca hhash _ hreadable
  obtain ⟨-, -, dated, s, -, -, hsubject, hissuer, -, -⟩ := certSignPrepare_ok hprep
  have hsign : certSignSign (copyingEnv copies) csign ca y md = (wolfcluSuccess, []) :=
    if_neg hsignable
  have hunique : (uniqueCheck lib csign y freshFiles).getD wolfcluSuccess = wolfcluSuccess := by
    simp only [uniqueCheck, freshFiles, ite_self]
    split_ifs
    · rfl
    · rfl
  have hconstrain : certSignConstrain lib (copyingEnv copies) csign y freshFiles =
      wolfcluSuccess := by
    simp only [certSignConstrain, if_pos hunique, hsubject, hissuer]
    exact hpolicy
  exact ⟨copies, y, by simp only [certSignAdmit, hprep, hsign, if_true, if_pos hconstrain]⟩

theorem not_signedFirst_of_unsignable (hsignable : ¬ Signable csign.keyType)
    (hissuable : Issuable lib csign x509) :
    ∃ env, ¬ SignedFirst csign (certSign lib env csign x509 freshFiles) := by
  obtain ⟨copies, z, hok⟩ := admits_issuable hsignable hissuable
  refine ⟨copyingEnv copies, fun hfirst => ?_⟩
  obtain ⟨ca', hadmitted⟩ := certSignAdmit_ok hok
  have hout : outputWritten (copyingEnv copies) csign = true := by
    simp [outputWritten, copyingEnv, willingEnv, hissuable.1]
  obtain ⟨ca, key, -, -, hsub⟩ := hfirst.written z (certSign_written.mpr ⟨hok, hout⟩)
  have hmatched : .keyMatched ca (some key) ∈
      (certSign lib (copyingEnv copies) csign x509 freshFiles).events :=
    hsub.subset List.mem_cons_self
  rw [certSign_events_written hok hout, hadmitted.events_eq, if_neg hsignable, List.nil_append]
    at hmatched
  rcases List.mem_cons.mp hmatched with hmatched | hmatched
  · cases hmatched
  · cases certSignRecord_events _ hmatched

end Signed

def sampleCaEnv : CaEnv where
  dualAlg := false
  signerAlloc := true
  outAlloc := true
  fileOpens _ := true
  dataBaseOpens _ := true
  serialOpens _ := true
  loadConf _ := none
  confNumber _ _ _ := none
  confPairs _ _ := none
  certificatePem _ := some sampleCert
  certificateDer _ := none
  privateKey _ := some ⟨.rsa, str "ca"⟩
  requestPem _ := some sampleRequest
  requestDer _ := none
  setVersion _ := true

def keylessArgs : Args :=
  [str "wolfssl", str "ca", str "-in", str "csr.pem", str "-cert", str "ca.pem", str "-out",
    str "out.pem"]

def keylessSigner : CertSign :=
  { CertSign.new with outDir := some (str "out.pem"), ca := some sampleCert }

theorem caSigner_keyless : caSigner sampleCaEnv keylessArgs = some (keylessSigner, sampleRequest) := by
  rfl

theorem certSign_signed_iff {lib : SignLib} {env : CaEnv} {argv : Args} {csign : CertSign}
    {x509 : X509} (h : caSigner env argv = some (csign, x509)) :
    (∀ (senv : SignEnv) (files : SignFiles), SignedFirst csign (certSign lib senv csign x509 files)) ↔
      Signable csign.keyType ∨ ¬ Issuable lib csign x509 := by
  constructor
  · intro hsigned
    by_contra hnone
    obtain ⟨hsignable, hissuable⟩ := not_or.mp hnone
    obtain ⟨senv, hunsigned⟩ := not_signedFirst_of_unsignable hsignable (not_not.mp hissuable)
    exact hunsigned (hsigned senv freshFiles)
  · rintro (hsignable | hissuable) senv files
    · exact signedFirst_of_signable (signer_keyed h) hsignable
    · have hnone : ∀ z, .written z ∉ (certSign lib senv csign x509 files).events :=
        fun z hz => hissuable (issuable_of_written hz)
      refine ⟨fun z hz => absurd hz (hnone z), fun hret => ?_⟩
      obtain ⟨z, hz⟩ := certSign_success_written hret
      exact absurd hz (hnone z)

theorem certSign_signed_iff_keyless :
    (∀ (senv : SignEnv) (files : SignFiles), SignedFirst keylessSigner
      (certSign standardLib senv keylessSigner sampleRequest files)) ↔
      Signable keylessSigner.keyType ∨ ¬ Issuable standardLib keylessSigner sampleRequest :=
  certSign_signed_iff caSigner_keyless

theorem keyless_certificate_unsigned :
    ¬ ∀ (env : CaEnv) (argv : Args) (csign : CertSign) (x509 : X509) (senv : SignEnv)
      (files : SignFiles), caSigner env argv = some (csign, x509) →
      SignedFirst csign (certSign standardLib senv csign x509 files) := by
  intro h
  have hsignable : ¬ Signable keylessSigner.keyType := by decide
  have hissuable : Issuable standardLib keylessSigner sampleRequest :=
    ⟨by decide, by decide, ⟨sampleCert, rfl, by decide⟩, willingEnv.copies, nofun⟩
  obtain ⟨senv, hunsigned⟩ := not_signedFirst_of_unsignable hsignable hissuable
  exact hunsigned (h sampleCaEnv keylessArgs keylessSigner sampleRequest _ _ caSigner_keyless)

end WolfCLU
