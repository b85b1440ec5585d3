import WolfCLU.Crypto.ExplicitKey
import WolfCLU.Foundation.Renewal
import WolfCLU.X509.Request

namespace WolfCLU
open CString Renewal

def X509Call.changes : X509Call → Bool
  | .setNotBefore _ | .setNotAfter _ | .setPubkey _ | .addExt _ | .addAltName _ _ _
  | .setSubjectName _ => true
  | .addAttribute _ _ | .setVersion _ | .sign _ _ _ => false

def X509Call.signs : X509Call → Bool
  | .sign _ _ _ => true
  | _ => false

def SignedSinceChange (x509 : X509Object) : Prop :=
  Renewed (fun call => call.changes = true) (fun call => call.signs = true) x509

def Draft.withKey (d : Draft) (pkey : PKey) : Draft :=
  { d with x509 := d.x509 ++ [.setPubkey pkey], pkey := some pkey }

namespace RequestState

def resigns (s : RequestState) : Bool :=
  decide (s.days > 0) || s.config.isSome || s.subj.isSome || s.addExt.isSome

def LeavesUnsigned (lib : X509Lib) (s : RequestState) : Prop :=
  s.reqIn ≠ none ∧ s.resigns = false ∧
    (s.keyIn ≠ none ∨ s.newKey ≠ none ∨ (s.genX509 = true ∧ lib.extIsSet [] = false))

instance (lib : X509Lib) (s : RequestState) : Decidable (s.LeavesUnsigned lib) :=
  inferInstanceAs (Decidable (s.reqIn ≠ none ∧ s.resigns = false ∧
    (s.keyIn ≠ none ∨ s.newKey ≠ none ∨ (s.genX509 = true ∧ lib.extIsSet [] = false))))

section Blocks
variable {σ H : Type} {env : RequestEnv σ H} {s : RequestState} {d d' : Draft}

theorem setPubkey_ok {pkey : PKey} (h : setPubkey env pkey d = .ok d') :
    d' = d.withKey pkey := by
  simp only [setPubkey] at h
  split at h <;> cases h
  rfl

theorem readRequest_ok (h : s.readRequest env = .ok d) : d = ⟨[], none, false⟩ := by
  simp only [readRequest] at h
  split at h <;> split at h <;> cases h <;> rfl

theorem setDates_flag (h : s.setDates env d = .ok d') :
    d'.reSign = (d.reSign || decide (s.days > 0)) := by
  simp only [setDates] at h
  split at h
  · rename_i hdays
    split at h
    · cases h
      simp [hdays]
    · cases h
  · rename_i hdays
    cases h
    simp [hdays]

theorem loadKey_ok (h : s.loadKey env d = .ok d') :
    (s.keyIn = none ∧ d' = d) ∨ (s.keyIn ≠ none ∧ ∃ pkey, d' = d.withKey pkey) := by
  simp only [loadKey] at h
  split at h
  · rename_i hnone
    cases h
    exact .inl ⟨hnone, rfl⟩
  · rename_i keyIn hkeyIn
    split at h
    · cases h
    · rename_i pkey _
      exact .inr ⟨by simp [hkeyIn], pkey, setPubkey_ok h⟩

theorem addNewKey_ok (h : s.addNewKey env d = .ok d') :
    ((s.newKey = none ∨ d.pkey ≠ none) ∧ d' = d) ∨
      (s.newKey ≠ none ∧ d.pkey = none ∧ ∃ pkey, d' = d.withKey pkey) := by
  simp only [addNewKey] at h
  split at h
  · rename_i hnewKey hpkey
    obtain ⟨pkey, -, h⟩ := bind_eq_ok.mp h
    exact .inr ⟨by simp [hnewKey], hpkey, pkey, setPubkey_ok h⟩
  · rename_i hnot
    cases h
    refine .inl ⟨?_, rfl⟩
    cases hnewKey : s.newKey with
    | none => exact .inl rfl
    | some newKey => exact .inr fun hpkey => hnot newKey.1 newKey.2 hnewKey hpkey

theorem loadKey_flag (h : s.loadKey env d = .ok d') : d'.reSign = d.reSign := by
  rcases loadKey_ok h with ⟨-, rfl⟩ | ⟨-, pkey, rfl⟩ <;> rfl

theorem addNewKey_flag (h : s.addNewKey env d = .ok d') : d'.reSign = d.reSign := by
  rcases addNewKey_ok h with ⟨-, rfl⟩ | ⟨-, -, pkey, rfl⟩ <;> rfl

theorem requireKey_ok (h : s.requireKey d = .ok d') : d' = d := by
  simp only [requireKey] at h
  split at h <;> cases h
  rfl

theorem applyConfig_flag (h : s.applyConfig env d = .ok d') :
    d'.reSign = (d.reSign || s.config.isSome) := by
  simp only [applyConfig] at h
  split at h
  · rename_i hconfig
    cases h
    simp [hconfig]
  · rename_i config hconfig
    split at h <;> cases h
    simp [hconfig]

theorem applySubject_flag (h : s.applySubject env d = .ok d') :
    d'.reSign = (d.reSign || s.subj.isSome) := by
  simp only [applySubject] at h
  split at h
  · rename_i hsubj
    cases h
    simp [hsubj]
  · rename_i subj hsubj
    split at h <;> cases h
    simp [hsubj]

theorem applyAddExt_flag (h : s.applyAddExt env d = .ok d') :
    d'.reSign = (d.reSign || s.addExt.isSome) := by
  simp only [applyAddExt] at h
  split at h
  · rename_i haddExt
    cases h
    simp [haddExt]
  · rename_i addExt haddExt
    split at h <;> cases h
    simp [haddExt]

theorem promptSubject_flag (h : s.promptSubject env d = .ok d') : d'.reSign = d.reSign := by
  simp only [promptSubject] at h
  split at h
  · split at h
    · obtain ⟨name, -, h⟩ := bind_eq_ok.mp h
      cases h
      rfl
    · cases h
  · cases h
    rfl

theorem defaultConstraints_ok (h : s.defaultConstraints env d = .ok d') :
    d'.reSign = d.reSign ∧
      d'.x509 = if s.genX509 = true ∧ env.lib.extIsSet d.x509 = false then
        d.x509 ++ [.addExt (.basicConstraints true true none)] else d.x509 := by
  simp only [defaultConstraints, Bool.not_eq_true] at h
  by_cases hunset : s.genX509 = true ∧ env.lib.extIsSet d.x509 = false
  · rw [if_pos hunset] at h ⊢
    split at h
    · split at h <;> cases h
      exact ⟨rfl, rfl⟩
    · cases h
  · rw [if_neg hunset] at h ⊢
    cases h
    exact ⟨rfl, rfl⟩

theorem setRequestVersion_ok (h : setRequestVersion env d = .ok d') :
    d' = { d with x509 := d.x509 ++ [.setVersion .v1] } := by
  simp only [setRequestVersion] at h
  split at h <;> cases h
  rfl

theorem requireSigningKey_ok (h : s.requireSigningKey d = .ok d') : d' = d := by
  simp only [requireSigningKey] at h
  split at h <;> cases h
  rfl

theorem signCertificate_ok {pkey : PKey} (h : s.signCertificate env pkey d = .ok d') :
    d'.x509 = d.x509 ++ [.setVersion .v3] ++ [.sign true pkey s.digest] := by
  simp only [signCertificate] at h
  split at h
  · split at h <;> cases h
    rfl
  · cases h

theorem signRequest_ok {pkey : PKey} (h : s.signRequest env pkey d = .ok d') :
    d'.x509 = d.x509 ++ [.sign false pkey s.digest] := by
  simp only [signRequest] at h
  split at h <;> cases h
  rfl

theorem signObject_ok (h : s.signObject env d = .ok d') :
    (s.signs d = true ∧ SignedSinceChange d'.x509) ∨ (s.signs d = false ∧ d' = d) := by
  simp only [signObject] at h
  by_cases hsigns : s.signs d = true
  · rw [if_pos hsigns] at h
    refine .inl ⟨hsigns, ?_⟩
    split at h
    · cases h
    · split at h
      · rw [signCertificate_ok h]
        exact renewed_concat rfl (by simp [X509Call.changes])
      · rw [signRequest_ok h]
        exact renewed_concat rfl (by simp [X509Call.changes])
  · rw [if_neg hsigns] at h
    cases h
    exact .inr ⟨Bool.eq_false_of_not_eq_true hsigns, rfl⟩

theorem verifyObject_ok (h : s.verifyObject env d = .ok d') : d'.x509 = d.x509 := by
  simp only [verifyObject] at h
  split at h
  · split at h
    · cases h
    · split at h <;> cases h
      rfl
  · cases h
    rfl

theorem writeOut_ok {bioOut : Bool} {x509 : X509Object}
    (h : s.writeOut env bioOut d = .ok (some x509)) : x509 = d.x509 := by
  unfold writeOut at h
  split at h
  · cases h
  · extract_lets ret at h
    split at h <;> cases h
    rfl

theorem finishObject_ok {x509 : X509Object} (h : s.finishObject env d = .ok (d', some x509)) :
    (s.signs d = true ∧ SignedSinceChange x509) ∨
      (s.signs d = false ∧ x509 = d.x509 ++ [.setVersion .v1]) := by
  obtain ⟨versioned, hversion, h⟩ := bind_eq_ok.mp h
  obtain ⟨keyed, hkey, h⟩ := bind_eq_ok.mp h
  obtain ⟨bioOut, -, h⟩ := bind_eq_ok.mp h
  obtain ⟨signed, hsign, h⟩ := bind_eq_ok.mp h
  obtain ⟨verified, hverify, h⟩ := bind_eq_ok.mp h
  obtain ⟨written, hwrite, h⟩ := bind_eq_ok.mp h
  cases h
  have hkeyed := setRequestVersion_ok hversion
  rw [← requireSigningKey_ok hkey] at hkeyed
  rw [writeOut_ok hwrite, verifyObject_ok hverify]
  rcases signObject_ok hsign with ⟨hsigns, hdone⟩ | ⟨hsigns, rfl⟩
  · rw [hkeyed] at hsigns
    exact .inl ⟨hsigns, hdone⟩
  · rw [hkeyed] at hsigns
    exact .inr ⟨hsigns, by rw [hkeyed]⟩

theorem loadObject_flag (h : s.loadObject env = .ok d) : d.reSign = decide (s.days > 0) := by
  obtain ⟨d₁, hread, h⟩ := bind_eq_ok.mp h
  obtain ⟨d₂, hdates, h⟩ := bind_eq_ok.mp h
  obtain ⟨d₃, hkey, h⟩ := bind_eq_ok.mp h
  obtain ⟨d₄, hnew, h⟩ := bind_eq_ok.mp h
  rw [requireKey_ok h, addNewKey_flag hnew, loadKey_flag hkey, setDates_flag hdates,
    readRequest_ok hread, Bool.false_or]

theorem editObject_flag (h : s.editObject env d = .ok d') :
    d'.reSign = (d.reSign || s.config.isSome || s.subj.isSome || s.addExt.isSome) := by
  obtain ⟨d₁, hconfig, h⟩ := bind_eq_ok.mp h
  obtain ⟨d₂, hsubject, h⟩ := bind_eq_ok.mp h
  obtain ⟨d₃, haddExt, h⟩ := bind_eq_ok.mp h
  obtain ⟨d₄, hprompt, h⟩ := bind_eq_ok.mp h
  rw [(defaultConstraints_ok h).1, promptSubject_flag hprompt, applyAddExt_flag haddExt,
    applySubject_flag hsubject, applyConfig_flag hconfig]

theorem loadObject_unflagged (hdays : ¬ s.days > 0) (h : s.loadObject env = .ok d) :
    (s.keyIn = none ∧ s.newKey = none ∧ d.x509 = []) ∨
      ((s.keyIn ≠ none ∨ s.newKey ≠ none) ∧ ∃ pkey, d.x509 = [.setPubkey pkey]) := by
  obtain ⟨d₁, hread, h₁⟩ := bind_eq_ok.mp h
  obtain ⟨d₂, hdates, h₂⟩ := bind_eq_ok.mp h₁
  obtain ⟨d₃, hkey, h₃⟩ := bind_eq_ok.mp h₂
  obtain ⟨d₄, hnew, h₄⟩ := bind_eq_ok.mp h₃
  rw [setDates, if_neg hdays, readRequest_ok hread] at hdates
  rw [← Except.ok.inj hdates] at hkey
  rw [requireKey_ok h₄]
  rcases loadKey_ok hkey with ⟨hnone, rfl⟩ | ⟨hgiven, pkey, rfl⟩
  · rcases addNewKey_ok hnew with ⟨hnone' | hpkey, rfl⟩ | ⟨hgiven, -, pkey, rfl⟩
    · exact .inl ⟨hnone, hnone', rfl⟩
    · exact absurd rfl hpkey
    · exact .inr ⟨.inr hgiven, pkey, rfl⟩
  · rcases addNewKey_ok hnew with ⟨-, rfl⟩ | ⟨-, hnokey, -⟩
    · exact .inr ⟨.inl hgiven, pkey, rfl⟩
    · cases hnokey

theorem editObject_unflagged (hreq : s.reqIn ≠ none) (hconfig : s.config = none)
    (hsubj : s.subj = none) (haddExt : s.addExt = none) (h : s.editObject env d = .ok d') :
    s.defaultConstraints env d = .ok d' := by
  obtain ⟨d₁, h₁, h⟩ := bind_eq_ok.mp h
  obtain ⟨d₂, h₂, h⟩ := bind_eq_ok.mp h
  obtain ⟨d₃, h₃, h⟩ := bind_eq_ok.mp h
  obtain ⟨d₄, h₄, h⟩ := bind_eq_ok.mp h
  simp only [applyConfig, hconfig] at h₁
  cases h₁
  simp only [applySubject, hsubj] at h₂
  cases h₂
  simp only [applyAddExt, haddExt] at h₃
  cases h₃
  rw [promptSubject, if_neg (fun hnone => hreq hnone.2.2)] at h₄
  cases h₄
  exact h

theorem signs_eq (hflag : d.reSign = s.resigns) :
    s.signs d = true ↔ s.reqIn = none ∨ s.resigns = true := by
  simp [signs, hflag]

theorem quiet_of_unflagged (hreq : s.reqIn ≠ none) (hresigns : s.resigns = false)
    (hload : s.loadObject env = .ok d) (hedit : s.editObject env d = .ok d') :
    (∀ call ∈ d'.x509, ¬ call.signs = true) ∧
      ((∀ call ∈ d'.x509, ¬ call.changes = true) ↔ ¬ s.LeavesUnsigned env.lib) := by
  simp only [resigns, Bool.or_eq_false_iff, decide_eq_false_iff_not, Option.isSome_eq_false_iff,
    Option.isNone_iff_eq_none] at hresigns
  obtain ⟨⟨⟨hdays, hconfig⟩, hsubj⟩, haddExt⟩ := hresigns
  have hdone := (defaultConstraints_ok (editObject_unflagged hreq hconfig hsubj haddExt hedit)).2
  have hflags : s.resigns = false := by simp [resigns, hdays, hconfig, hsubj, haddExt]
  rcases loadObject_unflagged hdays hload with ⟨hkey, hnew, hnil⟩ | ⟨hgiven, pkey, hset⟩
  · rw [hnil] at hdone
    rw [hdone]
    split_ifs with hunset
    · simp [LeavesUnsigned, hreq, hflags, hunset, X509Call.changes, X509Call.signs]
    · simp [LeavesUnsigned, hreq, hflags, hkey, hnew, hunset]
  · have hleaves : s.LeavesUnsigned env.lib := by
      refine ⟨hreq, hflags, ?_⟩
      rcases hgiven with hkey | hnew
      · exact .inl hkey
      · exact .inr (.inl hnew)
    rw [hset] at hdone
    rw [hdone]
    split_ifs <;> simp [hleaves, X509Call.changes, X509Call.signs]

end Blocks

end RequestState

section Signed
variable {σ H : Type} {env : RequestEnv σ H} {argv : Args} {x509 : X509Object}

theorem requestSetup_emits (hwritten : (requestSetup env argv).written = some x509) :
    ∃ d, (requestState env argv).emitObject env = .ok (d, some x509) := by
  simp only [requestSetup] at hwritten
  split at hwritten
  · cases hwritten
  · split at hwritten
    · cases hwritten
    · split at hwritten
      · cases hwritten
      · split at hwritten
        · cases hwritten
        · rename_i d written hemit
          subst hwritten
          exact ⟨d, hemit⟩

theorem requestSetup_signed_iff (hwritten : (requestSetup env argv).written = some x509) :
    SignedSinceChange x509 ↔ ¬ (requestState env argv).LeavesUnsigned env.lib := by
  obtain ⟨d, hemit⟩ := requestSetup_emits hwritten
  obtain ⟨loaded, hload, h⟩ := bind_eq_ok.mp hemit
  obtain ⟨edited, hedit, hfinish⟩ := bind_eq_ok.mp h
  have hflag : edited.reSign = (requestState env argv).resigns := by
    rw [RequestState.editObject_flag hedit, RequestState.loadObject_flag hload]
    rfl
  have hsigns := RequestState.signs_eq hflag
  rcases RequestState.finishObject_ok hfinish with ⟨hsigned, hdone⟩ | ⟨hunsigned, rfl⟩
  · refine iff_of_true hdone fun ⟨hreq, hresigns, _⟩ => ?_
    rcases hsigns.mp hsigned with hnone | hflagged
    · exact hreq hnone
    · exact absurd hflagged (by simp [hresigns])
  · obtain ⟨hreq, hresigns⟩ := not_or.mp fun hor => absurd (hsigns.mpr hor) (by simp [hunsigned])
    obtain ⟨hnosign, hquiet⟩ := RequestState.quiet_of_unflagged hreq
      (Bool.eq_false_of_not_eq_true hresigns) hload hedit
    rw [← hquiet, SignedSinceChange, renewed_iff_quiet]
    · simp [X509Call.changes, or_imp, forall_and]
    · simpa [X509Call.signs, or_imp, forall_and] using hnosign

end Signed

def signingKey : PKey := ⟨.rsa, str "signing key"⟩

def requestEnv : RequestEnv Byte Unit where
  lib := plainLib
  copies := ⟨fun _ _ => true, fun _ => []⟩
  disNames := ⟨standardNames, true, fun _ => true⟩
  passwords := plainEnv
  fileOpens _ := true
  outOpens _ := true
  keyTypeAlloc := true
  objectAlloc := true
  requestReads _ _ := true
  timeAdj _ := some (str "time")
  privateKey _ := some signingKey
  setRsaKeygenBits _ := wolfcluSuccess
  rsaKeygen _ := some signingKey
  conf _ := ⟨fun _ _ => none, fun _ _ => none, fun _ => none⟩
  stdin := []
  extensionAlloc := true
  stdoutBio := some true
  writeObject _ _ _ := wolfcluSuccess
  stdinPassword := []
  writeKey _ _ := wolfcluSuccess

def renameArgs : Args :=
  [str "wolfssl", str "req", str "-in", str "csr", str "-key", str "key", str "-subj", str "/CN=a"]

def renamed : X509Object :=
  [.setPubkey signingKey, .setSubjectName [⟨.commonName, str "a"⟩], .setVersion .v1,
    .sign false signingKey .sha256]

theorem renamed_signed :
    SignedSinceChange renamed ↔ ¬ (requestState requestEnv renameArgs).LeavesUnsigned plainLib :=
  have hwritten : (requestSetup requestEnv renameArgs).written = some renamed := by decide
  requestSetup_signed_iff hwritten

def rekeyArgs : Args := [str "wolfssl", str "req", str "-in", str "csr", str "-key", str "key"]
def certifyArgs : Args := [str "wolfssl", str "req", str "-in", str "csr", str "-x509"]

theorem unsigned_object {call : X509Call} (hchanges : call.changes = true) :
    ¬ SignedSinceChange [call, .setVersion .v1] := by
  intro h
  obtain ⟨r, hr, hrenew⟩ := h [] call [.setVersion .v1] rfl hchanges
  cases List.mem_singleton.mp hr
  cases hrenew

theorem changed_requests_unsigned :
    (requestSetup requestEnv rekeyArgs =
        ⟨wolfcluSuccess, some [.setPubkey signingKey, .setVersion .v1]⟩ ∧
      ¬ SignedSinceChange [.setPubkey signingKey, .setVersion .v1]) ∧
    (requestSetup requestEnv certifyArgs =
        ⟨wolfcluSuccess, some [.addExt (.basicConstraints true true none), .setVersion .v1]⟩ ∧
      ¬ SignedSinceChange [.addExt (.basicConstraints true true none), .setVersion .v1]) :=
  ⟨⟨by decide, unsigned_object rfl⟩, by decide, unsigned_object rfl⟩

end WolfCLU
