import WolfCLU.GenKey.KeyFiles

namespace WolfCLU
open CString

section Results
variable {κ : Type} {lib : GenKeyLib κ} {env : GenKeyEnv} {part : KeyPart} {fmt : Form}
  {der text : List Byte} {pemType : KeyPem}

theorem keyDerToPem_ok (h : keyDerToPem lib env part der pemType = .ok text) :
    text = [] ∨ ∃ n, lib.pem pemType der n = .ok text := by
  unfold keyDerToPem at h
  split at h
  · cases h
    exact .inl rfl
  · simp only at h
    split_ifs at h
    · cases h
      exact .inl rfl
    · exact .inr ⟨_, h⟩

theorem keyDerToPem_error {e : Int} (h : keyDerToPem lib env part der pemType = .error e) :
    e < 0 := by
  unfold keyDerToPem at h
  split at h
  · cases h
  · simp only at h
    split_ifs at h with hneg
    · cases h
      exact hneg
    · exact lib.pem_error _ _ _ _ h

def FileText (lib : GenKeyLib κ) (fmt : Form) (pemType : KeyPem) (der text : List Byte) : Prop :=
  if fmt = .pem then text = [] ∨ ∃ n, lib.pem pemType der n = .ok text else text = der

theorem fileText_of_ok
    (h : (if fmt = .pem then keyDerToPem lib env part der pemType else .ok der) = .ok text) :
    FileText lib fmt pemType der text := by
  unfold FileText
  split_ifs at h ⊢
  · exact keyDerToPem_ok h
  · cases h
    rfl

theorem fileText_der (hfmt : fmt ≠ .pem) (der : List Byte) : FileText lib fmt pemType der der := by
  rw [FileText, if_neg hfmt]

structure TakenWhole (env : GenKeyEnv) (part : KeyPart) (text : List Byte) (run : KeyFileRun) :
    Prop where
  accepted : text.length ≤ env.written part text.length
  file : run.file = some (text.take (env.stored part text.length))

structure TakenPart (env : GenKeyEnv) (part : KeyPart) (text : List Byte) (run : KeyFileRun) :
    Prop where
  accepted : 0 < env.written part text.length
  nonempty : text ≠ []
  file : run.file = some (text.take (env.stored part text.length))

theorem keyFwrite_short : (keyFwrite env part text).1 ≠ text.length ↔
    env.written part text.length < text.length := by
  simp only [keyFwrite, ne_eq]
  omega

theorem writeOpened_cases {least size : Int} {encode : Nat → Except Int (List Byte)}
    (hencode : ∀ n e, encode n = .error e → e < 0) :
    (writeOpened lib env part fmt least size encode pemType).ret < 0 ∨
      (writeOpened lib env part fmt least size encode pemType).ret = wolfcluSuccess ∧
        ∃ n der text, encode n = .ok der ∧ FileText lib fmt pemType der text ∧
          TakenWhole env part text (writeOpened lib env part fmt least size encode pemType) := by
  unfold writeOpened
  by_cases hopens : ¬ env.opens part = true
  · rw [if_pos hopens]
    exact .inl (by decide)
  · by_cases hsize : size < least
    · rw [if_neg hopens, if_pos hsize]
      exact .inl (by decide)
    · by_cases halloc : ¬ env.derAlloc part = true
      · rw [if_neg hopens, if_neg hsize, if_pos halloc]
        exact .inl (by decide)
      · rw [if_neg hopens, if_neg hsize, if_neg halloc]
        cases hder : encode size.toNat with
        | error e => exact .inl (hencode _ _ hder)
        | ok der =>
          simp only
          cases htext : (if fmt = .pem then keyDerToPem lib env part der pemType
              else .ok der) with
          | error e =>
            have hneg : e < 0 := by
              split_ifs at htext
              exact keyDerToPem_error htext
            refine .inl ?_
            simp only
            split_ifs
            · decide
            · exact hneg
          | ok text =>
            simp only
            by_cases hshort : (keyFwrite env part text).1 ≠ text.length
            · rw [if_pos hshort]
              exact .inl (by decide)
            · rw [if_neg hshort]
              exact .inr ⟨rfl, _, der, text, hder, fileText_of_ok htext,
                not_lt.mp (mt keyFwrite_short.mpr hshort), rfl⟩

theorem writeEncoded_cases {encoded : Except Int (List Byte)}
    (hencode : ∀ e, encoded = .error e → e < 0) :
    (writeEncoded lib env part fmt encoded pemType).ret ≤ 0 ∨
      (writeEncoded lib env part fmt encoded pemType).ret = wolfcluSuccess ∧
        ∃ der text, encoded = .ok der ∧ FileText lib fmt pemType der text ∧
          TakenPart env part text (writeEncoded lib env part fmt encoded pemType) := by
  unfold writeEncoded
  cases hder : encoded with
  | error e => exact .inl (hencode _ hder).le
  | ok der =>
    simp only
    cases htext : (if fmt = .pem then keyDerToPem lib env part der pemType else .ok der) with
    | error e => exact .inl le_rfl
    | ok text =>
      simp only
      by_cases hempty : fmt = .pem ∧ text.length = 0
      · rw [if_pos hempty]
        exact .inl le_rfl
      rw [if_neg hempty]
      split_ifs with hopens hnone
      · exact .inl (show outputFileError ≤ 0 by decide)
      · have haccepted : 0 < env.written part text.length ∧ 0 < text.length := by
          simp only [keyFwrite] at hnone
          omega
        exact .inr ⟨rfl, der, text, rfl, fileText_of_ok htext, haccepted.1,
          List.length_pos_iff.mp haccepted.2, rfl⟩
      · exact .inl (by decide)

theorem writeRaw_cases {raw : List Byte} :
    (writeRaw env part raw).ret < 0 ∨
      (writeRaw env part raw).ret = wolfcluSuccess ∧
        TakenWhole env part raw (writeRaw env part raw) := by
  unfold writeRaw
  split_ifs with hopens
  · simp only
    by_cases hshort : (keyFwrite env part raw).1 ≠ raw.length
    · rw [if_pos hshort]
      exact .inl (by decide)
    · rw [if_neg hshort]
      exact .inr ⟨rfl, not_lt.mp (mt keyFwrite_short.mpr hshort), rfl⟩
  · exact .inl (by decide)

theorem bioWriteKey_cases :
    (bioWriteKey env part text).ret = wolfcluFatalError ∨
      (bioWriteKey env part text).ret = text.length ∧
        TakenWhole env part text (bioWriteKey env part text) := by
  unfold bioWriteKey
  simp only
  by_cases hshort : (keyFwrite env part text).1 ≠ text.length
  · rw [if_pos hshort]
    exact .inl rfl
  · rw [if_neg hshort]
    exact .inr ⟨congrArg Int.ofNat (not_not.mp hshort), not_lt.mp (mt keyFwrite_short.mpr hshort),
      rfl⟩

end Results

inductive KeyDer {κ : Type} (lib : GenKeyLib κ) (kind : KeyKind) (key : κ) :
    KeyPart → List Byte → Prop where
  | priv {n : Nat} {der : List Byte} (h : lib.privDer kind key n = .ok der) :
      KeyDer lib kind key .priv der
  | pub {n : Nat} {der : List Byte} (h : lib.pubDer kind key n = .ok der) :
      KeyDer lib kind key .pub der
  | levelPub {n : Nat} {withAlg : Int} {der : List Byte}
      (h : lib.levelPubDer kind key n withAlg = .ok der) : KeyDer lib kind key .pub der

def rawOf (part : KeyPart) (raw : List Byte × List Byte) : List Byte :=
  match part with
  | .priv => raw.1
  | .pub => raw.2

inductive KeyText {κ : Type} (lib : GenKeyLib κ) (fmt : Form) (key : κ) (part : KeyPart) :
    KeyKind → List Byte → Prop where
  | raw {raw : List Byte × List Byte} (hfmt : fmt = .raw) (h : lib.ed25519Export key = .ok raw) :
      KeyText lib fmt key part .ed25519 (rawOf part raw)
  | ecc {text : List Byte} (hfmt : fmt = .pem) (h : lib.eccPem part key = some text) :
      KeyText lib fmt key part .ecc text
  | encoded {kind : KeyKind} {der text : List Byte} {pemType : KeyPem}
      (hraw : kind = .ed25519 → fmt ≠ .raw) (hder : KeyDer lib kind key part der)
      (htype : pemType = .publicKey ↔ part = .pub) (htext : FileText lib fmt pemType der text) :
      KeyText lib fmt key part kind text

def KeyKind.levelled : KeyKind → Bool
  | .dilithium | .mlDsa => true
  | _ => false

def Taken (env : GenKeyEnv) (kind : KeyKind) (part : KeyPart) (text : List Byte)
    (run : KeyFileRun) : Prop :=
  if kind.levelled then TakenPart env part text run else TakenWhole env part text run

def KeyRequest.kind : KeyRequest → Option KeyKind
  | .ed25519 => some .ed25519
  | .ecc _ => some .ecc
  | .rsa _ _ => some .rsa
  | .dilithium _ _ _ => some .dilithium
  | .mlDsa _ _ _ => some .mlDsa
  | .xmss _ => none

section Kinds
variable {κ : Type} {lib : GenKeyLib κ} {env : GenKeyEnv} {part : KeyPart} {fmt : Form} {key : κ}

def FileOutcome (lib : GenKeyLib κ) (env : GenKeyEnv) (fmt : Form) (key : κ) (kind : KeyKind)
    (part : KeyPart) (run : KeyFileRun) : Prop :=
  run.ret ≤ 0 ∨ 0 < run.ret ∧ (part = .priv → run.ret = wolfcluSuccess) ∧
    ∃ text, KeyText lib fmt key part kind text ∧ Taken env kind part text run

theorem rsaFile_outcome : FileOutcome lib env fmt key .rsa part (rsaFile lib env part fmt key) := by
  cases part with
  | priv =>
    rcases writeOpened_cases (lib.privDer_error .rsa key) with hneg | ⟨hret, n, der, text, hder,
      htext, htaken⟩
    · exact .inl hneg.le
    · exact .inr ⟨hret ▸ by decide, fun _ => hret, text,
        .encoded (fun h => by cases h) (.priv hder) (by decide) htext, htaken⟩
  | pub =>
    rcases writeOpened_cases (lib.pubDer_error .rsa key) with hneg | ⟨hret, n, der, text, hder,
      htext, htaken⟩
    · exact .inl hneg.le
    · exact .inr ⟨hret ▸ by decide, fun _ => hret, text,
        .encoded (fun h => by cases h) (.pub hder) (by decide) htext, htaken⟩

theorem ed25519File_cases {raw : List Byte × List Byte} (hraw : ed25519Raw lib fmt key = .ok raw) :
    (ed25519File lib env part fmt key raw).ret < 0 ∨
      (ed25519File lib env part fmt key raw).ret = wolfcluSuccess ∧
        ∃ text, KeyText lib fmt key part .ed25519 text ∧
          TakenWhole env part text (ed25519File lib env part fmt key raw) := by
  by_cases hfmt : fmt = .raw
  · have hexport : lib.ed25519Export key = .ok raw := by
      unfold ed25519Raw at hraw
      rw [if_neg (not_not.mpr hfmt)] at hraw
      split_ifs at hraw
      exact hraw
    have hfile : ed25519File lib env part fmt key raw = writeRaw env part (rawOf part raw) := by
      cases part <;> exact if_pos hfmt
    rw [hfile]
    rcases writeRaw_cases with hneg | ⟨hret, htaken⟩
    · exact .inl hneg
    · exact .inr ⟨hret, _, .raw hfmt hexport, htaken⟩
  · cases part with
    | priv =>
      simp only [ed25519File, if_neg hfmt]
      rcases writeOpened_cases (lib.privDer_error .ed25519 key) with hneg | ⟨hret, n, der, text,
        hder, htext, htaken⟩
      · exact .inl hneg
      · exact .inr ⟨hret, text, .encoded (fun _ => hfmt) (.priv hder) (by decide) htext, htaken⟩
    | pub =>
      simp only [ed25519File, if_neg hfmt]
      rcases writeOpened_cases (lib.pubDer_error .ed25519 key) with hneg | ⟨hret, n, der, text,
        hder, htext, htaken⟩
      · exact .inl hneg
      · exact .inr ⟨hret, text, .encoded (fun _ => hfmt) (.pub hder) (by decide) htext, htaken⟩

theorem ed25519File_outcome {raw : List Byte × List Byte}
    (hraw : ed25519Raw lib fmt key = .ok raw) :
    FileOutcome lib env fmt key .ed25519 part (ed25519File lib env part fmt key raw) := by
  rcases ed25519File_cases hraw with hneg | ⟨hret, text, htext, htaken⟩
  · exact .inl hneg.le
  · exact .inr ⟨hret ▸ by decide, fun _ => hret, text, htext, htaken⟩

theorem eccWritePem_outcome (hfmt : fmt = .pem) :
    FileOutcome lib env fmt key .ecc part (eccWritePem lib env part key) := by
  unfold eccWritePem
  cases htext : lib.eccPem part key with
  | none => exact .inl (show wolfcluFatalError ≤ 0 by decide)
  | some text =>
    simp only
    by_cases hshort : (keyFwrite env part text).1 ≠ text.length
    · rw [if_pos hshort]
      exact .inl (show wolfcluFatalError ≤ 0 by decide)
    · rw [if_neg hshort]
      exact .inr ⟨show 0 < wolfcluSuccess by decide, fun _ => rfl, text, .ecc hfmt htext,
        not_lt.mp (mt keyFwrite_short.mpr hshort), rfl⟩

theorem eccWritePrivDer_outcome (hfmt : fmt ≠ .pem) :
    FileOutcome lib env fmt key .ecc .priv (eccWritePrivDer lib env key) := by
  unfold eccWritePrivDer
  by_cases hsize : lib.privSize .ecc key ≤ 0
  · simp only [if_pos hsize]
    exact .inl hsize
  by_cases halloc : ¬ env.derAlloc .priv = true
  · simp only [if_neg hsize, if_pos halloc]
    exact .inl (show memoryE ≤ 0 by decide)
  simp only [if_neg hsize, if_neg halloc]
  cases hder : lib.privDer .ecc key (lib.privSize .ecc key).toNat with
  | error e => exact .inl (lib.privDer_error _ _ _ _ hder).le
  | ok der =>
    simp only
    by_cases hempty : der.length = 0
    · rw [if_pos hempty]
      exact .inl le_rfl
    rw [if_neg hempty]
    have htext : FileText lib fmt .privateKey der der := fileText_der hfmt der
    rcases @bioWriteKey_cases env .priv der with hfatal | ⟨hret, htaken⟩
    · rw [hfatal, if_neg (by decide)]
      exact .inl (show wolfcluFatalError ≤ 0 by decide)
    · rw [hret, if_pos (by omega)]
      exact .inr ⟨show 0 < wolfcluSuccess by decide, fun _ => rfl, der,
        .encoded (fun h => by cases h) (.priv hder) (by decide) htext, htaken.accepted, htaken.file⟩

theorem eccWritePubDer_outcome (hfmt : fmt ≠ .pem) :
    FileOutcome lib env fmt key .ecc .pub (eccWritePubDer lib env key) := by
  unfold eccWritePubDer
  by_cases hsize : lib.pubSize .ecc key ≤ 0
  · simp only [if_pos hsize]
    exact .inl hsize
  by_cases halloc : ¬ env.derAlloc .pub = true
  · simp only [if_neg hsize, if_pos halloc]
    exact .inl (show memoryE ≤ 0 by decide)
  simp only [if_neg hsize, if_neg halloc]
  cases hder : lib.pubDer .ecc key (lib.pubSize .ecc key).toNat with
  | error e => exact .inl (lib.pubDer_error _ _ _ _ hder).le
  | ok der =>
    have htext : FileText lib fmt .publicKey der der := fileText_der hfmt der
    rcases @bioWriteKey_cases env .pub der with hfatal | ⟨hret, htaken⟩
    · exact .inl (hfatal ▸ by decide)
    · by_cases hempty : der.length = 0
      · exact .inl (hret ▸ by omega)
      · exact .inr ⟨hret ▸ by omega, (fun h => by cases h), der,
          .encoded (fun h => by cases h) (.pub hder) (by decide) htext, htaken⟩

theorem eccFile_outcome : FileOutcome lib env fmt key .ecc part (eccFile lib env part fmt key) := by
  unfold eccFile
  by_cases hopens : ¬ env.opens part = true
  · rw [if_pos hopens]
    exact .inl (show memoryE ≤ 0 by decide)
  rw [if_neg hopens]
  by_cases hfmt : fmt = .pem
  · rw [if_pos hfmt]
    exact eccWritePem_outcome hfmt
  · rw [if_neg hfmt]
    cases part with
    | priv => exact eccWritePrivDer_outcome hfmt
    | pub => exact eccWritePubDer_outcome hfmt

theorem levelFile_outcome {kind : KeyKind} (hkind : kind.levelled = true) {alloc : Bool}
    {keySz : Nat} {withAlg : Int} :
    FileOutcome lib env fmt key kind part
      (levelFile lib env kind part fmt key alloc keySz withAlg) := by
  have hraw : kind = .ed25519 → fmt ≠ .raw := by
    rintro rfl
    cases hkind
  have htaken {text : List Byte} {run : KeyFileRun} (h : TakenPart env part text run) :
      Taken env kind part text run := by
    rw [Taken, if_pos hkind]
    exact h
  have herror {encoded : Except Int (List Byte)} (h : ∀ e, encoded = .error e → e < 0) (e : Int)
      (he : encodeInto alloc encoded = .error e) : e < 0 := by
    cases alloc with
    | true => exact h e he
    | false =>
      cases he
      decide
  have hinto {encoded : Except Int (List Byte)} {der : List Byte}
      (h : encodeInto alloc encoded = .ok der) : encoded = .ok der := by
    cases alloc with
    | true => exact h
    | false => cases h
  cases part with
  | priv =>
    rcases writeEncoded_cases (herror (lib.privDer_error kind key keySz)) with hneg | ⟨hret, der,
      text, hder, htext, hpart⟩
    · exact .inl hneg
    · exact .inr ⟨hret ▸ by decide, fun _ => hret, text,
        .encoded hraw (.priv (hinto hder)) (by decide) htext, htaken hpart⟩
  | pub =>
    rcases writeEncoded_cases (herror (lib.levelPubDer_error kind key keySz withAlg)) with hneg |
      ⟨hret, der, text, hder, htext, hpart⟩
    · exact .inl hneg
    · exact .inr ⟨hret ▸ by decide, fun _ => hret, text,
        .encoded hraw (.levelPub (hinto hder)) (by decide) htext, htaken hpart⟩

end Kinds

section Runs
variable {κ : Type} {lib : GenKeyLib κ} {env : GenKeyEnv} {fName : List Byte}
  {directive : Directive} {fmt : Form} {disk : Disk} {request : KeyRequest} {kind : KeyKind}
  {priv pub : KeyFileRun}

inductive Generates (lib : GenKeyLib κ) (env : GenKeyEnv) (fmt : Form) (kind : KeyKind)
    (fName : List Byte) (directive : Directive) (disk : Disk) (run : GenKeyRun) : Prop where
  | stopped (hret : run.ret ≠ wolfcluSuccess) (hdisk : run.disk = disk)
  | files (key : κ) (priv pub : KeyFileRun) (hpriv : FileOutcome lib env fmt key kind .priv priv)
      (hpub : FileOutcome lib env fmt key kind .pub pub)
      (hret : run.ret = wolfcluSuccess → 0 < (keyFiles fName directive priv pub disk).ret)
      (hdisk : run.disk = (keyFiles fName directive priv pub disk).disk)

theorem generates_error {e : Int} (h : e ≠ wolfcluSuccess) :
    Generates lib env fmt kind fName directive disk ⟨e, disk⟩ :=
  .stopped h rfl

theorem genKeyRSA_generates {keySz exp : Int} :
    Generates lib env fmt .rsa fName directive disk
      (genKeyRSA lib env fName directive fmt keySz exp disk) := by
  unfold genKeyRSA
  split
  · exact generates_error (by decide)
  · cases lib.rsaMake keySz exp with
    | none => exact generates_error (by decide)
    | some key =>
      simp only
      split
      · exact generates_error (by decide)
      · exact .files key _ _ rsaFile_outcome rsaFile_outcome (fun hret => hret ▸ by decide) rfl

theorem genAndOutputECC_generates {name : Option (List Byte)} :
    Generates lib env fmt .ecc fName directive disk
      (genAndOutputECC lib env fName directive fmt name disk) := by
  unfold genAndOutputECC
  split
  · exact generates_error (by decide)
  · cases lib.eccGenerate (eccCurveName name) with
    | none => exact generates_error (by decide)
    | some key =>
      simp only
      split
      · exact generates_error (by decide)
      · refine .files key _ _ eccFile_outcome eccFile_outcome (fun hret => ?_) rfl
        simp only at hret
        split_ifs at hret with hpos
        · exact hpos
        · exact hret ▸ by decide

theorem genKeyDilithium_generates {keySz : Nat} {level withAlg : Int} :
    Generates lib env fmt .dilithium fName directive disk
      (genKeyDilithium lib env fName directive fmt keySz level withAlg disk) := by
  unfold genKeyDilithium
  split
  · exact generates_error (by decide)
  · cases lib.levelMake .dilithium level with
    | none => exact generates_error (by decide)
    | some key =>
      simp only
      split
      · exact generates_error (by decide)
      · exact .files key _ _ (levelFile_outcome rfl) (levelFile_outcome rfl)
          (fun hret => hret ▸ by decide) rfl

theorem genKeyMlDsa_generates {keySz : Nat} {level withAlg : Int} :
    Generates lib env fmt .mlDsa fName directive disk
      (genKeyMlDsa lib env fName directive fmt keySz level withAlg disk) := by
  unfold genKeyMlDsa
  split
  · exact generates_error (by decide)
  · cases lib.levelMake .mlDsa level with
    | none => exact generates_error (by decide)
    | some key =>
      simp only
      split
      · exact generates_error (by decide)
      · split
        · exact generates_error (by decide)
        · exact .files key _ _ (levelFile_outcome rfl) (levelFile_outcome rfl)
            (fun hret => hret ▸ by decide) rfl

theorem keyFiles_ret_ne_zero (hpriv : priv.ret ≠ 0) (hpub : pub.ret ≠ 0) :
    (keyFiles fName directive priv pub disk).ret ≠ 0 := by
  cases directive with
  | privOnly => exact hpriv
  | pubOnly => exact hpub
  | privAndPub =>
    simp only [keyFiles]
    split
    · exact hpriv
    · exact hpub

theorem genKeyED25519_generates :
    Generates lib env fmt .ed25519 fName directive disk
      (genKeyED25519 lib env fName directive fmt disk) := by
  have hstop {e : Int} (hneg : e < 0) : Generates lib env fmt .ed25519 fName directive disk
      ⟨if e ≥ 0 then wolfcluSuccess else e, disk⟩ := by
    rw [if_neg (not_le.mpr hneg)]
    refine generates_error fun heq => ?_
    rw [heq] at hneg
    exact absurd hneg (by decide)
  unfold genKeyED25519 genKeyED25519Files
  by_cases hinit : lib.ed25519Init ≠ 0
  · rw [if_pos hinit]
    exact hstop (lt_of_le_of_ne lib.ed25519Init_le hinit)
  rw [if_neg hinit]
  have hmake := lib.ed25519Make_le
  generalize lib.ed25519Make = made at hmake
  obtain ⟨ret, key⟩ := made
  by_cases hret : ret ≠ 0
  · simp only [if_pos hret]
    exact hstop (lt_of_le_of_ne hmake hret)
  simp only [if_neg hret]
  cases hraw : ed25519Raw lib fmt key with
  | error e =>
    have hneg : e < 0 := by
      unfold ed25519Raw at hraw
      split_ifs at hraw
      · cases hraw
        decide
      · exact lib.ed25519Export_error _ _ hraw
    exact hstop hneg
  | ok raw =>
    simp only
    by_cases halloc : ¬ env.nameAlloc = true
    · rw [if_pos halloc]
      exact hstop (show memoryE < 0 by decide)
    rw [if_neg halloc]
    have hne (part : KeyPart) : (ed25519File lib env part fmt key raw).ret ≠ 0 := by
      rcases ed25519File_cases hraw with hneg | ⟨hsuccess, -⟩
      · exact hneg.ne
      · exact hsuccess ▸ by decide
    have hfiles := @keyFiles_ret_ne_zero fName directive disk _ _ (hne .priv) (hne .pub)
    refine .files key _ _ (ed25519File_outcome hraw) (ed25519File_outcome hraw) (fun hret => ?_) rfl
    simp only at hret
    split_ifs at hret with hpos
    · exact lt_of_le_of_ne hpos hfiles.symm
    · exact hret ▸ by decide

theorem genKeyDispatch_generates (hkind : request.kind = some kind) :
    Generates lib env fmt kind fName directive disk
      (genKeyDispatch lib env request fName directive fmt disk) := by
  cases request with
  | ed25519 =>
    cases hkind
    exact genKeyED25519_generates
  | ecc name =>
    cases hkind
    exact genAndOutputECC_generates
  | rsa keySz exp =>
    cases hkind
    exact genKeyRSA_generates
  | dilithium keySz level withAlg =>
    cases hkind
    exact genKeyDilithium_generates
  | mlDsa keySz level withAlg =>
    cases hkind
    exact genKeyMlDsa_generates
  | xmss paramStr => cases hkind

def TookBytes (env : GenKeyEnv) (kind : KeyKind) (part : KeyPart) (text : List Byte) : Prop :=
  if kind.levelled then 0 < env.written part text.length ∧ text ≠ []
  else text.length ≤ env.written part text.length

theorem Taken.spec {part : KeyPart} {text : List Byte} {run : KeyFileRun}
    (h : Taken env kind part text run) :
    TookBytes env kind part text ∧ run.file = some (text.take (env.stored part text.length)) := by
  unfold Taken at h
  unfold TookBytes
  split_ifs at h ⊢ with hkind
  · exact ⟨⟨h.accepted, h.nonempty⟩, h.file⟩
  · exact ⟨h.accepted, h.file⟩

def PartWritten (lib : GenKeyLib κ) (env : GenKeyEnv) (fmt : Form) (kind : KeyKind)
    (fName : List Byte) (disk : Disk) (key : κ) (part : KeyPart) : Prop :=
  ∃ text, KeyText lib fmt key part kind text ∧ TookBytes env kind part text ∧
    disk (fName ++ part.append) = some (text.take (env.stored part text.length))

theorem append_ne : fName ++ KeyPart.priv.append ≠ fName ++ KeyPart.pub.append := by
  intro h
  exact absurd (List.append_cancel_left h) (by decide)

theorem KeyFileRun.onDisk_self {run : KeyFileRun} {contents : List Byte}
    (h : run.file = some contents) (name : List Byte) (disk : Disk) :
    run.onDisk name disk name = some contents := by
  rw [KeyFileRun.onDisk, h]
  exact Function.update_self _ _ _

theorem KeyFileRun.onDisk_of_ne {name other : List Byte} (h : other ≠ name) (run : KeyFileRun)
    (disk : Disk) : run.onDisk name disk other = disk other := by
  unfold KeyFileRun.onDisk
  cases run.file with
  | none => rfl
  | some contents => exact Function.update_of_ne h _ _

theorem FileOutcome.written {key : κ} {part : KeyPart} {run : KeyFileRun}
    (h : FileOutcome lib env fmt key kind part run) (hret : 0 < run.ret) {disk' : Disk}
    (hdisk : disk' (fName ++ part.append) = run.onDisk (fName ++ part.append) disk
      (fName ++ part.append)) : PartWritten lib env fmt kind fName disk' key part := by
  rcases h with hle | ⟨-, -, text, htext, htaken⟩
  · omega
  · obtain ⟨haccepted, hfile⟩ := htaken.spec
    exact ⟨text, htext, haccepted, hdisk.trans (KeyFileRun.onDisk_self hfile _ _)⟩

theorem keyFiles_same {name : List Byte}
    (h : name ∉ directive.parts.map fun part => fName ++ part.append) :
    (keyFiles fName directive priv pub disk).disk name = disk name := by
  cases directive with
  | privOnly =>
    simp only [Directive.parts, List.map_cons, List.map_nil, List.mem_singleton] at h
    exact KeyFileRun.onDisk_of_ne h priv disk
  | pubOnly =>
    simp only [Directive.parts, List.map_cons, List.map_nil, List.mem_singleton] at h
    exact KeyFileRun.onDisk_of_ne h pub disk
  | privAndPub =>
    simp only [Directive.parts, List.map_cons, List.map_nil, List.mem_cons, List.not_mem_nil,
      or_false, not_or] at h
    have hpriv := KeyFileRun.onDisk_of_ne h.1 priv disk
    simp only [keyFiles]
    split
    · exact hpriv
    · exact (KeyFileRun.onDisk_of_ne h.2 pub _).trans hpriv

theorem keyFiles_written {key : κ} (hpriv : FileOutcome lib env fmt key kind .priv priv)
    (hpub : FileOutcome lib env fmt key kind .pub pub)
    (hret : 0 < (keyFiles fName directive priv pub disk).ret) :
    ∀ part ∈ directive.parts, PartWritten lib env fmt kind fName
      (keyFiles fName directive priv pub disk).disk key part := by
  intro part hpart
  cases directive with
  | privOnly =>
    rw [List.mem_singleton.mp hpart]
    exact hpriv.written hret rfl
  | pubOnly =>
    rw [List.mem_singleton.mp hpart]
    exact hpub.written hret rfl
  | privAndPub =>
    by_cases hfirst : priv.ret ≠ wolfcluSuccess
    · simp only [keyFiles, if_pos hfirst] at hret ⊢
      rcases hpriv with hle | ⟨-, hsuccess, -⟩
      · omega
      · exact absurd (hsuccess rfl) hfirst
    · simp only [keyFiles, if_neg hfirst] at hret ⊢
      simp only [Directive.parts, List.mem_cons, List.not_mem_nil, or_false] at hpart
      rcases hpart with rfl | rfl
      · exact hpriv.written (not_not.mp hfirst ▸ by decide)
          (KeyFileRun.onDisk_of_ne append_ne pub _)
      · exact hpub.written hret rfl

theorem keyFiles_pub_untouched
    (h : priv.ret ≠ wolfcluSuccess) :
    (keyFiles fName .privAndPub priv pub disk).disk (fName ++ KeyPart.pub.append) =
      disk (fName ++ KeyPart.pub.append) := by
  simp only [keyFiles, if_pos h]
  exact KeyFileRun.onDisk_of_ne append_ne.symm priv disk

theorem keyFiles_priv_written {key : κ} (hpriv : FileOutcome lib env fmt key kind .priv priv)
    (htouched : (keyFiles fName .privAndPub priv pub disk).disk (fName ++ KeyPart.pub.append) ≠
      disk (fName ++ KeyPart.pub.append)) :
    PartWritten lib env fmt kind fName (keyFiles fName .privAndPub priv pub disk).disk key
      .priv := by
  by_cases hfirst : priv.ret ≠ wolfcluSuccess
  · exact absurd (keyFiles_pub_untouched hfirst) htouched
  · simp only [keyFiles, if_neg hfirst]
    exact hpriv.written (not_not.mp hfirst ▸ by decide) (KeyFileRun.onDisk_of_ne append_ne pub _)

theorem Generates.written {run : GenKeyRun}
    (h : Generates lib env fmt kind fName directive disk run) (hret : run.ret = wolfcluSuccess) :
    ∃ key, ∀ part ∈ directive.parts, PartWritten lib env fmt kind fName run.disk key part := by
  cases h with
  | stopped hstop hdisk => exact absurd hret hstop
  | files key priv pub hpriv hpub hpos hdisk =>
    rw [hdisk]
    exact ⟨key, keyFiles_written hpriv hpub (hpos hret)⟩

theorem genKeyDispatch_files (hkind : request.kind = some kind) :
    (∀ name, (name ∉ directive.parts.map fun part => fName ++ part.append) →
      (genKeyDispatch lib env request fName directive fmt disk).disk name = disk name) ∧
    ((genKeyDispatch lib env request fName directive fmt disk).ret = wolfcluSuccess →
      ∃ key, ∀ part ∈ directive.parts, PartWritten lib env fmt kind fName
        (genKeyDispatch lib env request fName directive fmt disk).disk key part) ∧
    (directive = .privAndPub →
      (genKeyDispatch lib env request fName directive fmt disk).disk (fName ++ KeyPart.pub.append) ≠
        disk (fName ++ KeyPart.pub.append) →
      ∃ key, PartWritten lib env fmt kind fName
        (genKeyDispatch lib env request fName directive fmt disk).disk key .priv) := by
  have hrun : Generates lib env fmt kind fName directive disk
      (genKeyDispatch lib env request fName directive fmt disk) := genKeyDispatch_generates hkind
  generalize genKeyDispatch lib env request fName directive fmt disk = run at hrun
  refine ⟨?_, hrun.written, ?_⟩
  · cases hrun with
    | stopped hret hdisk => exact fun name _ => by rw [hdisk]
    | files key priv pub hpriv hpub hret hdisk =>
      rw [hdisk]
      exact fun name hname => keyFiles_same hname
  · rintro rfl htouched
    cases hrun with
    | stopped hret hdisk =>
      rw [hdisk] at htouched
      exact absurd rfl htouched
    | files key priv pub hpriv hpub hret hdisk =>
    rw [hdisk] at htouched ⊢
    exact ⟨key, keyFiles_priv_written hpriv htouched⟩

end Runs

end WolfCLU
