import WolfCLU.Foundation.Conversion
import WolfCLU.Pkey.PublicOnly

namespace WolfCLU
open CString Conversion Function

section Codec
variable {ρ κ σ τ : Type} {env : PkeyEnv τ} {lib : PkeyLib ρ κ σ} {k : ρ}

structure PkeyLib.ReadsBack (lib : PkeyLib ρ κ σ) : Prop where
  rsaPem : ∀ {k pem}, lib.pkeyId k = .rsa → lib.rsaPem true k = some pem →
    lib.readPriv true pem = some k
  rsaDer : ∀ {k der}, lib.pkeyId k = .rsa → lib.rsaPrivateDer k = .ok der →
    lib.readPriv false der = some k
  ecPem : ∀ {k ec pem}, lib.pkeyId k = .ec → eccKeyOf lib k true = some ec →
    lib.ecPem true ec = some pem → lib.readPriv true pem = some k
  ecDer : ∀ {k ec n der}, lib.pkeyId k = .ec → lib.ecKey k = some ec →
    lib.eccToDer true ec n = .ok der → lib.readPriv false der = some k

structure PkeyLib.WritesPublic (lib : PkeyLib ρ κ σ) : Prop where
  rsa : ∀ {k}, lib.pkeyId k = .rsa → ∃ der, lib.rsaPublicDer k = .ok der ∧ der ≠ [] ∧
    lib.rsaPem false k = lib.derToPem der
  ec : ∀ {k}, lib.pkeyId k = .ec → ∃ ec der, lib.ecKey k = some ec ∧ 0 ≤ lib.eccDerSize false ec ∧
    lib.eccToDer false ec (lib.eccDerSize false ec).toNat = .ok der ∧ der ≠ [] ∧
    lib.ecPem false ec = lib.derToPem der

def privatePem (lib : PkeyLib ρ κ σ) (k : ρ) : Option (List Byte) :=
  match lib.pkeyId k with
  | .rsa => lib.rsaPem true k
  | .ec => eccPKeyPem lib k true
  | .dsa | .other => none

def privateCodec (env : PkeyEnv τ) (lib : PkeyLib ρ κ σ) : Codec Form ρ (List Byte) where
  encode
    | .pem, k => privatePem lib k
    | .der, k => (pKeytoPriKey env.toDgstEnv lib.toDgstLib k).toOption
    | .raw, _ | .invalid, _ => none
  decode form text := readKeyText lib false form text

theorem pKeyToKeyECC_ok {isPrivate : Bool} {der : List Byte}
    (h : pKeyToKeyECC env.toDgstEnv lib.toDgstLib k isPrivate = .ok der) :
    ∃ ec, lib.ecKey k = some ec ∧
      lib.eccToDer isPrivate ec (lib.eccDerSize isPrivate ec).toNat = .ok der := by
  unfold pKeyToKeyECC at h
  rcases hec : lib.ecKey k with _ | ec
  · rw [hec] at h
    cases h
  · simp only [hec] at h
    split_ifs at h
    rcases hder : lib.eccToDer isPrivate ec (lib.eccDerSize isPrivate ec).toNat with _ | found
    · rw [hder] at h
      cases h
    · simp only [hder] at h
      split_ifs at h
      cases h
      exact ⟨ec, rfl, hder⟩

theorem privatePem_read (hlaws : lib.ReadsBack) {pem : List Byte} (h : privatePem lib k = some pem) :
    lib.readPriv true pem = some k := by
  unfold privatePem at h
  cases hid : lib.pkeyId k with
  | rsa =>
    rw [hid] at h
    exact hlaws.rsaPem hid h
  | ec =>
    rw [hid] at h
    obtain ⟨ec, hec, hpem⟩ := Option.bind_eq_some_iff.mp h
    exact hlaws.ecPem hid hec hpem
  | dsa =>
    rw [hid] at h
    cases h
  | other =>
    rw [hid] at h
    cases h

theorem privateDer_read (hlaws : lib.ReadsBack) {der : List Byte}
    (h : pKeytoPriKey env.toDgstEnv lib.toDgstLib k = .ok der) :
    lib.readPriv false der = some k := by
  unfold pKeytoPriKey at h
  cases hid : lib.pkeyId k with
  | rsa =>
    rw [hid] at h
    exact hlaws.rsaDer hid h
  | ec =>
    rw [hid] at h
    obtain ⟨ec, hec, hder⟩ := pKeyToKeyECC_ok h
    exact hlaws.ecDer hid hec hder
  | dsa =>
    rw [hid] at h
    cases h
  | other =>
    rw [hid] at h
    cases h

theorem privateCodec_reads (hlaws : lib.ReadsBack) : (privateCodec env lib).Reads := by
  intro form k text htext
  cases form with
  | pem => exact privatePem_read hlaws htext
  | der =>
    refine @privateDer_read _ _ _ _ env _ _ hlaws _ ?_
    rcases hder : pKeytoPriKey env.toDgstEnv lib.toDgstLib k with _ | der
    · simp only [privateCodec, hder] at htext
      cases htext
    · simp only [privateCodec, hder] at htext
      cases htext
      rfl
  | raw => cases htext
  | invalid => cases htext

theorem pKeyPem_private : pKeyPem env lib true k = writePem env.bioWrite (privatePem lib k) := by
  unfold pKeyPem privatePem
  cases lib.pkeyId k <;> rfl

theorem writePem_success {text : Option (List Byte)}
    (h : (writePem env.bioWrite text).ret = wolfcluSuccess) :
    text = some (writePem env.bioWrite text).bytes := by
  cases text with
  | none => exact absurd h fails_fatal
  | some pem =>
    simp only [writePem] at h ⊢
    by_cases hlen : env.bioWrite pem = pem.length
    · rw [hlen, Int.toNat_natCast, List.take_length]
    · rw [if_pos hlen] at h
      exact absurd h fails_fatal

theorem privateOutput_encode {form : Form} (hform : form = .pem ∨ form = .der)
    (hwhole : ∀ bytes, env.bioWrite bytes = bytes.length)
    (h : (privateOutput env lib form k).ret = wolfcluSuccess) :
    (privateCodec env lib).encode form k = some (privateOutput env lib form k).bytes := by
  rcases hform with rfl | rfl
  · simp only [privateOutput, pKeyPEMtoPriKey, pKeyPem_private] at h ⊢
    exact writePem_success h
  · simp only [privateOutput, privateCodec] at h ⊢
    rcases hder : pKeytoPriKey env.toDgstEnv lib.toDgstLib k with ret | der
    · rw [hder] at h
      exact absurd h fails_fatal
    · simp only [hder, withDer] at h ⊢
      by_cases hempty : der = []
      · rw [if_pos hempty] at h
        exact absurd h fails_fatal
      · rw [if_neg hempty, writeDer, hwhole, Int.toNat_natCast, List.take_length]
        rfl

end Codec

section Public
variable {ρ κ σ τ : Type} {env : PkeyEnv τ} {lib : PkeyLib ρ κ σ} {k : ρ}
variable (hpublic : lib.WritesPublic) (halloc : ∀ n, env.alloc n = true)

include halloc

theorem printDer_writes (der : List Byte) :
    printDer env.alloc env.bioWrite lib.derToPem der = writePem env.bioWrite (lib.derToPem der) := by
  unfold printDer
  rcases lib.derToPem der with _ | pem
  · rfl
  · simp only [halloc, Bool.true_eq_false, if_false]

include hpublic

theorem publicOutput_pem (inForm : Form) :
    publicOutput env lib inForm .pem k = pKeyPEMtoPubKey env lib k := by
  unfold publicOutput
  by_cases hin : inForm = .pem
  · rw [if_pos ⟨hin, rfl⟩]
  · rw [if_neg fun h => hin h.1, if_pos rfl]
    unfold pKeyPEMtoPubKey pKeyPem pKeytoPubKey
    cases hid : lib.pkeyId k with
    | rsa =>
      obtain ⟨der, hder, hne, hpem⟩ := hpublic.rsa hid
      simp only [hder, withDer, if_neg hne, hpem]
      exact printDer_writes halloc der
    | ec =>
      obtain ⟨ec, der, hec, hsize, hder, hne, hpem⟩ := hpublic.ec hid
      have hneg : ¬ lib.eccDerSize false ec < 0 := by omega
      simp only [pKeyToKeyECC, hec, if_neg hneg, halloc, Bool.true_eq_false, if_false, hder,
        if_neg hne, withDer, eccPKeyPem, eccKeyOf, Option.some_or, Option.bind_some, hpem]
      exact printDer_writes halloc der
    | dsa => rfl
    | other => rfl

theorem publicOutput_inForm (inForm inForm' outForm : Form) :
    publicOutput env lib inForm outForm k = publicOutput env lib inForm' outForm k := by
  by_cases hout : outForm = .pem
  · subst hout
    rw [publicOutput_pem hpublic halloc, publicOutput_pem hpublic halloc]
  · unfold publicOutput
    simp only [hout, and_false, if_false]

end Public

section Options
variable {τ : Type} {env : PkeyEnv τ} {argv : Args} {disk : Disk}

theorem option_other (env : PkeyEnv τ) {val : PkeyOption} (hval : val ≠ .outfile) (optarg : Option (List Byte))
    (s : PkeyState) : (s.option env optarg val).outFile = s.outFile ∧
      (s.option env optarg val).disk = s.disk := by
  cases val with
  | outfile => exact absurd rfl hval
  | infile =>
    unfold PkeyState.option
    dsimp only
    split <;> exact ⟨rfl, rfl⟩
  | inform | outform | pubout | pubin | help => exact ⟨rfl, rfl⟩

theorem pkeyReader_other (env : PkeyEnv τ) (table : List (LongOption PkeyOption))
    (htable : ∀ o ∈ table, o.val ≠ .outfile)
    (s : PkeyState) : ((pkeyReader env).run 1 table s).outFile = s.outFile ∧
      ((pkeyReader env).run 1 table s).disk = s.disk := by
  refine OptReader.run_invariant (P := fun t : PkeyState => t.outFile = s.outFile ∧ t.disk = s.disk)
    (fun o ho opt optarg t hmatch ht => ?_) ⟨rfl, rfl⟩
  rcases opt with _ | val
  · exact ht
  · have hval : val ≠ .outfile := by
      rw [matchOption_val hmatch]
      exact htable o ho
    obtain ⟨hfile, hdisk⟩ := option_other env hval optarg t
    exact ⟨hfile.trans ht.1, hdisk.trans ht.2⟩

def EmptiesOutput (disk : Disk) (s : PkeyState) : Prop :=
  (s.outFile = none ∧ s.disk = disk) ∨
    ∃ name, s.outFile = some name ∧ s.disk = update disk name (some [])

theorem option_outfile {s : PkeyState} (hfile : s.outFile = none) (hdisk : s.disk = disk)
    (optarg : Option (List Byte)) : EmptiesOutput disk (s.option env optarg .outfile) := by
  unfold PkeyState.option
  dsimp only
  split
  · exact .inl ⟨hfile, hdisk⟩
  · rename_i name _
    exact .inr ⟨name, rfl, by rw [hdisk]⟩

theorem run_outfile {o : LongOption PkeyOption} (ho : o.val = .outfile) {s : PkeyState}
    (hfile : s.outFile = none) (hdisk : s.disk = disk) :
    EmptiesOutput disk ((pkeyReader env).run 1 [o] s) := by
  have hkept : EmptiesOutput disk s := .inl ⟨hfile, hdisk⟩
  simp only [OptReader.run]
  split_ifs
  · rcases hmatch : matchOption ((pkeyReader env).argv s) 1 o with _ | ⟨opt, optarg⟩
    · exact hkept
    · rcases opt with _ | val
      · exact hkept
      · have hval := (matchOption_val hmatch).trans ho
        subst hval
        exact option_outfile hfile hdisk optarg
  · exact hkept

theorem readPkeyOptions_disk (env : PkeyEnv τ) (argv : Args) (disk : Disk) :
    EmptiesOutput disk (readPkeyOptions env argv disk) := by
  unfold readPkeyOptions
  generalize hstart : PkeyState.mk _ _ _ _ _ _ _ _ _ _ = start
  have hfront := pkeyReader_other env (pkeyOptions.take 1) (by decide) start
  have hout : EmptiesOutput disk ((pkeyReader env).run 1 [⟨str "-out", true, .outfile⟩]
      ((pkeyReader env).run 1 (pkeyOptions.take 1) start)) :=
    run_outfile rfl (hfront.1.trans (by rw [← hstart])) (hfront.2.trans (by rw [← hstart]))
  have hsplit : pkeyOptions = (pkeyOptions.take 1 ++ [⟨str "-out", true, .outfile⟩]) ++
      pkeyOptions.drop 2 := rfl
  rw [hsplit, OptReader.run_append, OptReader.run_append]
  have hback := pkeyReader_other env (pkeyOptions.drop 2) (by decide)
    ((pkeyReader env).run 1 [⟨str "-out", true, .outfile⟩]
      ((pkeyReader env).run 1 (pkeyOptions.take 1) start))
  unfold EmptiesOutput at hout ⊢
  rw [hback.1, hback.2]
  exact hout

end Options

section Runs
variable {ρ κ σ τ : Type} {env : PkeyEnv τ} {lib : PkeyLib ρ κ σ} {disk : Disk} {s t t' : PkeyState}
  {f g : List Byte}

theorem EmptiesOutput.disk_of_some (h : EmptiesOutput disk s) (hfile : s.outFile = some g) :
    s.disk = update disk g (some []) := by
  rcases h with ⟨hnone, -⟩ | ⟨name, hname, hdisk⟩
  · rw [hnone] at hfile
    cases hfile
  · rw [hname] at hfile
    cases hfile
    exact hdisk

theorem EmptiesOutput.disk_of_ne (h : EmptiesOutput disk s) (hfile : s.outFile ≠ some g) :
    s.disk g = disk g := by
  rcases h with ⟨-, hdisk⟩ | ⟨name, hname, hdisk⟩
  · rw [hdisk]
  · rw [hdisk, update_of_ne]
    rintro rfl
    exact hfile hname

theorem finish_success (hhelped : s.helped = false) (hret : (s.finish env lib).ret = wolfcluSuccess) :
    s.ret = wolfcluSuccess ∧ s.finish env lib = s.outcome env lib (s.readInput lib) := by
  have hrun : ¬ s.helped = true := by
    rw [hhelped]
    decide
  unfold PkeyState.finish at hret ⊢
  rw [if_neg hrun] at hret ⊢
  by_cases hok : s.ret = wolfcluSuccess
  · exact ⟨hok, if_neg (not_not.mpr hok)⟩
  · rw [if_pos hok] at hret
    exact absurd hret hok

theorem readInput_from (lib : PkeyLib ρ κ σ) (hfrom : s.inFile = some f) :
    (readKeyText lib s.pubIn s.inForm ((s.disk f).getD []) = none ∧
      s.readInput lib = .error userInputError) ∨
    ∃ k, readKeyText lib s.pubIn s.inForm ((s.disk f).getD []) = some k ∧
      s.readInput lib = .ok (some k) := by
  simp only [PkeyState.readInput, hfrom]
  rcases readKeyText lib s.pubIn s.inForm ((s.disk f).getD []) with _ | k
  · exact .inl ⟨rfl, rfl⟩
  · exact .inr ⟨k, rfl, rfl⟩

structure Converts (env : PkeyEnv τ) (lib : PkeyLib ρ κ σ) (disk : Disk) (f g : List Byte)
    (s : PkeyState) : Prop where
  read : EmptiesOutput disk s
  helped : s.helped = false
  secret : s.pubIn = false ∧ s.pubOut = false
  source : s.inFile = some f
  target : s.outFile = some g
  apart : g ≠ f
  form : s.outForm = .pem ∨ s.outForm = .der
  success : (s.finish env lib).ret = wolfcluSuccess

theorem Converts.source_disk (h : Converts env lib disk f g s) : s.disk f = disk f := by
  refine h.read.disk_of_ne fun hsame => h.apart ?_
  rw [h.target] at hsame
  exact Option.some.inj hsame

theorem Converts.outcome_key (h : Converts env lib disk f g s) (k : ρ) :
    s.outcome env lib (.ok (some k)) = ⟨(privateOutput env lib s.outForm k).ret, [],
      update disk g (some (privateOutput env lib s.outForm k).bytes)⟩ := by
  have hfile : ¬ (s.outFile = none ∧ env.openStdout = false) := by simp [h.target]
  have hprivate : ¬ s.pubOut = true := by simp [h.secret.2]
  rw [PkeyState.outcome, if_neg hfile, PkeyState.output, if_neg hprivate, PkeyState.put, h.target]
  simp only [h.read.disk_of_some h.target, update_idem]

theorem Converts.written (h : Converts env lib disk f g s)
    (hwhole : ∀ bytes, env.bioWrite bytes = bytes.length) :
    ∃ text, (privateCodec env lib).convert s.inForm s.outForm ((disk f).getD []) = some text ∧
      (s.finish env lib).disk = update disk g (some text) := by
  obtain ⟨-, hfinish⟩ := finish_success h.helped h.success
  have hsuccess := h.success
  rw [hfinish] at hsuccess ⊢
  have hkeys := readInput_from lib h.source
  rw [h.source_disk, h.secret.1] at hkeys
  rcases hkeys with ⟨-, hinput⟩ | ⟨k, hkey, hinput⟩
  · rw [hinput] at hsuccess
    have hret : userInputError = wolfcluSuccess := hsuccess
    exact absurd hret (by decide)
  · rw [hinput, h.outcome_key] at hsuccess ⊢
    exact ⟨_, convert_eq_some.mpr ⟨k, hkey, privateOutput_encode h.form hwhole hsuccess⟩, rfl⟩

structure AsksSame (t t' : PkeyState) : Prop where
  ret : t'.ret = t.ret
  helped : t'.helped = t.helped
  file : t'.outFile = t.outFile
  form : t'.outForm = t.outForm
  secret : t.pubIn = false ∧ t'.pubIn = false
  pubOut : t'.pubOut = t.pubOut

theorem output_asked (hpublic : lib.WritesPublic) (halloc : ∀ n, env.alloc n = true)
    (h : AsksSame t t') (k : Option ρ) : t.output env lib k = t'.output env lib k := by
  cases k with
  | none => rfl
  | some k =>
    simp only [PkeyState.output, h.pubOut, h.form]
    rw [publicOutput_inForm hpublic halloc t'.inForm t.inForm]

theorem readInput_asked (hpublic : lib.WritesPublic) (halloc : ∀ n, env.alloc n = true)
    (h : AsksSame t t') {f g : List Byte} (hfrom : t.inFile = some g) (hfrom' : t'.inFile = some f)
    (hkeys : readKeyText lib false t.inForm ((t.disk g).getD []) =
      readKeyText lib false t'.inForm ((t'.disk f).getD [])) :
    SameInput env lib t t' (t.readInput lib) (t'.readInput lib) := by
  have hinput : t.readInput lib = t'.readInput lib := by
    simp only [PkeyState.readInput, hfrom, hfrom', h.secret.1, h.secret.2, hkeys]
  rw [hinput]
  rcases t'.readInput lib with ret | k
  · exact .error ret
  · exact .ok (output_asked hpublic halloc h k)

theorem pKeySetup_pipeline (hlaws : lib.ReadsBack) (hpublic : lib.WritesPublic)
    (halloc : ∀ n, env.alloc n = true) (hwhole : ∀ bytes, env.bioWrite bytes = bytes.length)
    (argv argv' argv'' : Args) {converted : Disk}
    (hfirst : Converts env lib disk f g (readPkeyOptions env argv disk))
    (hconverted : (pKeySetup env lib argv disk).disk = converted)
    (hasks : AsksSame (readPkeyOptions env argv' converted) (readPkeyOptions env argv'' disk))
    (hfrom : (readPkeyOptions env argv' converted).inFile = some g)
    (hform : (readPkeyOptions env argv' converted).inForm = (readPkeyOptions env argv disk).outForm)
    (hfrom' : (readPkeyOptions env argv'' disk).inFile = some f)
    (hform' : (readPkeyOptions env argv'' disk).inForm = (readPkeyOptions env argv disk).inForm)
    (hkeeps : ∀ h ∈ [f, g], (readPkeyOptions env argv' converted).outFile ≠ some h) :
    SameRun g (pKeySetup env lib argv' converted) (pKeySetup env lib argv'' disk) := by
  obtain ⟨text, hconvert, hwritten⟩ := hfirst.written hwhole
  obtain rfl : update disk g (some text) = converted := hwritten.symm.trans hconverted
  have hread := readPkeyOptions_disk env argv' (update disk g (some text))
  have hread' := readPkeyOptions_disk env argv'' disk
  refine finish_same hasks.helped hasks.ret hasks.file (fun h hne => ?_)
    fun _ _ => readInput_asked hpublic halloc hasks hfrom hfrom' ?_
  · by_cases htarget : (readPkeyOptions env argv' (update disk g (some text))).outFile = some h
    · rw [hread.disk_of_some htarget, hread'.disk_of_some (hasks.file.trans htarget), update_self,
        update_self]
    · rw [hread.disk_of_ne htarget, hread'.disk_of_ne (by rwa [hasks.file]), update_of_ne hne]
  · rw [hread.disk_of_ne (hkeeps g (by simp)), hread'.disk_of_ne (by
      rw [hasks.file]
      exact hkeeps f (by simp)), update_self, hform, hform']
    exact decode_preceded ((privateCodec_reads hlaws).skips_nil _) hconvert

end Runs

theorem halvesLib_readsBack : halvesLib.ReadsBack where
  rsaPem _ h := by
    cases h
    rfl
  rsaDer _ h := by
    cases h
    rfl
  ecPem h := by cases h
  ecDer h := by cases h

theorem halvesLib_writesPublic : halvesLib.WritesPublic where
  rsa _ := ⟨_, rfl, List.cons_ne_nil _ _, rfl⟩
  ec h := by cases h

def convertArgs : Args :=
  [str "wolfssl", str "pkey", str "-in", str "k", str "-outform", str "der", str "-out", str "c"]

def convertedArgs : Args :=
  [str "wolfssl", str "pkey", str "-inform", str "der", str "-in", str "c", str "-pubout"]

def convertedDisk : Disk := (pKeySetup greetingPkeyEnv halvesLib convertArgs (keyDisk (str "-AB"))).disk

theorem convertArgs_converts : Converts greetingPkeyEnv halvesLib (keyDisk (str "-AB")) (str "k")
    (str "c") (readPkeyOptions greetingPkeyEnv convertArgs (keyDisk (str "-AB"))) where
  read := readPkeyOptions_disk _ _ _
  helped := by decide +kernel
  secret := by decide +kernel
  source := by decide +kernel
  target := by decide +kernel
  apart := by decide
  form := by decide +kernel
  success := by decide +kernel

theorem convertedArgs_asks :
    AsksSame (readPkeyOptions greetingPkeyEnv convertedArgs convertedDisk)
      (readPkeyOptions greetingPkeyEnv pubOutArgs (keyDisk (str "-AB"))) where
  ret := by decide +kernel
  helped := by decide +kernel
  file := by decide +kernel
  form := by decide +kernel
  secret := by decide +kernel
  pubOut := by decide +kernel

theorem pKeySetup_pipeline_halves :
    SameRun (str "c") (pKeySetup greetingPkeyEnv halvesLib convertedArgs convertedDisk)
      (pKeySetup greetingPkeyEnv halvesLib pubOutArgs (keyDisk (str "-AB"))) :=
  pKeySetup_pipeline halvesLib_readsBack halvesLib_writesPublic (fun _ => rfl) (fun _ => rfl)
    convertArgs convertedArgs pubOutArgs convertArgs_converts rfl convertedArgs_asks
    (by decide +kernel) (by decide +kernel) (by decide +kernel) (by decide +kernel)
    (by decide +kernel)

end WolfCLU
