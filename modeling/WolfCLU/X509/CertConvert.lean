import WolfCLU.Foundation.Conversion
import WolfCLU.Foundation.Pem
import WolfCLU.X509.CertCommand

namespace WolfCLU
open CString Conversion

section Search
variable {needle p t : List Byte}

theorem strstr_after_lines (hstarts : needle <+: t) (hline : (10 : Byte) ∉ needle)
    (hend : p = [] ∨ p.getLast? = some 10) (habsent : p ≠ [] → strstr needle p = none) :
    strstr needle (p ++ t) = some p.length := by
  refine strstr_eq_some.mpr ⟨by simp, by rwa [List.drop_left], fun j hj hfound => ?_⟩
  have hne : p ≠ [] := by
    rintro rfl
    exact absurd hj (Nat.not_lt_zero j)
  have hlast := hend.resolve_left hne
  rw [List.drop_append_of_le_length hj.le] at hfound
  rcases Nat.le_total needle.length (p.drop j).length with hle | hle
  · have hinside : needle <+: p.drop j :=
      List.prefix_of_prefix_length_le hfound (List.prefix_append _ _) hle
    exact strstr_eq_none.mp (habsent hne) j hj.le hinside
  · have hcovers : p.drop j <+: needle :=
      List.prefix_of_prefix_length_le (List.prefix_append _ _) hfound hle
    refine hline (hcovers.subset ?_)
    have hdrop : (p.drop j).getLast? = some 10 := by
      rw [List.getLast?_drop, if_neg (by omega), hlast]
    exact List.mem_of_getLast? hdrop

end Search

section Codec
variable {lib : CertLib}

structure CertLib.Documented (lib : CertLib) : Prop where
  header : ∀ {der pem}, lib.derToPem der = some pem → certHeader false <+: pem
  plain : ∀ {der pem}, lib.derToPem der = some pem → (0 : Byte) ∉ pem
  pem : ∀ {der pem}, lib.derToPem der = some pem → lib.pemToDer false pem = some der

def certCodec (lib : CertLib) : Codec Form (List Byte) (List Byte) where
  encode
    | .pem, der => lib.derToPem der
    | .der, der => some der
    | .raw, _ | .invalid, _ => none
  decode
    | .pem, text => (strstr (certHeader false) (cstr text)).bind fun off =>
      lib.pemToDer false (text.drop off)
    | .der, text => some text
    | .raw, _ | .invalid, _ => none

structure Precedes (p : List Byte) : Prop where
  plain : (0 : Byte) ∉ p
  lines : p = [] ∨ p.getLast? = some 10
  absent : p ≠ [] → strstr (certHeader false) p = none

theorem precedes_nil : Precedes [] := ⟨List.not_mem_nil, .inl rfl, fun h => absurd rfl h⟩

theorem certCodec_skips (hdoc : lib.Documented) {p : List Byte} (hp : Precedes p) :
    (certCodec lib).Skips .pem p := by
  intro der pem hpem
  have hplain : (0 : Byte) ∉ p ++ pem := by
    rw [List.mem_append, not_or]
    exact ⟨hp.plain, hdoc.plain hpem⟩
  have hfound : strstr (certHeader false) (p ++ pem) = some p.length :=
    strstr_after_lines (hdoc.header hpem) (by decide) hp.lines hp.absent
  simp only [certCodec, cstr_of_nul_free hplain, hfound, Option.bind_some, List.drop_left]
  exact hdoc.pem hpem

theorem certCodec_reads (hdoc : lib.Documented) : (certCodec lib).Reads := by
  intro f der text htext
  cases f with
  | pem => exact certCodec_skips hdoc precedes_nil htext
  | der =>
    cases htext
    rfl
  | raw => cases htext
  | invalid => cases htext

end Codec

section Prepare
variable {env : CertEnv} {lib : CertLib} {s : CertState} {der : List Byte} {x509 : X509Object}

theorem certInput_pem {inBuf : List Byte} (hreq : s.req = false) (hform : s.inForm = .pem)
    (h : s.certInput env = .ok inBuf) :
    ∃ contents off, s.contents env = some contents ∧
      strstr (certHeader false) (cstr contents) = some off ∧ inBuf = contents.drop off := by
  unfold CertState.certInput at h
  rcases hcontents : s.contents env with _ | contents
  · rw [hcontents] at h
    cases h
  · simp only [hcontents, hform, if_true, hreq] at h
    split_ifs at h
    rcases hfound : strstr (certHeader false) (cstr contents) with _ | off
    · rw [hfound] at h
      cases h
    · rw [hfound] at h
      cases h
      exact ⟨contents, off, rfl, hfound, rfl⟩

theorem certInput_other {inBuf : List Byte} (hform : s.inForm ≠ .pem)
    (h : s.certInput env = .ok inBuf) : s.contents env = some inBuf := by
  unfold CertState.certInput at h
  rcases hcontents : s.contents env with _ | contents
  · rw [hcontents] at h
    cases h
  · simp only [hcontents, if_neg hform] at h
    split_ifs at h
    cases h
    rfl

theorem certPrepare_decodes (hreq : s.req = false) (h : s.certPrepare env lib = .ok (der, x509)) :
    ∃ contents, s.contents env = some contents ∧
      (certCodec lib).decode s.inForm contents = some der ∧ lib.parses false der = true := by
  simp only [CertState.certPrepare, bind_eq_ok] at h
  obtain ⟨inBuf, hinput, der', hder, der'', hparse, _, -, _, -, _, -, _, -, hlast⟩ := h
  cases hlast
  unfold CertState.parseCert at hparse
  split_ifs at hparse with hparses
  cases hparse
  rw [hreq, Bool.false_and] at hparses
  cases hform : s.inForm with
  | pem =>
    obtain ⟨contents, off, hcontents, hfound, rfl⟩ := certInput_pem hreq hform hinput
    simp only [CertState.certDer, hform, hreq] at hder
    rcases hpem : lib.pemToDer false (contents.drop off) with _ | found
    · rw [hpem] at hder
      cases hder
    · rw [hpem] at hder
      cases hder
      refine ⟨contents, hcontents, ?_, hparses⟩
      simp only [certCodec, hfound, Option.bind_some, hpem]
  | der =>
    simp only [CertState.certDer, hform] at hder
    cases hder
    exact ⟨_, certInput_other (by rw [hform]; decide) hinput, rfl, hparses⟩
  | raw =>
    simp only [CertState.certDer, hform] at hder
    cases hder
  | invalid =>
    simp only [CertState.certDer, hform] at hder
    cases hder

theorem certInput_errors : Errors Fails (s.certInput env) := by
  unfold CertState.certInput
  split
  · exact errors_error fails_fatal
  · split_ifs
    · exact errors_error fails_fatal
    · split
      · exact errors_error fails_fatal
      · exact errors_ok _
    · exact errors_ok _

theorem certDer_errors (inBuf : List Byte) : Errors Fails (s.certDer lib inBuf) := by
  unfold CertState.certDer
  split
  · split
    · exact errors_error fails_fatal
    · exact errors_ok _
  · exact errors_ok _
  · exact errors_error fails_fatal
  · exact errors_error fails_fatal

theorem parseCert_errors (der : List Byte) : Errors Fails (s.parseCert lib der) := by
  unfold CertState.parseCert
  split_ifs
  · exact errors_ok _
  · exact errors_error fails_fatal

theorem certKey_errors : Errors Fails (s.certKey lib) := by
  unfold CertState.certKey
  split
  · exact errors_ok _
  · split
    · exact errors_error (fails_of_neg (by decide))
    · exact errors_ok _

theorem certExtensions_errors (der : List Byte) : Errors Fails (s.certExtensions env lib der) := by
  unfold CertState.certExtensions
  split
  · exact errors_ok _
  · dsimp only
    split_ifs with _ hret
    · exact errors_error fails_fatal
    · exact errors_ok _
    · exact errors_error hret

theorem certVersion_errors (der : List Byte) (x509 : X509Object) :
    Errors Fails (s.certVersion lib der x509) := by
  unfold CertState.certVersion
  dsimp only
  split_ifs
  · exact errors_error fails_fatal
  · exact errors_ok _

theorem certSignature_errors (der : List Byte) (privkey : Option PKey) (x509 : X509Object) :
    Errors Fails (s.certSignature lib der privkey x509) := by
  unfold CertState.certSignature
  split_ifs
  · split
    · exact errors_error fails_fatal
    · dsimp only
      split_ifs
      · exact errors_error fails_fatal
      · exact errors_error fails_fatal
      · exact errors_ok _
  · exact errors_ok _

theorem certPrepare_errors : Errors Fails (s.certPrepare env lib) :=
  certInput_errors.bind fun inBuf => (certDer_errors inBuf).bind fun der =>
    (parseCert_errors der).bind fun der => certKey_errors.bind fun privkey =>
      (certExtensions_errors der).bind fun x509 => (certVersion_errors der x509).bind fun x509 =>
        (certSignature_errors der privkey x509).bind fun _ => errors_ok _

end Prepare

section Emit
variable {env : CertEnv} {lib : CertLib} {s : CertState} {der : List Byte} {x509 : X509Object}
  {disk : Disk}

structure Converting (s : CertState) : Prop where
  runs : s.helped = false ∧ s.ret = wolfcluSuccess
  req : s.req = false
  writes : s.noOut = false
  form : s.outForm = .der ∨ s.outForm = .pem

theorem deliver_ret (ret : Int) (bytes : List Byte) (disk : Disk) :
    (s.deliver ret bytes disk).ret = ret := by
  unfold CertState.deliver
  cases s.outFile <;> rfl

theorem certText_encodes {text : List Byte} (hform : s.outForm = .der ∨ s.outForm = .pem)
    (h : s.certText env lib der = .ok text) : (certCodec lib).encode s.outForm der = some text := by
  rcases hform with hform | hform
  · simp only [CertState.certText, hform] at h
    cases h
    simp only [hform, certCodec]
  · simp only [CertState.certText, hform] at h
    rcases hpem : lib.derToPem der with _ | pem
    · rw [hpem] at h
      cases h
    · simp only [hpem] at h
      split_ifs at h
      cases h
      simp only [hform, certCodec, hpem]

theorem certWrite_success {derBuf printed : List Byte} (hform : s.outForm = .der ∨ s.outForm = .pem)
    (herror : ∀ e, s.certText env lib derBuf = .error e → e ≠ wolfcluSuccess)
    (h : (s.certWrite env lib derBuf printed disk).ret = wolfcluSuccess) :
    ∃ text, (certCodec lib).encode s.outForm derBuf = some text ∧ 0 < env.bioWrite text ∧
      s.certWrite env lib derBuf printed disk = s.deliver wolfcluSuccess
        (printed ++ text.take (env.bioWrite text).toNat) disk := by
  rcases htext : s.certText env lib derBuf with e | text
  · simp only [CertState.certWrite, if_pos hform, htext, deliver_ret] at h
    exact absurd h (herror e htext)
  · simp only [CertState.certWrite, if_pos hform, htext, deliver_ret] at h ⊢
    by_cases hwrite : env.bioWrite text ≤ 0
    · rw [if_pos hwrite] at h
      exact absurd h fails_fatal
    · rw [if_neg hwrite]
      exact ⟨text, certText_encodes hform htext, not_le.mp hwrite, rfl⟩

theorem certText_errors (derBuf : List Byte) : Errors Fails (s.certText env lib derBuf) := by
  unfold CertState.certText
  split
  · split
    · exact errors_error fails_fatal
    · split_ifs
      · exact errors_error fails_fatal
      · exact errors_ok _
  · exact errors_ok _
  · exact errors_ok _
  · exact errors_ok _

theorem certBuffer_errors : Errors Fails (s.certBuffer lib der x509) := by
  unfold CertState.certBuffer
  split_ifs
  · split
    · exact errors_error fails_fatal
    · split_ifs
      · exact errors_error fails_fatal
      · exact errors_ok _
  · exact errors_ok _

theorem certEmit_success (hwrites : s.noOut = false) (hform : s.outForm = .der ∨ s.outForm = .pem)
    (h : (s.certEmit env lib der x509 disk).ret = wolfcluSuccess) :
    ∃ printed derBuf text, s.printed env lib der x509 = ⟨wolfcluSuccess, printed⟩ ∧
      s.certBuffer lib der x509 = .ok derBuf ∧
      (certCodec lib).encode s.outForm derBuf = some text ∧ 0 < env.bioWrite text ∧
      s.certEmit env lib der x509 disk = s.deliver wolfcluSuccess
        (printed ++ text.take (env.bioWrite text).toNat) disk := by
  unfold CertState.certEmit at h ⊢
  by_cases hopen : s.outOpens env = false
  · rw [if_pos hopen] at h
    exact absurd h fails_fatal
  · rw [if_neg hopen] at h ⊢
    rcases hprinted : s.printed env lib der x509 with ⟨ret, printed⟩
    simp only [hprinted, hwrites, Bool.false_eq_true, or_false] at h ⊢
    by_cases hret : ret = wolfcluSuccess
    · subst hret
      simp only [ne_eq, not_true_eq_false, if_false] at h ⊢
      rcases hbuffer : s.certBuffer lib der x509 with e | derBuf
      · simp only [hbuffer, deliver_ret] at h
        exact absurd h (certBuffer_errors e hbuffer)
      · simp only [hbuffer] at h ⊢
        obtain ⟨text, htext, hwrite, hrun⟩ := certWrite_success hform (certText_errors derBuf) h
        exact ⟨printed, derBuf, text, rfl, rfl, htext, hwrite, hrun⟩
    · rw [if_pos hret, deliver_ret] at h
      exact absurd h hret

theorem certBuffer_read (h : ¬ (s.inForm = .pem ∧ s.req = true)) :
    s.certBuffer lib der x509 = .ok der := by
  rw [CertState.certBuffer, if_neg h]

end Emit

section Runs
variable {env : CertEnv} {lib : CertLib} {argv : Args} {disk : Disk}

theorem certSetup_success (hs : Converting (readCertOptions env disk argv))
    (h : (certSetup env lib argv disk).ret = wolfcluSuccess) :
    ∃ contents der x509 printed text,
      (readCertOptions env disk argv).contents env = some contents ∧
      (certCodec lib).decode (readCertOptions env disk argv).inForm contents = some der ∧
      lib.parses false der = true ∧
      (readCertOptions env disk argv).printed env lib der x509 = ⟨wolfcluSuccess, printed⟩ ∧
      (certCodec lib).encode (readCertOptions env disk argv).outForm der = some text ∧
      0 < env.bioWrite text ∧
      certSetup env lib argv disk = (readCertOptions env disk argv).deliver wolfcluSuccess
        (printed ++ text.take (env.bioWrite text).toNat) disk := by
  unfold certSetup at h ⊢
  simp only [hs.runs.1, hs.runs.2, Bool.false_eq_true, ne_eq, not_true_eq_false, if_false] at h ⊢
  rcases hprepare : (readCertOptions env disk argv).certPrepare env lib with e | ⟨der, x509⟩
  · rw [hprepare] at h
    exact absurd h (certPrepare_errors e hprepare)
  · simp only [hprepare] at h ⊢
    obtain ⟨contents, hcontents, hdecode, hparses⟩ := certPrepare_decodes hs.req hprepare
    obtain ⟨printed, derBuf, text, hprinted, hbuffer, htext, hwrite, hrun⟩ :=
      certEmit_success hs.writes hs.form h
    rw [certBuffer_read (by simp [hs.req])] at hbuffer
    cases hbuffer
    exact ⟨contents, der, x509, printed, text, hcontents, hdecode, hparses, hprinted, htext,
      hwrite, hrun⟩

structure Bare (env : CertEnv) (s : CertState) : Prop extends Converting s where
  keyIn : s.keyIn = none
  extFile : s.extFile = none
  prints : s.prints = []
  opens : s.outOpens env = true
  malloc : ∀ n, env.malloc n = true
  whole : ∀ text, env.bioWrite text = text.length

theorem certInput_bare {s : CertState} (hs : Bare env s) {contents der : List Byte}
    (hcontents : s.contents env = some contents) (hne : contents ≠ [])
    (hdecode : (certCodec lib).decode s.inForm contents = some der) :
    (s.certInput env >>= s.certDer lib) = .ok der := by
  have hroom : ¬ (contents = [] ∨ env.malloc (contents.length + 1) = false) := by
    rw [hs.malloc]
    simpa using hne
  cases hform : s.inForm with
  | pem =>
    rw [hform] at hdecode
    simp only [certCodec, Option.bind_eq_some_iff] at hdecode
    obtain ⟨off, hfound, hpem⟩ := hdecode
    simp only [CertState.certInput, hcontents, if_neg hroom, hform, if_true, hs.req, hfound, bind,
      Except.bind, CertState.certDer, hpem]
  | der =>
    rw [hform] at hdecode
    cases hdecode
    have hother : ¬ (Form.der = Form.pem) := by decide
    simp only [CertState.certInput, hcontents, if_neg hroom, hform, if_neg hother, bind,
      Except.bind, CertState.certDer]
  | raw =>
    rw [hform] at hdecode
    cases hdecode
  | invalid =>
    rw [hform] at hdecode
    cases hdecode

theorem certPrepare_bare {s : CertState} (hs : Bare env s) {contents der : List Byte}
    (hcontents : s.contents env = some contents) (hne : contents ≠ [])
    (hdecode : (certCodec lib).decode s.inForm contents = some der)
    (hparses : lib.parses false der = true) :
    ∃ x509, s.certPrepare env lib = .ok (der, x509) := by
  obtain ⟨inBuf, hinput, hder⟩ := bind_eq_ok.mp (certInput_bare hs hcontents hne hdecode)
  simp only [CertState.certPrepare, hinput, bind, Except.bind, hder, CertState.parseCert, hs.req,
    Bool.false_and, hparses, if_true, CertState.certKey, hs.keyIn, CertState.certExtensions,
    hs.extFile, CertState.certVersion, CertState.certSignature, Bool.false_eq_true, and_false,
    if_false, Except.ok.injEq, Prod.mk.injEq, true_and, exists_eq']

theorem certSetup_bare (hs : Bare env (readCertOptions env disk argv))
    {contents der text : List Byte}
    (hcontents : (readCertOptions env disk argv).contents env = some contents) (hne : contents ≠ [])
    (hdecode : (certCodec lib).decode (readCertOptions env disk argv).inForm contents = some der)
    (hparses : lib.parses false der = true)
    (hencode : (certCodec lib).encode (readCertOptions env disk argv).outForm der = some text)
    (htext : text ≠ []) :
    certSetup env lib argv disk =
      (readCertOptions env disk argv).deliver wolfcluSuccess text disk := by
  obtain ⟨x509, hprepare⟩ := certPrepare_bare hs hcontents hne hdecode hparses
  have hwritten : (readCertOptions env disk argv).certText env lib der = .ok text := by
    rcases hs.form with hform | hform
    · rw [hform] at hencode
      cases hencode
      simp only [CertState.certText, hform]
    · rw [hform] at hencode
      simp only [certCodec] at hencode
      simp only [CertState.certText, hform, hencode, hs.malloc, Bool.true_eq_false, if_false]
  have hpos := List.length_pos_iff.mpr htext
  simp only [certSetup, hs.runs.1, hs.runs.2, Bool.false_eq_true, ne_eq, not_true_eq_false,
    if_false, hprepare, CertState.certEmit, hs.opens, Bool.true_eq_false,
    CertState.printed_nothing _ _ _ hs.prints, hs.writes, or_false,
    CertState.certBuffer, hs.req, and_false, CertState.certWrite,
    if_pos hs.form, hwritten, hs.whole, Int.toNat_natCast, List.take_length, List.nil_append]
  rw [if_neg (by omega)]

end Runs

section Pipeline
variable {env env' : CertEnv} {lib : CertLib} {argv argv' : Args} {disk : Disk} {name : List Byte}

def PrintedBefore (form : Form) (printed : List Byte) : Prop :=
  printed = [] ∨ (form = .pem ∧ Precedes printed)

theorem PrintedBefore.skips (hdoc : lib.Documented) {form : Form} {printed : List Byte}
    (h : PrintedBefore form printed) : (certCodec lib).Skips form printed := by
  rcases h with rfl | ⟨rfl, hbefore⟩
  · exact (certCodec_reads hdoc).skips_nil form
  · exact certCodec_skips hdoc hbefore

theorem certSetup_pipeline (hdoc : lib.Documented)
    (hs : Converting (readCertOptions env disk argv))
    (hname : (readCertOptions env disk argv).outFile = some name)
    (hwhole : ∀ text, env.bioWrite text = text.length)
    (hprints : ∀ der x509 printed,
      (readCertOptions env disk argv).printed env lib der x509 = ⟨wolfcluSuccess, printed⟩ →
      PrintedBefore (readCertOptions env disk argv).outForm printed)
    (hret : (certSetup env lib argv disk).ret = wolfcluSuccess) {s : CertState}
    (hread : readCertOptions env' (certSetup env lib argv disk).disk argv' = s)
    (hbare : Bare env' s) (hinput : s.contents env' = (certSetup env lib argv disk).disk name)
    (hform : s.inForm = (readCertOptions env disk argv).outForm) :
    ∃ contents, (readCertOptions env disk argv).contents env = some contents ∧
      ∀ text, (certCodec lib).convert (readCertOptions env disk argv).inForm s.outForm contents =
          some text → text ≠ [] →
        certSetup env' lib argv' (certSetup env lib argv disk).disk =
          s.deliver wolfcluSuccess text (certSetup env lib argv disk).disk := by
  obtain ⟨contents, der, x509, printed, written, hcontents, hdecode, hparses, hprinted, hencode,
    hwrite, hrun⟩ := certSetup_success hs hret
  have hfile : (certSetup env lib argv disk).disk name = some (printed ++ written) := by
    simp only [hrun, CertState.deliver, hname, Function.update_self, hwhole, Int.toNat_natCast,
      List.take_length]
  rw [hwhole] at hwrite
  have hne : printed ++ written ≠ [] := by
    intro hnil
    rw [(List.append_eq_nil_iff.mp hnil).2] at hwrite
    exact absurd hwrite (by decide)
  have hskips := (hprints der x509 printed hprinted).skips hdoc
  refine ⟨contents, hcontents, fun text htext hpos => ?_⟩
  have hsame : (certCodec lib).convert s.inForm s.outForm (printed ++ written) = some text := by
    rw [hform, convert_preceded hskips (convert_eq_some.mpr ⟨der, hdecode, hencode⟩)]
    exact htext
  obtain ⟨der', hdecode', hencode'⟩ := convert_eq_some.mp hsame
  have hder : der' = der := by
    rw [hform, hskips hencode] at hdecode'
    exact (Option.some.inj hdecode').symm
  subst hder hread
  exact certSetup_bare hbare (hinput.trans hfile) hne hdecode' hparses hencode' hpos

end Pipeline

section Sample

def armorLib : CertLib where
  object _ := plainLib
  parses _ _ := true
  pemToDer _ text := Pem.unarmor (str "CERTIFICATE") text
  derToPem der := some (Pem.armor (str "CERTIFICATE") der)
  readKey _ := none
  checkKey _ _ _ := false
  getDer der _ := some der
  fields _ _ :=
    ⟨some (str "/CN=a"), some [⟨.commonName, [97]⟩], some (str "/CN=ca"), some [1],
      ⟨wolfsslSuccess, str "Jan 01 00:00:00 2024 GMT"⟩,
      ⟨wolfsslSuccess, str "Jan 01 00:00:00 2025 GMT"⟩, 0, ⟨wolfsslSuccess, str "Certificate:\n"⟩,
      some .other, none⟩
  printing := ⟨getTextByNid, fun _ => none, fun _ => 0, fun _ => 0, fun _ => none⟩

theorem nul_not_mem_armor (der : List Byte) : (0 : Byte) ∉ Pem.armor (str "CERTIFICATE") der := by
  intro hmem
  simp only [Pem.armor, List.mem_append] at hmem
  rcases hmem with hmem | hmem | hmem
  · exact absurd hmem (by decide)
  · rcases Base64.mem_lines hmem with h | h
    · exact Base64.encode_avoids (by decide) (by decide) der h
    · exact absurd h (by decide)
  · exact absurd hmem (by decide)

theorem armorLib_documented : armorLib.Documented where
  header := by
    rintro der pem h
    cases h
    exact ⟨10 :: (Base64.lines (Base64.encode der) ++ Pem.footer (str "CERTIFICATE")), rfl⟩
  plain := by
    rintro der pem h
    cases h
    exact nul_not_mem_armor der
  pem := by
    rintro der pem h
    cases h
    exact Pem.unarmor_armor (str "CERTIFICATE") der

def plainCertEnv : CertEnv where
  fileOpens _ := true
  outOpens _ := true
  stdin := none
  stdoutBio := true
  malloc _ := true
  bioWrite text := text.length
  conf _ := ⟨fun _ _ => none, fun _ _ => none, fun _ => none⟩
  copies := ⟨fun _ _ => true, fun _ => []⟩

def certDisk : Disk
  | [99] => some [48, 3, 2, 1, 7]
  | _ => none

def toPemArgs : Args :=
  [str "wolfssl", str "x509", str "-in", str "c", str "-inform", str "der", str "-out", str "p",
    str "-subject"]

def toDerArgs : Args :=
  [str "wolfssl", str "x509", str "-in", str "p", str "-outform", str "der", str "-out", str "d"]

def subjectDisk : Disk :=
  Function.update certDisk (str "p")
    (some (str "/CN=a\n" ++ Pem.armor (str "CERTIFICATE") [48, 3, 2, 1, 7]))

theorem toPem_state : readCertOptions plainCertEnv certDisk toPemArgs =
    ⟨1, false, some [48, 3, 2, 1, 7], none, some (str "p"), none, none, .der, .pem, .sha256, false,
      false, [.subject]⟩ := by decide +kernel

theorem toDer_state : readCertOptions plainCertEnv subjectDisk toDerArgs =
    ⟨1, false, some (str "/CN=a\n" ++ Pem.armor (str "CERTIFICATE") [48, 3, 2, 1, 7]), none,
      some (str "d"), none, none, .pem, .der, .sha256, false, false, []⟩ := by decide +kernel

theorem toPem_run : certSetup plainCertEnv armorLib toPemArgs certDisk =
    ⟨wolfcluSuccess, [], subjectDisk⟩ := by
  simp only [certSetup, CertState.certEmit, CertState.certWrite,
    CertState.certText, plainCertEnv, armorLib, Int.toNat_natCast, List.take_length]
  rfl

theorem precedes_subject : Precedes (str "/CN=a\n") :=
  ⟨by decide, .inr (by decide), fun _ => by decide⟩

theorem certSetup_pipeline_subject :
    certSetup plainCertEnv armorLib toDerArgs subjectDisk =
      ⟨wolfcluSuccess, [], Function.update subjectDisk (str "d") (some [48, 3, 2, 1, 7])⟩ := by
  have hbare : Bare plainCertEnv (readCertOptions plainCertEnv subjectDisk toDerArgs) := by
    rw [toDer_state]
    exact ⟨⟨⟨rfl, rfl⟩, rfl, rfl, .inl rfl⟩, rfl, rfl, rfl, rfl, fun _ => rfl, fun _ => rfl⟩
  have hconverting : Converting (readCertOptions plainCertEnv certDisk toPemArgs) := by
    rw [toPem_state]
    exact ⟨⟨rfl, rfl⟩, rfl, rfl, .inr rfl⟩
  have hprints : ∀ der x509 printed,
      (readCertOptions plainCertEnv certDisk toPemArgs).printed plainCertEnv armorLib der x509 =
        ⟨wolfcluSuccess, printed⟩ →
      PrintedBefore (readCertOptions plainCertEnv certDisk toPemArgs).outForm printed := by
    rw [toPem_state]
    intro der x509 printed hprinted
    cases hprinted
    exact .inr ⟨rfl, precedes_subject⟩
  obtain ⟨contents, hcontents, htext⟩ := @certSetup_pipeline plainCertEnv plainCertEnv armorLib
    toPemArgs toDerArgs certDisk (str "p") armorLib_documented hconverting (by rw [toPem_state])
    (fun _ => rfl) hprints (by rw [toPem_run]) _ (by rw [toPem_run]) hbare
    (by rw [toPem_run, toDer_state]; rfl) (by rw [toPem_state, toDer_state])
  rw [toPem_state] at hcontents
  cases hcontents
  rw [toPem_run, toPem_state, toDer_state] at htext
  exact htext [48, 3, 2, 1, 7] rfl (by decide)

end Sample

section Signed
variable {env : CertEnv} {lib : CertLib} {argv : Args} {disk : Disk}

structure SignedWith (lib : CertLib) (md : HashType) (der : List Byte) (pkey : PKey)
    (calls : X509Object) : Prop where
  version : (lib.object der).answer calls (.setVersion .v3) = wolfcluSuccess
  keyMatches : lib.checkKey der (calls ++ [.setVersion .v3]) pkey = true
  signed : 0 < (lib.object der).answer (calls ++ [.setVersion .v3]) (.sign true pkey md)

theorem certPrepare_signs {s : CertState} {der : List Byte} {x509 : X509Object}
    (hreq : s.req = true) (h : s.certPrepare env lib = .ok (der, x509)) :
    ∃ keyText pkey calls, s.keyIn = some keyText ∧ lib.readKey keyText = some pkey ∧
      s.certExtensions env lib der = .ok calls ∧ SignedWith lib s.md der pkey calls ∧
      x509 = calls ++ [.setVersion .v3] ++ [.sign true pkey s.md] := by
  simp only [CertState.certPrepare, bind_eq_ok] at h
  obtain ⟨inBuf, -, der', -, der'', hparse, privkey, hkey, calls, hext, x, hversion, y, hsigned,
    hlast⟩ := h
  cases hlast
  simp only [CertState.certVersion, hreq, and_true] at hversion
  split_ifs at hversion with hret
  cases hversion
  simp only [CertState.certSignature, hreq, if_true] at hsigned
  rcases privkey with _ | pkey
  · cases hsigned
  · dsimp only at hsigned
    split_ifs at hsigned with hmatch hsign
    cases hsigned
    simp only [CertState.certKey] at hkey
    rcases htext : s.keyIn with _ | keyText
    · rw [htext] at hkey
      cases hkey
    · simp only [htext] at hkey
      rcases hread : lib.readKey keyText with _ | found
      · rw [hread] at hkey
        cases hkey
      · rw [hread] at hkey
        cases hkey
        exact ⟨keyText, pkey, calls, rfl, hread, hext, ⟨not_not.mp hret,
          Bool.eq_true_of_not_eq_false hmatch, not_le.mp hsign⟩, rfl⟩

theorem certPrepare_der {s : CertState} {der : List Byte} {x509 : X509Object}
    (hform : s.inForm ≠ .pem) (h : s.certPrepare env lib = .ok (der, x509)) :
    s.contents env = some der := by
  simp only [CertState.certPrepare, bind_eq_ok] at h
  obtain ⟨inBuf, hinput, der', hder, der'', hparse, _, -, _, -, _, -, _, -, hlast⟩ := h
  cases hlast
  unfold CertState.parseCert at hparse
  split_ifs at hparse
  cases hparse
  have hread := certInput_other hform hinput
  unfold CertState.certDer at hder
  split at hder
  case h_1 hpem => exact absurd hpem hform
  case h_2 =>
    cases hder
    exact hread
  case h_3 => cases hder
  case h_4 => cases hder

def WrittenDer (env : CertEnv) (lib : CertLib) (s : CertState) (der : List Byte)
    (x509 : X509Object) (derBuf : List Byte) : Prop :=
  if s.inForm = .pem then lib.getDer der x509 = some derBuf
  else s.contents env = some derBuf

def SignsAndWrites (env : CertEnv) (lib : CertLib) (argv : Args) (disk : Disk) : Prop :=
  ∃ der keyText pkey calls printed derBuf text,
    (readCertOptions env disk argv).keyIn = some keyText ∧ lib.readKey keyText = some pkey ∧
    (readCertOptions env disk argv).certExtensions env lib der = .ok calls ∧
    SignedWith lib (readCertOptions env disk argv).md der pkey calls ∧
    WrittenDer env lib (readCertOptions env disk argv) der
      (calls ++ [.setVersion .v3] ++ [.sign true pkey (readCertOptions env disk argv).md])
      derBuf ∧
    (certCodec lib).encode (readCertOptions env disk argv).outForm derBuf = some text ∧
    0 < env.bioWrite text ∧
    certSetup env lib argv disk = (readCertOptions env disk argv).deliver wolfcluSuccess
      (printed ++ text.take (env.bioWrite text).toNat) disk

theorem certSetup_signs (hruns : (readCertOptions env disk argv).helped = false)
    (hreq : (readCertOptions env disk argv).req = true)
    (hwrites : (readCertOptions env disk argv).noOut = false)
    (hform : (readCertOptions env disk argv).outForm = .der ∨
      (readCertOptions env disk argv).outForm = .pem)
    (h : (certSetup env lib argv disk).ret = wolfcluSuccess) :
    SignsAndWrites env lib argv disk := by
  unfold SignsAndWrites
  unfold certSetup at h ⊢
  simp only [hruns, Bool.false_eq_true, if_false] at h ⊢
  by_cases hret : (readCertOptions env disk argv).ret = wolfcluSuccess
  · simp only [hret, ne_eq, not_true_eq_false, if_false] at h ⊢
    rcases hprepare : (readCertOptions env disk argv).certPrepare env lib with e | ⟨der, x509⟩
    · rw [hprepare] at h
      exact absurd h (certPrepare_errors e hprepare)
    · simp only [hprepare] at h ⊢
      obtain ⟨keyText, pkey, calls, hkey, hread, hext, hsigned, rfl⟩ :=
        certPrepare_signs hreq hprepare
      obtain ⟨printed, derBuf, text, -, hbuffer, htext, hwrite, hrun⟩ :=
        certEmit_success hwrites hform h
      refine ⟨der, keyText, pkey, calls, printed, derBuf, text, hkey, hread, hext, hsigned, ?_,
        htext, hwrite, hrun⟩
      unfold WrittenDer
      split_ifs with hpem
      · simp only [CertState.certBuffer, hpem, hreq, true_and, if_true] at hbuffer
        rcases hder : lib.getDer der (calls ++ [.setVersion .v3] ++
            [.sign true pkey (readCertOptions env disk argv).md]) with _ | found
        · rw [hder] at hbuffer
          cases hbuffer
        · simp only [hder] at hbuffer
          split_ifs at hbuffer
          cases hbuffer
          exact hder
      · rw [certBuffer_read fun hboth => hpem hboth.1] at hbuffer
        cases hbuffer
        exact certPrepare_der hpem hprepare
  · rw [if_pos hret] at h
    exact absurd h hret

def certLabel (req : Bool) : List Byte :=
  if req then str "CERTIFICATE REQUEST" else str "CERTIFICATE"

def signingLib : CertLib :=
  { armorLib with
    readKey := fun text => some ⟨.rsa, text⟩
    checkKey := fun _ _ _ => true
    pemToDer := fun req text => Pem.unarmor (certLabel req) text
    getDer := fun der x509 => some (der ++ [UInt8.ofNat x509.length]) }

def signDisk : Disk
  | [99] => some [48, 3, 2, 1, 7]
  | [107] => some [1]
  | [113] => some (Pem.armor (certLabel true) [48, 3, 2, 1, 7])
  | _ => none

def signDerArgs : Args :=
  [str "wolfssl", str "x509", str "-in", str "c", str "-inform", str "der", str "-req",
    str "-signkey", str "k", str "-outform", str "der", str "-out", str "d"]

def signPemArgs : Args :=
  [str "wolfssl", str "x509", str "-in", str "q", str "-req", str "-signkey", str "k",
    str "-outform", str "der", str "-out", str "d"]

theorem signDer_state : readCertOptions plainCertEnv signDisk signDerArgs =
    ⟨1, false, some [48, 3, 2, 1, 7], some [1], some (str "d"), none, none, .der, .der, .sha256,
      true, false, []⟩ := by decide +kernel

theorem signPem_state : readCertOptions plainCertEnv signDisk signPemArgs =
    ⟨1, false, some (Pem.armor (certLabel true) [48, 3, 2, 1, 7]), some [1], some (str "d"), none,
      none, .pem, .der, .sha256, true, false, []⟩ := by decide +kernel

theorem signDer_run : certSetup plainCertEnv signingLib signDerArgs signDisk =
    ⟨wolfcluSuccess, [], Function.update signDisk (str "d") (some [48, 3, 2, 1, 7])⟩ := by
  simp only [certSetup, CertState.certEmit, CertState.certWrite, CertState.certText, plainCertEnv,
    signingLib, armorLib, Int.toNat_natCast, List.take_length]
  rfl

theorem signPem_prepare :
    (readCertOptions plainCertEnv signDisk signPemArgs).certPrepare plainCertEnv signingLib =
      .ok ([48, 3, 2, 1, 7], [.setVersion .v3, .sign true ⟨.rsa, [1]⟩ .sha256]) := by
  have hinput : (readCertOptions plainCertEnv signDisk signPemArgs).certInput plainCertEnv =
      .ok (Pem.armor (certLabel true) [48, 3, 2, 1, 7]) := by
    rw [signPem_state]
    rfl
  have hder : signingLib.pemToDer true (Pem.armor (certLabel true) [48, 3, 2, 1, 7]) =
      some [48, 3, 2, 1, 7] := Pem.unarmor_armor (certLabel true) [48, 3, 2, 1, 7]
  simp only [CertState.certPrepare, hinput]
  rw [signPem_state]
  simp only [CertState.certDer, bind, Except.bind, hder]
  rfl

theorem signPem_run : certSetup plainCertEnv signingLib signPemArgs signDisk =
    ⟨wolfcluSuccess, [], Function.update signDisk (str "d") (some [48, 3, 2, 1, 7, 2])⟩ := by
  simp only [certSetup, signPem_prepare]
  rw [signPem_state]
  simp only [CertState.certEmit, CertState.certWrite, CertState.certText, plainCertEnv,
    signingLib, armorLib, Int.toNat_natCast, List.take_length]
  rfl

theorem certSetup_signs_forms :
    SignsAndWrites plainCertEnv signingLib signDerArgs signDisk ∧
      SignsAndWrites plainCertEnv signingLib signPemArgs signDisk ∧
      (certSetup plainCertEnv signingLib signDerArgs signDisk).disk (str "d") =
        some [48, 3, 2, 1, 7] ∧
      (certSetup plainCertEnv signingLib signPemArgs signDisk).disk (str "d") =
        some [48, 3, 2, 1, 7, 2] := by
  refine ⟨certSetup_signs ?_ ?_ ?_ (.inl ?_) ?_, certSetup_signs ?_ ?_ ?_ (.inl ?_) ?_, ?_, ?_⟩
  · rw [signDer_state]
  · rw [signDer_state]
  · rw [signDer_state]
  · rw [signDer_state]
  · rw [signDer_run]
  · rw [signPem_state]
  · rw [signPem_state]
  · rw [signPem_state]
  · rw [signPem_state]
  · rw [signPem_run]
  · rw [signDer_run]
    rfl
  · rw [signPem_run]
    rfl

end Signed

end WolfCLU
