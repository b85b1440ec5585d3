import WolfCLU.X509.ChimeraCert

namespace WolfCLU.Chimera
open CString

theorem Tbs.pre_append_altSigVal (body : Tbs) (value : List Byte) :
    Tbs.pre { body with extensions := body.extensions ++ [⟨altSigValOid, value⟩] } = body.pre := by
  simp [Tbs.pre]

section Run
variable {acceptsName : CertName → Bool} {lib : CertLib acceptsName} {rng : Nat → List Byte}
  {clock : Nat → Nat} {keys : Keys} {cert cert' : Cert} {body : Tbs} {der pre : List Byte} {n : Nat}

theorem setCustomExtension_ok {ext : Extension}
    (h : setCustomExtension lib ext cert = .ok cert') :
    cert' = { cert with extensions := cert.extensions ++ [ext] } := by
  simp only [setCustomExtension, bind_eq_ok] at h
  obtain ⟨_, _, h⟩ := h
  exact (Except.ok.inj h).symm

theorem newCert_ok {subject : CertName} (h : newCert lib keys subject = .ok cert) :
    cert.dates = none ∧ cert.subject = subject ∧ cert.sigType = keys.level.sigType := by
  simp only [newCert, bind_eq_ok] at h
  obtain ⟨issuer, _, fresh, hfresh, h⟩ := h
  rw [setCustomExtension_ok h, setCustomExtension_ok hfresh]
  exact ⟨rfl, rfl, rfl⟩

structure MadeSigned (lib : CertLib acceptsName) (rng : Nat → List Byte) (clock : Nat → Nat)
    (n : Nat) (keys : Keys) (cert cert' : Cert) (body : Tbs) (der : List Byte) : Prop where
  accepted : acceptsName cert.subject = true
  cert_eq : cert' = { cert with serial := some (cert.serial.getD (rng n)) }
  body_eq : body = cert.tbs (keys.serverKey.getD keys.caKey) (cert.serial.getD (rng n))
    (cert.dates.getD (lib.validityAt (clock n)))
  signed : lib.signCert body cert.sigType keys.caKey = some der

theorem makeSigned_ok (h : makeSigned lib rng clock n keys cert = .ok (cert', body, der)) :
    MadeSigned lib rng clock n keys cert cert' body der := by
  simp only [makeSigned, bind_eq_ok, orFail_eq_ok] at h
  obtain ⟨made, hmade, signed, hsigned, h⟩ := h
  obtain ⟨rfl, rfl, rfl⟩ : made.1 = cert' ∧ made.2 = body ∧ signed = der := by
    simpa [pure, Except.pure] using h
  have hcert := lib.makeCert_cert hmade
  refine ⟨lib.makeCert_name hmade, hcert, lib.makeCert_body hmade, ?_⟩
  rwa [hcert] at hsigned

theorem preTbsOf_ok {sigType : SigType} {key : EccKey}
    (hsigned : lib.signCert body sigType key = some der) (h : preTbsOf lib der = .ok pre) :
    pre = lib.preDer body.pre := by
  simp only [preTbsOf, bind_eq_ok, orFail_eq_ok] at h
  obtain ⟨_, _, hpre⟩ := h
  exact lib.generatePreTbs_signed hsigned hpre

theorem dualSign_bodies {subject : CertName} {outForm : Form} {outFileName : List Byte}
    {issued : Issued} (h : dualSign lib rng clock keys subject outForm outFileName = .ok issued) :
    ∃ body : Tbs, issued.preTbs = lib.preDer body.pre ∧
      body.validity = lib.validityAt (clock 0) ∧
      issued.body.pre = { body.pre with validity := lib.validityAt (clock 1) } ∧
      issued.body.subject = subject.entries ∧ acceptsName subject = true := by
  simp only [dualSign, bind_eq_ok, orFail_eq_ok] at h
  obtain ⟨cert, hcert, ⟨cert₁, body₁, scratch⟩, hfirst, preTbs, hpre, altSigVal, _, cert₂, hext,
    ⟨cert₃, body₂, der⟩, hsecond, file, _, _, _, h⟩ := h
  obtain rfl := Except.ok.inj h
  obtain ⟨hdates, hsubject, _⟩ := newCert_ok hcert
  have hone := makeSigned_ok hfirst
  have htwo := makeSigned_ok hsecond
  have hbody₁ : body₁ = cert.tbs (keys.serverKey.getD keys.caKey) (cert.serial.getD (rng 0))
      (lib.validityAt (clock 0)) := by
    rw [hone.body_eq, hdates, Option.getD_none]
  have hcert₂ : cert₂ = { cert with
      serial := some (cert.serial.getD (rng 0))
      extensions := cert.extensions ++ [⟨altSigValOid, altSigVal⟩] } := by
    rw [setCustomExtension_ok hext, hone.cert_eq]
  have hbody₂ : body₂ = { body₁ with
      validity := lib.validityAt (clock 1)
      extensions := body₁.extensions ++ [⟨altSigValOid, altSigVal⟩] } := by
    rw [htwo.body_eq, hcert₂, hbody₁, hdates]
    rfl
  refine ⟨body₁, preTbsOf_ok hone.signed hpre, ?_, ?_, ?_, ?_⟩
  · rw [hbody₁]
    rfl
  · rw [hbody₂]
    exact Tbs.pre_append_altSigVal { body₁ with validity := lib.validityAt (clock 1) } altSigVal
  · rw [hbody₂, hbody₁, ← hsubject]
    rfl
  · rw [← hsubject]
    exact hone.accepted

end Run

def framed (content : List Byte) : List Byte := decimal content.length ++ 58 :: content

def unframed (text : List Byte) : List Byte :=
  ((text.dropWhile isDigit).drop 1).take (digitsValue (text.takeWhile isDigit))

theorem unframed_framed (content rest : List Byte) :
    unframed (framed content ++ rest) = content := by
  have hnum := decimal_isNumeral content.length
  have hcolon : ∀ b ∈ (58 :: (content ++ rest)).head?, isDigit b = false := by
    intro b hb
    obtain rfl : 58 = b := by simpa using hb
    decide
  have htake : (decimal content.length ++ 58 :: (content ++ rest)).takeWhile isDigit =
      decimal content.length := takeWhile_numeral hnum hcolon
  have hdrop : (decimal content.length ++ 58 :: (content ++ rest)).dropWhile isDigit =
      58 :: (content ++ rest) := by
    rw [List.dropWhile_append_of_pos hnum.digits, List.dropWhile_cons_of_neg (by decide)]
  simp [unframed, framed, htake, hdrop, hnum.value]

theorem framed_append_inj {a b x y : List Byte} (h : framed a ++ x = framed b ++ y) :
    a = b ∧ x = y := by
  have hab : a = b := by rw [← unframed_framed a x, h, unframed_framed]
  subst hab
  exact ⟨rfl, List.append_cancel_left h⟩

theorem framed_decimal_inj {m n : Nat} {x y : List Byte}
    (h : framed (decimal m) ++ x = framed (decimal n) ++ y) : m = n ∧ x = y := by
  obtain ⟨hdecimal, hrest⟩ := framed_append_inj h
  refine ⟨?_, hrest⟩
  rw [← (decimal_isNumeral m).value, hdecimal, (decimal_isNumeral n).value]

def framedName (name : X509Name) : List Byte := framed (standardNames.oneline name)

def framedExtension (ext : Extension) : List Byte := framed ext.oid ++ framed ext.value

def framedTbs (body : Tbs) : List Byte :=
  framed body.serial ++ framedName body.issuer ++
    (framed (decimal body.validity.notBefore) ++ (framed (decimal body.validity.notAfter) ++
      (framedName body.subject ++ framed body.publicKey ++ body.extensions.flatMap framedExtension)))

def plainCertLib (acceptsName : CertName → Bool) : CertLib acceptsName where
  alloc := true
  initRng := true
  x509Der x509 := some (framed x509.publicKey)
  getFp bio := some bio
  pemToDer _ pem := some pem
  eccInitCa := true
  eccInitServer := true
  eccPrivateKeyDecode der := some ⟨der, der⟩
  mlDsaInit := true
  mlDsaPrivateKeyDecode der := some ⟨2, der⟩
  setAlgoID _ := some (str "ML-DSA-44")
  initCert := true
  allocSubject := true
  setIssuerBuffer _ := some []
  setCustomExtension _ _ := true
  validityAt now := ⟨now - 86400, now + 43200000⟩
  makeCert cert key drawn now :=
    if acceptsName cert.subject then
      some ({ cert with serial := some (cert.serial.getD drawn) },
        cert.tbs key (cert.serial.getD drawn)
          (cert.dates.getD ⟨now - 86400, now + 43200000⟩))
    else none
  signCert body _ key :=
    some (framed (framedTbs body.pre) ++ framed (framedTbs body) ++ framed key.material)
  parseCert _ := true
  generatePreTbs der := some (unframed der)
  preDer := framedTbs
  makeSigWithBitStr _ pre key := some (framed pre ++ framed key.material)
  derToPem der := some der
  newFile _ := true
  onelineAlloc := true
  makeCert_name h := by
    split_ifs at h with hname
    exact hname
  makeCert_cert h := by
    split_ifs at h
    cases h
    rfl
  makeCert_body h := by
    split_ifs at h
    cases h
    rfl
  generatePreTbs_signed hsign hpre := by
    cases hsign
    cases hpre
    rw [List.append_assoc]
    exact unframed_framed _ _
  preDer_validity h := by
    simp only [framedTbs] at h
    obtain ⟨hbefore, hrest⟩ := framed_decimal_inj (List.append_cancel_left h)
    obtain ⟨hafter, _⟩ := framed_decimal_inj hrest
    exact congrArg₂ Validity.mk hbefore hafter
  validityAt_seconds h := by
    have hafter := congrArg Validity.notAfter h
    simpa using hafter

def caArgs (subject : List Byte) : Args where
  bioCaKey := some (str "ca-key")
  bioAltCaKey := some (str "ca-mldsa-key")
  bioAltSubjPubKey := some (str "ca-mldsa-pub")
  bioSubjKey := none
  caCert := none
  subject := some subject
  outFileName := some (str "ca.pem")
  outForm := .pem

section Sign
variable {acceptsName : CertName → Bool} {lib : CertLib acceptsName} {rng : Nat → List Byte}
  {clock : Nat → Nat} {ctcNameSize : Nat} {args : Args} {issued : Issued}

theorem genChimeraCertSign_ok
    (h : genChimeraCertSign lib rng clock ctcNameSize args = .ok issued) :
    ∃ inp keys subject, args.inputs = .ok inp ∧ parseSubject ctcNameSize inp.subject = some subject ∧
      dualSign lib rng clock keys subject args.outForm inp.outFileName = .ok issued := by
  simp only [genChimeraCertSign, bind_eq_ok, orFail_eq_ok] at h
  obtain ⟨inp, hinp, _, _, _, _, keys, _, _, _, _, _, subject, hsubject, h⟩ := h
  exact ⟨inp, keys, subject, hinp, hsubject, h⟩

theorem plain_dualSign {keys : Keys} {name : CertName} (hkeys : keys.caCertDer = none)
    (hname : acceptsName name = true) (outFileName : List Byte) :
    ∃ issued, dualSign (plainCertLib acceptsName) rng clock keys name .pem outFileName =
      .ok issued := by
  cases hrun : dualSign (plainCertLib acceptsName) rng clock keys name .pem outFileName with
  | ok issued => exact ⟨issued, rfl⟩
  | error e =>
    simp [dualSign, newCert, setCustomExtension, makeSigned, preTbsOf, outBuf, plainCertLib, hkeys,
      hname, orFail, check, bind, Except.bind, pure, Except.pure] at hrun

theorem plain_genChimeraCertSign {subject : List Byte} {name : CertName}
    (hparse : parseSubject ctcNameSize subject = some name) (hname : acceptsName name = true) :
    ∃ issued, genChimeraCertSign (plainCertLib acceptsName) rng clock ctcNameSize
      (caArgs subject) = .ok issued := by
  let inp : Inputs := ⟨str "ca-key", str "ca-mldsa-key", str "ca-mldsa-pub", none, subject,
    str "ca.pem"⟩
  let keys : Keys := ⟨none, ⟨str "ca-key", str "ca-key"⟩, none, str "ca-mldsa-pub",
    ⟨2, str "ca-mldsa-key"⟩, .level2, str "ML-DSA-44"⟩
  have hinp : (caArgs subject).inputs = .ok inp := rfl
  have hkeys : loadKeys (plainCertLib acceptsName) inp = .ok keys := rfl
  have hparse : parseSubject ctcNameSize inp.subject = some name := hparse
  have hsign : ∃ issued, dualSign (plainCertLib acceptsName) rng clock keys name .pem
      inp.outFileName = .ok issued := plain_dualSign rfl hname inp.outFileName
  obtain ⟨issued, hsign⟩ := hsign
  refine ⟨issued, ?_⟩
  simp only [genChimeraCertSign, hinp, bind, Except.bind, hkeys, hparse, orFail]
  exact hsign

theorem preTbs_of_seconds (h : genChimeraCertSign lib rng clock ctcNameSize args = .ok issued) :
    ∃ body : Tbs, issued.preTbs = lib.preDer { body.pre with validity := lib.validityAt (clock 0) } ∧
      issued.body.pre = { body.pre with validity := lib.validityAt (clock 1) } := by
  obtain ⟨inp, keys, subject, _, _, hsign⟩ := genChimeraCertSign_ok h
  obtain ⟨body, hpre, hvalidity, hemitted, _, _⟩ := dualSign_bodies hsign
  refine ⟨body, ?_, hemitted⟩
  rw [hpre, ← hvalidity]
  rfl

theorem seconds_of_preTbs (h : genChimeraCertSign lib rng clock ctcNameSize args = .ok issued)
    (hsame : issued.preTbs = lib.preDer issued.body.pre) : clock 0 = clock 1 := by
  obtain ⟨body, hpre, hemitted⟩ := preTbs_of_seconds h
  rw [hpre, hemitted] at hsame
  exact lib.validityAt_seconds (lib.preDer_validity hsame)

theorem preTbs_signed_iff (h : genChimeraCertSign lib rng clock ctcNameSize args = .ok issued) :
    issued.preTbs = lib.preDer issued.body.pre ↔ clock 0 = clock 1 := by
  constructor
  · exact seconds_of_preTbs h
  · intro hread
    obtain ⟨body, hpre, hemitted⟩ := preTbs_of_seconds h
    rw [hpre, hemitted, hread]

end Sign

theorem preTbs_signed_iff_steady :
    ∃ issued, genChimeraCertSign (plainCertLib fun _ => true) (fun _ => [1]) (fun _ => 1700000000) 64
        (caArgs (str "/C=US/O=wolfSSL/CN=chimera")) = .ok issued ∧
      (issued.preTbs = (plainCertLib fun _ => true).preDer issued.body.pre ↔
        (1700000000 : Nat) = 1700000000) := by
  obtain ⟨issued, h⟩ : ∃ issued, genChimeraCertSign (plainCertLib fun _ => true) (fun _ => [1])
      (fun _ => 1700000000) 64 (caArgs (str "/C=US/O=wolfSSL/CN=chimera")) = .ok issued :=
    plain_genChimeraCertSign rfl rfl
  exact ⟨issued, h, preTbs_signed_iff h⟩

def tickingClock (n : Nat) : Nat := 1700000000 + n

theorem ticking_clock_breaks_signature :
    ¬ ∀ (acceptsName : CertName → Bool) (lib : CertLib acceptsName) (rng : Nat → List Byte)
      (clock : Nat → Nat) (ctcNameSize : Nat) (args : Args) (issued : Issued), Monotone clock →
      genChimeraCertSign lib rng clock ctcNameSize args = .ok issued →
      issued.preTbs = lib.preDer issued.body.pre := by
  intro hclaim
  have hclock : Monotone tickingClock := fun m n h => Nat.add_le_add_left h 1700000000
  obtain ⟨issued, h⟩ : ∃ issued, genChimeraCertSign (plainCertLib fun _ => true) (fun _ => [1])
      tickingClock 64 (caArgs (str "/C=US/O=wolfSSL/CN=chimera")) = .ok issued :=
    plain_genChimeraCertSign rfl rfl
  have hsame := hclaim _ _ _ _ _ _ issued hclock h
  have hread : tickingClock 0 = tickingClock 1 := seconds_of_preTbs h hsame
  exact absurd hread (by decide)

end WolfCLU.Chimera
