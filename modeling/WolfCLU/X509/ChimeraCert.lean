import WolfCLU.X509.CaSetup

namespace WolfCLU.Chimera
open CString TextLine

inductive PemType where
  | eccPrivateKey
  | privateKey
  | publicKey
  | pkcs8PrivateKey
  deriving DecidableEq, Repr

inductive MlDsaLevel where
  | level2
  | level3
  | level5
  deriving DecidableEq, Repr

inductive SigType where
  | sha256wECDSA
  | sha384wECDSA
  | sha512wECDSA
  deriving DecidableEq, Repr

def MlDsaLevel.ofByte (level : Byte) : Option MlDsaLevel :=
  if level = 2 then some .level2
  else if level = 3 then some .level3
  else if level = 5 then some .level5
  else none

def MlDsaLevel.sigType : MlDsaLevel → SigType
  | .level2 => .sha256wECDSA
  | .level3 => .sha384wECDSA
  | .level5 => .sha512wECDSA

structure EccKey where
  publicKey : List Byte
  material : List Byte
  deriving DecidableEq, Repr

structure MlDsaKey where
  level : Byte
  material : List Byte
  deriving DecidableEq, Repr

structure Extension where
  oid : List Byte
  value : List Byte
  deriving DecidableEq, Repr

def subjectAltPubKeyOid : List Byte := str "2.5.29.72"
def altSigAlgOid : List Byte := str "2.5.29.73"
def altSigValOid : List Byte := str "2.5.29.74"

structure CertName where
  country : List Byte
  state : List Byte
  locality : List Byte
  org : List Byte
  unit : List Byte
  commonName : List Byte
  email : List Byte
  deriving DecidableEq, Repr

def CertName.empty : CertName := ⟨[], [], [], [], [], [], []⟩

def CertName.get (name : CertName) : Nid → List Byte
  | .countryName => name.country
  | .stateOrProvinceName => name.state
  | .localityName => name.locality
  | .organizationName => name.org
  | .organizationalUnitName => name.unit
  | .commonName => name.commonName
  | .emailAddress => name.email
  | .other _ => []

def CertName.entries (name : CertName) : X509Name :=
  (standardNids.map fun nid => ⟨nid, name.get nid⟩).filter fun e => e.value ≠ []

def strlcpy (dstSize : Nat) (src : List Byte) : List Byte := src.take (dstSize - 1)

section Subject
variable (ctcNameSize : Nat)

def CertName.set (name : CertName) (key value : List Byte) : CertName :=
  if key = str "C" then { name with country := strlcpy ctcNameSize value }
  else if key = str "ST" then { name with state := strlcpy ctcNameSize value }
  else if key = str "L" then { name with locality := strlcpy ctcNameSize value }
  else if key = str "O" then { name with org := strlcpy ctcNameSize value }
  else if key = str "OU" then { name with unit := strlcpy ctcNameSize value }
  else if key = str "CN" then { name with commonName := strlcpy ctcNameSize value }
  else if key = str "emailAddress" then { name with email := strlcpy ctcNameSize value }
  else name

def parseComponent (name : CertName) (token : List Byte) : Option CertName :=
  match strtok 61 token with
  | key :: value :: _ => some (name.set ctcNameSize key value)
  | _ => none

def parseSubject (subject : List Byte) : Option CertName :=
  (strtok 47 subject).foldlM (parseComponent ctcNameSize) CertName.empty

end Subject

structure Validity where
  notBefore : Nat
  notAfter : Nat
  deriving DecidableEq, Repr

structure Cert where
  serial : Option (List Byte)
  sigType : SigType
  subject : CertName
  issuer : Option X509Name
  dates : Option Validity
  isCA : Bool
  extensions : List Extension
  deriving DecidableEq, Repr

structure Tbs where
  serial : List Byte
  sigType : SigType
  issuer : X509Name
  validity : Validity
  subject : X509Name
  publicKey : List Byte
  isCA : Bool
  extensions : List Extension
  deriving DecidableEq, Repr

def Cert.tbs (cert : Cert) (key : EccKey) (serial : List Byte) (validity : Validity) : Tbs where
  serial := serial
  sigType := cert.sigType
  issuer := cert.issuer.getD cert.subject.entries
  validity := validity
  subject := cert.subject.entries
  publicKey := key.publicKey
  isCA := cert.isCA
  extensions := cert.extensions

def Tbs.pre (body : Tbs) : Tbs :=
  { body with extensions := body.extensions.filter fun ext => ext.oid ≠ altSigValOid }

structure CertLib (acceptsName : CertName → Bool) where
  alloc : Bool
  initRng : Bool
  x509Der : X509 → Option (List Byte)
  getFp : List Byte → Option (List Byte)
  pemToDer : PemType → List Byte → Option (List Byte)
  eccInitCa : Bool
  eccInitServer : Bool
  eccPrivateKeyDecode : List Byte → Option EccKey
  mlDsaInit : Bool
  mlDsaPrivateKeyDecode : List Byte → Option MlDsaKey
  setAlgoID : MlDsaLevel → Option (List Byte)
  initCert : Bool
  allocSubject : Bool
  setIssuerBuffer : List Byte → Option X509Name
  setCustomExtension : Cert → Extension → Bool
  validityAt : Nat → Validity
  makeCert : Cert → EccKey → List Byte → Nat → Option (Cert × Tbs)
  signCert : Tbs → SigType → EccKey → Option (List Byte)
  parseCert : List Byte → Bool
  generatePreTbs : List Byte → Option (List Byte)
  preDer : Tbs → List Byte
  makeSigWithBitStr : MlDsaLevel → List Byte → MlDsaKey → Option (List Byte)
  derToPem : List Byte → Option (List Byte)
  newFile : List Byte → Bool
  onelineAlloc : Bool
  makeCert_name : ∀ {cert : Cert} {key drawn now made},
    makeCert cert key drawn now = some made → acceptsName cert.subject = true
  makeCert_cert : ∀ {cert : Cert} {key drawn now made}, makeCert cert key drawn now = some made →
    made.1 = { cert with serial := some (cert.serial.getD drawn) }
  makeCert_body : ∀ {cert : Cert} {key drawn now made}, makeCert cert key drawn now = some made →
    made.2 = cert.tbs key (cert.serial.getD drawn) (cert.dates.getD (validityAt now))
  generatePreTbs_signed : ∀ {body : Tbs} {sigType key der pre},
    signCert body sigType key = some der → generatePreTbs der = some pre → pre = preDer body.pre
  preDer_validity : ∀ {body : Tbs} {v w : Validity}, preDer { body with validity := v } =
    preDer { body with validity := w } → v = w
  validityAt_seconds : ∀ {s t : Nat}, validityAt s = validityAt t → s = t

def orFail {α : Type} (ret : Int) : Option α → Except Int α
  | none => .error ret
  | some a => .ok a

def check (ret : Int) (ok : Bool) : Except Int Unit := if ok then .ok () else .error ret

theorem orFail_eq_ok {α : Type} {ret : Int} {o : Option α} {a : α} :
    orFail ret o = .ok a ↔ o = some a := by
  cases o with
  | none => simp [orFail]
  | some b => simp [orFail]

structure Args where
  bioCaKey : Option (List Byte)
  bioAltCaKey : Option (List Byte)
  bioAltSubjPubKey : Option (List Byte)
  bioSubjKey : Option (List Byte)
  caCert : Option X509
  subject : Option (List Byte)
  outFileName : Option (List Byte)
  outForm : Form

structure Inputs where
  caKey : List Byte
  altCaKey : List Byte
  altSubjPubKey : List Byte
  server : Option (List Byte × X509)
  subject : List Byte
  outFileName : List Byte

def Args.inputs (args : Args) : Except Int Inputs :=
  match args.bioCaKey, args.bioAltCaKey, args.bioAltSubjPubKey, args.subject, args.outFileName with
  | some caKey, some altCaKey, some altSubjPubKey, some subject, some outFileName =>
    match args.bioSubjKey, args.caCert with
    | none, none => .ok ⟨caKey, altCaKey, altSubjPubKey, none, subject, outFileName⟩
    | some subjKey, some caCert =>
      .ok ⟨caKey, altCaKey, altSubjPubKey, some (subjKey, caCert), subject, outFileName⟩
    | _, _ => .error badFuncArg
  | _, _, _, _, _ => .error badFuncArg

structure Keys where
  caCertDer : Option (List Byte)
  caKey : EccKey
  serverKey : Option EccKey
  sapki : List Byte
  altCaKey : MlDsaKey
  level : MlDsaLevel
  altSigAlg : List Byte

structure Issued where
  body : Tbs
  preTbs : List Byte
  altSigVal : List Byte
  der : List Byte
  file : List Byte

def largeTempSz : Nat := 11264

section Sign
variable {acceptsName : CertName → Bool} (lib : CertLib acceptsName)

def readKeyFile (bio : List Byte) : Except Int (List Byte) := do
  let text ← orFail wolfcluFatalError (lib.getFp bio)
  let buf := text.take largeTempSz
  if buf = [] then .error wolfcluFatalError else .ok buf

def eccKeyFromPem (init : Bool) (pem : List Byte) : Except Int EccKey := do
  let der ← orFail wolfcluFatalError
    ((lib.pemToDer .eccPrivateKey pem).or (lib.pemToDer .privateKey pem))
  check wolfcluFatalError init
  orFail wolfcluFatalError (lib.eccPrivateKeyDecode der)

def loadKeys (inp : Inputs) : Except Int Keys := do
  let caCertDer ← inp.server.mapM fun (_, caCert) => orFail wolfcluFatalError (lib.x509Der caCert)
  let caKeyPem ← readKeyFile lib inp.caKey
  let serverKeyPem ← inp.server.mapM fun (subjKey, _) => readKeyFile lib subjKey
  let caKey ← eccKeyFromPem lib lib.eccInitCa caKeyPem
  let serverKey ← serverKeyPem.mapM (eccKeyFromPem lib lib.eccInitServer)
  let sapkiPem ← readKeyFile lib inp.altSubjPubKey
  let sapki ← orFail wolfcluFatalError (lib.pemToDer .publicKey sapkiPem)
  check wolfcluFatalError lib.mlDsaInit
  let altCaKeyPem ← readKeyFile lib inp.altCaKey
  let altCaKeyDer ← orFail wolfcluFatalError (lib.pemToDer .pkcs8PrivateKey altCaKeyPem)
  let altCaKey ← orFail wolfcluFatalError (lib.mlDsaPrivateKeyDecode altCaKeyDer)
  let level ← orFail wolfcluFatalError (MlDsaLevel.ofByte altCaKey.level)
  let altSigAlg ← orFail wolfcluFatalError (lib.setAlgoID level)
  return ⟨caCertDer, caKey, serverKey, sapki, altCaKey, level, altSigAlg⟩

def setCustomExtension (ext : Extension) (cert : Cert) : Except Int Cert := do
  check wolfcluFatalError (lib.setCustomExtension cert ext)
  return { cert with extensions := cert.extensions ++ [ext] }

def newCert (keys : Keys) (subject : CertName) : Except Int Cert := do
  let issuer ← keys.caCertDer.mapM fun der => orFail wolfcluFatalError (lib.setIssuerBuffer der)
  let cert ← setCustomExtension lib ⟨subjectAltPubKeyOid, keys.sapki⟩
    { serial := none, sigType := keys.level.sigType, subject := subject, issuer := issuer,
      dates := none, isCA := keys.caCertDer.isNone, extensions := [] }
  setCustomExtension lib ⟨altSigAlgOid, keys.altSigAlg⟩ cert

variable (rng : Nat → List Byte) (clock : Nat → Nat)

-- rng n and clock n are what the n-th wc_MakeCert of the run draws and reads
def makeSigned (n : Nat) (keys : Keys) (cert : Cert) : Except Int (Cert × Tbs × List Byte) := do
  let (cert, body) ← orFail wolfcluFatalError
    (lib.makeCert cert (keys.serverKey.getD keys.caKey) (rng n) (clock n))
  let der ← orFail wolfcluFatalError (lib.signCert body cert.sigType keys.caKey)
  return (cert, body, der)

def preTbsOf (der : List Byte) : Except Int (List Byte) := do
  check wolfcluFatalError (lib.parseCert der)
  orFail wolfcluFatalError (lib.generatePreTbs der)

def outBuf (outForm : Form) (der : List Byte) : Except Int (List Byte) :=
  match outForm with
  | .pem => orFail wolfcluFatalError (lib.derToPem der)
  | .der => .ok der
  | _ => .ok (List.replicate largeTempSz 0)

def dualSign (keys : Keys) (subject : CertName) (outForm : Form) (outFileName : List Byte) :
    Except Int Issued := do
  let cert ← newCert lib keys subject
  let (cert, _, scratch) ← makeSigned lib rng clock 0 keys cert
  let preTbs ← preTbsOf lib scratch
  let altSigVal ← orFail wolfcluFatalError (lib.makeSigWithBitStr keys.level preTbs keys.altCaKey)
  let cert ← setCustomExtension lib ⟨altSigValOid, altSigVal⟩ cert
  let (_, body, der) ← makeSigned lib rng clock 1 keys cert
  let file ← outBuf lib outForm der
  check wolfcluFatalError (lib.newFile outFileName)
  return ⟨body, preTbs, altSigVal, der, file⟩

variable (ctcNameSize : Nat)

def genChimeraCertSign (args : Args) : Except Int Issued := do
  let inp ← args.inputs
  check memoryE lib.alloc
  check wolfcluFatalError lib.initRng
  let keys ← loadKeys lib inp
  check wolfcluFatalError lib.initCert
  check memoryE lib.allocSubject
  let subject ← orFail wolfcluFatalError (parseSubject ctcNameSize inp.subject)
  dualSign lib rng clock keys subject args.outForm inp.outFileName

def altSign (names : NameLib) (env : CaEnv) (s : CaState) (subjKey : Option (List Byte))
    (outForm : Form) : Option Issued := do
  if s.stopped ∨ s.ret ≠ wolfcluSuccess ∨ ¬ s.altSign then none
  else
    let signer ← newSigner env s.config
    let _ ← ((s.override signer).appendOut env.outAlloc s.out).toOption
    let x509 ← s.reqIn.bind env.certificatePem
    if (s.ca ≠ none ∨ s.altKey ≠ none ∨ s.altKeyPub ≠ none) ∧ ¬ s.selfSigned ∧ lib.onelineAlloc then
      (genChimeraCertSign lib rng clock ctcNameSize
        { bioCaKey := s.keyIn, bioAltCaKey := s.altKey, bioAltSubjPubKey := s.altKeyPub,
          bioSubjKey := subjKey, caCert := s.ca, subject := some (cstr (names.oneline x509.subject)),
          outFileName := s.out, outForm := outForm }).toOption
    else none

end Sign

end WolfCLU.Chimera
