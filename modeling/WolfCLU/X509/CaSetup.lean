import WolfCLU.Tools.GetOpt
import WolfCLU.X509.CertSign

namespace WolfCLU
open CString

inductive CaOption where
  | infile
  | outfile
  | key
  | subjkey
  | altkey
  | altpub
  | cafile
  | extensions
  | md
  | inform
  | outform
  | config
  | days
  | selfsign
  | altextend
  | help
  deriving DecidableEq, Repr

def caOptions : List (LongOption CaOption) :=
  [⟨str "-in", true, .infile⟩, ⟨str "-out", true, .outfile⟩, ⟨str "-keyfile", true, .key⟩,
    ⟨str "-subjkey", true, .subjkey⟩, ⟨str "-altkey", true, .altkey⟩, ⟨str "-altpub", true, .altpub⟩,
    ⟨str "-cert", true, .cafile⟩, ⟨str "-extensions", true, .extensions⟩, ⟨str "-md", true, .md⟩,
    ⟨str "-inform", true, .inform⟩, ⟨str "-outform", true, .outform⟩, ⟨str "-config", true, .config⟩,
    ⟨str "-days", true, .days⟩, ⟨str "-selfsign", false, .selfsign⟩,
    ⟨str "-altextend", false, .altextend⟩, ⟨str "-h", false, .help⟩, ⟨str "-help", false, .help⟩]

structure CaEnv where
  dualAlg : Bool
  signerAlloc : Bool
  outAlloc : Bool
  fileOpens : List Byte → Bool
  dataBaseOpens : List Byte → Bool
  serialOpens : List Byte → Bool
  loadConf : List Byte → Option Conf
  confNumber : Conf → List Byte → List Byte → Option Int
  confPairs : Conf → List Byte → Option (List (List Byte × List Byte))
  certificatePem : List Byte → Option X509
  certificateDer : List Byte → Option X509
  privateKey : List Byte → Option PKey
  requestPem : List Byte → Option X509
  requestDer : List Byte → Option X509
  setVersion : X509 → Bool

structure CaState where
  argv : Args
  stopped : Bool
  ret : Int
  reqIn : Option (List Byte)
  keyIn : Option (List Byte)
  altKey : Option (List Byte)
  altKeyPub : Option (List Byte)
  ca : Option X509
  hashType : HashType
  out : Option (List Byte)
  config : Option (List Byte)
  ext : Option (List Byte)
  inForm : Form
  days : Int
  selfSigned : Bool
  altSign : Bool

def CaState.initial (argv : Args) : CaState where
  argv := argv
  stopped := false
  ret := wolfcluSuccess
  reqIn := none
  keyIn := none
  altKey := none
  altKeyPub := none
  ca := none
  hashType := .none
  out := none
  config := none
  ext := none
  inForm := .pem
  days := 0
  selfSigned := false
  altSign := false

def CaState.fail (s : CaState) : CaState := { s with ret := wolfcluFatalError }

def CaState.failIf (s : CaState) (failed : Bool) : CaState := if failed then s.fail else s

section CaSetup
variable (env : CaEnv)

def bioNewFile (name : Option (List Byte)) : Option (List Byte) := name.filter env.fileOpens

def loadCertificateFile (name : Option (List Byte)) : Option X509 :=
  (name.bind env.certificatePem).or (name.bind env.certificateDer)

def CaState.option (s : CaState) (optarg : Option (List Byte)) : CaOption → CaState
  | .infile =>
    let reqIn := bioNewFile env optarg
    { s with reqIn := reqIn }.failIf reqIn.isNone
  | .selfsign => { s with selfSigned := true }
  | .key =>
    let keyIn := bioNewFile env optarg
    { s with keyIn := keyIn }.failIf keyIn.isNone
  | .subjkey => s.failIf (env.dualAlg ∧ (bioNewFile env optarg).isNone)
  | .altkey =>
    if env.dualAlg then
      let altKey := bioNewFile env optarg
      { s with altKey := altKey }.failIf altKey.isNone
    else s
  | .altpub =>
    if env.dualAlg then
      let altKeyPub := bioNewFile env optarg
      { s with altKeyPub := altKeyPub }.failIf altKeyPub.isNone
    else s
  | .altextend => { s with altSign := true }
  | .cafile =>
    let ca := loadCertificateFile env optarg
    { s with ca := ca }.failIf ca.isNone
  | .md =>
    match optarg with
    | none => s.fail
    | some name =>
      let hashType := stringToHashType name
      { s with hashType := hashType }.failIf (hashType = HashType.none)
  | .outfile => { s with out := optarg }
  | .inform =>
    let inForm := checkInform (optarg.map fun name => name.map toLower)
    { s with inForm := inForm, argv := lowerArgument (str "-inform") s.argv }
  | .outform => { s with argv := lowerArgument (str "-outform") s.argv }
  | .config => { s with config := optarg }
  | .days =>
    match optarg with
    | none => s.fail
    | some days => { s with days := atoi days }
  | .extensions => { s with ext := optarg }
  | .help => { s with stopped := true }

def caReader : OptReader CaOption CaState where
  argv := CaState.argv
  running s := !s.stopped
  handle opt optarg s :=
    match opt with
    | .foundTwice => s.fail
    | .found val => s.option env optarg val

def openIfGiven (opens : List Byte → Bool) (name : Option (List Byte)) : Option Bool :=
  match name with
  | none => some false
  | some name => if opens name then some true else none

def loadIfGiven {α : Type} (load : List Byte → Option α) (name : Option (List Byte)) :
    Option (Option α) :=
  match name with
  | none => some none
  | some name => (load name).map some

def configKey (name : Option (List Byte)) : Option (Option PKey) :=
  match name with
  | none => some none
  | some name => if env.fileOpens name then some (env.privateKey name) else none

def CertSign.configure (conf : Conf) (caSection : List Byte) (dataBase serialFile : Bool)
    (csign : CertSign) : CertSign :=
  let get := conf caSection
  { csign with
    dataBase := dataBase
    unique := (get (str "unique_subject")).any fun value => strncmp value (str "yes") 3 = 0
    serialFile := serialFile
    ext := get (str "x509_extensions")
    days := ((env.confNumber conf caSection (str "default_days")).map MachineInt.toInt32).getD
      csign.days
    hashType := ((get (str "default_md")).map stringToHashType).getD csign.hashType
    policy := ((get (str "policy")).map (parsePolicy conf)).getD csign.policy }

def confFile (conf : Conf) : ConfFile where
  string sect key := sect.bind fun sect => conf sect key
  number sect key := sect.bind fun sect => env.confNumber conf sect key
  pairs := env.confPairs conf

def readSignConfig (config sect : List Byte) : Option CertSign := do
  if env.signerAlloc then
    let conf ← env.loadConf config
    let caSection := (conf sect (str "default_ca")).getD sect
    let get := conf caSection
    let dir ← (get (str "new_certs_dir")).or (get (str "certs"))
    let signer ← ((CertSign.new.setConfig (confFile env conf)).appendOut env.outAlloc (some dir)).toOption
    let dataBase ← openIfGiven env.dataBaseOpens (get (str "database"))
    let ca ← loadIfGiven env.certificatePem (get (str "certificate"))
    let serialFile ← openIfGiven env.serialOpens (get (str "serial"))
    let caKey ← configKey env (get (str "private_key"))
    some ((signer.configure env conf caSection dataBase serialFile).setCA ca caKey
      (getTypeFromPKey caKey))
  else none

def newSigner (config : Option (List Byte)) : Option CertSign :=
  match config with
  | some config => readSignConfig env config (str "ca")
  | none => if env.signerAlloc then some CertSign.new else none

def CaState.override (s : CaState) (signer : CertSign) : CertSign :=
  if s.hashType ≠ .none then signer.setHash s.hashType else signer

def CaState.setDate (s : CaState) (signer : CertSign) : CertSign :=
  if s.days > 0 then signer.setDate s.days else signer

def CaState.setExt (s : CaState) (signer : CertSign) : CertSign :=
  match s.ext with
  | none => signer
  | some ext => signer.setExt ext

def CaState.request (s : CaState) (reqIn : List Byte) : Option X509 :=
  if s.inForm = .pem then env.requestPem reqIn else env.requestDer reqIn

def CaState.setCA (s : CaState) (x509 : X509) (pkey : Option PKey) (signer : CertSign) : CertSign :=
  if pkey ≠ none ∨ s.ca ≠ none ∨ s.altKey ≠ none ∨ s.altKeyPub ≠ none then
    signer.setCA (if s.selfSigned then some x509 else s.ca) pkey (getTypeFromPKey pkey)
  else signer

def CaState.signer (s : CaState) : Option (CertSign × X509) := do
  if s.stopped ∨ s.ret ≠ wolfcluSuccess ∨ s.altSign then none
  else
    let reqIn ← s.reqIn
    let signer ← newSigner env s.config
    let pkey ← loadIfGiven env.privateKey s.keyIn
    let signer ← ((s.override signer).appendOut env.outAlloc s.out).toOption
    let x509 ← s.request env reqIn
    if env.setVersion x509 then some (s.setExt (s.setCA x509 pkey (s.setDate signer)), x509) else none

def caSigner (argv : Args) : Option (CertSign × X509) :=
  ((caReader env).run 1 caOptions (CaState.initial argv)).signer env

end CaSetup

end WolfCLU
