import WolfCLU.Crypto.Setup
import WolfCLU.X509.Config

namespace WolfCLU
open CString

inductive RequestOption where
  | certSha
  | certSha224
  | certSha256
  | certSha384
  | certSha512
  | rsa
  | ed25519
  | infile
  | outfile
  | key
  | new
  | newkey
  | inkey
  | outkey
  | inform
  | outform
  | config
  | days
  | x509
  | subject
  | verify
  | textOut
  | passwordOut
  | noout
  | extensions
  | addext
  | nodes
  | help
  deriving DecidableEq, Repr

def requestOptions : List (LongOption RequestOption) :=
  [⟨str "-sha", false, .certSha⟩, ⟨str "-sha224", false, .certSha224⟩,
    ⟨str "-sha256", false, .certSha256⟩, ⟨str "-sha384", false, .certSha384⟩,
    ⟨str "-sha512", false, .certSha512⟩, ⟨str "-rsa", false, .rsa⟩,
    ⟨str "-ed25519", false, .ed25519⟩, ⟨str "-in", true, .infile⟩, ⟨str "-out", true, .outfile⟩,
    ⟨str "-key", true, .key⟩, ⟨str "-new", false, .new⟩, ⟨str "-newkey", true, .newkey⟩,
    ⟨str "-inkey", true, .inkey⟩, ⟨str "-keyout", true, .outkey⟩, ⟨str "-inform", true, .inform⟩,
    ⟨str "-outform", true, .outform⟩, ⟨str "-config", true, .config⟩, ⟨str "-days", true, .days⟩,
    ⟨str "-x509", false, .x509⟩, ⟨str "-subj", true, .subject⟩, ⟨str "-verify", false, .verify⟩,
    ⟨str "-text", false, .textOut⟩, ⟨str "-passout", true, .passwordOut⟩,
    ⟨str "-noout", false, .noout⟩, ⟨str "-extensions", true, .extensions⟩,
    ⟨str "-addext", true, .addext⟩, ⟨str "-nodes", false, .nodes⟩, ⟨str "-h", false, .help⟩,
    ⟨str "-help", false, .help⟩]

structure RequestEnv (σ H : Type) where
  lib : X509Lib
  copies : CopyEnv
  disNames : DisNameEnv
  passwords : SetupEnv σ H
  fileOpens : List Byte → Bool
  outOpens : List Byte → Bool
  keyTypeAlloc : Bool
  objectAlloc : Bool
  requestReads : Form → List Byte → Bool
  timeAdj : Int → Option (List Byte)
  privateKey : List Byte → Option PKey
  setRsaKeygenBits : Int → Int
  rsaKeygen : Int → Option PKey
  conf : List Byte → ConfFile
  stdin : Stdin
  extensionAlloc : Bool
  stdoutBio : Option Bool
  writeObject : Form → Bool → X509Object → Int
  stdinPassword : List Byte
  writeKey : Bool → Option PKey → Int

structure RequestState where
  argv : Args
  stopped : Bool
  ret : Int
  reqIn : Option (List Byte)
  keyIn : Option (List Byte)
  newKey : Option (List Byte × List Byte)
  keyOut : Option (List Byte)
  out : Option (List Byte)
  config : Option (List Byte)
  subj : Option (List Byte)
  ext : Option (List Byte)
  addExt : Option (List Byte)
  inForm : Form
  outForm : Form
  days : Int
  genX509 : Bool
  md : HashType
  passout : Bool
  useDes : Bool
  doVerify : Bool
  noOut : Bool

def RequestState.initial (argv : Args) : RequestState where
  argv := argv
  stopped := false
  ret := wolfcluSuccess
  reqIn := none
  keyIn := none
  newKey := none
  keyOut := none
  out := none
  config := none
  subj := none
  ext := none
  addExt := none
  inForm := .pem
  outForm := .pem
  days := 0
  genX509 := false
  md := .none
  passout := false
  useDes := true
  doVerify := false
  noOut := false

def RequestState.fail (s : RequestState) : RequestState := { s with ret := wolfcluFatalError }

def maxPasswordSize : Nat := 256

def checkOutform (outform : Option (List Byte)) : Form := checkInform outform

section Options
variable {σ H : Type} (env : RequestEnv σ H)

def splitKeyString (optarg : Option (List Byte)) : Option (List Byte × List Byte) := do
  let optarg ← optarg
  let _ ← strstr [58] optarg
  let idx := (optarg.takeWhile (· ≠ 58)).length
  if env.keyTypeAlloc then some (optarg.take idx, optarg.drop (idx + 1)) else none

def RequestState.option (s : RequestState) (optarg : Option (List Byte)) :
    RequestOption → RequestState
  | .extensions => { s with ext := optarg }
  | .addext => { s with addExt := optarg }
  | .nodes => { s with useDes := false }
  | .outkey => { s with keyOut := optarg }
  | .newkey =>
    match splitKeyString env optarg with
    | none => s.fail
    | some newKey => { s with newKey := some newKey }
  | .infile =>
    match optarg.filter env.fileOpens with
    | none => s.fail
    | some reqIn => { s with reqIn := some reqIn }
  | .key =>
    match optarg.filter env.fileOpens with
    | none => s.fail
    | some keyIn => { s with keyIn := some keyIn }
  | .outfile => { s with out := optarg }
  | .inform =>
    { s with
      inForm := checkInform (optarg.map fun name => name.map toLower)
      argv := lowerArgument (str "-inform") s.argv }
  | .outform =>
    { s with
      outForm := checkOutform (optarg.map fun name => name.map toLower)
      argv := lowerArgument (str "-outform") s.argv }
  | .subject => { s with subj := optarg }
  | .help => { s with stopped := true }
  | .config => { s with config := optarg }
  | .days =>
    match optarg with
    | none => s.fail
    | some days => { s with days := atoi days }
  | .certSha => { s with md := .sha }
  | .certSha224 => { s with md := .sha224 }
  | .certSha256 => { s with md := .sha256 }
  | .certSha384 => { s with md := .sha384 }
  | .certSha512 => { s with md := .sha512 }
  | .x509 => { s with genX509 := true }
  | .verify => { s with doVerify := true }
  | .passwordOut =>
    match optarg with
    | none => s.fail
    | some arg =>
      { s with passout := true, ret := (getPassword env.passwords [] maxPasswordSize arg).1 }
  | .noout => { s with noOut := true }
  | .rsa | .ed25519 | .new | .textOut => s
  | .inkey => s.fail

def requestReader : OptReader RequestOption RequestState where
  argv := RequestState.argv
  running s := !s.stopped && s.ret = wolfcluSuccess
  handle opt optarg s :=
    match opt with
    | .foundTwice => s.fail
    | .found val => s.option env optarg val

def RequestState.digest (s : RequestState) : HashType := if s.md = .none then .sha256 else s.md

end Options

structure Draft where
  x509 : X509Object
  pkey : Option PKey
  reSign : Bool

section Blocks
variable {σ H : Type} (env : RequestEnv σ H)

def setPubkey (pkey : PKey) (d : Draft) : Except Int Draft :=
  let (ret, x509) := env.lib.call d.x509 (.setPubkey pkey)
  if ret = wolfcluSuccess then .ok { d with x509 := x509, pkey := some pkey }
  else .error wolfcluFatalError

def generateKey (keyType keyInfo : List Byte) : Except Int PKey :=
  if strncmp (str "ec") keyType 2 = 0 then .error wolfcluFatalError
  else if strncmp (str "rsa") keyType 3 = 0 then
    let ret := env.setRsaKeygenBits (atoi keyInfo)
    if ret = wolfcluSuccess then
      match env.rsaKeygen (atoi keyInfo) with
      | none => .error wolfcluFatalError
      | some pkey => .ok pkey
    else .error ret
  else .error wolfcluFatalError

def createX509Name (names : NameLib) : List Nid → X509Name → Stdin → Except Int X509Name
  | [], name, _ => .ok name
  | nid :: nids, name, stdin =>
    match getline stdin with
    | (none, _) => .error wolfcluFatalError
    | (some line, stdin) =>
      createX509Name names nids (if line ≠ [] then addNameEntry names name nid line else name) stdin

def setRequestVersion (d : Draft) : Except Int Draft :=
  let (ret, x509) := env.lib.call d.x509 (.setVersion .v1)
  if ret = wolfcluSuccess then .ok { d with x509 := x509 } else .error wolfcluFatalError

namespace RequestState
variable (s : RequestState)

def readRequest : Except Int Draft :=
  match s.reqIn with
  | none => if env.objectAlloc then .ok ⟨[], none, false⟩ else .error memoryE
  | some reqIn =>
    if env.requestReads s.inForm reqIn then .ok ⟨[], none, false⟩ else .error wolfcluFatalError

def setDates (d : Draft) : Except Int Draft :=
  if s.days > 0 then
    match env.timeAdj 0, env.timeAdj s.days with
    | some notBefore, some notAfter =>
      let x509 := (env.lib.call d.x509 (.setNotBefore notBefore)).2
      .ok { d with x509 := (env.lib.call x509 (.setNotAfter notAfter)).2, reSign := true }
    | _, _ => .error wolfcluFatalError
  else .ok d

def loadKey (d : Draft) : Except Int Draft :=
  match s.keyIn with
  | none => .ok d
  | some keyIn =>
    match env.privateKey keyIn with
    | none => .error userInputError
    | some pkey => setPubkey env pkey d

def addNewKey (d : Draft) : Except Int Draft :=
  match s.newKey, d.pkey with
  | some (keyType, keyInfo), none => do
    let pkey ← generateKey env keyType keyInfo
    setPubkey env pkey d
  | _, _ => .ok d

def requireKey (d : Draft) : Except Int Draft :=
  if s.reqIn = none ∧ d.pkey = none then .error userInputError else .ok d

def applyConfig (d : Draft) : Except Int Draft :=
  match s.config with
  | none => .ok d
  | some config =>
    let (ret, x509) := readConfig env.disNames env.lib env.copies d.x509 (env.conf config)
      (str "req") s.ext env.stdin
    if ret = wolfcluSuccess then .ok { d with x509 := x509, reSign := true } else .error ret

def applySubject (d : Draft) : Except Int Draft :=
  match s.subj with
  | none => .ok d
  | some subj =>
    match parseX509NameString env.disNames.names subj with
    | none => .error userInputError
    | some name =>
      .ok { d with x509 := (env.lib.call d.x509 (.setSubjectName name)).2, reSign := true }

def applyAddExt (d : Draft) : Except Int Draft :=
  match s.addExt with
  | none => .ok d
  | some addExt =>
    let (ret, x509) := parseAddExt env.lib env.copies d.x509 addExt
    if ret = wolfcluSuccess then .ok { d with x509 := x509, reSign := true } else .error ret

def promptSubject (d : Draft) : Except Int Draft :=
  if s.subj = none ∧ s.config = none ∧ s.reqIn = none then
    if env.disNames.nameAlloc then do
      let name ← createX509Name env.disNames.names standardNids [] env.stdin
      .ok { d with x509 := (env.lib.call d.x509 (.setSubjectName name)).2 }
    else .error memoryE
  else .ok d

def defaultConstraints (d : Draft) : Except Int Draft :=
  if s.genX509 ∧ ¬ env.lib.extIsSet d.x509 then
    if env.extensionAlloc then
      let (ret, x509) := env.lib.call d.x509 (.addExt (.basicConstraints true true none))
      if ret = wolfcluSuccess then .ok { d with x509 := x509 } else .error ret
    else .error wolfcluFatalError
  else .ok d

def signs (d : Draft) : Bool := s.reqIn = none ∨ d.reSign

def requireSigningKey (d : Draft) : Except Int Draft :=
  if s.signs d ∧ d.pkey = none then .error wolfcluFatalError else .ok d

def openOutput : Except Int Bool :=
  match s.out with
  | some out => if env.outOpens out then .ok true else .error wolfcluFatalError
  | none =>
    if env.stdoutBio = some false then .error wolfcluFatalError else .ok env.stdoutBio.isSome

def signCertificate (pkey : PKey) (d : Draft) : Except Int Draft :=
  let (ret, x509) := env.lib.call d.x509 (.setVersion .v3)
  if ret = wolfcluSuccess then
    let (ret, x509) := env.lib.call x509 (.sign true pkey s.digest)
    if ret > 0 then .ok { d with x509 := x509 } else .error wolfcluFatalError
  else .error wolfcluFatalError

def signRequest (pkey : PKey) (d : Draft) : Except Int Draft :=
  let (ret, x509) := env.lib.call d.x509 (.sign false pkey s.digest)
  if ret = wolfcluSuccess then .ok { d with x509 := x509 } else .error wolfcluFatalError

def signObject (d : Draft) : Except Int Draft :=
  if s.signs d then
    match d.pkey with
    | none => .error wolfcluFatalError
    | some pkey => if s.genX509 then s.signCertificate env pkey d else s.signRequest env pkey d
  else .ok d

def verifyObject (d : Draft) : Except Int Draft :=
  if s.doVerify then
    match d.pkey.or (env.lib.pubkey d.x509) with
    | none => .error wolfcluFatalError
    | some pkey =>
      if env.lib.verify d.x509 pkey = 1 then .ok { d with pkey := some pkey }
      else .error wolfcluFatalError
  else .ok d

def writeOut (bioOut : Bool) (d : Draft) : Except Int (Option X509Object) :=
  if s.noOut then .ok none
  else
    let ret := if bioOut then env.writeObject s.outForm s.genX509 d.x509 else wolfcluFailure
    if ret = wolfcluSuccess then .ok (some d.x509) else .error wolfcluFatalError

def keyOutOpens : Bool :=
  match s.keyOut with
  | some keyOut => env.outOpens keyOut
  | none => env.stdoutBio = some true

def writeKeyOut (d : Draft) : Int :=
  if s.newKey = none then wolfcluSuccess
  else if ¬ s.keyOutOpens env then wolfcluFatalError
  else if s.useDes ∧ ¬ s.passout ∧ env.stdinPassword.headD 0 = 0 then wolfcluFatalError
  else env.writeKey s.useDes d.pkey

def loadObject : Except Int Draft := do
  let d ← s.readRequest env
  let d ← s.setDates env d
  let d ← s.loadKey env d
  let d ← s.addNewKey env d
  s.requireKey d

def editObject (d : Draft) : Except Int Draft := do
  let d ← s.applyConfig env d
  let d ← s.applySubject env d
  let d ← s.applyAddExt env d
  let d ← s.promptSubject env d
  s.defaultConstraints env d

def finishObject (d : Draft) : Except Int (Draft × Option X509Object) := do
  let d ← setRequestVersion env d
  let d ← s.requireSigningKey d
  let bioOut ← s.openOutput env
  let d ← s.signObject env d
  let d ← s.verifyObject env d
  let written ← s.writeOut env bioOut d
  .ok (d, written)

def emitObject : Except Int (Draft × Option X509Object) := do
  let d ← s.loadObject env
  let d ← s.editObject env d
  s.finishObject env d

end RequestState

structure RequestRun where
  ret : Int
  written : Option X509Object
  deriving DecidableEq, Repr

def requestState (argv : Args) : RequestState :=
  (requestReader env).run 1 requestOptions (RequestState.initial argv)

def requestSetup (argv : Args) : RequestRun :=
  if 1 < argv.tail.count (str "-addext") then ⟨userInputError, none⟩
  else
    let s := requestState env argv
    if s.stopped then ⟨wolfcluSuccess, none⟩
    else if s.ret ≠ wolfcluSuccess then ⟨s.ret, none⟩
    else
      match s.emitObject env with
      | .error ret => ⟨ret, none⟩
      | .ok (d, written) => ⟨s.writeKeyOut env d, written⟩

end Blocks

end WolfCLU
