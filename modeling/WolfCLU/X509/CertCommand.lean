import WolfCLU.GenKey.KeyFiles
import WolfCLU.SignVerify.Setup
import WolfCLU.X509.CertPrint
import WolfCLU.X509.Request

namespace WolfCLU
open CString

inductive CertOption where
  | md (hashType : HashType)
  | infile
  | outfile
  | inform
  | outform
  | signkey
  | extfile
  | extensions
  | req
  | noout
  | print (part : CertPrint)
  | silent
  | help
  deriving DecidableEq, Repr

def certOptions : List (LongOption CertOption) :=
  [⟨str "-sha1", false, .md .sha⟩, ⟨str "-sha224", false, .md .sha224⟩,
    ⟨str "-sha256", false, .md .sha256⟩, ⟨str "-sha384", false, .md .sha384⟩,
    ⟨str "-sha512", false, .md .sha512⟩, ⟨str "-in", true, .infile⟩, ⟨str "-out", true, .outfile⟩,
    ⟨str "-inform", true, .inform⟩, ⟨str "-outform", true, .outform⟩,
    ⟨str "-signkey", true, .signkey⟩, ⟨str "-extfile", true, .extfile⟩,
    ⟨str "-extensions", true, .extensions⟩, ⟨str "-req", false, .req⟩,
    ⟨str "-noout", false, .noout⟩, ⟨str "-text", false, .print .text⟩,
    ⟨str "-pubkey", false, .print .pubkey⟩, ⟨str "-modulus", false, .print .modulus⟩,
    ⟨str "-silent", false, .silent⟩, ⟨str "-subject", false, .print .subject⟩,
    ⟨str "-issuer", false, .print .issuer⟩, ⟨str "-serial", false, .print .serial⟩,
    ⟨str "-dates", false, .print .dates⟩, ⟨str "-email", false, .print .email⟩,
    ⟨str "-fingerprint", false, .print .fingerprint⟩, ⟨str "-purpose", false, .print .purpose⟩,
    ⟨str "-hash", false, .print .subjHash⟩, ⟨str "-h", false, .help⟩,
    ⟨str "-help", false, .help⟩]

structure CertLib where
  object : List Byte → X509Lib
  parses : Bool → List Byte → Bool
  pemToDer : Bool → List Byte → Option (List Byte)
  derToPem : List Byte → Option (List Byte)
  readKey : List Byte → Option PKey
  checkKey : List Byte → X509Object → PKey → Bool
  getDer : List Byte → X509Object → Option (List Byte)
  fields : List Byte → X509Object → CertFields
  printing : CertPrintLib

structure CertEnv where
  fileOpens : List Byte → Bool
  outOpens : List Byte → Bool
  stdin : Option (List Byte)
  stdoutBio : Bool
  malloc : Nat → Bool
  bioWrite : List Byte → Int
  conf : List Byte → ConfFile
  copies : CopyEnv

structure CertState where
  ret : Int
  helped : Bool
  input : Option (List Byte)
  keyIn : Option (List Byte)
  outFile : Option (List Byte)
  extFile : Option (List Byte)
  ext : Option (List Byte)
  inForm : Form
  outForm : Form
  md : HashType
  req : Bool
  noOut : Bool
  prints : List CertPrint
  deriving DecidableEq, Repr

structure CertRun where
  ret : Int
  stdout : List Byte
  disk : Disk

section Options
variable (env : CertEnv) (disk : Disk)

def openInput (name : List Byte) : Option (List Byte) :=
  if env.fileOpens name then disk name else none

def CertState.failForm (s : CertState) (form : Form) : CertState :=
  if form = .invalid then { s with ret := wolfcluFatalError } else s

def CertState.option (s : CertState) (optarg : Option (List Byte)) : CertOption → CertState
  | .md hashType => { s with md := hashType }
  | .infile =>
    if (optarg.bind disk).isNone then { s with ret := inputFileError }
    else
      match optarg.bind (openInput env disk) with
      | none => { s with ret := wolfcluFatalError }
      | some contents => { s with input := some contents }
  | .outfile => { s with outFile := optarg }
  | .inform =>
    let form := checkInform (optarg.map fun name => name.map toLower)
    { s with inForm := form }.failForm form
  | .outform =>
    let form := checkOutform (optarg.map fun name => name.map toLower)
    { s with outForm := form }.failForm form
  | .signkey =>
    match optarg.bind (openInput env disk) with
    | none => { s with ret := wolfcluFatalError }
    | some text => { s with keyIn := some text }
  | .extfile => { s with extFile := optarg }
  | .extensions => { s with ext := optarg }
  | .req => { s with req := true }
  | .noout => { s with noOut := true }
  | .print part => { s with prints := part :: s.prints }
  | .silent => s
  | .help => { s with helped := true }

def certReader (argv : Args) : OptReader CertOption CertState where
  argv _ := argv
  running s := s.ret = wolfcluSuccess ∧ s.helped = false
  handle opt optarg s :=
    match opt with
    | .foundTwice => { s with ret := wolfcluFatalError }
    | .found val => s.option env disk optarg val

def readCertOptions (argv : Args) : CertState :=
  (certReader env disk argv).run 1 certOptions
    ⟨wolfcluSuccess, false, none, none, none, none, none, .pem, .pem, .sha256, false, false, []⟩

end Options

def certHeader (req : Bool) : List Byte :=
  if req then str "-----BEGIN CERTIFICATE REQUEST-----" else str "-----BEGIN CERTIFICATE-----"

namespace CertState
variable (env : CertEnv) (lib : CertLib) (s : CertState)

def contents : Option (List Byte) := s.input.or env.stdin

def certInput : Except Int (List Byte) :=
  match s.contents env with
  | none => .error wolfcluFatalError
  | some contents =>
    if contents = [] ∨ env.malloc (contents.length + 1) = false then .error wolfcluFatalError
    else if s.inForm = .pem then
      match strstr (certHeader s.req) (cstr contents) with
      | none => .error wolfcluFatalError
      | some off => .ok (contents.drop off)
    else .ok contents

def certDer (inBuf : List Byte) : Except Int (List Byte) :=
  match s.inForm with
  | .pem =>
    match lib.pemToDer s.req inBuf with
    | none => .error wolfcluFatalError
    | some der => .ok der
  | .der => .ok inBuf
  | .raw | .invalid => .error wolfcluFatalError

def parseCert (der : List Byte) : Except Int (List Byte) :=
  if lib.parses (s.req && decide (s.inForm = .pem)) der then .ok der else .error wolfcluFatalError

def certKey : Except Int (Option PKey) :=
  match s.keyIn with
  | none => .ok none
  | some text =>
    match lib.readKey text with
    | none => .error userInputError
    | some pkey => .ok (some pkey)

def certExtensions (der : List Byte) : Except Int X509Object :=
  match s.extFile with
  | none => .ok []
  | some extFile =>
    if (s.ext.bind (env.conf extFile).pairs).isNone then .error wolfcluFatalError
    else
      let (ret, x509) := setExtensions (lib.object der) env.copies [] (env.conf extFile) s.ext
      if ret = wolfcluSuccess then .ok x509 else .error ret

def certVersion (der : List Byte) (x509 : X509Object) : Except Int X509Object :=
  let (ret, x509) := (lib.object der).call x509 (.setVersion .v3)
  if ret ≠ wolfcluSuccess ∧ s.req then .error wolfcluFatalError else .ok x509

def certSignature (der : List Byte) (privkey : Option PKey) (x509 : X509Object) :
    Except Int X509Object :=
  if s.req then
    match privkey with
    | none => .error wolfcluFatalError
    | some pkey =>
      if lib.checkKey der x509 pkey = false then .error wolfcluFatalError
      else
        let (ret, x509) := (lib.object der).call x509 (.sign true pkey s.md)
        if ret ≤ 0 then .error wolfcluFatalError else .ok x509
  else .ok x509

def certPrepare : Except Int (List Byte × X509Object) := do
  let inBuf ← s.certInput env
  let der ← s.certDer lib inBuf
  let der ← s.parseCert lib der
  let privkey ← s.certKey lib
  let x509 ← s.certExtensions env lib der
  let x509 ← s.certVersion lib der x509
  let x509 ← s.certSignature lib der privkey x509
  .ok (der, x509)

def certBuffer (der : List Byte) (x509 : X509Object) : Except Int (List Byte) :=
  if s.inForm = .pem ∧ s.req then
    match lib.getDer der x509 with
    | none => .error wolfcluFatalError
    | some derBuf => if derBuf = [] then .error wolfcluFatalError else .ok derBuf
  else .ok der

def certText (derBuf : List Byte) : Except Int (List Byte) :=
  match s.outForm with
  | .pem =>
    match lib.derToPem derBuf with
    | none => .error wolfcluFatalError
    | some pem =>
      if env.malloc pem.length = false then .error wolfcluFatalError else .ok pem
  | .der | .raw | .invalid => .ok derBuf

def deliver (ret : Int) (bytes : List Byte) (disk : Disk) : CertRun :=
  match s.outFile with
  | none => ⟨ret, bytes, disk⟩
  | some name => ⟨ret, [], Function.update disk name (some bytes)⟩

def certWrite (derBuf printed : List Byte) (disk : Disk) : CertRun :=
  if s.outForm = .der ∨ s.outForm = .pem then
    match s.certText env lib derBuf with
    | .error ret => s.deliver ret printed disk
    | .ok text =>
      let n := env.bioWrite text
      s.deliver (if n ≤ 0 then wolfcluFatalError else wolfcluSuccess)
        (printed ++ text.take n.toNat) disk
  else s.deliver wolfcluSuccess printed disk

def printed (der : List Byte) (x509 : X509Object) : BioOutput :=
  printParts env.malloc env.bioWrite lib.printing (lib.getDer der x509) (lib.fields der x509)
    (certPrints.filter (· ∈ s.prints))

theorem printed_nothing (h : s.prints = []) (der : List Byte) (x509 : X509Object) :
    s.printed env lib der x509 = ⟨wolfcluSuccess, []⟩ := by
  simp only [printed, h, List.not_mem_nil, decide_false, List.filter_false, printParts,
    List.foldl_nil]

def outOpens : Bool :=
  match s.outFile with
  | none => env.stdoutBio
  | some name => env.outOpens name

def certEmit (der : List Byte) (x509 : X509Object) (disk : Disk) : CertRun :=
  if s.outOpens env = false then ⟨wolfcluFatalError, [], disk⟩
  else
    let ⟨ret, printed⟩ := s.printed env lib der x509
    if ret ≠ wolfcluSuccess ∨ s.noOut then s.deliver ret printed disk
    else
      match s.certBuffer lib der x509 with
      | .error ret => s.deliver ret printed disk
      | .ok derBuf => s.certWrite env lib derBuf printed disk

end CertState

def certSetup (env : CertEnv) (lib : CertLib) (argv : Args) (disk : Disk) : CertRun :=
  let s := readCertOptions env disk argv
  if s.helped then ⟨wolfcluSuccess, [], disk⟩
  else if s.ret ≠ wolfcluSuccess then ⟨s.ret, [], disk⟩
  else
    match s.certPrepare env lib with
    | .error ret => ⟨ret, [], disk⟩
    | .ok (der, x509) => s.certEmit env lib der x509 disk

end WolfCLU
