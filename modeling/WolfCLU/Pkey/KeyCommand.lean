import WolfCLU.SignVerify.DgstSign
import WolfCLU.X509.Parse
import WolfCLU.X509.Request

namespace WolfCLU
open CString

structure PkeyLib (ρ κ σ : Type) extends DgstLib ρ κ σ where
  rsaPem : Bool → ρ → Option (List Byte)
  i2d : Bool → ρ → Option (List Byte)
  d2i : Bool → List Byte → Option ρ
  ecPem : Bool → κ → Option (List Byte)
  derToPem : List Byte → Option (List Byte)

structure PkeyEnv (τ : Type) extends DgstEnv τ where
  fileOpens : List Byte → Bool

inductive PkeyOption where
  | infile
  | outfile
  | inform
  | outform
  | pubout
  | pubin
  | help
  deriving DecidableEq, Repr

def pkeyOptions : List (LongOption PkeyOption) :=
  [⟨str "-in", true, .infile⟩, ⟨str "-out", true, .outfile⟩, ⟨str "-inform", true, .inform⟩,
    ⟨str "-outform", true, .outform⟩, ⟨str "-pubout", false, .pubout⟩,
    ⟨str "-pubin", false, .pubin⟩, ⟨str "-help", false, .help⟩, ⟨str "-h", false, .help⟩]

structure PkeyState where
  ret : Int
  helped : Bool
  argv : Args
  disk : Disk
  inFile : Option (List Byte)
  outFile : Option (List Byte)
  inForm : Form
  outForm : Form
  pubIn : Bool
  pubOut : Bool

section Output
variable {ρ κ σ τ : Type} (env : PkeyEnv τ) (lib : PkeyLib ρ κ σ)

def writeDer (der : List Byte) : BioOutput := ⟨wolfcluSuccess, der.take (env.bioWrite der).toNat⟩

def eccKeyOf (pkey : ρ) (isPrivate : Bool) : Option κ :=
  (lib.ecKey pkey).or ((lib.i2d isPrivate pkey).bind fun der => (lib.d2i isPrivate der).bind lib.ecKey)

def eccPKeyPem (pkey : ρ) (isPrivate : Bool) : Option (List Byte) :=
  (eccKeyOf lib pkey isPrivate).bind (lib.ecPem isPrivate)

def pKeyPem (isPrivate : Bool) (pkey : ρ) : BioOutput :=
  match lib.pkeyId pkey with
  | .rsa => writePem env.bioWrite (lib.rsaPem isPrivate pkey)
  | .ec => writePem env.bioWrite (eccPKeyPem lib pkey isPrivate)
  | .dsa | .other => failedOutput

def pKeyPEMtoPubKey (pkey : ρ) : BioOutput := pKeyPem env lib false pkey
def pKeyPEMtoPriKey (pkey : ρ) : BioOutput := pKeyPem env lib true pkey

def withDer (der : Except Int (List Byte)) (write : List Byte → BioOutput) : BioOutput :=
  match der with
  | .error _ => failedOutput
  | .ok der => if der = [] then failedOutput else write der

def publicOutput (inForm outForm : Form) (pkey : ρ) : BioOutput :=
  if inForm = .pem ∧ outForm = .pem then pKeyPEMtoPubKey env lib pkey
  else
    withDer (pKeytoPubKey env.toDgstEnv lib.toDgstLib pkey)
      (if outForm = .pem then printDer env.alloc env.bioWrite lib.derToPem else writeDer env)

def privateOutput (outForm : Form) (pkey : ρ) : BioOutput :=
  match outForm with
  | .der => withDer (pKeytoPriKey env.toDgstEnv lib.toDgstLib pkey) (writeDer env)
  | .pem => pKeyPEMtoPriKey env lib pkey
  | .raw | .invalid => ⟨wolfcluSuccess, []⟩

end Output

section Options
variable {τ : Type} (env : PkeyEnv τ)

def PkeyState.option (s : PkeyState) (optarg : Option (List Byte)) : PkeyOption → PkeyState
  | .infile =>
    match optarg.filter fun name => env.fileOpens name ∧ (s.disk name).isSome with
    | none => { s with ret := wolfcluFatalError }
    | some name => { s with inFile := some name }
  | .outfile =>
    match optarg.filter fun name => env.openFile name with
    | none => { s with ret := wolfcluFatalError }
    | some name => { s with outFile := some name, disk := Function.update s.disk name (some []) }
  | .inform =>
    { s with
      argv := lowerArgument (str "-inform") s.argv
      inForm := checkInform (optarg.map fun name => name.map toLower) }
  | .outform =>
    { s with
      argv := lowerArgument (str "-outform") s.argv
      outForm := checkOutform (optarg.map fun name => name.map toLower) }
  | .pubout => { s with pubOut := true }
  | .pubin => { s with pubIn := true, pubOut := true }
  | .help => { s with helped := true }

def pkeyReader : OptReader PkeyOption PkeyState where
  argv s := s.argv
  running s := s.helped = false
  handle opt optarg s :=
    match opt with
    | .foundTwice => { s with ret := wolfcluFatalError }
    | .found val => s.option env optarg val

def readPkeyOptions (argv : Args) (disk : Disk) : PkeyState :=
  (pkeyReader env).run 1 pkeyOptions
    ⟨wolfcluSuccess, false, argv, disk, none, none, .pem, .pem, false, false⟩

end Options

structure PkeyRun where
  ret : Int
  stdout : List Byte
  disk : Disk

section Setup
variable {ρ κ σ τ : Type} (env : PkeyEnv τ) (lib : PkeyLib ρ κ σ)

def readKeyText (pubIn : Bool) (inForm : Form) (text : List Byte) : Option ρ :=
  if pubIn then lib.readPub (inForm = .pem) text else lib.readPriv (inForm = .pem) text

namespace PkeyState

def readInput (s : PkeyState) : Except Int (Option ρ) :=
  match s.inFile with
  | none => .ok none
  | some name =>
    match readKeyText lib s.pubIn s.inForm ((s.disk name).getD []) with
    | none => .error userInputError
    | some pkey => .ok (some pkey)

def output (s : PkeyState) (pkey : Option ρ) : BioOutput :=
  match pkey with
  | none => ⟨wolfcluSuccess, []⟩
  | some pkey =>
    if s.pubOut then publicOutput env lib s.inForm s.outForm pkey
    else privateOutput env lib s.outForm pkey

def put (s : PkeyState) (out : BioOutput) : PkeyRun :=
  match s.outFile with
  | none => ⟨out.ret, out.bytes, s.disk⟩
  | some name => ⟨out.ret, [], Function.update s.disk name (some out.bytes)⟩

def outcome (s : PkeyState) (input : Except Int (Option ρ)) : PkeyRun :=
  match input with
  | .error ret => ⟨ret, [], s.disk⟩
  | .ok pkey =>
    if s.outFile = none ∧ env.openStdout = false then ⟨wolfcluFatalError, [], s.disk⟩
    else s.put (s.output env lib pkey)

def finish (s : PkeyState) : PkeyRun :=
  if s.helped then ⟨wolfcluSuccess, [], s.disk⟩
  else if s.ret ≠ wolfcluSuccess then ⟨s.ret, [], s.disk⟩
  else s.outcome env lib (s.readInput lib)

end PkeyState

def pKeySetup (argv : Args) (disk : Disk) : PkeyRun := (readPkeyOptions env argv disk).finish env lib

end Setup

end WolfCLU
