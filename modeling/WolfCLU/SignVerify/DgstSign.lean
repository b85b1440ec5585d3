import WolfCLU.GenKey.KeyFiles
import WolfCLU.SignVerify.DgstHmac
import WolfCLU.Tools.GetOpt

namespace WolfCLU
open CString CheckedMemory Buffer

inductive PkeyId where
  | rsa
  | dsa
  | ec
  | other
  deriving DecidableEq, Repr

inductive SigType where
  | rsaWEnc
  | ecc
  deriving DecidableEq, Repr

structure DgstLib (ρ κ σ : Type) where
  hash : HashLib HashType σ
  maxDerDigestSz : Nat
  readPub : Bool → List Byte → Option ρ
  readPriv : Bool → List Byte → Option ρ
  pkeyId : ρ → PkeyId
  rsaPublicDer : ρ → Except Int (List Byte)
  rsaPrivateDer : ρ → Except Int (List Byte)
  ecKey : ρ → Option κ
  eccDerSize : Bool → κ → Int
  eccToDer : Bool → κ → Nat → Except Int (List Byte)
  keyInit : SigType → Bool
  keyDecode : SigType → Bool → List Byte → Option κ
  hashOid : HashType → Int
  encodeSignature : List Byte → Int → List Byte
  signatureSize : SigType → κ → Int
  generateHash : HashType → SigType → List Byte → Nat → κ → Except Int (List Byte)
  verifyHash : HashType → SigType → List Byte → List Byte → κ → Int
  digest_fits : wcMaxDigestSize ≤ maxDerDigestSz
  encoded_fits : ∀ digest oid, digest.length ≤ wcMaxDigestSize →
    (encodeSignature digest oid).length ≤ maxDerDigestSz

structure DgstEnv (τ : Type) extends DgstHmacEnv τ where
  stdin : Option (List BioRead)
  deliver : List Byte → List BioRead
  fresh : Nat → List Byte
  bioLen : List Byte → Int
  bioRead : List Byte → Nat → Int
  initRng : Bool
  fresh_length : ∀ n, (fresh n).length = n

structure DgstRun where
  ret : Int
  stdout : List Byte
  disk : Disk

structure Prepared (κ : Type) where
  sigType : SigType
  key : κ
  digest : List Byte
  sig : List Byte

structure DgstRequest where
  signing : Bool
  data : List BioRead
  keyText : List Byte
  sigFile : List Byte
  outFile : List Byte
  hashType : HashType
  inForm : Form

inductive DgstCall where
  | hmac (data : List BioRead) (hmacKey : Option (List Byte)) (hashType : HashType)
      (outFile : Option (List Byte))
  | signVerify (request : DgstRequest)

section SignVerify
variable {ρ κ σ τ : Type} (env : DgstEnv τ) (lib : DgstLib ρ κ σ)

def pKeyToKeyECC (pkey : ρ) (isPrivateKey : Bool) : Except Int (List Byte) :=
  match lib.ecKey pkey with
  | none => .error badFuncArg
  | some ec =>
    let derSz := lib.eccDerSize isPrivateKey ec
    if derSz < 0 then .error badFuncArg
    else if env.alloc derSz.toNat = false then .error memoryE
    else
      match lib.eccToDer isPrivateKey ec derSz.toNat with
      | .error _ => .error badFuncArg
      | .ok der => if der = [] then .error badFuncArg else .ok der

def pKeytoPubKey (pkey : ρ) : Except Int (List Byte) :=
  match lib.pkeyId pkey with
  | .rsa => lib.rsaPublicDer pkey
  | .ec => pKeyToKeyECC env lib pkey false
  | .dsa | .other => .error userInputError

def pKeytoPriKey (pkey : ρ) : Except Int (List Byte) :=
  match lib.pkeyId pkey with
  | .rsa => lib.rsaPrivateDer pkey
  | .ec => pKeyToKeyECC env lib pkey true
  | .dsa | .other => .error userInputError

def extractAs (sigType : SigType) (signing : Bool) (der : Except Int (List Byte)) :
    Except Int (SigType × κ) :=
  match der with
  | .error _ => .error wolfcluFatalError
  | .ok der =>
    if der = [] ∨ lib.keyInit sigType = false then .error wolfcluFatalError
    else
      match lib.keyDecode sigType signing der with
      | none => .error wolfcluFatalError
      | some key => .ok (sigType, key)

def extractKey (pkey : ρ) (signing : Bool) : Except Int (SigType × κ) :=
  let der := if signing then pKeytoPriKey env lib pkey else pKeytoPubKey env lib pkey
  match lib.pkeyId pkey with
  | .rsa => extractAs lib .rsaWEnc signing der
  | .ec => extractAs lib .ecc signing der
  | .dsa | .other => .error wolfcluFatalError

def readKey (signing : Bool) (inForm : Form) (keyText : List Byte) : Except Int ρ :=
  let pem := decide (inForm = .pem)
  match if signing then lib.readPriv pem keyText else lib.readPub pem keyText with
  | none => .error wolfcluFatalError
  | some pkey => .ok pkey

def readSig (sigText : Option (List Byte)) : Except Int (List Byte) :=
  match sigText with
  | none => .error wolfcluFatalError
  | some contents =>
    let sigSz := env.bioLen contents
    if sigSz ≤ 0 then .error wolfcluFatalError
    else if env.alloc sigSz.toNat = false then .error memoryE
    else
      let n := env.bioRead contents sigSz.toNat
      if n ≤ 0 then .error wolfcluFatalError
      else .ok (contents.take n.toNat ++ (env.fresh sigSz.toNat).drop n.toNat)

def signatureIn (request : DgstRequest) (sigText : Option (List Byte)) : Except Int (List Byte) :=
  if request.signing then .ok [] else readSig env sigText

def streamDigest (data : List BioRead) (hashType : HashType) :
    Guarded Int (List Byte × Nat) :=
  match streamHashBio lib.hash (some data) hashType
      { area := some (env.fresh lib.maxDerDigestSz), size := some wcMaxDigestSize } with
  | some (ret, ⟨some digest, some digestSz⟩) =>
    if ret = wolfcluSuccess then step (.ok (digest, digestSz)) else step (.error ret)
  | _ => outside

def wrapDigest (hashType : HashType) (sigType : SigType) (digest : List Byte) (digestSz : Nat) :
    Guarded Int (List Byte) :=
  match sigType with
  | .ecc => read digest 0 digestSz
  | .rsaWEnc =>
    let oid := lib.hashOid hashType
    if oid < 0 then step (.error wolfcluFatalError)
    else do
      let bare ← read digest 0 digestSz
      let enc := lib.encodeSignature bare oid
      if enc = [] then step (.error wolfcluFatalError)
      else do
        let digest ← write digest 0 enc
        read digest 0 enc.length

def prepare (request : DgstRequest) (sigText : Option (List Byte)) : Guarded Int (Prepared κ) := do
  let (digest, digestSz) ← streamDigest env lib request.data request.hashType
  let sig ← step (signatureIn env request sigText)
  let pkey ← step (readKey lib request.signing request.inForm request.keyText)
  let (sigType, key) ← step (extractKey env lib pkey request.signing)
  let digest ← wrapDigest lib request.hashType sigType digest digestSz
  step (.ok ⟨sigType, key, digest, sig⟩)

def dgstFailed (ret : Int) (disk : Disk) : DgstRun := ⟨ret, [], disk⟩

def createSignature (request : DgstRequest) (p : Prepared κ) (disk : Disk) : DgstRun :=
  if env.initRng = false then dgstFailed wolfcluFatalError disk
  else
    let sigSz := lib.signatureSize p.sigType p.key
    if sigSz ≤ 0 then dgstFailed wolfcluFatalError disk
    else if env.alloc sigSz.toNat = false then dgstFailed memoryE disk
    else
      match lib.generateHash request.hashType p.sigType p.digest sigSz.toNat p.key with
      | .error _ => dgstFailed wolfcluFatalError disk
      | .ok sig =>
        if env.openFile request.outFile = false then dgstFailed wolfcluFatalError disk
        else
          { ret := if env.bioWrite sig ≤ 0 then wolfcluFatalError else wolfcluSuccess
            stdout := []
            disk := Function.update disk request.outFile
              (some (sig.take (env.bioWrite sig).toNat)) }

def dgstSignVerify (request : DgstRequest) (disk : Disk) : Option DgstRun :=
  match (prepare env lib request (disk request.sigFile)).run with
  | none => none
  | some (.error ret) => some (dgstFailed ret disk)
  | some (.ok p) =>
    some (if request.signing then createSignature env lib request p disk
      else if lib.verifyHash request.hashType p.sigType p.digest p.sig p.key = 0 then
        ⟨wolfcluSuccess, [], disk⟩
      else dgstFailed wolfcluFatalError disk)

end SignVerify

inductive DgstOption where
  | hash (hashType : HashType)
  | hmac
  | hmacKey
  | inform
  | outFile
  | inFile
  | verify
  | sign
  | help
  deriving DecidableEq, Repr

def dgstOptions : List (LongOption DgstOption) :=
  [⟨str "-md5", false, .hash .md5⟩, ⟨str "-sha", false, .hash .sha⟩,
    ⟨str "-sha224", false, .hash .sha224⟩, ⟨str "-sha256", false, .hash .sha256⟩,
    ⟨str "-sha384", false, .hash .sha384⟩, ⟨str "-sha512", false, .hash .sha512⟩,
    ⟨str "-hmac", false, .hmac⟩, ⟨str "-mackey", true, .hmacKey⟩, ⟨str "-inform", true, .inform⟩,
    ⟨str "-out", true, .outFile⟩, ⟨str "-signature", true, .inFile⟩,
    ⟨str "-verify", true, .verify⟩, ⟨str "-sign", true, .sign⟩, ⟨str "-h", false, .help⟩,
    ⟨str "-help", false, .help⟩]

structure DgstState where
  ret : Int
  keyText : Option (List Byte)
  sigFile : Option (List Byte)
  outFile : Option (List Byte)
  signing : Bool
  hmac : Bool
  hmacKey : Option (List Byte)
  inForm : Form
  hashType : HashType
  deriving DecidableEq, Repr

section Setup
variable {ρ κ σ τ : Type} (env : DgstEnv τ) (disk : Disk)

def DgstState.openKey (s : DgstState) (optarg : Option (List Byte)) : DgstState :=
  match optarg.bind disk with
  | none => { s with keyText := none, ret := wolfcluFatalError }
  | some text => { s with keyText := some text }

def DgstState.option (s : DgstState) (optarg : Option (List Byte)) : DgstOption → DgstState
  | .hash .md5 =>
    if env.noMd5 then { s with ret := notCompiledIn } else { s with hashType := .md5 }
  | .hash hashType => { s with hashType := hashType }
  | .hmac => { s with hmac := true }
  | .hmacKey =>
    match optarg with
    | some key => { s with hmacKey := some key }
    | none => { s with ret := wolfcluFatalError }
  | .sign => { s with signing := true }.openKey disk optarg
  | .verify => s.openKey disk optarg
  | .inFile => { s with sigFile := optarg }
  | .outFile => { s with outFile := optarg }
  | .inform =>
    let inForm := checkInform (optarg.map fun name => name.map toLower)
    { s with inForm := inForm, ret := if inForm = .invalid then userInputError else s.ret }
  | .help => s

def dgstReader (argv : Args) : OptReader DgstOption DgstState where
  argv _ := argv
  running s := s.ret = wolfcluSuccess
  handle opt optarg s :=
    match opt with
    | .foundTwice => { s with ret := wolfcluFatalError }
    | .found val => s.option env disk optarg val

def lastArg (argv : Args) : List Byte := argv.getLastD []

def isPositional (argv : Args) : Bool :=
  dgstOptions.all fun o =>
    o.name ≠ lastArg argv ∧ ¬ (o.hasArg ∧ argv.dropLast.getLast? = some o.name)

def dataBio (argv : Args) : Option (List BioRead) :=
  if isPositional argv then (disk (lastArg argv)).map env.deliver else env.stdin

def readDgstOptions (argv : Args) : DgstState :=
  let opened := ¬ (isPositional argv ∧ disk (lastArg argv) = none)
  (dgstReader env disk argv).run 2 dgstOptions
    ⟨if opened then wolfcluSuccess else wolfcluFatalError, none, none, none, false, false, none,
      .pem, .none⟩

def DgstState.call (s : DgstState) (dataBio : Option (List BioRead)) : Except Int DgstCall :=
  if s.ret ≠ wolfcluSuccess then .error s.ret
  else
    match dataBio with
    | none => .error wolfcluFatalError
    | some data =>
      if s.hmac then .ok (.hmac data s.hmacKey s.hashType s.outFile)
      else
        match s.keyText with
        | none => .error wolfcluFatalError
        | some keyText =>
          if (s.signing = false ∧ s.sigFile = none) ∨ (s.signing ∧ s.outFile = none) then
            .error wolfcluFatalError
          else
            .ok (.signVerify ⟨s.signing, data, keyText, s.sigFile.getD [], s.outFile.getD [],
              s.hashType, s.inForm⟩)

def dgstCall (argv : Args) : Except Int DgstCall :=
  if lastArg argv = str "-h" ∨ lastArg argv = str "-help" then .error wolfcluSuccess
  else (readDgstOptions env disk argv).call (dataBio env disk argv)

def hmacRun (run : DgstHmacRun) (outFile : Option (List Byte)) : DgstRun where
  ret := run.ret
  stdout := run.stdout
  disk :=
    match outFile, run.file with
    | some name, some contents => Function.update disk name (some contents)
    | _, _ => disk

def dgstSetup (lib : DgstLib ρ κ σ) (argv : Args) : Option DgstRun :=
  match dgstCall env disk argv with
  | .error ret => some (dgstFailed ret disk)
  | .ok (.hmac data hmacKey hashType outFile) =>
    (dgstHmac env.toDgstHmacEnv data hmacKey hashType outFile).map fun run =>
      hmacRun disk run outFile
  | .ok (.signVerify request) => dgstSignVerify env lib request disk

end Setup

end WolfCLU
