import WolfCLU.Foundation.Buffer
import WolfCLU.X509.Config
import WolfCLU.X509.Policy
import WolfCLU.X509.Serial

namespace WolfCLU
open Buffer CString

inductive CertKeyType where
  | none
  | rsa
  | dsa
  | ecdsa
  | dh
  deriving DecidableEq, Repr

def getTypeFromPKey : Option PKey → CertKeyType
  | some ⟨.rsa, _⟩ => .rsa
  | some ⟨.dsa, _⟩ => .dsa
  | some ⟨.ec, _⟩ => .ecdsa
  | some ⟨.dh, _⟩ => .dh
  | _ => .none

structure X509 where
  subject : X509Name
  publicKey : List Byte
  issuer : X509Name
  serial : Option Nat
  notAfter : List Byte
  extensions : X509Object
  deriving DecidableEq, Repr

structure CertSign where
  outDir : Option (List Byte)
  ext : Option (List Byte)
  serialFile : Bool
  dataBase : Bool
  ca : Option X509
  config : Option ConfFile
  caKey : Option PKey
  days : Int
  keyType : CertKeyType
  policy : Nat
  hashType : HashType
  unique : Bool

namespace CertSign

def setExt (csign : CertSign) (ext : List Byte) : CertSign := { csign with ext := some ext }
def setConfig (csign : CertSign) (config : ConfFile) : CertSign := { csign with config := some config }
def setDate (csign : CertSign) (d : Int) : CertSign := { csign with days := d }
def setHash (csign : CertSign) (hashType : HashType) : CertSign := { csign with hashType := hashType }

def new : CertSign :=
  ({ outDir := none, ext := none, serialFile := false, dataBase := false, ca := none, config := none,
     caKey := none, days := 0, keyType := .none, policy := 0, hashType := .none, unique := false
     : CertSign }.setHash .sha256).setDate 365

def setCA (csign : CertSign) (ca : Option X509) (key : Option PKey) (keyType : CertKeyType) :
    CertSign :=
  let csign := { csign with ca := ca.or csign.ca }
  match key with
  | none => csign
  | some key =>
    if keyType = .rsa ∨ keyType = .ecdsa then
      { csign with caKey := some key, keyType := keyType }
    else { csign with keyType := keyType }

def joinOut (outDir : Option (List Byte)) (out : List Byte) : List Byte :=
  match outDir with
  | none => out
  | some dir =>
    if out.headD 0 = 47 then out
    else dir ++ (if dir.getLastD 0 = 47 then [] else [47]) ++ out

def appendOut (alloc : Bool) (csign : CertSign) (out : Option (List Byte)) : Except Int CertSign :=
  let outDir := csign.outDir.filter (· ≠ [])
  match out with
  | none => .ok { csign with outDir := outDir }
  | some out =>
    if alloc then .ok { csign with outDir := some (joinOut outDir out) } else .error memoryE

end CertSign

structure SignLib where
  text : TextByNid
  names : NameLib
  serials : SerialLib
  x509 : X509Lib

def standardLib : SignLib := ⟨getTextByNid, standardNames, hexSerial, plainLib⟩

inductive SignFault where
  | subjectName
  | issuerName
  | md5
  | readSerial
  | openOut
  | pemWrite
  | rereadSerial
  | setInteger
  | writeSerial
  | writeDate
  | writeTab
  | oneline
  | writeSubject
  | writeNewline
  deriving DecidableEq, Repr

structure SignEnv where
  fault : SignFault → Bool
  dateAfter : Int → Option (List Byte)
  randomSerial : Option Nat
  answer : X509 → X509Object → X509Call → Int
  pubkey : X509 → X509Object → Option PKey
  copies : CopyEnv
  checkPrivateKey : List Byte → Option PKey → Bool
  sign : X509 → Option PKey → HashType → Int
  policyAlloc : PolicyField → Bool

structure SignFiles where
  serial : List Byte
  database : List Byte
  deriving DecidableEq, Repr

inductive SignEvent where
  | keyMatched (ca : X509) (key : Option PKey)
  | signed (x509 : X509) (key : Option PKey)
  | written (x509 : X509)
  | logged (x509 : X509)
  deriving DecidableEq, Repr

structure SignRun where
  ret : Int
  files : SignFiles
  unique : Option Int
  events : List SignEvent
  deriving DecidableEq, Repr

section CertSign
variable (lib : SignLib) (env : SignEnv)

def certSetDate (x509 : X509) (days : Int) : Except Int X509 :=
  if days > 0 then
    match env.dateAfter days with
    | none => .error wolfcluFatalError
    | some notAfter => .ok { x509 with notAfter := notAfter }
  else .ok x509

def digestFor (hashType : HashType) : Except Int HashType :=
  if hashType = .none then .error wolfcluFatalError
  else if hashType = .md5 ∧ env.fault .md5 then .error notCompiledIn
  else .ok hashType

def serialNumber (csign : CertSign) (serial : List Byte) : Option Nat :=
  if csign.serialFile then if env.fault .readSerial then none else lib.serials.a2i serial
  else env.randomSerial

def signingCertificate (csign : CertSign) : Except Int X509 :=
  match csign.ca with
  | none => .error wolfcluFatalError
  | some ca => .ok ca

def certSetIssuer (ca x509 : X509) : Except Int X509 :=
  if env.fault .subjectName ∨ env.fault .issuerName then .error wolfcluFatalError
  else .ok { x509 with issuer := ca.subject }

def certSetSerial (csign : CertSign) (serial : List Byte) (x509 : X509) : Except Int X509 :=
  match serialNumber lib env csign serial with
  | none => .error wolfcluFatalError
  | some s => .ok { x509 with serial := some s }

def extensionLib (x509 : X509) : X509Lib :=
  { lib.x509 with answer := env.answer x509, pubkey := env.pubkey x509 }

def noConf : ConfFile where
  string _ _ := none
  number _ _ := none
  pairs _ := none

def certSetExtensions (csign : CertSign) (x509 : X509) : Except Int X509 :=
  match csign.ext with
  | none => .ok x509
  | some ext =>
    let (ret, extensions) := setExtensions (extensionLib lib env x509) env.copies x509.extensions
      (csign.config.getD noConf) (some ext)
    if ret = wolfcluSuccess then .ok { x509 with extensions := extensions } else .error ret

def certSignPrepare (csign : CertSign) (x509 : X509) (serial : List Byte) :
    Except Int (X509 × X509 × HashType) := do
  let ca ← signingCertificate csign
  let x509 ← certSetDate env x509 csign.days
  let x509 ← certSetIssuer env ca x509
  let md ← digestFor env csign.hashType
  let x509 ← certSetSerial lib env csign serial x509
  let x509 ← certSetExtensions lib env csign x509
  .ok (ca, x509, md)

def certSignSign (csign : CertSign) (ca x509 : X509) (md : HashType) : Int × List SignEvent :=
  if csign.keyType = .rsa ∨ csign.keyType = .ecdsa then
    if env.checkPrivateKey ca.publicKey csign.caKey then
      if env.sign x509 csign.caKey md ≤ 0 then
        (wolfcluFatalError, [.keyMatched ca csign.caKey])
      else (wolfcluSuccess, [.keyMatched ca csign.caKey, .signed x509 csign.caKey])
    else (wolfcluFatalError, [])
  else (wolfcluSuccess, [])

def bumpSerial (serial : List Byte) : Int × List Byte :=
  if env.fault .rereadSerial then (wolfcluFatalError, serial)
  else
    match lib.serials.a2i serial with
    | none => (wolfcluFatalError, serial)
    | some s =>
      let cur := lib.serials.integerGet s
      if cur < 0 ∨ env.fault .setInteger ∨ env.fault .writeSerial then (wolfcluFatalError, serial)
      else (wolfcluSuccess, blit serial 0 (lib.serials.i2a (MachineInt.toLong (cur + 1))))

def advanceSerial (csign : CertSign) (serial : List Byte) : Int × List Byte :=
  if csign.serialFile then bumpSerial lib env serial else (wolfcluSuccess, serial)

def certSignLog (x509 : X509) (database : List Byte) : Int × List Byte :=
  let date := if env.fault .writeDate then [] else cstr x509.notAfter
  let tab : List Byte := if env.fault .writeTab then [] else [9]
  let database := database ++ date ++ tab
  if env.fault .oneline then (wolfcluFatalError, database)
  else
    let subject := lib.names.oneline x509.subject
    if env.fault .writeSubject ∨ subject = [] then (wolfcluFatalError, database)
    else if env.fault .writeNewline then (wolfcluFatalError, database ++ subject)
    else (wolfcluSuccess, database ++ subject ++ [10])

structure Admission where
  events : List SignEvent
  unique : Option Int
  result : Except Int X509

def uniqueCheck (csign : CertSign) (x509 : X509) (files : SignFiles) : Option Int :=
  if csign.unique then
    some (checkUnique lib.names x509.subject (if csign.dataBase then files.database else []))
  else none

def certSignConstrain (csign : CertSign) (x509 : X509) (files : SignFiles) : Int :=
  let ret := (uniqueCheck lib csign x509 files).getD wolfcluSuccess
  if ret = wolfcluSuccess then
    checkPolicyConstraints lib.text env.policyAlloc csign.policy x509.issuer x509.subject
  else ret

def certSignAdmit (csign : CertSign) (x509 : X509) (files : SignFiles) : Admission :=
  match certSignPrepare lib env csign x509 files.serial with
  | .error ret => ⟨[], none, .error ret⟩
  | .ok (ca, x509, md) =>
    let signed := certSignSign env csign ca x509 md
    if signed.1 = wolfcluSuccess then
      let ret := certSignConstrain lib env csign x509 files
      ⟨signed.2, uniqueCheck lib csign x509 files,
        if ret = wolfcluSuccess then .ok x509 else .error ret⟩
    else ⟨signed.2, none, .error signed.1⟩

def outputWritten (csign : CertSign) : Bool :=
  csign.outDir ≠ none ∧ ¬ env.fault .openOut ∧ ¬ env.fault .pemWrite

def certSignRecord (csign : CertSign) (x509 : X509) (files : SignFiles) :
    Int × SignFiles × List SignEvent :=
  let bumped := advanceSerial lib env csign files.serial
  let files := { files with serial := bumped.2 }
  if bumped.1 = wolfcluSuccess ∧ csign.dataBase then
    let log := certSignLog lib env x509 files.database
    (log.1, { files with database := log.2 }, if log.1 = wolfcluSuccess then [.logged x509] else [])
  else (bumped.1, files, [])

def certSign (csign : CertSign) (x509 : X509) (files : SignFiles) : SignRun :=
  let admission := certSignAdmit lib env csign x509 files
  match admission.result with
  | .error ret => ⟨ret, files, admission.unique, admission.events⟩
  | .ok x509 =>
    if outputWritten env csign then
      let recorded := certSignRecord lib env csign x509 files
      ⟨recorded.1, recorded.2.1, admission.unique,
        admission.events ++ .written x509 :: recorded.2.2⟩
    else ⟨wolfcluFatalError, files, admission.unique, admission.events⟩

end CertSign

end WolfCLU
