import WolfCLU.Foundation.Handles
import WolfCLU.X509.CaSetup

namespace WolfCLU.SignConfig
open Handles CString

inductive Resource where
  | certSign
  | config
  | outDir
  | dataBase
  | serialFile
  | randFile
  | ca
  | keyFile
  | caKey
  deriving DecidableEq, Repr

structure Signer where
  csign : CertSign
  self : Handle
  outDir : Option Handle
  config : Option Handle
  dataBase : Option Handle
  serialFile : Option Handle
  randFile : Option Handle
  ca : Option Handle
  caKey : Option Handle

structure SignConfigEnv extends CaEnv where
  confAlloc : Bool
  randOpens : List Byte → Bool

structure State where
  heap : Heap Resource
  ret : Option Signer
  conf : Option (Handle × Conf)
  ca : Option (Handle × X509)
  keyFile : Option Handle
  caKey : Option (Handle × PKey)

def Signer.freesKey (signer : Signer) : Prop :=
  signer.csign.keyType = .rsa ∨ signer.csign.keyType = .ecdsa

instance (signer : Signer) : Decidable signer.freesKey :=
  inferInstanceAs (Decidable (_ ∨ _))

def certSignFree (signer : Signer) (heap : Heap Resource) : Heap Resource :=
  heap.releaseAll [signer.outDir, signer.config, signer.dataBase, signer.serialFile, signer.randFile,
    signer.ca, if signer.freesKey then signer.caKey else none, some signer.self]

namespace State

def null : State :=
  { heap := .empty, ret := none, conf := none, ca := none, keyFile := none, caKey := none }

def free (signer : Signer) (s : State) : State :=
  { s with heap := certSignFree signer s.heap, ret := none }

def whenSigner (f : Signer → State → State) (s : State) : State :=
  match s.ret with
  | none => s
  | some signer => f signer s

def whenConf (f : Conf → Signer → State → State) (s : State) : State :=
  match s.ret, s.conf with
  | some signer, some (_, conf) => f conf signer s
  | _, _ => s

def acquire (r : Resource) (put : Handle → State → State) (s : State) : State :=
  put (s.heap.acquire r).1 { s with heap := (s.heap.acquire r).2 }

def setSigner (signer : Signer) (s : State) : State := { s with ret := some signer }

end State

section ReadSignConfig
variable (env : SignConfigEnv)
open State

def certSignNew : State :=
  if env.signerAlloc then
    null.acquire .certSign fun self => setSigner
      { csign := CertSign.new, self := self, outDir := none, config := none, dataBase := none,
        serialFile := none, randFile := none, ca := none, caKey := none }
  else null

def newConfig : State → State :=
  whenSigner fun signer s =>
    if env.confAlloc then
      s.acquire .config fun h => setSigner { signer with config := some h }
    else s.free signer

def loadConfig (config : List Byte) : State → State :=
  whenSigner fun signer s =>
    match env.loadConf config with
    | none => s.free signer
    | some conf =>
      { s with
        ret := some { signer with csign := signer.csign.setConfig (confFile env.toCaEnv conf) }
        conf := signer.config.map (·, conf) }

def caSection (conf : Conf) (sect : List Byte) : List Byte := (conf sect (str "default_ca")).getD sect

def value (conf : Conf) (sect : List Byte) (key : String) : Option (List Byte) :=
  conf (caSection conf sect) (str key)

def setOutDir (sect : List Byte) : State → State :=
  whenConf fun conf signer s =>
    match (value conf sect "new_certs_dir").or (value conf sect "certs") with
    | none => s.free signer
    | some dir =>
      match signer.csign.appendOut env.outAlloc (some dir) with
      | .error _ => s.free signer
      | .ok csign =>
        { s with heap := s.heap.releaseAll [signer.outDir] }.acquire .outDir fun h =>
          setSigner { signer with csign := csign, outDir := some h }

def openDataBase (sect : List Byte) : State → State :=
  whenConf fun conf signer s =>
    match value conf sect "database" with
    | none => s
    | some name =>
      if env.dataBaseOpens name then
        s.acquire .dataBase fun h => setSigner
          { signer with csign := { signer.csign with dataBase := true }, dataBase := some h }
      else s.free signer

def loadCertificate (sect : List Byte) : State → State :=
  whenConf fun conf signer s =>
    match value conf sect "certificate" with
    | none => s
    | some name =>
      match env.certificatePem name with
      | none => s.free signer
      | some ca => s.acquire .ca fun h s => { s with ca := some (h, ca) }

def setUnique (sect : List Byte) : State → State :=
  whenConf fun conf signer => setSigner { signer with
    csign := { signer.csign with
      unique := (value conf sect "unique_subject").any fun value => strncmp value (str "yes") 3 = 0 } }

def openSerial (sect : List Byte) : State → State :=
  whenConf fun conf signer s =>
    match value conf sect "serial" with
    | none => s
    | some name =>
      if env.serialOpens name then
        { s with heap := s.heap.releaseAll [signer.serialFile] }.acquire .serialFile fun h => setSigner
          { signer with csign := { signer.csign with serialFile := true }, serialFile := some h }
      else s.free signer

def openRandFile (sect : List Byte) : State → State :=
  whenConf fun conf signer s =>
    match value conf sect "RANDFILE" with
    | none => s
    | some name =>
      let s := { s with heap := s.heap.releaseAll [signer.randFile] }
      if env.randOpens name then
        s.acquire .randFile fun h => setSigner { signer with randFile := some h }
      else s.setSigner { signer with randFile := none }

def setDefaults (sect : List Byte) : State → State :=
  whenConf fun conf signer => setSigner { signer with
    csign := { signer.csign with
      ext := value conf sect "x509_extensions"
      days := ((env.confNumber conf (caSection conf sect) (str "default_days")).map
        MachineInt.toInt32).getD signer.csign.days
      hashType := ((value conf sect "default_md").map stringToHashType).getD signer.csign.hashType } }

def openKeyFile (sect : List Byte) : State → State :=
  whenConf fun conf signer s =>
    match value conf sect "private_key" with
    | none => s
    | some name =>
      if env.fileOpens name then s.acquire .keyFile fun h s => { s with keyFile := some h }
      else s.free signer

def readKey (sect : List Byte) : State → State :=
  whenConf fun conf _ s =>
    match s.keyFile, (value conf sect "private_key").bind env.privateKey with
    | some _, some key => s.acquire .caKey fun h s => { s with caKey := some (h, key) }
    | _, _ => s

def closeKeyFile (s : State) : State :=
  { s with heap := s.heap.releaseAll [s.keyFile], keyFile := none }

def setPolicy (sect : List Byte) : State → State :=
  whenConf fun conf signer => setSigner { signer with
    csign := { signer.csign with
      policy := ((value conf sect "policy").map (parsePolicy conf)).getD signer.csign.policy } }

def setCA (s : State) : State :=
  s.whenSigner fun signer s =>
    let keyType := getTypeFromPKey (s.caKey.map Prod.snd)
    let held := keyType = .rsa ∨ keyType = .ecdsa
    let stale :=
      [if s.ca = none then none else signer.ca,
        if s.caKey ≠ none ∧ held then signer.caKey else none]
    { s with
      heap := s.heap.releaseAll stale
      ret := some { signer with
        csign := signer.csign.setCA (s.ca.map Prod.snd) (s.caKey.map Prod.snd) keyType
        ca := (s.ca.map Prod.fst).or signer.ca
        caKey := if s.caKey ≠ none ∧ held then s.caKey.map Prod.fst else signer.caKey } }

def cleanup (s : State) : State :=
  match s.ret with
  | none =>
    let pointers := [s.conf.map Prod.fst, s.ca.map Prod.fst, s.caKey.map Prod.fst]
    { s with heap := s.heap.releaseAll pointers }
  | some _ => s

def openConfig (config : List Byte) : State := loadConfig env config (newConfig env (certSignNew env))

def readFiles (sect : List Byte) (s : State) : State :=
  let s := setOutDir env sect s
  let s := openDataBase env sect s
  let s := loadCertificate env sect s
  let s := setUnique sect s
  let s := openSerial env sect s
  let s := openRandFile env sect s
  setDefaults env sect s

def readSettings (sect : List Byte) (s : State) : State :=
  let s := readFiles env sect s
  let s := openKeyFile env sect s
  let s := readKey env sect s
  let s := closeKeyFile s
  setPolicy sect s

def readSignConfig (config sect : List Byte) : State :=
  cleanup (setCA (readSettings env sect (openConfig env config)))

end ReadSignConfig

end WolfCLU.SignConfig
