import WolfCLU.ErrorCodes
import WolfCLU.GenKey.XmssKeyFile
import WolfCLU.Tools.Forms

namespace WolfCLU
open CString

def wcKeySizeE : Int := -234

inductive Directive where
  | privOnly
  | pubOnly
  | privAndPub
  deriving DecidableEq, Repr

inductive KeyPart where
  | priv
  | pub
  deriving DecidableEq, Repr

def KeyPart.append : KeyPart → List Byte
  | .priv => str ".priv"
  | .pub => str ".pub"

def Directive.parts : Directive → List KeyPart
  | .privOnly => [.priv]
  | .pubOnly => [.pub]
  | .privAndPub => [.priv, .pub]

inductive KeyPem where
  | privateKey
  | pkcs8PrivateKey
  | publicKey
  deriving DecidableEq, Repr

inductive KeyKind where
  | ed25519
  | ecc
  | rsa
  | dilithium
  | mlDsa
  deriving DecidableEq, Repr

-- an encoder answers with the bytes it wrote into a buffer of the given size, or with its error
structure GenKeyLib (κ : Type) where
  pemSize : KeyPem → List Byte → Int
  pem : KeyPem → List Byte → Nat → Except Int (List Byte)
  privSize : KeyKind → κ → Int
  privDer : KeyKind → κ → Nat → Except Int (List Byte)
  pubSize : KeyKind → κ → Int
  pubDer : KeyKind → κ → Nat → Except Int (List Byte)
  ed25519Init : Int
  ed25519Make : Int × κ
  ed25519PrivSize : κ → Nat
  ed25519PubSize : κ → Nat
  ed25519Export : κ → Except Int (List Byte × List Byte)
  curveIdx : List Byte → Int
  eccGenerate : List Byte → Option κ
  eccPem : KeyPart → κ → Option (List Byte)
  rsaInit : Bool
  rsaMake : Int → Int → Option κ
  levelInit : KeyKind → Bool
  levelMake : KeyKind → Int → Option κ
  levelPubDer : KeyKind → κ → Nat → Int → Except Int (List Byte)
  xmssInit : Int
  xmssSetParam : List Byte → Int × κ
  xmssSetWriteCb : Int
  xmssSetContext : Int
  xmssMake : κ → Except Int (List Byte × κ)
  xmssMade : XmssRc → Int
  xmssPubLen : κ → Int × Nat
  xmssExportPub : κ → Nat → Except Int (List Byte)
  ed25519Init_le : ed25519Init ≤ 0
  ed25519Make_le : ed25519Make.1 ≤ 0
  ed25519Export_error : ∀ key e, ed25519Export key = .error e → e < 0
  xmssInit_le : xmssInit ≤ 0
  xmssSetParam_le : ∀ param, (xmssSetParam param).1 ≤ 0
  xmssSetWriteCb_le : xmssSetWriteCb ≤ 0
  xmssSetContext_le : xmssSetContext ≤ 0
  xmssMake_error : ∀ key e, xmssMake key = .error e → e < 0
  xmssMade_le : ∀ rc, xmssMade rc ≤ 0
  xmssPubLen_le : ∀ key, (xmssPubLen key).1 ≤ 0
  xmssExportPub_error : ∀ key n e, xmssExportPub key n = .error e → e < 0
  pem_error : ∀ pemType der n e, pem pemType der n = .error e → e < 0
  privDer_error : ∀ kind key n e, privDer kind key n = .error e → e < 0
  pubDer_error : ∀ kind key n e, pubDer kind key n = .error e → e < 0
  levelPubDer_error : ∀ kind key n withAlg e, levelPubDer kind key n withAlg = .error e → e < 0

structure GenKeyEnv where
  nameAlloc : Bool
  derAlloc : KeyPart → Bool
  pemAlloc : KeyPart → Bool
  opens : KeyPart → Bool
  written : KeyPart → Nat → Nat
  stored : KeyPart → Nat → Nat
  saved : WriteFaults

abbrev Disk := List Byte → Option (List Byte)

structure KeyFileRun where
  ret : Int
  file : Option (List Byte)
  deriving DecidableEq, Repr

def KeyFileRun.onDisk (run : KeyFileRun) (name : List Byte) (disk : Disk) : Disk :=
  match run.file with
  | none => disk
  | some contents => Function.update disk name (some contents)

structure GenKeyRun where
  ret : Int
  disk : Disk

section Files
variable {κ : Type} (lib : GenKeyLib κ) (env : GenKeyEnv)

def keyFwrite (part : KeyPart) (bytes : List Byte) : Nat × List Byte :=
  (min (env.written part bytes.length) bytes.length, bytes.take (env.stored part bytes.length))

def keyDerToPem (part : KeyPart) (der : List Byte) (pemType : KeyPem) :
    Except Int (List Byte) :=
  if der.length = 0 then .ok []
  else
    let size := lib.pemSize pemType der
    if size < 0 then .error size
    else if size = 0 ∨ ¬ env.pemAlloc part then .ok []
    else lib.pem pemType der size.toNat

def writeOpened (part : KeyPart) (fmt : Form) (least size : Int)
    (encode : Nat → Except Int (List Byte)) (pemType : KeyPem) : KeyFileRun :=
  if ¬ env.opens part then ⟨outputFileError, none⟩
  else if size < least then ⟨memoryE, some []⟩
  else if ¬ env.derAlloc part then ⟨memoryE, some []⟩
  else
    match encode size.toNat with
    | .error e => ⟨e, some []⟩
    | .ok der =>
      match if fmt = .pem then keyDerToPem lib env part der pemType else .ok der with
      | .error e => ⟨if part = .pub then outputFileError else e, some []⟩
      | .ok text =>
        let (n, file) := keyFwrite env part text
        ⟨if n ≠ text.length then outputFileError else wolfcluSuccess, some file⟩

def writeEncoded (part : KeyPart) (fmt : Form) (encoded : Except Int (List Byte))
    (pemType : KeyPem) : KeyFileRun :=
  match encoded with
  | .error e => ⟨e, none⟩
  | .ok der =>
    match if fmt = .pem then keyDerToPem lib env part der pemType else .ok der with
    | .error _ => ⟨wolfcluFailure, none⟩
    | .ok text =>
      if fmt = .pem ∧ text.length = 0 then ⟨wolfcluFailure, none⟩
      else if ¬ env.opens part then ⟨outputFileError, none⟩
      else
        let (n, file) := keyFwrite env part text
        ⟨if n = 0 then outputFileError else wolfcluSuccess, some file⟩

def keyFiles (fName : List Byte) (directive : Directive) (priv pub : KeyFileRun) (disk : Disk) :
    GenKeyRun :=
  let privDisk := priv.onDisk (fName ++ KeyPart.priv.append) disk
  match directive with
  | .privOnly => ⟨priv.ret, privDisk⟩
  | .pubOnly => ⟨pub.ret, pub.onDisk (fName ++ KeyPart.pub.append) disk⟩
  | .privAndPub =>
    if priv.ret ≠ wolfcluSuccess then ⟨priv.ret, privDisk⟩
    else ⟨pub.ret, pub.onDisk (fName ++ KeyPart.pub.append) privDisk⟩

def rsaFile (part : KeyPart) (fmt : Form) (key : κ) : KeyFileRun :=
  match part with
  | .priv =>
    writeOpened lib env .priv fmt 0 (lib.privSize .rsa key) (lib.privDer .rsa key) .privateKey
  | .pub =>
    writeOpened lib env .pub fmt 0 (lib.pubSize .rsa key) (lib.pubDer .rsa key) .publicKey

def genKeyRSA (fName : List Byte) (directive : Directive) (fmt : Form) (keySz exp : Int)
    (disk : Disk) : GenKeyRun :=
  if ¬ lib.rsaInit then ⟨wolfcluFailure, disk⟩
  else
    match lib.rsaMake keySz exp with
    | none => ⟨wolfcluFailure, disk⟩
    | some key =>
      if ¬ env.nameAlloc then ⟨memoryE, disk⟩
      else
        keyFiles fName directive (rsaFile lib env .priv fmt key) (rsaFile lib env .pub fmt key) disk

def writeRaw (part : KeyPart) (raw : List Byte) : KeyFileRun :=
  if ¬ env.opens part then ⟨outputFileError, none⟩
  else
    let (n, file) := keyFwrite env part raw
    ⟨if n ≠ raw.length then outputFileError else wolfcluSuccess, some file⟩

def ed25519Raw (format : Form) (key : κ) : Except Int (List Byte × List Byte) :=
  if format ≠ .raw then .ok ([], [])
  else if lib.ed25519PrivSize key = 0 ∨ lib.ed25519PubSize key = 0 then .error wcKeySizeE
  else lib.ed25519Export key

def ed25519File (part : KeyPart) (format : Form) (key : κ) (raw : List Byte × List Byte) :
    KeyFileRun :=
  match part with
  | .priv =>
    if format = .raw then writeRaw env .priv raw.1
    else
      writeOpened lib env .priv format 1 (lib.privSize .ed25519 key) (lib.privDer .ed25519 key)
        .privateKey
  | .pub =>
    if format = .raw then writeRaw env .pub raw.2
    else
      writeOpened lib env .pub format 1 (lib.pubSize .ed25519 key) (lib.pubDer .ed25519 key)
        .publicKey

def genKeyED25519Files (fOutNm : List Byte) (directive : Directive) (format : Form)
    (disk : Disk) : GenKeyRun :=
  if lib.ed25519Init ≠ 0 then ⟨lib.ed25519Init, disk⟩
  else
    let (ret, key) := lib.ed25519Make
    if ret ≠ 0 then ⟨ret, disk⟩
    else
      match ed25519Raw lib format key with
      | .error e => ⟨e, disk⟩
      | .ok raw =>
        if ¬ env.nameAlloc then ⟨memoryE, disk⟩
        else
          keyFiles fOutNm directive (ed25519File lib env .priv format key raw)
            (ed25519File lib env .pub format key raw) disk

def genKeyED25519 (fOutNm : List Byte) (directive : Directive) (format : Form) (disk : Disk) :
    GenKeyRun :=
  let run := genKeyED25519Files lib env fOutNm directive format disk
  ⟨if run.ret ≥ 0 then wolfcluSuccess else run.ret, run.disk⟩

def bioWriteKey (part : KeyPart) (bytes : List Byte) : KeyFileRun :=
  let (n, file) := keyFwrite env part bytes
  ⟨if n ≠ bytes.length then wolfcluFatalError else n, some file⟩

def eccWritePubDer (key : κ) : KeyFileRun :=
  let size := lib.pubSize .ecc key
  if size ≤ 0 then ⟨size, some []⟩
  else if ¬ env.derAlloc .pub then ⟨memoryE, some []⟩
  else
    match lib.pubDer .ecc key size.toNat with
    | .error e => ⟨e, some []⟩
    | .ok der => bioWriteKey env .pub der

def eccWritePrivDer (key : κ) : KeyFileRun :=
  let size := lib.privSize .ecc key
  if size ≤ 0 then ⟨size, some []⟩
  else if ¬ env.derAlloc .priv then ⟨memoryE, some []⟩
  else
    match lib.privDer .ecc key size.toNat with
    | .error e => ⟨e, some []⟩
    | .ok der =>
      if der.length = 0 then ⟨0, some []⟩
      else
        let run := bioWriteKey env .priv der
        ⟨if run.ret > 0 then wolfcluSuccess else run.ret, run.file⟩

def eccWritePem (part : KeyPart) (key : κ) : KeyFileRun :=
  match lib.eccPem part key with
  | none => ⟨wolfcluFatalError, some []⟩
  | some text =>
    let (n, file) := keyFwrite env part text
    ⟨if n ≠ text.length then wolfcluFatalError else wolfcluSuccess, some file⟩

def eccFile (part : KeyPart) (fmt : Form) (key : κ) : KeyFileRun :=
  if ¬ env.opens part then ⟨memoryE, none⟩
  else if fmt = .pem then eccWritePem lib env part key
  else
    match part with
    | .priv => eccWritePrivDer lib env key
    | .pub => eccWritePubDer lib env key

def eccCurveName (name : Option (List Byte)) : List Byte :=
  match name with
  | none => str "prime256v1"
  | some name =>
    let lower := name.map toLower
    if lower = str "secp256r1" then str "prime256v1"
    else if lower = str "secp192r1" then str "prime192v1"
    else if lower.take 9 = str "brainpool" then lower.set 9 80
    else lower

def genAndOutputECC (fName : List Byte) (directive : Directive) (fmt : Form)
    (name : Option (List Byte)) (disk : Disk) : GenKeyRun :=
  if name.any fun name => lib.curveIdx name < 0 then ⟨wolfcluFatalError, disk⟩
  else
    match lib.eccGenerate (eccCurveName name) with
    | none => ⟨wolfcluFatalError, disk⟩
    | some key =>
      if ¬ env.nameAlloc then ⟨memoryE, disk⟩
      else
        let run := keyFiles fName directive (eccFile lib env .priv fmt key)
          (eccFile lib env .pub fmt key) disk
        ⟨if run.ret > 0 then wolfcluSuccess else run.ret, run.disk⟩

def encodeInto (alloc : Bool) (encoded : Except Int (List Byte)) : Except Int (List Byte) :=
  if alloc then encoded else .error memoryE

def levelFile (kind : KeyKind) (part : KeyPart) (fmt : Form) (key : κ) (alloc : Bool)
    (keySz : Nat) (withAlg : Int) : KeyFileRun :=
  match part with
  | .priv =>
    writeEncoded lib env .priv fmt (encodeInto alloc (lib.privDer kind key keySz))
      .pkcs8PrivateKey
  | .pub =>
    writeEncoded lib env .pub fmt (encodeInto alloc (lib.levelPubDer kind key keySz withAlg))
      .publicKey

def genKeyDilithium (fName : List Byte) (directive : Directive) (fmt : Form) (keySz : Nat)
    (level withAlg : Int) (disk : Disk) : GenKeyRun :=
  if ¬ lib.levelInit .dilithium then ⟨wolfcluFatalError, disk⟩
  else
    match lib.levelMake .dilithium level with
    | none => ⟨wolfcluFailure, disk⟩
    | some key =>
      if ¬ env.nameAlloc then ⟨memoryE, disk⟩
      else
        keyFiles fName directive
          (levelFile lib env .dilithium .priv fmt key (env.derAlloc .priv) keySz withAlg)
          (levelFile lib env .dilithium .pub fmt key (env.derAlloc .pub) keySz withAlg) disk

def genKeyMlDsa (fName : List Byte) (directive : Directive) (fmt : Form) (keySz : Nat)
    (level withAlg : Int) (disk : Disk) : GenKeyRun :=
  if ¬ lib.levelInit .mlDsa then ⟨wolfcluFailure, disk⟩
  else
    match lib.levelMake .mlDsa level with
    | none => ⟨wolfcluFailure, disk⟩
    | some key =>
      if ¬ env.nameAlloc then ⟨memoryE, disk⟩
      else if ¬ env.derAlloc .priv then ⟨memoryE, disk⟩
      else
        keyFiles fName directive (levelFile lib env .mlDsa .priv fmt key true keySz withAlg)
          (levelFile lib env .mlDsa .pub fmt key (env.derAlloc .pub) keySz withAlg) disk

def slashToDash : List Byte → List Byte
  | [] => []
  | c :: rest => if c = 47 then 45 :: rest else c :: slashToDash rest

def xmssPubFile (key : κ) : KeyFileRun :=
  if ¬ env.opens .pub then ⟨outputFileError, none⟩
  else
    let (ret, pubSz) := lib.xmssPubLen key
    if pubSz = 0 then ⟨badFuncArg, some []⟩
    else if ret ≠ 0 then ⟨ret, some []⟩
    else if ¬ env.derAlloc .pub then ⟨memoryE, some []⟩
    else
      match lib.xmssExportPub key pubSz with
      | .error e => ⟨e, some []⟩
      | .ok pub =>
        let (n, file) := keyFwrite env .pub pub
        ⟨if n = 0 then outputFileError else 0, some file⟩

def genKeyXMSSFiles (fName : List Byte) (directive : Directive) (paramStr : List Byte)
    (disk : Disk) : GenKeyRun :=
  let privName := slashToDash (fName ++ KeyPart.priv.append)
  if lib.xmssInit ≠ 0 then ⟨lib.xmssInit, disk⟩
  else
    let (ret, key) := lib.xmssSetParam paramStr
    if ret ≠ 0 then ⟨ret, disk⟩
    else if lib.xmssSetWriteCb ≠ 0 then ⟨lib.xmssSetWriteCb, disk⟩
    else if ¬ env.nameAlloc then ⟨memoryE, disk⟩
    else if lib.xmssSetContext ≠ 0 then ⟨lib.xmssSetContext, disk⟩
    else
      match lib.xmssMake key with
      | .error e => ⟨e, disk⟩
      | .ok (priv, key) =>
        let (rc, file) := xmssKeyWriteCb env.saved (some priv) true (disk privName)
        let disk := Function.update disk privName file
        if lib.xmssMade rc ≠ 0 then ⟨lib.xmssMade rc, disk⟩
        else if directive = .privOnly then ⟨0, disk⟩
        else
          let run := xmssPubFile lib env key
          ⟨run.ret, run.onDisk (privName.take fName.length ++ KeyPart.pub.append) disk⟩

def genKeyXMSS (fName : List Byte) (directive : Directive) (paramStr : List Byte) (disk : Disk) :
    GenKeyRun :=
  let run := genKeyXMSSFiles lib env fName directive paramStr disk
  ⟨if run.ret = 0 then wolfcluSuccess else run.ret, run.disk⟩

end Files

inductive KeyRequest where
  | ed25519
  | ecc (name : Option (List Byte))
  | rsa (keySz exp : Int)
  | dilithium (keySz : Nat) (level withAlg : Int)
  | mlDsa (keySz : Nat) (level withAlg : Int)
  | xmss (paramStr : List Byte)
  deriving DecidableEq, Repr

def genKeyDispatch {κ : Type} (lib : GenKeyLib κ) (env : GenKeyEnv) (request : KeyRequest)
    (fName : List Byte) (directive : Directive) (fmt : Form) (disk : Disk) : GenKeyRun :=
  match request with
  | .ed25519 => genKeyED25519 lib env fName directive fmt disk
  | .ecc name => genAndOutputECC lib env fName directive fmt name disk
  | .rsa keySz exp => genKeyRSA lib env fName directive fmt keySz exp disk
  | .dilithium keySz level withAlg =>
    genKeyDilithium lib env fName directive fmt keySz level withAlg disk
  | .mlDsa keySz level withAlg => genKeyMlDsa lib env fName directive fmt keySz level withAlg disk
  | .xmss paramStr => genKeyXMSS lib env fName directive paramStr disk

end WolfCLU
