import WolfCLU.Foundation.MachineInt
import WolfCLU.SignVerify.Verify

namespace WolfCLU
open CString

structure SignatureLib (κ : Type) extends VerifyLib κ where
  initRng : Int
  rsaSetRng : Int
  rsaSign : κ → List Byte → Nat → Int × List Byte
  rsaRecovered : κ → List Byte → List Byte
  eccSign : κ → List Byte → Nat → Int × List Byte
  ed25519Sign : κ → List Byte → Int × List Byte
  dilithiumSign : κ → List Byte → Nat → Int × List Byte
  xmssSetCallbacks : Int
  xmssSigLen : κ → Int × Nat
  xmssSetContext : Int
  xmssReload : κ → Option (List Byte) → Int × κ
  xmssSign : κ → List Byte → Nat → Int × List Byte
  rsaMaxSize : Int
  maxEccBitsNeeded : Int
  initRng_le : initRng ≤ 0
  rsaSetRng_le : rsaSetRng ≤ 0
  eccSign_le : ∀ key digest n, (eccSign key digest n).1 ≤ 0
  ed25519Sign_le : ∀ key msg, (ed25519Sign key msg).1 ≤ 0
  dilithiumSign_le : ∀ key msg n, (dilithiumSign key msg n).1 ≤ 0
  xmssSetCallbacks_le : xmssSetCallbacks ≤ 0
  xmssSigLen_le : ∀ key, (xmssSigLen key).1 ≤ 0
  xmssSetContext_le : xmssSetContext ≤ 0
  xmssReload_le : ∀ key priv, (xmssReload key priv).1 ≤ 0
  xmssSign_le : ∀ key msg n, (xmssSign key msg n).1 ≤ 0

structure SignatureEnv extends VerifyEnv where
  written : Nat → Int

structure SignatureFiles where
  message : VerifyFile
  keyName : List Byte
  key : VerifyFile

structure SignatureRun where
  ret : Int
  out : Option (List Byte)
  deriving DecidableEq, Repr

def ed25519PrvKeySize : Int := 64
def xmssNameLen : Nat := 16
def xmssmtNameMinLen : Nat := 20
def xmssmtNameMaxLen : Nat := 21

def loadMessage (f : VerifyFile) : Except Int (List Byte) :=
  if ¬ f.opens then .error badFuncArg
  else if ¬ f.seekEnd then .error wolfcluFatalError
  else if f.size ≤ 0 ∨ MachineInt.intMax < f.size then .error wolfcluFatalError
  else if ¬ f.alloc then .error memoryE
  else if ¬ (f.seekSet ∧ f.reads) then .error wolfcluFatalError
  else .ok (f.contents.take f.size.toNat)

def loadPrivateKey (hi : Int) (f : VerifyFile) : Except Int (List Byte) :=
  let privFileSz := MachineInt.toInt32 f.size
  if ¬ f.opens then .error badFuncArg
  else if ¬ f.seekEnd then .error wolfcluFatalError
  else if privFileSz ≤ 0 ∨ hi < privFileSz then .error wolfcluFatalError
  else if ¬ f.alloc then .error memoryE
  else if ¬ (f.seekSet ∧ f.reads) then .error wolfcluFatalError
  else .ok (f.contents.take privFileSz.toNat)

def writeSignature (env : SignatureEnv) (openErr ret : Int) (sig : List Byte) :
    Int × Option (List Byte) :=
  if ¬ env.outOpens then (openErr, none)
  else
    let written := env.written sig.length
    (if written ≤ 0 then outputFileError else ret, some (sig.take written.toNat))

section Sign
variable {κ : Type} (lib : SignatureLib κ) (env : SignatureEnv)

def privateKeyDer (alg : SigAlg) (hi : Int) (privKey : VerifyFile) (inForm : Form) :
    Except Int (List Byte × List Byte) := do
  succeeds (lib.init alg, ())
  succeeds (lib.initRng, ())
  succeeds (if alg = .rsa then lib.rsaSetRng else 0, ())
  let keyBuf ← loadPrivateKey hi privKey
  let der ← keyDer lib.toVerifyLib env.toVerifyEnv 0 inForm keyBuf
  .ok (keyBuf, der)

def rsaSigningKey (privKey : VerifyFile) (inForm : Form) : Except Int κ := do
  let (_, der) ← privateKeyDer lib env .rsa (lib.rsaMaxSize / 8 * 16) privKey inForm
  let key ← succeeds (lib.privateDecode .rsa der)
  outputBuffer lib.toVerifyLib env.toVerifyEnv .rsa key
  .ok key

def signDataRsa (data : List Byte) (privKey : VerifyFile) (inForm : Form) : SignatureRun :=
  match rsaSigningKey lib env privKey inForm with
  | .error ret => ⟨finish ret, none⟩
  | .ok key =>
    let (ret, outBuf) := lib.rsaSign key data (lib.outputSize .rsa key).toNat
    if ret ≥ 0 then
      let (ret, out) := writeSignature env badFuncArg ret outBuf
      ⟨finish ret, out⟩
    else ⟨finish ret, none⟩

def eccSigningKey (privKey : VerifyFile) (inForm : Form) : Except Int κ := do
  let (_, der) ← privateKeyDer lib env .ecc (lib.maxEccBitsNeeded / 8 * 16) privKey inForm
  let key ← succeeds (lib.privateDecode .ecc der)
  allocated env.outputAlloc
  .ok key

def signDataEcc (data : List Byte) (privKey : VerifyFile) (inForm : Form) : SignatureRun :=
  match eccSigningKey lib env privKey inForm with
  | .error ret => ⟨finish ret, none⟩
  | .ok key =>
    match eccDigest lib.toVerifyLib key data with
    | .error ret => ⟨finish ret, none⟩
    | .ok digest =>
      let (ret, outBuf) := lib.eccSign key digest (lib.outputSize .ecc key).toNat
      if ret ≥ 0 then
        let (ret, out) := writeSignature env badFuncArg ret outBuf
        ⟨finish ret, out⟩
      else ⟨finish ret, none⟩

def ed25519Secret (inForm : Form) (keyBuf der : List Byte) : Except Int κ :=
  let memory := readMemory (keyBuf ++ [0]) env.heap (2 * ed25519KeySize)
  if inForm = .raw then
    succeeds (lib.importPrivate (memory.take ed25519KeySize) (memory.drop ed25519KeySize))
  else do
    let key ← succeeds (lib.privateDecode .ed25519 der)
    succeeds (lib.makePublic key)

def ed25519SigningKey (privKey : VerifyFile) (inForm : Form) : Except Int κ := do
  let (keyBuf, der) ← privateKeyDer lib env .ed25519 (ed25519PrvKeySize * 16) privKey inForm
  let key ← ed25519Secret lib env inForm keyBuf der
  allocated env.outputAlloc
  .ok key

def signDataEd25519 (data : List Byte) (privKey : VerifyFile) (inForm : Form) : SignatureRun :=
  match ed25519SigningKey lib env privKey inForm with
  | .error ret => ⟨finish ret, none⟩
  | .ok key =>
    let (ret, outBuf) := lib.ed25519Sign key data
    if ret ≥ 0 then
      let (ret, out) := writeSignature env badFuncArg ret outBuf
      ⟨finish ret, out⟩
    else ⟨finish ret, none⟩

def dilithiumSigningKey (privKey : VerifyFile) (inForm : Form) : Except Int κ := do
  allocated env.keyAlloc
  let (_, der) ← privateKeyDer lib env .dilithium dilithiumMaxBothKeyPemSize privKey inForm
  let key ← succeeds (lib.privateDecode .dilithium der)
  allocated env.outputAlloc
  .ok key

def signDataDilithium (data : List Byte) (privKey : VerifyFile) (inForm : Form) : SignatureRun :=
  match dilithiumSigningKey lib env privKey inForm with
  | .error ret => ⟨finish ret, none⟩
  | .ok key =>
    let (ret, outBuf) := lib.dilithiumSign key data (lib.outputSize .dilithium key).toNat
    if ret = 0 then
      let (ret, out) := writeSignature env badFuncArg ret outBuf
      ⟨finish ret, out⟩
    else ⟨finish ret, none⟩

def xmssName (privKey : List Byte) : Option (List Byte) :=
  if strncmp privKey (str "XMSS-") 5 ≠ 0 then none
  else if privKey.length - 5 ≠ xmssNameLen then none
  else some (privKey.take xmssNameLen)

def slashDash : List Byte → List Byte
  | [] => []
  | c :: rest => if c = 45 then 47 :: rest else c :: slashDash rest

def xmssmtName (privKey : List Byte) : Option (List Byte) :=
  let fileHeadLen := 7
  let param (n : Nat) : List Byte :=
    (privKey.take n).take (fileHeadLen + 1) ++ slashDash ((privKey.take n).drop (fileHeadLen + 1))
  if strncmp privKey (str "XMSSMT-") fileHeadLen ≠ 0 then none
  else if privKey.length = xmssmtNameMinLen + 5 then some (param xmssmtNameMinLen)
  else if privKey.length = xmssmtNameMaxLen + 5 then some (param xmssmtNameMaxLen)
  else none

def xmssFamilyParam (alg : SigAlg) : Option (List Byte) → Except Int (List Byte)
  | none => .error badFuncArg
  | some param => do
    succeeds (lib.init alg, ())
    succeeds (lib.xmssSetCallbacks, ())
    .ok param

def xmssFamilySigningKey (alg : SigAlg) (name : Option (List Byte)) (privKey : VerifyFile) :
    Except Int (κ × Nat) := do
  allocated env.keyAlloc
  let param ← xmssFamilyParam lib alg name
  allocated env.paramAlloc
  let key ← succeeds (lib.xmssSetParam param)
  let outBufSz ← succeeds (lib.xmssSigLen key)
  allocated env.outputAlloc
  succeeds (lib.xmssSetContext, ())
  let key ← succeeds (lib.xmssReload key
    (if privKey.opens ∧ privKey.reads then some privKey.contents else none))
  .ok (key, outBufSz)

def signXmssFamily (alg : SigAlg) (name : Option (List Byte)) (data : List Byte)
    (privKey : VerifyFile) : SignatureRun :=
  match xmssFamilySigningKey lib env alg name privKey with
  | .error ret => ⟨finishZero ret, none⟩
  | .ok (key, outBufSz) =>
    let (ret, outBuf) := lib.xmssSign key data outBufSz
    if ret = 0 then
      let (ret, out) := writeSignature env outputFileError ret outBuf
      ⟨finishZero ret, out⟩
    else ⟨finishZero ret, none⟩

def signDataXmss (data keyName : List Byte) (privKey : VerifyFile) : SignatureRun :=
  signXmssFamily lib env .xmss (xmssName keyName) data privKey

def signDataXmssmt (data keyName : List Byte) (privKey : VerifyFile) : SignatureRun :=
  signXmssFamily lib env .xmssmt (xmssmtName keyName) data privKey

def signMessage (alg : SigAlg) (data : List Byte) (files : SignatureFiles) (inForm : Form) :
    SignatureRun :=
  match alg with
  | .rsa => signDataRsa lib env data files.key inForm
  | .ecc => signDataEcc lib env data files.key inForm
  | .ed25519 => signDataEd25519 lib env data files.key inForm
  | .dilithium => signDataDilithium lib env data files.key inForm
  | .xmss => signDataXmss lib env data files.keyName files.key
  | .xmssmt => signDataXmssmt lib env data files.keyName files.key

def signData (files : SignatureFiles) (keyType : Option SigAlg) (inForm : Form) : SignatureRun :=
  match loadMessage files.message with
  | .error ret => ⟨ret, none⟩
  | .ok data =>
    match keyType with
    | none => ⟨wolfcluFatalError, none⟩
    | some alg => signMessage lib env alg data files inForm

end Sign

section Written
variable {κ : Type} (lib : SignatureLib κ) (env : VerifyEnv)

def rsaWritten (files : VerifyFiles) (pubIn : Int) (inForm : Form) : Option (List Byte) :=
  match loadInput files.signature, rsaKey lib.toVerifyLib env files.key pubIn inForm with
  | .ok sig, .ok key =>
    let writeSz := lib.rsaVerify key sig
    if 0 < writeSz ∧ env.outOpens then
      some (if env.outWrites then (lib.rsaRecovered key sig).take writeSz.toNat else [])
    else none
  | _, _ => none

end Written

end WolfCLU
