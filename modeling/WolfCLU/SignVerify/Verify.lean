import WolfCLU.ErrorCodes
import WolfCLU.Tools.Forms

namespace WolfCLU
open CString

inductive SigAlg where
  | rsa
  | ecc
  | ed25519
  | dilithium
  | xmss
  | xmssmt
  deriving DecidableEq, Repr

structure VerifyFile where
  opens : Bool
  contents : List Byte
  seekEnd : Bool
  tells : Bool
  alloc : Bool
  seekSet : Bool
  reads : Bool

structure VerifyFiles where
  signature : VerifyFile
  message : VerifyFile
  key : VerifyFile

structure VerifyLib (κ : Type) where
  init : SigAlg → Int
  pemSize : Bool → List Byte → Int
  pemDer : Bool → List Byte → Int × List Byte
  publicDecode : SigAlg → List Byte → Int × κ
  privateDecode : SigAlg → List Byte → Int × κ
  importPublic : List Byte → Int × κ
  importPrivate : List Byte → List Byte → Int × κ
  makePublic : κ → Int × κ
  xmssSetParam : List Byte → Int × κ
  xmssImport : κ → List Byte → Int × κ
  outputSize : SigAlg → κ → Int
  eccSize : κ → Int
  digestSize : HashType → Int
  hash : HashType → List Byte → Int × List Byte
  rsaVerify : κ → List Byte → Int
  eccVerify : κ → List Byte → List Byte → Int × Int
  ed25519Verify : κ → List Byte → List Byte → Int × Int
  dilithiumVerify : κ → List Byte → List Byte → Int × Int
  xmssVerify : κ → List Byte → List Byte → Int
  init_le : ∀ alg, init alg ≤ 0
  publicDecode_le : ∀ alg der, (publicDecode alg der).1 ≤ 0
  privateDecode_le : ∀ alg der, (privateDecode alg der).1 ≤ 0
  importPublic_le : ∀ pub, (importPublic pub).1 ≤ 0
  importPrivate_le : ∀ priv pub, (importPrivate priv pub).1 ≤ 0
  makePublic_le : ∀ key, (makePublic key).1 ≤ 0
  xmssSetParam_le : ∀ param, (xmssSetParam param).1 ≤ 0
  xmssImport_le : ∀ key bytes, (xmssImport key bytes).1 ≤ 0
  hash_le : ∀ hashType bytes, (hash hashType bytes).1 ≤ 0
  eccVerify_le : ∀ key sig digest, (eccVerify key sig digest).1 ≤ 0
  ed25519Verify_le : ∀ key sig msg, (ed25519Verify key sig msg).1 ≤ 0
  dilithiumVerify_le : ∀ key sig msg, (dilithiumVerify key sig msg).1 ≤ 0
  xmssVerify_le : ∀ key sig msg, xmssVerify key sig msg ≤ 0

structure VerifyEnv where
  keyAlloc : Bool
  derAlloc : Bool
  outputAlloc : Bool
  paramAlloc : Bool
  outOpens : Bool
  outWrites : Bool
  heap : Nat → Byte

structure VerifyCall (κ : Type) where
  alg : SigAlg
  key : κ
  sig : List Byte
  message : Option (List Byte)
  deriving DecidableEq

structure VerifyRun (κ : Type) where
  ret : Int
  calls : List (VerifyCall κ)
  deriving DecidableEq

def maxFileSize : Int := 0xFFFFFFF
def maxKeyPemDerSz : Int := 65536
def dilithiumMaxBothKeyPemSize : Int := 10267
def maxDigestSize : Int := 64
def ed25519KeySize : Nat := 32
def xmssOidLen : Nat := 4
def asnNoPemHeader : Int := -162

def VerifyFile.size (f : VerifyFile) : Int :=
  if f.tells then if f.seekEnd then f.contents.length else 0 else -1

def loadFile (openErr sizeErr lo hi : Int) (f : VerifyFile) : Except Int (List Byte) :=
  if ¬ f.opens then .error openErr
  else if f.size < lo then .error sizeErr
  else if f.size > hi then .error wolfcluFatalError
  else if ¬ f.alloc then .error memoryE
  else if ¬ (f.seekSet ∧ f.reads) then .error wolfcluFatalError
  else .ok (f.contents.take f.size.toNat)

def succeeds {α : Type} (r : Int × α) : Except Int α := if r.1 = 0 then .ok r.2 else .error r.1

def allocated (alloc : Bool) : Except Int Unit := if alloc then .ok () else .error memoryE

-- bytes past the end of the buffer are whatever the heap holds there
def readMemory (buf : List Byte) (heap : Nat → Byte) (n : Nat) : List Byte :=
  (List.range n).map fun i => buf.getD i (heap i)

def finish (ret : Int) : Int := if ret ≥ 0 then wolfcluSuccess else ret

def finishZero (ret : Int) : Int := if ret = 0 then wolfcluSuccess else ret

section Verify
variable {κ : Type} (lib : VerifyLib κ) (env : VerifyEnv)

def keyPemToDer (keyBuf : List Byte) (pubIn : Int) : Int × List Byte :=
  if keyBuf.length = 0 then (badFuncArg, keyBuf)
  else
    let pub : Bool := pubIn ≠ 0
    let size := lib.pemSize pub keyBuf
    if size > 0 then
      if size > maxKeyPemDerSz then (wolfcluFatalError, keyBuf)
      else if env.derAlloc then
        let converted := lib.pemDer pub keyBuf
        if converted.1 > 0 then converted else (converted.1, keyBuf)
      else (memoryE, keyBuf)
    else (size, keyBuf)

def keyDer (pubIn : Int) (inForm : Form) (keyBuf : List Byte) : Except Int (List Byte) :=
  if inForm = .pem then
    let converted := keyPemToDer lib env keyBuf pubIn
    if converted.1 < 0 then
      if converted.1 = asnNoPemHeader then .ok converted.2 else .error converted.1
    else .ok (converted.2.take converted.1.toNat)
  else .ok keyBuf

def outputBuffer (alg : SigAlg) (key : κ) : Except Int Unit :=
  if lib.outputSize alg key ≤ 0 then .error wolfcluFatalError else allocated env.outputAlloc

def bufferedKey (alg : SigAlg) (keyPath : VerifyFile) (pubIn : Int) (inForm : Form) :
    Except Int κ := do
  succeeds (lib.init alg, ())
  let keyBuf ← loadFile badFuncArg badFuncArg 0 maxFileSize keyPath
  let der ← keyDer lib env pubIn inForm keyBuf
  let key ← succeeds (if pubIn = 1 then lib.publicDecode alg der else lib.privateDecode alg der)
  outputBuffer lib env alg key
  .ok key

def rsaKey (keyPath : VerifyFile) (pubIn : Int) (inForm : Form) : Except Int κ :=
  bufferedKey lib env .rsa keyPath pubIn inForm

def eccKey (keyPath : VerifyFile) (pubIn : Int) (inForm : Form) : Except Int κ :=
  bufferedKey lib env .ecc keyPath pubIn inForm

def rsaOutput (ret : Int) : Int :=
  if ret > 0 then
    if ¬ env.outOpens then badFuncArg else if ¬ env.outWrites then outputFileError else ret
  else ret

def verifySignatureRsa (sig : List Byte) (keyPath : VerifyFile) (pubIn : Int) (inForm : Form) :
    VerifyRun κ :=
  match rsaKey lib env keyPath pubIn inForm with
  | .error ret => ⟨finish ret, []⟩
  | .ok key => ⟨finish (rsaOutput env (lib.rsaVerify key sig)), [⟨.rsa, key, sig, none⟩]⟩

def eccHashType (keySz : Int) : HashType :=
  if keySz ≤ 32 then .sha256 else if keySz ≤ 48 then .sha384 else .sha512

def eccDigest (key : κ) (hash : List Byte) : Except Int (List Byte) :=
  let hashType := eccHashType (lib.eccSize key)
  let digestSz := lib.digestSize hashType
  if 0 < digestSz ∧ digestSz ≤ maxDigestSize then
    let hashed := lib.hash hashType hash
    if hashed.1 = 0 then .ok hashed.2
    else if hashed.1 < 0 then .error hashed.1
    else .error wolfcluFatalError
  else .error badFuncArg

def statOutcome (verified : Int × Int) : Int :=
  if verified.1 < 0 then verified.1
  else if verified.2 = 1 then verified.1
  else wolfcluFatalError

def verifySignatureEcc (sig hash : List Byte) (keyPath : VerifyFile) (pubIn : Int)
    (inForm : Form) : VerifyRun κ :=
  match eccKey lib env keyPath pubIn inForm with
  | .error ret => ⟨finish ret, []⟩
  | .ok key =>
    match eccDigest lib key hash with
    | .error ret => ⟨finish ret, []⟩
    | .ok digest =>
      ⟨finish (statOutcome (lib.eccVerify key sig digest)), [⟨.ecc, key, sig, some digest⟩]⟩

def ed25519PublicKey (inForm : Form) (keyBuf der : List Byte) : Except Int κ :=
  if inForm = .raw then
    succeeds (lib.importPublic (readMemory (keyBuf ++ [0]) env.heap ed25519KeySize))
  else succeeds (lib.publicDecode .ed25519 der)

def ed25519PrivateKey (inForm : Form) (keyBuf der : List Byte) : Except Int κ := do
  let memory := readMemory (keyBuf ++ [0]) env.heap (2 * ed25519KeySize)
  let key ← succeeds (if inForm = .raw then
      lib.importPrivate (memory.take ed25519KeySize) (memory.drop ed25519KeySize)
    else lib.privateDecode .ed25519 der)
  succeeds (lib.makePublic key)

def ed25519Key (keyPath : VerifyFile) (pubIn : Int) (inForm : Form) : Except Int κ := do
  succeeds (lib.init .ed25519, ())
  let keyBuf ← loadFile badFuncArg badFuncArg 0 maxFileSize keyPath
  let der ← keyDer lib env pubIn inForm keyBuf
  if pubIn = 1 then ed25519PublicKey lib env inForm keyBuf der
  else ed25519PrivateKey lib env inForm keyBuf der

def verifySignatureEd25519 (sig hash : List Byte) (keyPath : VerifyFile) (pubIn : Int)
    (inForm : Form) : VerifyRun κ :=
  match ed25519Key lib env keyPath pubIn inForm with
  | .error ret => ⟨finish ret, []⟩
  | .ok key =>
    ⟨finish (statOutcome (lib.ed25519Verify key sig hash)), [⟨.ed25519, key, sig, some hash⟩]⟩

def dilithiumKey (keyPath : VerifyFile) (inForm : Form) : Except Int κ := do
  allocated env.keyAlloc
  succeeds (lib.init .dilithium, ())
  let keyBuf ← loadFile badFuncArg badFuncArg 1 dilithiumMaxBothKeyPemSize keyPath
  let der ← keyDer lib env 1 inForm keyBuf
  succeeds (lib.publicDecode .dilithium der)

def dilithiumOutcome (verified : Int × Int) : Int :=
  if verified.1 ≠ 0 then verified.1
  else finish (if verified.2 = 1 then verified.1 else wolfcluFatalError)

def verifySignatureDilithium (sig msg : List Byte) (keyPath : VerifyFile) (inForm : Form) :
    VerifyRun κ :=
  match dilithiumKey lib env keyPath inForm with
  | .error ret => ⟨ret, []⟩
  | .ok key =>
    ⟨dilithiumOutcome (lib.dilithiumVerify key sig msg), [⟨.dilithium, key, sig, some msg⟩]⟩

def xmssOid (bytes : List Byte) : Nat := bytes.foldl (fun oid b => 256 * oid + b.toNat) 0

def xmssParams : List (Nat × List Byte) :=
  [(1, str "XMSS-SHA2_10_256"), (2, str "XMSS-SHA2_16_256"), (3, str "XMSS-SHA2_20_256")]

def xmssmtParams : List (Nat × List Byte) :=
  [(1, str "XMSSMT-SHA2_20/2_256"), (2, str "XMSSMT-SHA2_20/4_256"),
    (3, str "XMSSMT-SHA2_40/2_256"), (4, str "XMSSMT-SHA2_40/4_256"),
    (5, str "XMSSMT-SHA2_40/8_256"), (6, str "XMSSMT-SHA2_60/3_256"),
    (7, str "XMSSMT-SHA2_60/6_256"), (8, str "XMSSMT-SHA2_60/12_256")]

def paramOfOid (params : List (Nat × List Byte)) (oid : Nat) : Except Int (List Byte) :=
  match params.lookup oid with
  | none => .error wolfcluFatalError
  | some param => .ok param

def xmssFamilyKey (alg : SigAlg) (params : List (Nat × List Byte)) (pubKey : VerifyFile) :
    Except Int κ := do
  allocated env.keyAlloc
  succeeds (lib.init alg, ())
  let keyBuf ← loadFile outputFileError wolfcluFatalError 0 maxFileSize pubKey
  allocated env.paramAlloc
  let param ← paramOfOid params (xmssOid (readMemory keyBuf env.heap xmssOidLen))
  let key ← succeeds (lib.xmssSetParam param)
  succeeds (lib.xmssImport key keyBuf)

def verifyXmssFamily (alg : SigAlg) (params : List (Nat × List Byte)) (sig msg : List Byte)
    (pubKey : VerifyFile) : VerifyRun κ :=
  match xmssFamilyKey lib env alg params pubKey with
  | .error ret => ⟨finishZero ret, []⟩
  | .ok key => ⟨finishZero (lib.xmssVerify key sig msg), [⟨alg, key, sig, some msg⟩]⟩

def verifySignatureXmss (sig msg : List Byte) (pubKey : VerifyFile) : VerifyRun κ :=
  verifyXmssFamily lib env .xmss xmssParams sig msg pubKey

def verifySignatureXmssmt (sig msg : List Byte) (pubKey : VerifyFile) : VerifyRun κ :=
  verifyXmssFamily lib env .xmssmt xmssmtParams sig msg pubKey

def loadInput (f : VerifyFile) : Except Int (List Byte) :=
  loadFile badFuncArg badFuncArg 0 maxFileSize f

def verifyMessage (alg : SigAlg) (sig hash : List Byte) (key : VerifyFile) (pubIn : Int)
    (inForm : Form) : VerifyRun κ :=
  match alg with
  | .rsa => verifySignatureRsa lib env sig key pubIn inForm
  | .ecc => verifySignatureEcc lib env sig hash key pubIn inForm
  | .ed25519 => verifySignatureEd25519 lib env sig hash key pubIn inForm
  | .dilithium => verifySignatureDilithium lib env sig hash key inForm
  | .xmss => verifySignatureXmss lib env sig hash key
  | .xmssmt => verifySignatureXmssmt lib env sig hash key

def verifySignature (files : VerifyFiles) (keyType : Option SigAlg) (pubIn : Int)
    (inForm : Form) : VerifyRun κ :=
  match loadInput files.signature with
  | .error ret => ⟨ret, []⟩
  | .ok sig =>
    match keyType with
    | none => ⟨-1, []⟩
    | some .rsa => verifyMessage lib env .rsa sig [] files.key pubIn inForm
    | some alg =>
      match loadInput files.message with
      | .error ret => ⟨ret, []⟩
      | .ok hash => verifyMessage lib env alg sig hash files.key pubIn inForm

end Verify

end WolfCLU
