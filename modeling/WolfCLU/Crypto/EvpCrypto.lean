import WolfCLU.Crypto.Bio
import WolfCLU.ErrorCodes
import WolfCLU.Foundation.Buffer
import WolfCLU.Foundation.Chunks

namespace WolfCLU
open Buffer CString

inductive KeyType where
  | none
  | password
  | user
  deriving DecidableEq, Repr

structure EvpLib (σ H : Type) where
  keyLength : Nat
  ivLength : Nat
  pbkdf2 : List Byte → Option (List Byte) → Nat → H → Nat → List Byte
  bytesToKey : H → Option (List Byte) → List Byte → Nat → List Byte × List Byte
  init : List Byte → List Byte → Bool → σ
  cipher : Chunks.Transformer σ Byte
  base64Encode : List Byte → List Byte
  base64Decode : List Byte → Option (List Byte)
  fileLength : Nat → Int

inductive EvpFault where
  | rngInit
  | openIn
  | decodeAlloc
  | readAll
  | ctxNew
  | generateSalt
  | deriveKey
  | openOut
  | memOut
  | writeSalted
  | writeSalt
  | cipherInit
  | inputAlloc
  | outputAlloc
  | readIn (i : Nat)
  | writeOut (i : Nat)
  | writeFinal
  | memPtr
  | base64Push
  | base64Write
  deriving DecidableEq, Repr

structure EvpArgs (H : Type) where
  pwdKey : List Byte
  key : List Byte
  keySz : Nat
  iv : List Byte
  pbkdf2 : Bool
  hashType : H
  isBase64 : Bool
  noSalt : Bool
  keyType : KeyType

structure CipherInit where
  key : List Byte
  iv : List Byte
  enc : Bool
  deriving DecidableEq, Repr

structure EvpRun where
  ret : Int
  out : List Byte
  derivations : Nat
  inits : List CipherInit
  deriving DecidableEq, Repr

def maxBuffer : Nat := 1024
def saltSize : Nat := 8
def isSalted : List Byte := str "Salted__"

section EvpCrypto
variable {σ H : Type} (lib : EvpLib σ H) (fault : EvpFault → Bool)

def evpOpenInput (args : EvpArgs H) (enc : Bool) (fileIn : List Byte) : Except Int Bio :=
  if fault .openIn then .error wolfcluFatalError
  else if ¬ enc ∧ args.isBase64 then
    let bioSz := lib.fileLength fileIn.length
    if bioSz ≤ 0 then .error wolfcluFatalError
    else if fault .decodeAlloc then .error wolfcluFatalError
    else if fault .readAll ∨ (fileIn.length : Int) < bioSz then .error wolfcluFatalError
    else
      match lib.base64Decode (fileIn.take bioSz.toNat) with
      | none => .error wolfcluFatalError
      | some decoded => .ok ⟨.mem, decoded⟩
  else .ok ⟨.file, fileIn⟩

def evpReadSalt (noSalt enc : Bool) (generated : List Byte) (input : Bio) :
    Except Int (List Byte × Bio) :=
  if enc then
    if fault .generateSalt then .error wolfcluFatalError else .ok (generated, input)
  else if noSalt then .ok (List.replicate saltSize 0, input)
  else
    let (got, s, input) := input.read isSalted.length
    if got ≤ 0 then .error wolfcluFatalError
    else if s ≠ isSalted then .error wolfcluFatalError
    else
      let (got, salt, input) := input.read saltSize
      if got ≠ saltSize then .error wolfcluFatalError else .ok (salt, input)

def evpDeriveKey (args : EvpArgs H) (noSalt : Bool) (salt : List Byte) : List Byte × List Byte :=
  let salt := if noSalt then none else some salt
  if args.pbkdf2 then
    let pwdKey := blit args.pwdKey 0
      (lib.pbkdf2 (cstr args.pwdKey) salt 10000 args.hashType (args.keySz + lib.ivLength))
    (blit args.key 0 (pwdKey.take args.keySz),
      blit args.iv 0 ((pwdKey.drop args.keySz).take lib.ivLength))
  else
    let (key, iv) := lib.bytesToKey args.hashType salt (cstr args.pwdKey) 1
    (blit args.key 0 key, blit args.iv 0 iv)

def evpCryptLoop (ctx : σ) (input : Bio) (out : List Byte) (i : Nat) : Int × σ × List Byte :=
  if fault (.readIn i) then (wolfcluFatalError, ctx, out)
  else
    let r := input.read maxBuffer
    if _hneg : r.1 < 0 then
      if input.rest.length ≠ 0 then (wolfcluFatalError, ctx, out) else (wolfcluSuccess, ctx, out)
    else if _h : r.1 = 0 then (wolfcluSuccess, ctx, out)
    else
      match lib.cipher.update ctx r.2.1 with
      | none => (wolfcluFatalError, ctx, out)
      | some (ctx, output) =>
        if fault (.writeOut i) then (wolfcluFatalError, ctx, out)
        else evpCryptLoop ctx r.2.2 (out ++ output) (i + 1)
termination_by input.rest.length
decreasing_by
  exact Bio.read_rest_lt (show 0 < r.1 by omega)

def evpFlushBase64 (out : List Byte) : Int × List Byte :=
  if fault .memPtr then (wolfcluFatalError, [])
  else if fault .base64Push then (wolfcluFatalError, [])
  else
    let length := MachineInt.toInt32 out.length
    if length ≤ 0 ∨ fault .base64Write then (wolfcluSuccess, [])
    else (wolfcluSuccess, lib.base64Encode (out.take length.toNat))

def evpCrypt (args : EvpArgs H) (enc : Bool) (ctx : σ) (input : Bio) (header : List Byte) :
    Int × List Byte :=
  let toMem := enc ∧ args.isBase64
  let (ret, ctx, out) := evpCryptLoop lib fault ctx input header 0
  if ret ≠ wolfcluSuccess then (ret, if toMem then [] else out)
  else
    match lib.cipher.final ctx with
    | none => (wolfcluFatalError, if toMem then [] else out)
    | some output =>
      let out := if fault .writeFinal then out else out ++ output
      if toMem then evpFlushBase64 lib fault out else (wolfcluSuccess, out)

def evpCrypto (args : EvpArgs H) (enc : Bool) (generated fileIn : List Byte) : EvpRun :=
  let userKey := args.keyType = .user
  let noSalt := args.noSalt || userKey
  if fault .rngInit then ⟨wolfcluFatalError, [], 0, []⟩
  else
    match evpOpenInput lib fault args enc fileIn with
    | .error ret => ⟨ret, [], 0, []⟩
    | .ok input =>
      if fault .ctxNew then ⟨memoryE, [], 0, []⟩
      else
        match evpReadSalt fault noSalt enc generated input with
        | .error ret => ⟨ret, [], 0, []⟩
        | .ok (salt, input) =>
          if ¬ userKey ∧ fault .deriveKey then ⟨wolfcluFatalError, [], 1, []⟩
          else
            let (key, iv) :=
              if userKey then (args.key, args.iv) else evpDeriveKey lib args noSalt salt
            let derivations := if userKey then 0 else 1
            if fault .openOut ∨ (enc ∧ args.isBase64 ∧ fault .memOut) then
              ⟨wolfcluFatalError, [], derivations, []⟩
            else if enc ∧ ¬ noSalt ∧ (fault .writeSalted ∨ fault .writeSalt) then
              ⟨wolfcluFatalError, [], derivations, []⟩
            else if fault .cipherInit then ⟨memoryE, [], derivations, []⟩
            else
              let init : CipherInit := ⟨key.take lib.keyLength, iv.take lib.ivLength, enc⟩
              if fault .inputAlloc ∨ fault .outputAlloc then ⟨memoryE, [], derivations, [init]⟩
              else
                let header := if enc ∧ ¬ noSalt then isSalted ++ salt else []
                let (ret, out) :=
                  evpCrypt lib fault args enc (lib.init init.key init.iv enc) input header
                ⟨ret, out, derivations, [init]⟩

end EvpCrypto

end WolfCLU
