import WolfCLU.ErrorCodes
import WolfCLU.Foundation.Hex

namespace WolfCLU
open CString

structure BioOutput where
  ret : Int
  bytes : List Byte
  deriving DecidableEq, Repr

def failedOutput : BioOutput := ⟨wolfcluFatalError, []⟩

def wolfsslSuccess : Int := 1
def wolfsslFailure : Int := 0

def maxTermWidth : Nat := 80

def snprintf (size : Nat) (text : List Byte) : List Byte := text.take (size - 1)

inductive ExtKeyUse where
  | any
  | serverAuth
  | clientAuth
  | ocspSign
  | emailProtect
  | timestamp
  deriving DecidableEq, Repr

namespace ExtKeyUse

def all : List ExtKeyUse := [.any, .serverAuth, .clientAuth, .ocspSign, .emailProtect, .timestamp]

def text : ExtKeyUse → List Byte
  | .any => str "Any Extended Key Usage"
  | .serverAuth => str "TLS Web Server Authentication"
  | .clientAuth => str "TLS Web Client Authentication"
  | .ocspSign => str "OCSP Signing"
  | .emailProtect => str "Email Protect"
  | .timestamp => str "Time Stamp Signing"

end ExtKeyUse

section Output
variable (alloc : Nat → Bool) (bioWrite : List Byte → Int)

def writePem (text : Option (List Byte)) : BioOutput :=
  match text with
  | none => failedOutput
  | some pem =>
    let n := bioWrite pem
    ⟨if n ≠ pem.length then wolfcluFatalError else wolfcluSuccess, pem.take n.toNat⟩

def printDer (derToPem : List Byte → Option (List Byte)) (der : List Byte) : BioOutput :=
  match derToPem der with
  | none => failedOutput
  | some pem => if alloc pem.length = false then failedOutput else writePem bioWrite (some pem)

def printX509PubKey (derToPem : List Byte → Option (List Byte)) (pubkey : Option (List Byte)) :
    BioOutput :=
  match pubkey with
  | none => failedOutput
  | some der =>
    if alloc der.length = false then failedOutput else printDer alloc bioWrite derToPem der

def BioOutput.write (p : BioOutput) (text : List Byte) : BioOutput :=
  { p with bytes := p.bytes ++ text.take (bioWrite text).toNat }

def extKeyUsageLine (indent : Nat) (flag : Bool) (use : ExtKeyUse) (ava : Nat) : List Byte :=
  snprintf maxTermWidth (List.replicate indent 32 ++ use.text ++
    (if flag then if 0 < ava then str " : YES" else str " : NO" else []) ++ [10])

def extKeyUsagePrint (oid : ExtKeyUse → Nat) (keyUsage indent : Nat) (flag : Bool) (p : BioOutput) :
    BioOutput :=
  let heading := snprintf maxTermWidth (List.replicate indent 32 ++ str "Certificate Purpose:\n")
  let p := if flag then p.write bioWrite heading else p
  ExtKeyUse.all.foldl (fun p use =>
    let ava := oid use &&& keyUsage
    if ava ≠ 0 ∨ flag then p.write bioWrite (extKeyUsageLine indent flag use ava) else p) p

end Output

end WolfCLU
