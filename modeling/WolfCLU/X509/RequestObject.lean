import WolfCLU.Foundation.MachineInt
import WolfCLU.Tools.Forms
import WolfCLU.X509.SubjectDatabase

namespace WolfCLU
open CString

inductive PKeyKind where
  | rsa
  | dsa
  | ec
  | dh
  | other
  deriving DecidableEq, Repr

structure PKey where
  kind : PKeyKind
  material : List Byte
  deriving DecidableEq, Repr

inductive AltNameType where
  | ip
  | dns
  | uri
  | rid
  | rfc822
  deriving DecidableEq, Repr

inductive Extension where
  | basicConstraints (crit ca : Bool) (pathlen : Option Int)
  | subjectKeyIdentifier (crit : Bool) (skid : List Byte)
  | keyUsage (crit : Bool) (flags : Nat)
  deriving DecidableEq, Repr

inductive Attribute where
  | challengePassword
  | unstructuredName
  deriving DecidableEq, Repr

inductive X509Version where
  | v1
  | v3
  deriving DecidableEq, Repr

inductive X509Call where
  | setNotBefore (time : List Byte)
  | setNotAfter (time : List Byte)
  | setPubkey (pkey : PKey)
  | addAttribute (attr : Attribute) (value : List Byte)
  | addExt (ext : Extension)
  | addAltName (s : List Byte) (sSz : Int) (type : AltNameType)
  | setSubjectName (name : X509Name)
  | setVersion (version : X509Version)
  | sign (cert : Bool) (pkey : PKey) (md : HashType)
  deriving DecidableEq, Repr

-- an object stands for the calls made on it since it was created or read
abbrev X509Object := List X509Call

structure X509Lib where
  answer : X509Object → X509Call → Int
  extIsSet : X509Object → Bool
  pubkey : X509Object → Option PKey
  verify : X509Object → PKey → Int
  subjectKeyId : PKey → Option (List Byte)
  extension : Extension → Bool
  a2iIpAddress : List Byte → Option (List Byte)
  txt2obj : List Byte → Option (List Byte)
  encodeObjectId : List Nat → Option (List Byte)
  oidDottedMaxSz : Nat

def X509Lib.call (lib : X509Lib) (x509 : X509Object) (op : X509Call) : Int × X509Object :=
  (lib.answer x509 op, x509 ++ [op])

structure ConfFile where
  string : Option (List Byte) → List Byte → Option (List Byte)
  number : Option (List Byte) → List Byte → Option Int
  pairs : List Byte → Option (List (List Byte × List Byte))

inductive TextCopy where
  | rid
  | subjectAltName
  | addExt
  deriving DecidableEq, Repr

structure CopyEnv where
  alloc : TextCopy → Nat → Bool
  heap : TextCopy → List Byte

def CopyEnv.copy (env : CopyEnv) (site : TextCopy) (text : List Byte) : Option (List Byte) :=
  let size := MachineInt.sizeT (MachineInt.toInt32 (MachineInt.toInt32 text.length + 1))
  if env.alloc site size then some (cstr ((text ++ [0]).take size ++ env.heap site)) else none

structure CopyEnv.Copies (env : CopyEnv) (site : TextCopy) (text : List Byte) : Prop where
  length : text.length < MachineInt.intMax
  alloc : env.alloc site (text.length + 1) = true

theorem CopyEnv.Copies.copy {env : CopyEnv} {site : TextCopy} {text : List Byte}
    (h : env.Copies site text) (hnul : (0 : Byte) ∉ text) : env.copy site text = some text := by
  have hlength := h.length
  simp only [MachineInt.intMax] at hlength
  have hlen : MachineInt.toInt32 text.length = text.length :=
    MachineInt.toInt32_of_range (by omega) (by simp only [MachineInt.intMax]; omega)
  have hnext : MachineInt.toInt32 ((text.length : Int) + 1) = text.length + 1 :=
    MachineInt.toInt32_of_range (by omega) (by simp only [MachineInt.intMax]; omega)
  have hsize : MachineInt.sizeT ((text.length : Int) + 1) = text.length + 1 := by
    simp only [MachineInt.sizeT]
    omega
  have htake : (text ++ [0]).take (text.length + 1) = text ++ [0] :=
    List.take_of_length_le (by simp)
  simp only [CopyEnv.copy, hlen, hnext, hsize, h.alloc, if_true, htake]
  rw [List.append_assoc, List.singleton_append, cstr_append_nul, cstr_of_nul_free hnul]

def plainLib : X509Lib where
  answer _ _ := wolfcluSuccess
  extIsSet x509 := x509.any fun call => match call with
    | .addExt (.basicConstraints _ _ _) => true
    | _ => false
  pubkey _ := none
  verify _ _ := 0
  subjectKeyId _ := none
  extension _ := true
  a2iIpAddress _ := none
  txt2obj _ := none
  encodeObjectId _ := none
  oidDottedMaxSz := 32

end WolfCLU
