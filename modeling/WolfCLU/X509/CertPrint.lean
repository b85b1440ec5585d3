import WolfCLU.X509.Name
import WolfCLU.X509.Parse

namespace WolfCLU
open CString

inductive CertPrint where
  | subject
  | issuer
  | serial
  | dates
  | email
  | fingerprint
  | purpose
  | subjHash
  | text
  | modulus
  | pubkey
  deriving DecidableEq, Repr

def certPrints : List CertPrint :=
  [.subject, .issuer, .serial, .dates, .email, .fingerprint, .purpose, .subjHash, .text, .modulus,
    .pubkey]

inductive CertPubkey where
  | rsa (modulus : Option (Option (List Byte)))
  | other
  deriving DecidableEq, Repr

structure CertFields where
  subject : Option (List Byte)
  subjectName : Option X509Name
  issuer : Option (List Byte)
  serial : Option (List Byte)
  notBefore : BioOutput
  notAfter : BioOutput
  extKeyUsage : Int
  text : BioOutput
  pubkey : Option CertPubkey
  pubkeyBuffer : Option (List Byte)

structure CertPrintLib where
  names : TextByNid
  sha1 : List Byte → Option (List Byte)
  ekuOid : ExtKeyUse → Nat
  nameHash : X509Name → Nat
  pubkeyPem : List Byte → Option (List Byte)

section Print
variable (alloc : Nat → Bool) (bioWrite : List Byte → Int) (lib : CertPrintLib)

namespace BioOutput

def fail (p : BioOutput) : BioOutput := { p with ret := wolfcluFatalError }

def writeIf (fails : Int → Bool) (text : List Byte) (p : BioOutput) : BioOutput :=
  if p.ret ≠ wolfcluSuccess then p
  else if fails (bioWrite text) then (p.write bioWrite text).fail
  else p.write bioWrite text

def writeSome (text : List Byte) (p : BioOutput) : BioOutput :=
  p.writeIf bioWrite (fun n => n ≤ 0) text

def writeAny (text : List Byte) (p : BioOutput) : BioOutput :=
  p.writeIf bioWrite (fun n => n < 0) text

def append (q p : BioOutput) : BioOutput :=
  if p.ret ≠ wolfcluSuccess then p
  else
    ⟨if q.ret ≠ wolfsslSuccess then wolfcluFatalError else wolfcluSuccess, p.bytes ++ q.bytes⟩

end BioOutput

def printOneline (line : Option (List Byte)) (p : BioOutput) : BioOutput :=
  match line with
  | none => p
  | some line => (p.write bioWrite line).write bioWrite [10]

def printSerial (serial : Option (List Byte)) (p : BioOutput) : BioOutput :=
  match serial with
  | none => p
  | some serial =>
    (serial.foldl (fun p b => p.writeSome bioWrite (Hex.byteText b.toNat))
      (p.writeSome bioWrite (str "serial="))).writeSome bioWrite [10]

def printDates (notBefore notAfter : BioOutput) (p : BioOutput) : BioOutput :=
  (((((p.writeAny bioWrite (str "notBefore=")).append notBefore).writeAny bioWrite [10]).writeAny
    bioWrite (str "notAfter=")).append notAfter).writeAny bioWrite [10]

def printEmail (name : Option X509Name) (p : BioOutput) : BioOutput :=
  match name with
  | none => p
  | some name =>
    let emailSz := lib.names.size name .emailAddress
    if emailSz ≤ 0 then p
    else if alloc (emailSz + 2).toNat = false then p.fail
    else
      let (n, emailBuf) := lib.names.text name .emailAddress (emailSz + 2).toNat
      if n ≤ 0 then p.fail
      else p.writeAny bioWrite (cstr (emailBuf.take emailSz.toNat ++ [10]))

def fingerLoop (p : BioOutput) : List Byte → BioOutput
  | [] => p
  | b :: digest =>
    if bioWrite (Hex.byteText b.toNat) ≤ 0 then (p.write bioWrite (Hex.byteText b.toNat)).fail
    else fingerLoop (p.write bioWrite (Hex.byteText b.toNat)) digest

def printFinger (der : Option (List Byte)) (p : BioOutput) : BioOutput :=
  match der.bind lib.sha1 with
  | none => p
  | some digest =>
    (fingerLoop bioWrite (p.writeSome bioWrite (str "SHA1 of cert. DER : ")) digest).writeAny
      bioWrite [10]

def printPurpose (extKeyUsage : Int) (p : BioOutput) : BioOutput :=
  extKeyUsagePrint bioWrite lib.ekuOid extKeyUsage.toNat 0 true p

def nameHashText (hash : Nat) : List Byte :=
  let digits := (Nat.digits 16 hash).reverse.map Hex.lowerDigit
  List.replicate (8 - digits.length) 48 ++ digits

def printSubjHash (name : Option X509Name) (p : BioOutput) : BioOutput :=
  match name with
  | none => p
  | some name =>
    (p.writeSome bioWrite (snprintf maxTermWidth (nameHashText (lib.nameHash name)))).writeAny bioWrite
      [10]

def printModulus (pubkey : Option CertPubkey) (p : BioOutput) : BioOutput :=
  match pubkey with
  | none => p.fail
  | some .other => p.write bioWrite (str "Wrong Algorithm type")
  | some (.rsa none) => p.fail.write bioWrite [10]
  | some (.rsa (some none)) => p.write bioWrite [10]
  | some (.rsa (some (some hex))) =>
    ((p.writeSome bioWrite (str "Modulus=")).writeSome bioWrite hex).write bioWrite [10]

def printPart (der : Option (List Byte)) (fields : CertFields) (p : BioOutput) :
    CertPrint → BioOutput
  | .subject => printOneline bioWrite fields.subject p
  | .issuer => printOneline bioWrite fields.issuer p
  | .serial => printSerial bioWrite fields.serial p
  | .dates => printDates bioWrite fields.notBefore fields.notAfter p
  | .email => printEmail alloc bioWrite lib fields.subjectName p
  | .fingerprint => printFinger bioWrite lib der p
  | .purpose => printPurpose bioWrite lib fields.extKeyUsage p
  | .subjHash => printSubjHash bioWrite lib fields.subjectName p
  | .text => p.append fields.text
  | .modulus => printModulus bioWrite fields.pubkey p
  | .pubkey => p.append (printX509PubKey alloc bioWrite lib.pubkeyPem fields.pubkeyBuffer)

def printParts (der : Option (List Byte)) (fields : CertFields) (parts : List CertPrint) :
    BioOutput :=
  parts.foldl (fun p part =>
    if p.ret = wolfcluSuccess then printPart alloc bioWrite lib der fields p part else p)
    ⟨wolfcluSuccess, []⟩

end Print

end WolfCLU
