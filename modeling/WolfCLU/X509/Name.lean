import WolfCLU.Foundation.CString

namespace WolfCLU
open CString

inductive Nid where
  | countryName
  | stateOrProvinceName
  | localityName
  | organizationName
  | organizationalUnitName
  | commonName
  | emailAddress
  | other (n : Nat)
  deriving DecidableEq, Repr

structure NameEntry where
  nid : Nid
  value : List Byte
  deriving DecidableEq, Repr

abbrev X509Name := List NameEntry

def valueOf (name : X509Name) (nid : Nid) : Option (List Byte) :=
  (name.find? (fun e => e.nid = nid)).map NameEntry.value

structure TextByNid where
  size : X509Name → Nid → Int
  text : X509Name → Nid → Nat → Int × List Byte
  size_present : ∀ {name nid v}, valueOf name nid = some v → size name nid = v.length
  size_absent : ∀ {name nid}, valueOf name nid = none → size name nid ≤ 0
  text_present : ∀ {name nid v len}, valueOf name nid = some v → 0 < len →
    text name nid len = (((v.take (len - 1)).length : Int), v.take (len - 1) ++ [0])

def getTextByNid : TextByNid where
  size name nid := ((valueOf name nid).map fun v => (v.length : Int)).getD (-1)
  text name nid len :=
    match valueOf name nid with
    | none => (-1, [])
    | some v => (((v.take (len - 1)).length : Int), v.take (len - 1) ++ [0])
  size_present h := by simp [h]
  size_absent h := by simp [h]
  text_present h _ := by simp [h]

end WolfCLU
