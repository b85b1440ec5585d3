import WolfCLU.Foundation.TextLine

namespace WolfCLU.Ocsp
open CString TextLine

def externalSerialSize : Nat := 32

def serialCapacity : Nat := 2 * externalSerialSize

def lineBufferSz : Nat := 1024

structure Tm where
  year : Int
  mon : Int
  mday : Int
  hour : Int
  min : Int
  sec : Int
  deriving DecidableEq, Repr

structure IndexEntry where
  status : Byte
  revocationTime : Int
  serial : List Byte
  deriving DecidableEq, Repr

def charValue (b : Byte) : Int := if b < 128 then b.toNat else (b.toNat : Int) - 256

def twoDigits (field : List Byte) (i : Nat) : Int :=
  (charValue (field.getD i 0) - 48) * 10 + (charValue (field.getD (i + 1) 0) - 48)

def fieldTime (field : List Byte) : Tm :=
  let year := twoDigits field 0
  { year := if year < 50 then 100 + year else year
    mon := twoDigits field 2 - 1
    mday := twoDigits field 4
    hour := twoDigits field 6
    min := twoDigits field 8
    sec := twoDigits field 10 }

section Parse
variable (mktime : Tm → Int)

def assignField (fieldNum : Nat) (field : List Byte) (entry : IndexEntry) : IndexEntry :=
  match fieldNum with
  | 0 => { entry with status := field.headD 0 }
  | 2 =>
    if field.headD 0 ≠ 0 ∧ field.length ≥ 12 then
      { entry with revocationTime := mktime (fieldTime field) }
    else entry
  | 3 => if field.length > serialCapacity then entry else { entry with serial := field }
  | _ => entry

def fieldLoop : List (List Byte) → Nat → IndexEntry → Nat × IndexEntry
  | [], fieldNum, entry => (fieldNum, entry)
  | field :: fields, fieldNum, entry =>
    if fieldNum < 6 then fieldLoop fields (fieldNum + 1) (assignField mktime fieldNum field entry)
    else (fieldNum, entry)

def parseLine (line : List Byte) : Option IndexEntry :=
  if line.headD 0 = 10 ∨ line.headD 0 = 13 ∨ line.headD 0 = 0 then none
  else
    let (fieldNum, entry) := fieldLoop mktime (strsep 9 (cstr line)) 0 ⟨0, 0, []⟩
    if fieldNum < 4 ∨ entry.serial = [] then none
    else if entry.status = 82 ∧ entry.revocationTime = -1 then none
    else some entry

def parseLines : List (List Byte) → List IndexEntry → List IndexEntry
  | [], entries => entries
  | line :: lines, entries =>
    match parseLine mktime line with
    | none => parseLines lines entries
    | some entry => parseLines lines (entries ++ [entry])

def parseIndexFile (file : Option (List Byte)) : List IndexEntry :=
  match file with
  | none => []
  | some text => parseLines mktime (fgetsAll (lineBufferSz - 1) text) []

end Parse

end WolfCLU.Ocsp
