import WolfCLU.Foundation.CString

namespace WolfCLU
open CString

inductive Form where
  | pem
  | der
  | raw
  | invalid
  deriving DecidableEq, Repr

def checkInform (inform : Option (List Byte)) : Form :=
  match inform with
  | none => .invalid
  | some inform =>
    if strncmp inform (str "pem") 3 = 0 then .pem
    else if strncmp inform (str "der") 3 = 0 then .der
    else if strncmp inform (str "raw") 3 = 0 then .raw
    else .invalid

inductive HashType where
  | none
  | md5
  | sha
  | sha224
  | sha256
  | sha384
  | sha512
  deriving DecidableEq, Repr

def stringToHashType (name : List Byte) : HashType :=
  if strncmp name (str "md5") 3 = 0 then .md5
  else if strncmp name (str "sha512") 6 = 0 then .sha512
  else if strncmp name (str "sha384") 6 = 0 then .sha384
  else if strncmp name (str "sha256") 6 = 0 then .sha256
  else if strncmp name (str "sha224") 6 = 0 then .sha224
  else if strncmp name (str "sha") 3 = 0 then .sha
  else .none

end WolfCLU
