import WolfCLU.X509.RequestObject

namespace WolfCLU
open CString TextLine

section AltNames
variable (lib : X509Lib) (env : CopyEnv)

def ridComponents (value : List (List Byte)) (decoded : List Nat) : Except Int (List Nat) :=
  match value with
  | [] => .ok decoded
  | token :: tokens =>
    if decoded.length ≥ lib.oidDottedMaxSz then .error wolfcluFatalError
    else if ¬ token.all isDigit then .error wolfcluFatalError
    else
      let n := atoi token
      if n < 0 ∨ n > 0xFFFF then .error wolfcluFatalError
      else ridComponents tokens (decoded ++ [n.toNat])

def ridData (value : List Byte) : Except Int (List Byte) :=
  match lib.txt2obj value with
  | some data => .ok data
  | none =>
    match env.copy .rid value with
    | none => .error memoryE
    | some ridDup => do
      let decoded ← ridComponents lib (strtok 46 ridDup) []
      match lib.encodeObjectId decoded with
      | none => .error wolfcluFatalError
      | some oid => .ok oid

def altNameData (name value : List Byte) : Except Int (List Byte × Int × AltNameType) :=
  let text (type : AltNameType) := (value, MachineInt.toInt32 value.length, type)
  if strncmp name (str "IP") 2 = 0 then
    match lib.a2iIpAddress value with
    | none => .error wolfcluFatalError
    | some ip => .ok (ip, ip.length, .ip)
  else if strncmp name (str "DNS") 3 = 0 then .ok (text .dns)
  else if strncmp name (str "URI") 3 = 0 then .ok (text .uri)
  else if strncmp name (str "RID") 3 = 0 then do
    let oid ← ridData lib env value
    .ok (oid, oid.length, .rid)
  else if strncmp name (str "email") 5 = 0 then .ok (text .rfc822)
  else .error wolfcluFatalError

def addAltName (x509 : X509Object) (name value : List Byte) : Int × X509Object :=
  match altNameData lib env name value with
  | .error ret => (ret, x509)
  | .ok (s, sSz, type) =>
    let (ret, x509) := lib.call x509 (.addAltName s sSz type)
    (if ret = wolfcluSuccess then wolfcluSuccess else wolfcluFatalError, x509)

def altNamesLoop (x509 : X509Object) : List (List Byte × List Byte) → Int × X509Object
  | [] => (wolfcluSuccess, x509)
  | (name, value) :: altNames =>
    let (ret, x509) := addAltName lib env x509 name value
    if ret = wolfcluSuccess then altNamesLoop x509 altNames else (ret, x509)

def setAltNames (x509 : X509Object) (conf : ConfFile) (sect : Option (List Byte)) :
    Int × X509Object :=
  match sect with
  | none => (wolfcluSuccess, x509)
  | some sect =>
    match conf.pairs sect with
    | none => (wolfcluSuccess, x509)
    | some altNames => altNamesLoop lib env x509 altNames

def isTrimmed (c : Byte) : Bool := c == 32 || c == 9 || c == 13 || c == 10

def inlineEntry (token : List Byte) : Option (List Byte × List Byte) :=
  let token := (token.dropWhile isTrimmed).rdropWhile isTrimmed
  match strstr [58] token with
  | none => none
  | some colon =>
    let value := (token.drop (colon + 1)).dropWhile isTrimmed
    if (token.take colon).length = 0 then none
    else if value.length = 0 then none
    else some (token.take colon, value)

def inlineLoop (x509 : X509Object) : List (List Byte) → Int × X509Object
  | [] => (wolfcluSuccess, x509)
  | token :: tokens =>
    match inlineEntry token with
    | none => (wolfcluFatalError, x509)
    | some (name, value) =>
      let (ret, x509) := addAltName lib env x509 name value
      if ret = wolfcluSuccess then inlineLoop x509 tokens else (ret, x509)

def setInlineAltNames (x509 : X509Object) (val : List Byte) : Int × X509Object :=
  inlineLoop lib env x509 (strtok 44 val)

end AltNames

section Errors
variable {lib : X509Lib} {env : CopyEnv}

theorem ridComponents_fails (tokens : List (List Byte)) (decoded : List Nat) :
    Errors Fails (ridComponents lib tokens decoded) := by
  fun_induction ridComponents lib tokens decoded with
  | case1 => exact errors_ok _
  | case2 => exact errors_error fails_fatal
  | case3 => exact errors_error fails_fatal
  | case4 => exact errors_error fails_fatal
  | case5 decoded token tokens _ _ n _ ih => exact ih

theorem ridData_fails (value : List Byte) : Errors Fails (ridData lib env value) := by
  unfold ridData
  split
  · exact errors_ok _
  · split
    · exact errors_error (fails_of_neg (by decide))
    · refine (ridComponents_fails _ _).bind fun decoded => ?_
      split
      · exact errors_error fails_fatal
      · exact errors_ok _

theorem altNameData_fails (name value : List Byte) :
    Errors Fails (altNameData lib env name value) := by
  unfold altNameData
  split_ifs
  · split
    · exact errors_error fails_fatal
    · exact errors_ok _
  · exact errors_ok _
  · exact errors_ok _
  · exact (ridData_fails value).bind fun oid => errors_ok _
  · exact errors_ok _
  · exact errors_error fails_fatal

theorem addAltName_ok {x509 : X509Object} {name value : List Byte}
    (h : (addAltName lib env x509 name value).1 = wolfcluSuccess) :
    ∃ data, altNameData lib env name value = .ok data := by
  unfold addAltName at h
  rcases hdata : altNameData lib env name value with ret | data
  · rw [hdata] at h
    exact absurd h (altNameData_fails name value ret hdata)
  · exact ⟨data, rfl⟩

end Errors

end WolfCLU
