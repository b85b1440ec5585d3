import WolfCLU.X509.AltNames

namespace WolfCLU
open CString TextLine

def toUpper (c : Byte) : Byte := if 97 ≤ c ∧ c ≤ 122 then c - 32 else c

def setAttribute (lib : X509Lib) (conf : ConfFile) (sect : Option (List Byte)) (key : String)
    (attr : Attribute) (x509 : X509Object) : X509Object :=
  match conf.string sect (str key) with
  | none => x509
  | some current => (lib.call x509 (.addAttribute attr current)).2

def setAttributes (lib : X509Lib) (conf : ConfFile) (sect : Option (List Byte))
    (x509 : X509Object) : X509Object :=
  setAttribute lib conf sect "unstructuredName" .unstructuredName
    (setAttribute lib conf sect "challengePassword" .challengePassword x509)

structure BasicConstraint where
  ca : Bool
  pathlen : Option Int

def basicConstraintWords : List (List Byte) → BasicConstraint → BasicConstraint
  | [], obj => obj
  | [_], obj => obj
  | word :: value :: words, obj =>
    if word = str "CA" then
      basicConstraintWords words
        (if value.map toUpper = str "TRUE" then { obj with ca := true } else obj)
    else if word = str "pathlen" then
      basicConstraintWords words { obj with pathlen := some (atoi value) }
    else basicConstraintWords (value :: words) obj

def afterCritical (s : List Byte) : Option (List Byte) :=
  let rest := s.dropWhile (· ≠ 44)
  if rest.length ≤ 1 then none else some ((rest.drop 1).dropWhile (· = 32))

def parseBasicConstraint (s : List Byte) (crit : Bool) : Option Extension := do
  let words ← if crit then afterCritical s else some s
  let obj := basicConstraintWords (strtok 58 words) ⟨false, none⟩
  some (.basicConstraints crit obj.ca obj.pathlen)

section ParseExtension
variable (lib : X509Lib)

def built (ext : Extension) : Option Extension := if lib.extension ext then some ext else none

def subjectKeyIdWords (x509 : X509Object) (crit : Bool) :
    List (List Byte) → Option Extension → Option Extension
  | [], ext => ext
  | word :: words, ext =>
    if strncmp word (str "hash") word.length = 0 then
      match lib.pubkey x509 with
      | none => none
      | some pkey =>
        match lib.subjectKeyId pkey with
        | none => subjectKeyIdWords x509 crit words ext
        | some skid => subjectKeyIdWords x509 crit words (built lib (.subjectKeyIdentifier crit skid))
    else subjectKeyIdWords x509 crit words ext

def parseSubjectKeyID (x509 : X509Object) (s : List Byte) (crit : Bool) : Option Extension :=
  subjectKeyIdWords lib x509 crit (strtok 44 s) none

def keyUsages : List (List Byte × Nat) :=
  [(str "digitalSignature", 0x0080), (str "nonRepudiation", 0x0040),
    (str "contentCommitment", 0x0040), (str "keyEncipherment", 0x0020),
    (str "dataEncipherment", 0x0010), (str "keyAgreement", 0x0008), (str "keyCertSign", 0x0004),
    (str "cRLSign", 0x0002), (str "encipherOnly", 0x0001), (str "decipherOnly", 0x8000)]

def keyUseFlag (word : List Byte) : Nat := (keyUsages.lookup (word.dropWhile (· = 32))).getD 0

def parseKeyUsage (s : List Byte) (crit : Bool) : Option Extension :=
  built lib (.keyUsage crit ((strtok 44 s).foldl (fun flags word => flags ||| keyUseFlag word) 0))

inductive ExtensionKey where
  | basicConstraints
  | subjectKeyIdentifier
  | authorityKeyIdentifier
  | keyUsage
  deriving DecidableEq, Repr

def ExtensionKey.name : ExtensionKey → List Byte
  | .basicConstraints => str "basicConstraints"
  | .subjectKeyIdentifier => str "subjectKeyIdentifier"
  | .authorityKeyIdentifier => str "authorityKeyIdentifier"
  | .keyUsage => str "keyUsage"

def parseExtension (x509 : X509Object) (s : List Byte) (nid : ExtensionKey) : X509Object :=
  let crit := (strstr (str "critical") s).isSome
  let ext :=
    match nid with
    | .basicConstraints =>
      (parseBasicConstraint s crit).bind (built lib)
    | .subjectKeyIdentifier => parseSubjectKeyID lib x509 s crit
    | .authorityKeyIdentifier => none
    | .keyUsage => parseKeyUsage lib s crit
  match ext with
  | none => x509
  | some ext => (lib.call x509 (.addExt ext)).2

def setExtension (conf : ConfFile) (sect : List Byte) (x509 : X509Object) (nid : ExtensionKey) :
    X509Object :=
  match conf.string (some sect) nid.name with
  | none => x509
  | some current => parseExtension lib x509 current nid

def setParsedExtensions (conf : ConfFile) (sect : List Byte) (x509 : X509Object) : X509Object :=
  [ExtensionKey.basicConstraints, .subjectKeyIdentifier, .authorityKeyIdentifier, .keyUsage].foldl
    (setExtension lib conf sect) x509

variable (env : CopyEnv)

def setSubjectAltName (x509 : X509Object) (conf : ConfFile) (sect : List Byte) :
    Int × X509Object :=
  match conf.string (some sect) (str "subjectAltName") with
  | none => (wolfcluSuccess, x509)
  | some current =>
    if current.headD 0 = 64 then setAltNames lib env x509 conf (some (current.drop 1))
    else
      match env.copy .subjectAltName current with
      | none => (wolfcluFatalError, x509)
      | some dup => setInlineAltNames lib env x509 dup

def setExtensions (x509 : X509Object) (conf : ConfFile) (sect : Option (List Byte)) :
    Int × X509Object :=
  match sect with
  | none => (wolfcluSuccess, x509)
  | some sect => setSubjectAltName lib env (setParsedExtensions lib conf sect x509) conf sect

def parseAddExt (x509 : X509Object) (addExt : List Byte) : Int × X509Object :=
  match env.copy .addExt addExt with
  | none => (memoryE, x509)
  | some dup =>
    match strstr [61] dup with
    | none => (wolfcluFatalError, x509)
    | some eq =>
      if dup.take eq = str "subjectAltName" then setInlineAltNames lib env x509 (dup.drop (eq + 1))
      else (wolfcluFatalError, x509)

end ParseExtension

-- what each next call of wolfCLU_getline on stdin yields; at the end of the file that is nothing
abbrev Stdin := List (Option (List Byte))

def getline : Stdin → Option (List Byte) × Stdin
  | [] => (some [], [])
  | line :: stdin => (line, stdin)

def organizationNames : List (List Byte × Nid) :=
  (List.range 10).map fun i => (decimal i ++ str ".organizationName", .organizationName)

def distinguishedNames : List (List Byte × Nid) :=
  (str "countryName", .countryName) :: (str "stateOrProvinceName", .stateOrProvinceName) ::
    (str "localityName", .localityName) :: (str "organizationName", .organizationName) ::
    organizationNames.append
      [(str "organizationalUnitName", .organizationalUnitName), (str "commonName", .commonName),
        (str "CN", .commonName), (str "emailAddress", .emailAddress), (str "name", .other 41),
        (str "surname", .other 4), (str "initials", .other 43), (str "givenName", .other 42),
        (str "dnQualifier", .other 46)]

structure DisNameEnv where
  names : NameLib
  nameAlloc : Bool
  keyAlloc : List Byte → Bool

section DisNames
variable (disNames : DisNameEnv)

def checkLength (conf : ConfFile) (sect key value : List Byte) : Bool :=
  (conf.number (some sect) (key ++ str "_max")).all (fun mx => (value.length : Int) ≤ mx) &&
    (conf.number (some sect) (key ++ str "_min")).all (fun mn => mn ≤ (value.length : Int))

def promptDisName (conf : ConfFile) (sect : List Byte) (name : X509Name) (key : List Byte)
    (nid : Nid) (stdin : Stdin) : Except Int (X509Name × Stdin) :=
  match getline stdin with
  | (none, _) => .error wolfcluFatalError
  | (some line, stdin) =>
    let deflt :=
      if line ≠ [] then some line else conf.string (some sect) (key ++ str "_default")
    match deflt with
    | none => .ok (name, stdin)
    | some value =>
      if value = str "." then .ok (name, stdin)
      else if checkLength conf sect key value then
        .ok (addNameEntry disNames.names name nid value, stdin)
      else .error wolfcluFatalError

def checkDisName (conf : ConfFile) (sect : List Byte) (noPrompt : Bool) (name : X509Name)
    (key : List Byte) (nid : Nid) (stdin : Stdin) : Except Int (X509Name × Stdin) :=
  if noPrompt then
    match conf.string (some sect) key with
    | none => .ok (name, stdin)
    | some current => .ok (addNameEntry disNames.names name nid current, stdin)
  else if ¬ disNames.keyAlloc key then .error wolfcluFatalError
  else
    match conf.string (some sect) key with
    | none => .ok (name, stdin)
    | some _ => promptDisName disNames conf sect name key nid stdin

def checkDisNames (conf : ConfFile) (sect : List Byte) (noPrompt : Bool) :
    List (List Byte × Nid) → X509Name → Stdin → Except Int X509Name
  | [], name, _ => .ok name
  | (key, nid) :: keys, name, stdin => do
    let (name, stdin) ← checkDisName disNames conf sect noPrompt name key nid stdin
    checkDisNames conf sect noPrompt keys name stdin

def setDisNames (lib : X509Lib) (x509 : X509Object) (conf : ConfFile) (sect : Option (List Byte))
    (noPrompt : Bool) (stdin : Stdin) : Int × X509Object :=
  match sect with
  | none => (wolfcluSuccess, x509)
  | some sect =>
    if ¬ disNames.nameAlloc then (wolfcluFatalError, x509)
    else
      match checkDisNames disNames conf sect noPrompt distinguishedNames [] stdin with
      | .error ret => (ret, x509)
      | .ok name => lib.call x509 (.setSubjectName name)

def readConfig (lib : X509Lib) (env : CopyEnv) (x509 : X509Object) (conf : ConfFile)
    (sect : List Byte) (ext : Option (List Byte)) (stdin : Stdin) : Int × X509Object :=
  let get (key : String) := conf.string (some sect) (str key)
  let noPrompt := (get "prompt").any fun current => (strstr (str "no") current).isSome
  let x509 := setAttributes lib conf (get "attributes") x509
  let (ret, x509) :=
    match ext with
    | none => setExtensions lib env x509 conf (get "x509_extensions")
    | some ext =>
      if (conf.pairs ext).isNone then (wolfcluFatalError, x509)
      else setExtensions lib env x509 conf (some ext)
  if ret = wolfcluSuccess then
    setDisNames disNames lib x509 conf (get "distinguished_name") noPrompt stdin
  else (ret, x509)

end DisNames

end WolfCLU
