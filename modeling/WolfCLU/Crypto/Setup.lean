import WolfCLU.Crypto.Algo
import WolfCLU.Tools.HexToBin

namespace WolfCLU
open Buffer CString

inductive CryptOption where
  | certSha
  | certSha224
  | certSha256
  | certSha384
  | certSha512
  | infile
  | outfile
  | password
  | key
  | iv
  | inkey
  | output
  | pbkdf2
  | md
  | decrypt
  | debug
  | base64
  | nosalt
  | passwordSource
  deriving DecidableEq, Repr

def cryptOptions : List (LongOption CryptOption) :=
  [⟨str "-sha", false, .certSha⟩, ⟨str "-sha224", false, .certSha224⟩,
    ⟨str "-sha256", false, .certSha256⟩, ⟨str "-sha384", false, .certSha384⟩,
    ⟨str "-sha512", false, .certSha512⟩, ⟨str "-in", true, .infile⟩, ⟨str "-out", true, .outfile⟩,
    ⟨str "-pwd", true, .password⟩, ⟨str "-key", true, .key⟩, ⟨str "-iv", true, .iv⟩,
    ⟨str "-inkey", true, .inkey⟩, ⟨str "-output", true, .output⟩, ⟨str "-pbkdf2", false, .pbkdf2⟩,
    ⟨str "-md", true, .md⟩, ⟨str "-d", false, .decrypt⟩, ⟨str "-p", false, .debug⟩,
    ⟨str "-k", true, .password⟩, ⟨str "-base64", false, .base64⟩, ⟨str "-nosalt", false, .nosalt⟩,
    ⟨str "-pass", true, .passwordSource⟩]

inductive Action where
  | encrypt
  | decrypt
  | none
  deriving DecidableEq, Repr

inductive SetupAlloc where
  | mode
  | pwdKey
  | iv
  | key
  | hexCopy
  | hexToBin
  | ivString
  | keyFile
  | keyString
  deriving DecidableEq, Repr

structure SetupEnv (σ H : Type) where
  evp : Algo → EvpLib σ H
  evpFault : EvpFault → Bool
  camellia : CamelliaLib
  camelliaFault : CamelliaFault → Bool
  alloc : SetupAlloc → Bool
  base16Decode : List Byte → Option (List Byte)
  file : List Byte → Option (List Byte)
  fileLength : Nat → Int
  digestByName : Option (List Byte) → Option H
  sha256 : H
  stdinLine : Option (List Byte)
  promptPassword : Option (List Byte)
  promptInput : Option (List Byte)
  promptOutput : Option (List Byte)
  uninitialised : Algo
  generatedSalt : List Byte
  randomIv : List Byte
  randomSalt : List Byte

structure SetupState (H : Type) where
  argv : Args
  ret : Int
  pwdKey : List Byte
  key : List Byte
  iv : List Byte
  pwdKeyChk : Bool
  keyCheck : Bool
  ivCheck : Bool
  inCheck : Bool
  outCheck : Bool
  encCheck : Bool
  decCheck : Bool
  keyType : KeyType
  pbkdf2 : Bool
  isBase64 : Bool
  noSalt : Bool
  hashType : H
  input : Option (List Byte)

structure SetupRun where
  ret : Int
  keyCheck : Bool
  derivations : Nat
  inits : List CipherInit
  out : List Byte
  deriving DecidableEq, Repr

def isKeyBlank (c : Byte) : Bool := c == 13 || c == 10 || c == 32 || c == 9

def keyFileText (fileBuf : List Byte) : Option (List Byte) :=
  if fileBuf.all fun c => isKeyBlank c || Hex.isDigit c then
    some (fileBuf.filter fun c => !isKeyBlank c)
  else none

section Setup
variable {σ H : Type} (env : SetupEnv σ H)

def hexToBin (hex : List Byte) : Except Int (List Byte) :=
  if env.alloc .hexToBin then
    match env.base16Decode hex with
    | none => .error wolfcluFatalError
    | some bytes => .ok bytes
  else .error memoryE

def loadHexKeyInto (keyOut : List Byte) (keyBytes : Nat) (hex : List Byte) : Int × List Byte :=
  if hex.length ≠ keyBytes * 2 then (wolfcluFatalError, keyOut)
  else if env.alloc .hexCopy then
    match hexToBin env hex with
    | .error ret => (ret, keyOut)
    | .ok tmp => (wolfcluSuccess, blit keyOut 0 (tmp.take keyBytes))
  else (memoryE, keyOut)

def loadKeyFile (key : List Byte) (keyBytes : Nat) (name : List Byte) : Int × List Byte :=
  match env.file name with
  | none => (wolfcluFatalError, key)
  | some contents =>
    let fileLen := env.fileLength contents.length
    if fileLen ≤ 0 ∨ ¬ env.alloc .keyFile ∨ contents.length < fileLen then (wolfcluFatalError, key)
    else
      let fileBuf := contents.take fileLen.toNat
      match keyFileText fileBuf with
      | some keyString =>
        if env.alloc .keyString then loadHexKeyInto env key keyBytes keyString
        else (wolfcluFatalError, key)
      | none =>
        if fileBuf.length ≠ keyBytes then (wolfcluFatalError, key)
        else (wolfcluSuccess, blit key 0 fileBuf)

def loadIv (iv : List Byte) (block : Nat) (optarg : List Byte) : Int × List Byte :=
  if env.alloc .ivString then
    match hexToBin env optarg with
    | .error _ => (wolfcluFatalError, iv)
    | .ok ivTmp => if ivTmp.length ≠ block then (wolfcluFatalError, iv) else (wolfcluSuccess, blit iv 0 ivTmp)
  else (wolfcluFatalError, iv)

def chopLine (line : List Byte) : List Byte :=
  if (strstr [13, 10] line).isSome then line.takeWhile fun c => c != 13 && c != 10
  else line.takeWhile (· != 10)

def getPassword (password : List Byte) (passwordSz : Nat) (arg : List Byte) : Int × List Byte :=
  if passwordSz = 0 then (wolfcluFatalError, password)
  else
    let zeroed := blit password 0 (List.replicate passwordSz 0)
    if strncmp arg (str "stdin") 5 = 0 then
      match env.stdinLine with
      | none => (wolfcluFatalError, zeroed)
      | some line =>
        (wolfcluSuccess, blit zeroed 0 (chopLine (cstr (line.take (passwordSz - 1))) ++ [0]))
    else if strncmp arg (str "pass:") 5 = 0 then
      (wolfcluSuccess, blit zeroed 0 ((arg.drop 5).take (passwordSz - 1)))
    else (wolfcluFatalError, zeroed)

def SetupState.option (block keySize : Nat) (s : SetupState H) :
    CryptOption → Option (List Byte) → SetupState H
  | .passwordSource, none => { s with ret := wolfcluFatalError }
  | .passwordSource, some arg =>
    let (ret, pwdKey) := getPassword env s.pwdKey keySize arg
    if ret = wolfcluSuccess then
      { s with ret := ret, pwdKey := pwdKey, pwdKeyChk := true, keyType := .password }
    else { s with ret := ret, pwdKey := pwdKey }
  | .password, none => { s with ret := wolfcluFatalError }
  | .password, some arg =>
    { s with
      pwdKey := blit s.pwdKey 0 (arg.take (keySize - 1) ++ [0])
      pwdKeyChk := true
      keyType := .password }
  | .pbkdf2, _ => { s with pbkdf2 := true }
  | .base64, _ => { s with isBase64 := true }
  | .nosalt, _ => { s with noSalt := true }
  | .key, none => { s with ret := wolfcluFatalError }
  | .key, some arg =>
    let (ret, key) := loadHexKeyInto env s.key ((keySize + 7) / 8) arg
    if ret = wolfcluSuccess then
      { s with ret := ret, key := key, keyCheck := true, keyType := .user }
    else { s with ret := ret }
  | .iv, none => { s with ret := wolfcluFatalError }
  | .iv, some arg =>
    let (ret, iv) := loadIv env s.iv block arg
    if ret = wolfcluSuccess then { s with ret := ret, iv := iv, ivCheck := true }
    else { s with ret := ret }
  | .output, arg =>
    { s with argv := lowerArgument (str "-output") s.argv, input := arg.map (·.map toLower), inCheck := true }
  | .infile, arg => { s with input := arg, inCheck := true }
  | .outfile, _ => { s with outCheck := true }
  | .inkey, none => { s with ret := wolfcluFatalError }
  | .inkey, some arg =>
    let (ret, key) := loadKeyFile env s.key ((keySize + 7) / 8) arg
    if ret = wolfcluSuccess then
      { s with ret := ret, key := key, keyCheck := true, keyType := .user }
    else { s with ret := ret }
  | .decrypt, _ => { s with encCheck := false, decCheck := true }
  | .md, arg =>
    match env.digestByName arg with
    | none => { s with ret := wolfcluFatalError }
    | some hashType => { s with hashType := hashType }
  | _, _ => s

def setupReader (block keySize : Nat) : OptReader CryptOption (SetupState H) where
  argv := SetupState.argv
  running s := s.ret = wolfcluSuccess
  handle opt arg s :=
    match opt with
    | .foundTwice => { s with ret := wolfcluFatalError }
    | .found val => s.option env block keySize val arg

def SetupState.initial (argv : Args) (action : Action) (block keySize : Nat) : SetupState H where
  argv := argv
  ret := wolfcluSuccess
  pwdKey := List.replicate (keySize + block) 0
  key := List.replicate keySize 0
  iv := List.replicate block 0
  pwdKeyChk := false
  keyCheck := false
  ivCheck := false
  inCheck := false
  outCheck := false
  encCheck := action = .encrypt
  decCheck := action = .decrypt
  keyType := .none
  pbkdf2 := false
  isBase64 := false
  noSalt := false
  hashType := env.sha256
  input := none

def SetupState.fail (s : SetupState H) : SetupState H := { s with ret := wolfcluFatalError }

def SetupState.checkFlags (s : SetupState H) : SetupState H :=
  if s.ret ≠ wolfcluSuccess then s
  else if s.encCheck ∧ s.decCheck then s.fail
  else if ¬ s.inCheck ∧ s.decCheck then s.fail
  else if s.ivCheck ∧ ¬ s.keyCheck then s.fail
  else if s.keyCheck ∧ ¬ s.ivCheck then s.fail
  else s

def SetupState.askPassword (block keySize : Nat) (s : SetupState H) : SetupState H :=
  if s.ret = wolfcluSuccess ∧ ¬ s.pwdKeyChk ∧ ¬ s.keyCheck then
    if s.decCheck then s.fail
    else
      match env.promptPassword with
      | none => s.fail
      | some line =>
        { s with pwdKey := blit s.pwdKey 0 (line.take (keySize + block - 1) ++ [0]), pwdKeyChk := true }
  else s

def SetupState.askInput (s : SetupState H) : SetupState H :=
  if s.ret = wolfcluSuccess ∧ ¬ s.inCheck ∧ s.encCheck then
    match env.promptInput with
    | none => s.fail
    | some name => { s with input := some name, inCheck := true }
  else s

def SetupState.dropPassword (block keySize : Nat) (s : SetupState H) : SetupState H :=
  if s.ret = wolfcluSuccess ∧ s.pwdKeyChk ∧ s.keyCheck then
    { s with pwdKey := List.replicate (keySize + block) 0 }
  else s

def SetupState.check (block keySize : Nat) (s : SetupState H) : SetupState H :=
  (((s.checkFlags).askPassword env block keySize).askInput env).dropPassword block keySize

def SetupState.stopped (s : SetupState H) (ret : Int) : SetupRun := ⟨ret, s.keyCheck, 0, [], []⟩

def runEvp (lib : EvpLib σ H) (keySize : Nat) (enc : Bool) (s : SetupState H) : SetupRun :=
  match s.input.bind env.file with
  | none => s.stopped wolfcluFatalError
  | some contents =>
    let run := evpCrypto lib env.evpFault ⟨s.pwdKey, s.key, (keySize + 7) / 8, s.iv, s.pbkdf2,
      s.hashType, s.isBase64, s.noSalt, s.keyType⟩ enc env.generatedSalt contents
    ⟨run.ret, s.keyCheck, run.derivations, run.inits, run.out⟩

def runCamellia (alg : Algo) (mode : List Byte) (block keySize : Nat) (enc : Bool)
    (s : SetupState H) : Option SetupRun :=
  if ¬ s.outCheck ∧ env.promptOutput = none then some (s.stopped wolfcluFatalError)
  else
    match s.input with
    | none => some (s.stopped wolfcluFatalError)
    | some name =>
      if enc then
        (camelliaEncrypt env.camellia env.camelliaFault alg mode s.pwdKey s.key keySize name
          (env.file name) env.randomIv env.randomSalt s.iv block s.ivCheck).map fun run =>
            ⟨run.ret, s.keyCheck, run.derivations, run.inits, run.out⟩
      else
        match env.file name with
        | none => some (s.stopped decryptError)
        | some contents =>
          let run := camelliaDecrypt env.camellia env.camelliaFault alg mode s.pwdKey s.key keySize
            contents s.iv block s.keyType
          some ⟨run.ret, s.keyCheck, run.derivations, run.inits, run.out⟩

def runCipher (st : AlgoState) (block keySize : Nat) (s : SetupState H) : Option SetupRun :=
  if s.ret = wolfcluSuccess ∧ (s.encCheck ∨ s.decCheck) then
    if usesEvp st.alg then some (runEvp env (env.evp st.alg) keySize s.encCheck s)
    else runCamellia env st.alg (st.mode.getD []) block keySize s.encCheck s
  else some (s.stopped s.ret)

def setup (argv : Args) (action : Action) : Option SetupRun :=
  if 0 < checkForArg (str "-h") argv then some ⟨wolfcluSuccess, false, 0, [], []⟩
  else
    let argv := oldAlgo argv
    let (block, st) := getAlgo (env.alloc .mode) argv env.uninitialised
    if block < 0 then some ⟨wolfcluFatalError, false, 0, [], []⟩
    else if ¬ env.alloc .pwdKey ∨ ¬ env.alloc .iv ∨ ¬ env.alloc .key then
      some ⟨memoryE, false, 0, [], []⟩
    else
      let s := (setupReader env block.toNat st.size.toNat).run 1 cryptOptions
        (SetupState.initial env argv action block.toNat st.size.toNat)
      runCipher env st block.toNat st.size.toNat (s.check env block.toNat st.size.toNat)

end Setup

end WolfCLU
