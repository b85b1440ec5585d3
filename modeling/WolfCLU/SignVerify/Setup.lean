import WolfCLU.SignVerify.Verify
import WolfCLU.Tools.GetOpt

namespace WolfCLU
open CString

def inputFileError : Int := -1002

inductive SignVerifyOption where
  | sign
  | verify
  | pubIn
  | inKey
  | inFile
  | outFile
  | sigFile
  | inForm
  | help
  deriving DecidableEq, Repr

def signVerifyOptions : List (LongOption SignVerifyOption) :=
  [⟨str "-sign", false, .sign⟩, ⟨str "-verify", false, .verify⟩, ⟨str "-pubin", false, .pubIn⟩,
    ⟨str "-inkey", true, .inKey⟩, ⟨str "-in", true, .inFile⟩, ⟨str "-out", true, .outFile⟩,
    ⟨str "-sigfile", true, .sigFile⟩, ⟨str "-inform", true, .inForm⟩, ⟨str "-h", false, .help⟩,
    ⟨str "-help", false, .help⟩]

structure SignVerifyState where
  argv : Args
  ret : Int
  input : Option (List Byte)
  out : Option (List Byte)
  priv : Option (List Byte)
  sig : Option (List Byte)
  inCheck : Bool
  signCheck : Bool
  verifyCheck : Bool
  pubInCheck : Bool
  helpCheck : Bool
  inForm : Form

inductive SignVerifyCall where
  | signData (input out : Option (List Byte)) (priv : List Byte) (keyType : SigAlg) (inForm : Form)
  | verifySignature (sig : List Byte) (input out : Option (List Byte)) (priv : List Byte)
      (keyType : SigAlg) (pubIn : Bool) (inForm : Form)
  deriving DecidableEq, Repr

def SignVerifyCall.keyType : SignVerifyCall → SigAlg
  | .signData _ _ _ keyType _ => keyType
  | .verifySignature _ _ _ _ keyType _ _ => keyType

def algCheck (argv : Args) : Option SigAlg :=
  if checkForArg (str "rsa") argv > 0 then some .rsa
  else if checkForArg (str "ed25519") argv > 0 then some .ed25519
  else if checkForArg (str "ecc") argv > 0 then some .ecc
  else if checkForArg (str "dilithium") argv > 0 then some .dilithium
  else if checkForArg (str "ml-dsa") argv > 0 then some .dilithium
  else if checkForArg (str "xmss") argv > 0 then some .xmss
  else if checkForArg (str "xmssmt") argv > 0 then some .xmssmt
  else none

def SignVerifyState.initial (argv : Args) : SignVerifyState where
  argv := argv
  ret := wolfcluSuccess
  input := none
  out := none
  priv := none
  sig := none
  inCheck := false
  signCheck := false
  verifyCheck := false
  pubInCheck := false
  helpCheck := false
  inForm := .der

def SignVerifyState.failIf (s : SignVerifyState) (fails : Bool) (ret : Int) : SignVerifyState :=
  if fails then { s with ret := ret } else s

section Setup
variable (access : List Byte → Bool)

def missing (name : Option (List Byte)) : Bool := !name.any access

def SignVerifyState.option (s : SignVerifyState) (optarg : Option (List Byte)) :
    SignVerifyOption → SignVerifyState
  | .help => { s with helpCheck := true }
  | .sign => { s with signCheck := true }
  | .verify => { s with verifyCheck := true }
  | .pubIn => { s with pubInCheck := true }
  | .inKey => { s with priv := optarg }.failIf (missing access optarg) inputFileError
  | .inFile =>
    if missing access optarg then { s with input := optarg, ret := inputFileError }
    else { s with input := optarg, inCheck := true }
  | .outFile => { s with out := optarg }
  | .sigFile => { s with sig := optarg }.failIf (missing access optarg) inputFileError
  | .inForm =>
    let inForm := checkInform (optarg.map fun name => name.map toLower)
    { s with
      inForm := inForm
      argv := lowerArgument (str "-inform") s.argv }.failIf
        (inForm = Form.invalid) wolfcluFatalError

def signVerifyReader : OptReader SignVerifyOption SignVerifyState where
  argv := SignVerifyState.argv
  running s := s.ret = wolfcluSuccess
  handle opt optarg s :=
    match opt with
    | .foundTwice => { s with ret := wolfcluFatalError }
    | .found val => s.option access optarg val

def needsOutput (alg : SigAlg) (verifyCheck : Bool) : Bool :=
  match alg with
  | .rsa => true
  | .ecc | .dilithium | .xmss | .xmssmt => !verifyCheck
  | .ed25519 => false

def SignVerifyState.call (s : SignVerifyState) (alg : SigAlg) : Except Int SignVerifyCall :=
  if s.ret ≠ wolfcluSuccess then .error s.ret
  else if s.helpCheck then .error wolfcluSuccess
  else
    match s.priv with
    | none => .error userInputError
    | some priv =>
      if s.verifyCheck ∧ s.sig = none then .error userInputError
      else if s.out = none ∧ needsOutput alg s.verifyCheck then .error wolfcluFatalError
      else if s.inCheck = false ∧ ¬ (alg = .rsa ∧ s.verifyCheck) then .error wolfcluFatalError
      else if s.signCheck then .ok (.signData s.input s.out priv alg s.inForm)
      else
        match s.verifyCheck, s.sig with
        | true, some sig =>
          .ok (.verifySignature sig s.input s.out priv alg s.pubInCheck s.inForm)
        | _, _ => .error wolfcluSuccess

def signVerifySetup (argv : Args) : Except Int SignVerifyCall :=
  match algCheck argv with
  | none => .error wolfcluFatalError
  | some alg =>
    ((signVerifyReader access).run 1 signVerifyOptions (SignVerifyState.initial argv)).call alg

end Setup

end WolfCLU
