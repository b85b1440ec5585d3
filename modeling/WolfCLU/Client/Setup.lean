import WolfCLU.Tools.GetOptRuns

namespace WolfCLU
open CString

inductive ClientOption where
  | connect
  | starttls
  | caFile
  | verifyReturnError
  | disableStdinChk
  | noServerName
  | help
  deriving DecidableEq, Repr

def clientOptions : List (LongOption ClientOption) :=
  [ ⟨str "-connect", true, .connect⟩,
    ⟨str "-starttls", true, .starttls⟩,
    ⟨str "-CAfile", true, .caFile⟩,
    ⟨str "-verify_return_error", false, .verifyReturnError⟩,
    ⟨str "-disable_stdin_check", false, .disableStdinChk⟩,
    ⟨str "-noservername", false, .noServerName⟩,
    ⟨str "-help", false, .help⟩,
    ⟨str "-h", false, .help⟩ ]

abbrev ClientArgs := List (Option (List Byte))

structure ClientEnv where
  malloc : Nat → Bool
  clientTest : ClientArgs → Int

inductive ClientEnd where
  | returned (ret : Int)
  | crashed

structure ClientState where
  argv : Args
  ret : Int
  host : Option (List Byte)
  idx : Nat
  verify : Bool
  noservername : Bool
  clientArgv : ClientArgs
  ended : Option ClientEnd

structure ClientRun where
  ret : Int
  started : Option ClientArgs

def maxClientArgs : Nat := 32

namespace ClientState

def fail (s : ClientState) : ClientState := { s with ret := wolfcluFatalError }

def whenOk (f : ClientState → ClientState) (s : ClientState) : ClientState :=
  if s.ret = wolfcluSuccess then f s else s

def addClientArg (arg : Option (List Byte)) (s : ClientState) : ClientState :=
  if s.clientArgv.length ≥ maxClientArgs then s.fail
  else { s with clientArgv := s.clientArgv ++ [arg], ret := wolfcluSuccess }

def addPair (flag : List Byte) (arg : Option (List Byte)) (s : ClientState) : ClientState :=
  (s.addClientArg (some flag)).whenOk (addClientArg arg)

def connectBracket (ipv6 : List Byte) (s : ClientState) : ClientState :=
  let idx := ipv6.idxOf 93
  let s := if idx = ipv6.length then s.fail else s
  let s := if s.ret = wolfcluSuccess ∧ idx + 2 ≥ ipv6.length then s.fail else s
  { s with idx := idx + 1 }.whenOk (addClientArg (some (str "-6")))

def connectHost (env : ClientEnv) (optarg : List Byte) (ipv6 : Bool) (s : ClientState) :
    ClientState :=
  if env.malloc (s.idx + 1) then
    let s :=
      if ipv6 then
        if s.idx ≤ 2 then { s with host := some [] }.fail
        else { s with host := some ((optarg.drop 1).take (s.idx - 2)) }
      else { s with host := some (optarg.take s.idx) }
    s.whenOk (addPair (str "-h") s.host)
  else s.fail

def connect (env : ClientEnv) (optarg : List Byte) (s : ClientState) : ClientState :=
  let ipv6 := strstr (str "[") optarg
  let s :=
    match ipv6 with
    | none => s
    | some start => s.connectBracket (optarg.drop start)
  let s := if strstr (str ":") optarg = none then s.fail else s
  let s :=
    if s.ret = wolfcluSuccess ∧ ipv6 = none then
      { s with idx := (optarg.takeWhile (· ≠ 58)).length }
    else s
  let s := s.whenOk (connectHost env optarg ipv6.isSome)
  s.whenOk fun s => s.addPair (str "-p") (some (optarg.drop (s.idx + 1)))

def option (env : ClientEnv) (optarg : Option (List Byte)) (s : ClientState) :
    ClientOption → ClientState
  | .connect =>
    match optarg with
    | some optarg => s.connect env optarg
    | none => { s with ended := some .crashed }
  | .starttls => s.whenOk (addPair (str "-M") optarg)
  | .caFile => s.whenOk (addPair (str "-A") optarg)
  | .verifyReturnError => s.whenOk fun s => { s with verify := true }
  | .disableStdinChk => s.whenOk (addClientArg (some (str "--disable_stdin_check")))
  | .noServerName => { s with noservername := true }
  | .help => { s with ended := some (.returned wolfcluSuccess) }

def finish (env : ClientEnv) (s : ClientState) : ClientRun :=
  let s :=
    if s.host ≠ none ∧ s.noservername = false then s.whenOk (addPair (str "-S") s.host) else s
  let s := if s.verify = false then s.whenOk (addClientArg (some (str "-d"))) else s
  let s := s.whenOk (addClientArg (some (str "-x")))
  let s := s.whenOk (addClientArg (some (str "-v")))
  let s := s.whenOk (addClientArg (some (str "d")))
  let s := s.whenOk (addClientArg (some (str "-C")))
  if s.ret = wolfcluSuccess then
    { ret := if env.clientTest s.clientArgv ≠ 0 then wolfcluFatalError else wolfcluSuccess
      started := some s.clientArgv }
  else { ret := s.ret, started := none }

end ClientState

def clientReader (env : ClientEnv) : OptReader ClientOption ClientState where
  argv := ClientState.argv
  running s := s.ended.isNone
  handle opt optarg s :=
    match opt with
    | .foundTwice => { s with ended := some (.returned wolfcluFatalError) }
    | .found val => s.option env optarg val

def clientStart (argv : Args) : ClientState :=
  ClientState.addClientArg (some (str "wolfclu"))
    { argv := argv, ret := wolfcluSuccess, host := none, idx := 0, verify := false,
      noservername := false, clientArgv := [], ended := none }

def client (env : ClientEnv) (argv : Args) : Option ClientRun :=
  let s := (clientReader env).run 1 clientOptions (clientStart argv)
  match s.ended with
  | some .crashed => none
  | some (.returned ret) => some { ret := ret, started := none }
  | none => some (s.finish env)

end WolfCLU
