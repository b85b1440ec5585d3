import WolfCLU.Foundation.Hex
import WolfCLU.GenKey.KeyFiles
import WolfCLU.Tools.Base64
import WolfCLU.Tools.GetOpt
import WolfCLU.Tools.StreamHash

namespace WolfCLU
open CString CheckedMemory Buffer Incremental

inductive HashAlg where
  | md5
  | sha
  | sha256
  | sha384
  | sha512
  | blake2b
  | base64enc
  | base64dec
  deriving DecidableEq, Repr

namespace HashAlg

def hashType : HashAlg → Option HashType
  | .md5 => some .md5
  | .sha => some .sha
  | .sha256 => some .sha256
  | .sha384 => some .sha384
  | .sha512 => some .sha512
  | .blake2b | .base64enc | .base64dec => none

def size : HashAlg → Int
  | .md5 => 16
  | .sha => 20
  | .sha256 => 32
  | .sha384 => 48
  | .sha512 => 64
  | .blake2b | .base64enc | .base64dec => 0

def isCoding : HashAlg → Bool
  | .base64enc | .base64dec => true
  | .md5 | .sha | .sha256 | .sha384 | .sha512 | .blake2b => false

end HashAlg

inductive HashOption where
  | infile
  | outfile
  | help
  | alg (alg : HashAlg)
  deriving DecidableEq, Repr

def hashOptions : List (LongOption HashOption) :=
  [⟨str "-in", true, .infile⟩, ⟨str "-out", true, .outfile⟩, ⟨str "-h", false, .help⟩,
    ⟨str "-help", false, .help⟩, ⟨str "-md5", false, .alg .md5⟩, ⟨str "-sha", false, .alg .sha⟩,
    ⟨str "-sha256", false, .alg .sha256⟩, ⟨str "-sha384", false, .alg .sha384⟩,
    ⟨str "-sha512", false, .alg .sha512⟩, ⟨str "-base64enc", false, .alg .base64enc⟩,
    ⟨str "-base64dec", false, .alg .base64dec⟩, ⟨str "-blake2b", true, .alg .blake2b⟩]

structure HashCommandLib (σ β : Type) where
  hash : HashLib HashType σ
  blake2bInit : Int → Option β
  blake2b : Int → Digester β
  base64 : Base64Lib

structure HashEnv where
  compiled : HashAlg → Bool
  coding : CodingEnv
  fileOpens : List Byte → Bool
  outOpens : List Byte → Bool
  stdin : List Byte
  deliver : CodingSource → List Byte → List BioRead

structure HashRun where
  ret : Int
  stdout : List Byte
  disk : Disk

section Hash
variable {σ β : Type} (env : HashEnv) (lib : HashCommandLib σ β)

def streamOutput (reads : List BioRead) (hashType : HashType) (output : List Byte) :
    Guarded Int (List Byte) :=
  match streamHashBio lib.hash (some reads) hashType
      { area := some output, size := some output.length } with
  | some (ret, ⟨some output, some digestSz⟩) =>
    if ret = wolfcluSuccess then read output 0 digestSz else step (.error ret)
  | _ => outside

def blake2bOutput (reads : List BioRead) (outSz : Int) (output : List Byte) :
    Guarded Int (List Byte) :=
  match lib.blake2bInit outSz with
  | none => step (.error wolfcluFatalError)
  | some hash =>
    match readLoop (lib.blake2b outSz).update zeroChunk hash reads with
    | none => outside
    | some (ret, hash) =>
      if ret = wolfcluSuccess then
        match (lib.blake2b outSz).final hash with
        | none => step (.error wolfcluFatalError)
        | some digest => do
          let output ← write output 0 digest
          read output 0 outSz.toNat
      else step (.error ret)

def codingOutput (src : CodingSource) (data : List Byte) (decode : Bool) :
    Except Int (List Byte) := do
  let inputSz ← hashInputSz src data
  let input ← readInput env.coding true data inputSz
  hashCode lib.base64 env.coding decode input

def algOutput (src : CodingSource) (data : List Byte) (alg : HashAlg) (outSz : Int)
    (output : List Byte) : Guarded Int (List Byte) :=
  match alg.hashType with
  | some hashType => streamOutput lib (env.deliver src data) hashType output
  | none =>
    if alg = .blake2b then blake2bOutput lib (env.deliver src data) outSz output
    else step (codingOutput env lib src data (decide (alg = .base64dec)))

def hashOutput (src : CodingSource) (data : List Byte) (alg : HashAlg) (size : Int) :
    Guarded Int (List Byte) :=
  let outSz : Int := if size = 0 then env.coding.maxDigestSize else size
  if src = .stdin ∧ ¬ env.coding.bioNew then step (.error memoryE)
  else if ¬ env.coding.malloc outSz.toNat then step (.error memoryE)
  else algOutput env lib src data alg outSz (List.replicate outSz.toNat 0)

def hashText (isCoding : Bool) (output : List Byte) : List Byte :=
  if isCoding then output else output.flatMap Hex.lowerByte ++ [10]

def putOutput (outFile : Option (List Byte)) (isCoding : Bool) (output : List Byte) (disk : Disk) :
    HashRun :=
  let n := env.coding.bioWrite output
  let ret := if n ≠ output.length then wolfcluFatalError else wolfcluSuccess
  match outFile with
  | some name => ⟨ret, [], Function.update disk name (some (output.take n.toNat))⟩
  | none =>
    if ¬ env.coding.bioNew then ⟨memoryE, [], disk⟩
    else if isCoding then ⟨ret, output.take n.toNat, disk⟩
    else ⟨wolfcluSuccess, hashText false output, disk⟩

def HashEnv.hash (src : CodingSource) (data : List Byte) (outFile : Option (List Byte))
    (alg : HashAlg) (size : Int) (disk : Disk) : Option HashRun :=
  (hashOutput env lib src data alg size).run.map fun output =>
    match output with
    | .error ret => ⟨ret, [], disk⟩
    | .ok output => putOutput env outFile alg.isCoding output disk

end Hash

structure HashState where
  ret : Int
  returned : Option Int
  alg : Option HashAlg
  size : Int
  inFile : Option (List Byte)
  outFile : Option (List Byte)
  deriving DecidableEq, Repr

section Setup
variable {σ β : Type} (env : HashEnv) (lib : HashCommandLib σ β)

def HashState.setAlg (s : HashState) (alg : HashAlg) (optarg : Option (List Byte)) : HashState :=
  if env.compiled alg = false then { s with returned := some notCompiledIn }
  else if s.alg ≠ none then { s with returned := some wolfcluFatalError }
  else if alg = .blake2b then
    let size := optarg.elim s.size atoi
    { s with
      alg := some alg
      size := size
      ret := if size < 1 ∨ size > 64 then wolfcluFatalError else s.ret }
  else { s with alg := some alg, size := if alg.isCoding then s.size else alg.size }

def hashReader (argv : Args) : OptReader HashOption HashState where
  argv _ := argv
  running s := s.returned.isNone
  handle opt optarg s :=
    match opt with
    | .foundTwice => { s with returned := some wolfcluFatalError }
    | .found .infile => { s with inFile := optarg }
    | .found .outfile => { s with outFile := optarg }
    | .found .help => { s with returned := some wolfcluSuccess }
    | .found (.alg alg) => s.setAlg env alg optarg

def readHashOptions (argv : Args) : HashState :=
  (hashReader env argv).run 1 hashOptions ⟨wolfcluSuccess, none, none, 0, none, none⟩

def openHashInput (inFile : Option (List Byte)) (disk : Disk) : Except Int CodingSource :=
  match inFile with
  | none => .ok .stdin
  | some name =>
    if env.fileOpens name ∧ (disk name).isSome then .ok .file else .error userInputError

def openHashOutput (outFile : Option (List Byte)) (disk : Disk) : Except Int Disk :=
  match outFile with
  | none => .ok disk
  | some name =>
    if env.outOpens name then .ok (Function.update disk name (some [])) else .error userInputError

def hashInput (inFile : Option (List Byte)) (disk : Disk) : List Byte :=
  match inFile with
  | none => env.stdin
  | some name => (disk name).getD []

def HashState.chosen (s : HashState) : Except Int HashAlg :=
  if s.ret ≠ wolfcluSuccess then .error s.ret
  else
    match s.alg with
    | none => .error wolfcluFatalError
    | some alg => .ok alg

def HashState.start (s : HashState) (disk : Disk) : Except Int (HashAlg × CodingSource × Disk) := do
  let alg ← s.chosen
  let src ← openHashInput env s.inFile disk
  let disk ← openHashOutput env s.outFile disk
  .ok (alg, src, disk)

def hashSetup (argv : Args) (disk : Disk) : Option HashRun :=
  let s := readHashOptions env argv
  match s.returned with
  | some ret => some ⟨ret, [], disk⟩
  | none =>
    match s.start env disk with
    | .error ret => some ⟨ret, [], disk⟩
    | .ok (alg, src, disk) =>
      env.hash lib src (hashInput env s.inFile disk) s.outFile alg s.size disk

inductive AlgHash where
  | md5
  | sha256
  | sha384
  | sha512
  deriving DecidableEq, Repr

def AlgHash.alg : AlgHash → HashAlg
  | .md5 => .md5
  | .sha256 => .sha256
  | .sha384 => .sha384
  | .sha512 => .sha512

def algHashSetup (argv : Args) (algorithm : AlgHash) (disk : Disk) : Option HashRun :=
  if env.compiled algorithm.alg = false then some ⟨notCompiledIn, [], disk⟩
  else
    let inFile := argv[2]?
    match openHashInput env inFile disk with
    | .error ret => some ⟨ret, [], disk⟩
    | .ok src =>
      env.hash lib src (hashInput env inFile disk) none algorithm.alg algorithm.alg.size disk

end Setup

end WolfCLU
