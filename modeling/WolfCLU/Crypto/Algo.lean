import WolfCLU.Crypto.Camellia
import WolfCLU.Foundation.TextLine
import WolfCLU.Tools.GetOpt

namespace WolfCLU
open CString TextLine

structure AlgoState where
  alg : Algo
  mode : Option (List Byte)
  size : Int
  deriving DecidableEq, Repr

def dash : Byte := 45

def acceptAlgs : List (List Byte) := [str "Algorithms: ", str "aes", str "3des", str "camellia"]
def acceptMode : List (List Byte) := [str "cbc", str "ctr"]

def accepted (names : List (List Byte)) (token : List Byte) : Bool :=
  names.any fun name => strncmp token name token.length = 0

def bySize (size : Int) (alg128 alg192 alg256 alg : Algo) : Algo :=
  if size = 128 then alg128 else if size = 192 then alg192 else if size = 256 then alg256 else alg

def selectAlgo (tmpAlg tmpMode : List Byte) (st : AlgoState) : Int × Algo :=
  let aesSize := st.size = 128 ∨ st.size = 192 ∨ st.size = 256
  let cbc := strncmp tmpMode (str "cbc") 3 = 0
  let ctr := strncmp tmpMode (str "ctr") 3 = 0
  if strncmp tmpAlg (str "aes") 3 = 0 then
    let alg := if cbc then bySize st.size .aes128cbc .aes192cbc .aes256cbc st.alg else st.alg
    let alg := if ctr then bySize st.size .aes128ctr .aes192ctr .aes256ctr alg else alg
    (if aesSize then 16 else wolfcluFatalError, alg)
  else if strncmp tmpAlg (str "3des") 4 = 0 then
    (if st.size = 56 ∨ st.size = 112 ∨ st.size = 168 then 24 else wolfcluFatalError, .descbc)
  else if strncmp tmpAlg (str "camellia") 8 = 0 then
    let alg :=
      if cbc then bySize st.size .camellia128cbc .camellia192cbc .camellia256cbc st.alg else st.alg
    (if aesSize then 16 else wolfcluFatalError, alg)
  else (wolfcluFatalError, st.alg)

def parseModeAndSize (modeAlloc : Bool) (tmpAlg sz tmpMode : List Byte) (st : AlgoState) :
    Int × AlgoState :=
  let st := { st with size := atoi sz }
  if accepted acceptMode tmpMode then
    let (ret, alg) := selectAlgo tmpAlg tmpMode st
    let st := { st with alg := alg }
    if ret < 0 then (ret, { st with mode := none })
    else if modeAlloc then (ret, { st with mode := some tmpMode })
    else (memoryE, { st with mode := none })
  else (wolfcluFatalError, st)

def parseAlgo (modeAlloc : Bool) (name : List Byte) (st : AlgoState) : Int × AlgoState :=
  match strtok dash name with
  | tmpAlg :: sz :: tmpMode :: _ =>
    if accepted acceptAlgs tmpAlg then
      if isDigit (sz.headD 0) then parseModeAndSize modeAlloc tmpAlg sz tmpMode st
      else parseModeAndSize modeAlloc tmpAlg tmpMode sz st
    else (wolfcluFatalError, st)
  | _ => (wolfcluFatalError, st)

def algoName : Algo → List Byte
  | .aes128ctr => str "-aes-128-ctr"
  | .aes192ctr => str "-aes-192-ctr"
  | .aes256ctr => str "-aes-256-ctr"
  | .aes128cbc => str "-aes-128-cbc"
  | .aes192cbc => str "-aes-192-cbc"
  | .aes256cbc => str "-aes-256-cbc"
  | .camellia128cbc => str "-camellia-128-cbc"
  | .camellia192cbc => str "-camellia-192-cbc"
  | .camellia256cbc => str "-camellia-256-cbc"
  | .descbc => str "-des-cbc"
  | .other _ => []

def oldAlgoName : List (List Byte × Algo) :=
  [(str "-aes-ctr-128", .aes128ctr), (str "-aes-ctr-192", .aes192ctr),
    (str "-aes-ctr-256", .aes256ctr), (str "-aes-cbc-128", .aes128cbc),
    (str "-aes-cbc-192", .aes192cbc), (str "-aes-cbc-256", .aes256cbc)]

def oldAlgo (argv : Args) : Args :=
  argv.map fun arg => ((oldAlgoName.lookup arg).map algoName).getD arg

def cryptAlgoOptions : List (LongOption (Option Algo)) :=
  ([.aes128ctr, .aes192ctr, .aes256ctr, .aes128cbc, .aes192cbc, .aes256cbc, .camellia128cbc,
    .camellia192cbc, .camellia256cbc, .descbc].map fun alg => ⟨algoName alg, false, some alg⟩) ++
    [⟨str "-d", false, none⟩]

structure AlgoSearch where
  argv : Args
  ret : Int
  duplicate : Bool
  name : List Byte
  st : AlgoState

def AlgoSearch.handle (modeAlloc : Bool) (opt : Opt (Option Algo)) (s : AlgoSearch) : AlgoSearch :=
  match opt with
  | .foundTwice => { s with ret := wolfcluFatalError, duplicate := true }
  | .found val =>
    let name := (val.map algoName).getD s.name
    if 0 < name.length then
      let (ret, st) := parseAlgo modeAlloc name s.st
      { s with ret := ret, name := [], st := st }
    else { s with name := name }

def algoReader (modeAlloc : Bool) : OptReader (Option Algo) AlgoSearch where
  argv := AlgoSearch.argv
  running s := !s.duplicate
  handle opt _ s := s.handle modeAlloc opt

def getAlgo (modeAlloc : Bool) (argv : Args) (alg : Algo) : Int × AlgoState :=
  match argv[2]? with
  | none => (userInputError, ⟨alg, none, 0⟩)
  | some name =>
    if 80 ≤ name.length then (userInputError, ⟨alg, none, 0⟩)
    else
      let (ret, st) := parseAlgo modeAlloc name ⟨alg, none, 0⟩
      if ret < 0 then
        let name := name.takeWhile (· == dash) ++ (strtok dash name).headD []
        let s := (algoReader modeAlloc).run 2 cryptAlgoOptions ⟨argv, ret, false, name, st⟩
        (s.ret, s.st)
      else (ret, st)

def usesEvp : Algo → Bool
  | .aes128ctr | .aes192ctr | .aes256ctr | .aes128cbc | .aes192cbc | .aes256cbc | .descbc => true
  | _ => false

structure ValidAlgo (block : Int) (st : AlgoState) : Prop where
  sizes : block = 16 ∧ (st.size = 128 ∨ st.size = 192 ∨ st.size = 256) ∨
    block = 24 ∧ (st.size = 56 ∨ st.size = 112 ∨ st.size = 168) ∧ st.alg = .descbc
  mode : st.mode.isSome

theorem selectAlgo_sizes {tmpAlg tmpMode : List Byte} {st : AlgoState} {block : Int} {alg : Algo}
    (h : selectAlgo tmpAlg tmpMode st = (block, alg)) (hblock : 0 ≤ block) :
    block = 16 ∧ (st.size = 128 ∨ st.size = 192 ∨ st.size = 256) ∨
      block = 24 ∧ (st.size = 56 ∨ st.size = 112 ∨ st.size = 168) ∧ alg = .descbc := by
  have hneg : ¬ 0 ≤ wolfcluFatalError := by decide
  simp only [selectAlgo] at h
  split_ifs at h with haes hsize hdes hsize hcamellia hsize <;>
    (obtain ⟨rfl, rfl⟩ := Prod.mk.inj h) <;> simp_all

theorem parseModeAndSize_valid {modeAlloc : Bool} {tmpAlg sz tmpMode : List Byte}
    {st st' : AlgoState} {ret : Int}
    (h : parseModeAndSize modeAlloc tmpAlg sz tmpMode st = (ret, st')) (hret : 0 ≤ ret) :
    ValidAlgo ret st' := by
  rw [parseModeAndSize] at h
  obtain ⟨block, alg, hsel⟩ : ∃ block alg,
      selectAlgo tmpAlg tmpMode { st with size := atoi sz } = (block, alg) := ⟨_, _, rfl⟩
  simp only [hsel] at h
  split_ifs at h with hmode hblock halloc <;> (obtain ⟨rfl, rfl⟩ := Prod.mk.inj h)
  · exact absurd hret (not_le.mpr hblock)
  · have hsizes := selectAlgo_sizes hsel hret
    exact ⟨hsizes, rfl⟩
  · exact absurd hret (by decide)
  · exact absurd hret (by decide)

theorem parseAlgo_valid {modeAlloc : Bool} {name : List Byte} {st st' : AlgoState} {ret : Int}
    (h : parseAlgo modeAlloc name st = (ret, st')) (hret : 0 ≤ ret) : ValidAlgo ret st' := by
  have hneg : ¬ 0 ≤ wolfcluFatalError := by decide
  rw [parseAlgo] at h
  split at h
  · split_ifs at h
    · exact parseModeAndSize_valid h hret
    · exact parseModeAndSize_valid h hret
    · obtain ⟨rfl, rfl⟩ := Prod.mk.inj h
      exact absurd hret hneg
  · obtain ⟨rfl, rfl⟩ := Prod.mk.inj h
    exact absurd hret hneg

theorem handle_valid (modeAlloc : Bool) (opt : Opt (Option Algo)) {s : AlgoSearch}
    (hs : 0 ≤ s.ret → ValidAlgo s.ret s.st) :
    0 ≤ (s.handle modeAlloc opt).ret →
      ValidAlgo (s.handle modeAlloc opt).ret (s.handle modeAlloc opt).st := by
  cases opt with
  | foundTwice => exact fun hret => absurd hret (show ¬ (0 : Int) ≤ -1 by decide)
  | found val =>
    simp only [AlgoSearch.handle]
    split
    · exact parseAlgo_valid rfl
    · exact hs

theorem getAlgo_valid {modeAlloc : Bool} {argv : Args} {alg : Algo} {st : AlgoState} {block : Int}
    (h : getAlgo modeAlloc argv alg = (block, st)) (hblock : 0 ≤ block) : ValidAlgo block st := by
  have hneg : ¬ 0 ≤ userInputError := by decide
  rw [getAlgo] at h
  split at h
  · obtain ⟨rfl, rfl⟩ := Prod.mk.inj h
    exact absurd hblock hneg
  · rename_i name _
    generalize hparse : parseAlgo modeAlloc name ⟨alg, none, 0⟩ = parsed at h
    obtain ⟨ret, parsed⟩ := parsed
    dsimp only at h
    split_ifs at h with hlong hfail <;> (obtain ⟨rfl, rfl⟩ := Prod.mk.inj h)
    · exact absurd hblock hneg
    · have hrun := @OptReader.run_preserves _ _ (algoReader modeAlloc) 2
        (fun s : AlgoSearch => 0 ≤ s.ret → ValidAlgo s.ret s.st) cryptAlgoOptions
        (fun opt _ s _ hs => handle_valid modeAlloc opt hs)
      exact hrun (fun hret => absurd hret (not_le.mpr hfail)) hblock
    · exact parseAlgo_valid hparse hblock

end WolfCLU
