import WolfCLU.ErrorCodes
import WolfCLU.Foundation.Base64
import WolfCLU.Foundation.Buffer
import WolfCLU.Tools.Main

namespace WolfCLU
open Buffer CString

inductive RandOption where
  | outfile
  | base64
  | hex
  deriving DecidableEq, Repr

def randOptions : List (LongOption RandOption) :=
  [⟨str "-out", true, .outfile⟩, ⟨str "-base64", false, .base64⟩, ⟨str "-hex", false, .hex⟩]

inductive RandError where
  | duplicateArgument
  | missingFilename
  | repeatedOption (token : List Byte)
  | unrecognized (token : List Byte)
  | missingCount
  | extraToken (token : List Byte)
  | notPositive (token : List Byte)
  | exclusive
  | hexTooLarge
  | base64TooLarge
  | fileNotOpened (name : List Byte)
  | noMemory
  | rngInit
  | rngBlock
  | noStdout
  | hexMemory
  | base64Size
  | base64Memory
  | base64Encode
  | write
  deriving DecidableEq, Repr

def RandError.message : RandError → Option (List Byte)
  | .duplicateArgument => some (str "Found duplicate argument")
  | .missingFilename => some (str "Missing filename argument for -out")
  | .repeatedOption token => some (str "Option " ++ token ++ str " specified more than once")
  | .unrecognized token => some (str "Unrecognized option " ++ token)
  | .missingCount => some (str "Missing <num bytes> argument")
  | .extraToken token =>
    some (str "Expected a single <num bytes> argument, got extra token " ++ token)
  | .notPositive token => some (str "Expected a positive <num bytes> count, got " ++ token)
  | .exclusive => some (str "-base64 and -hex are mutually exclusive")
  | .hexTooLarge => some (str "requested size too large for -hex output")
  | .base64TooLarge => some (str "requested size too large for -base64 output")
  | .fileNotOpened name => some (str "Unable to open output file " ++ name)
  | .noMemory => none
  | .rngInit => some (str "Unable to initialize RNG")
  | .rngBlock => some (str "Unable to generate RNG block")
  | .noStdout => none
  | .hexMemory => some (str "Error malloc'ing for hex")
  | .base64Size => some (str "Error getting size for base64")
  | .base64Memory => some (str "Error malloc'ing for base64")
  | .base64Encode => some (str "Error base64 encoding")
  | .write => some (str "Error writing out RNG data")

structure RandOptions where
  error : Option RandError
  useBase64 : Bool
  useHex : Bool
  outFile : Option (List Byte)

def RandOptions.handle : Opt RandOption → Option (List Byte) → RandOptions → RandOptions
  | .foundTwice, _, o => { o with error := some .duplicateArgument }
  | .found .base64, _, o => { o with useBase64 := true }
  | .found .hex, _, o => { o with useHex := true }
  | .found .outfile, none, o => { o with error := some .missingFilename }
  | .found .outfile, some optarg, o => { o with outFile := some optarg }

def randReader (argv : Args) : OptReader RandOption RandOptions where
  argv := fun _ => argv
  running := fun o => o.error ≠ some .duplicateArgument
  handle := RandOptions.handle

def readRandOptions (argv : Args) : RandOptions :=
  (randReader argv).run 1 randOptions ⟨none, false, false, none⟩

def isHelp (token : List Byte) : Bool := token = str "-h" ∨ token = str "-help"

def randMarkOption (token : List Byte) (seen : List RandOption) :
    Option (LongOption RandOption × Bool × List RandOption) :=
  (randOptions.find? fun o => o.name = token).map fun o => (o, o.val ∈ seen, o.val :: seen)

structure RandScan where
  countIdx : Option Nat
  skipNext : Bool
  seen : List RandOption

def randScan (i : Nat) : Args → RandScan → Except RandError RandScan
  | [], s => .ok s
  | token :: rest, s =>
    if s.skipNext then
      match randMarkOption token s.seen with
      | some (_, true, _) => .error (.repeatedOption token)
      | some (_, false, seen) => randScan (i + 1) rest { s with skipNext := false, seen := seen }
      | none => randScan (i + 1) rest { s with skipNext := false }
    else if isHelp token then randScan (i + 1) rest s
    else
      match randMarkOption token s.seen with
      | some (_, true, _) => .error (.repeatedOption token)
      | some (o, false, seen) =>
        randScan (i + 1) rest { s with skipNext := o.hasArg, seen := seen }
      | none =>
        if token.headD 0 = 45 then .error (.unrecognized token)
        else
          match s.countIdx with
          | none => randScan (i + 1) rest { s with countIdx := some i }
          | some _ => .error (.extraToken token)

structure RandRequest where
  countIdx : Nat
  size : Int
  useBase64 : Bool
  useHex : Bool
  outFile : Option (List Byte)
  positive : 0 < size
  exclusive : ¬ (useBase64 = true ∧ useHex = true)
  doubles : useBase64 = true ∨ useHex = true → size ≤ MachineInt.intMax / 2

def randRequest (o : RandOptions) (countIdx : Nat) (token : List Byte) :
    Except RandError RandRequest :=
  let size := atoi token
  if hsize : size ≤ 0 then .error (.notPositive token)
  else if hboth : o.useBase64 = true ∧ o.useHex = true then .error .exclusive
  else if hhex : o.useHex = true ∧ size > MachineInt.intMax / 2 then .error .hexTooLarge
  else if hbase64 : o.useBase64 = true ∧ size > MachineInt.intMax / 2 then .error .base64TooLarge
  else
    .ok
      { countIdx := countIdx
        size := size
        useBase64 := o.useBase64
        useHex := o.useHex
        outFile := o.outFile
        positive := by omega
        exclusive := hboth
        doubles := by
          rintro (h | h)
          · exact not_lt.mp fun hlt => hbase64 ⟨h, hlt⟩
          · exact not_lt.mp fun hlt => hhex ⟨h, hlt⟩ }

def randArgs (argv : Args) : Except RandError RandRequest :=
  let o := readRandOptions argv
  match o.error with
  | some e => .error e
  | none =>
    match randScan 2 (argv.drop 2) ⟨none, false, []⟩ with
    | .error e => .error e
    | .ok scan =>
      match scan.countIdx with
      | none => .error .missingCount
      | some countIdx => randRequest o countIdx (argv.getD countIdx [])

structure RandLib (ρ : Type) where
  rngMaxBlockLen : Nat
  initRng : Option ρ
  generateBlock : ρ → Nat → Option (ρ × List Byte)
  base64Size : List Byte → Option Nat
  base64Encode : List Byte → Option (List Byte)
  rngMaxBlockLen_pos : 0 < rngMaxBlockLen

inductive RandAlloc where
  | buf
  | hex
  | base64
  deriving DecidableEq, Repr

structure RandEnv where
  fileOpens : List Byte → Bool
  malloc : RandAlloc → Nat → Bool
  stale : Nat → Byte
  stdoutOpens : Bool
  bioWrite : List Byte → Int

structure RandRun where
  ret : Int
  log : List (List Byte)
  opened : Option (List Byte)
  written : List Byte

def randHelp : List (List Byte) :=
  [str "wolfssl rand <num bytes>",
    str "\t-out the file to output data to (default to stdout)",
    str "\t-base64 output the results in base64 encoding",
    str "\t-hex output the results in hex encoding"]

section Run
variable {ρ : Type} (lib : RandLib ρ) (env : RandEnv)

def randFill (size : Nat) (rng : ρ) (generated : Nat) (buf : List Byte) :
    Except RandError (List Byte) :=
  if generated < size then
    let chunk := min (size - generated) lib.rngMaxBlockLen
    match lib.generateBlock rng chunk with
    | none => .error .rngBlock
    | some (rng, block) => randFill size rng (generated + chunk) (blit buf generated block)
  else .ok buf
termination_by size - generated
decreasing_by
  have := lib.rngMaxBlockLen_pos
  omega

def hexChars : List Byte := str "0123456789abcdef"

def hexDigits (b : Byte) : List Byte :=
  [hexChars.getD ((b >>> 4) &&& 0x0F).toNat 0, hexChars.getD (b &&& 0x0F).toNat 0]

def randHex (buf : List Byte) : Except RandError (List Byte) :=
  if env.malloc .hex (buf.length * 2) then .ok (buf.flatMap hexDigits) else .error .hexMemory

def randBase64 (buf : List Byte) : Except RandError (List Byte) :=
  match lib.base64Size buf with
  | none => .error .base64Size
  | some base64Sz =>
    if env.malloc .base64 base64Sz then
      match lib.base64Encode buf with
      | none => .error .base64Encode
      | some base64 => .ok base64
    else .error .base64Memory

def randData (request : RandRequest) : Except RandError (List Byte) := do
  let size := request.size.toNat
  if env.malloc .buf size then
    match lib.initRng with
    | none => .error .rngInit
    | some rng =>
      let buf ← randFill lib size rng 0 ((List.range size).map env.stale)
      if request.outFile = none ∧ env.stdoutOpens = false then .error .noStdout
      else if request.useHex then randHex env buf
      else if request.useBase64 then randBase64 lib env buf
      else .ok buf
  else .error .noMemory

def RandError.run (e : RandError) (opened : Option (List Byte)) (written : List Byte) : RandRun :=
  ⟨wolfcluFatalError, e.message.toList, opened, written⟩

def taken (data : List Byte) : List Byte := data.take (env.bioWrite data).toNat

def randWrite (request : RandRequest) (data : List Byte) : RandRun :=
  if env.bioWrite data ≠ data.length then
    RandError.write.run request.outFile (taken env data)
  else if request.useHex = true ∧ request.outFile = none then
    ⟨wolfcluSuccess, [], request.outFile, data ++ taken env (str "\n")⟩
  else ⟨wolfcluSuccess, [], request.outFile, data⟩

def randGenerate (request : RandRequest) : RandRun :=
  match randData lib env request with
  | .error e => e.run request.outFile []
  | .ok data => randWrite env request data

def rand (argv : Args) : RandRun :=
  if argv.getLast?.any isHelp then ⟨wolfcluSuccess, randHelp, none, []⟩
  else
    match randArgs argv with
    | .error e => e.run none []
    | .ok request =>
      match request.outFile with
      | none => randGenerate lib env request
      | some name =>
        if env.fileOpens name then randGenerate lib env request
        else (RandError.fileNotOpened name).run (some name) []

end Run

section Reading
variable {argv : Args}

theorem randOptions_plain : ∀ o ∈ randOptions, strncmp o.name (str "-help") o.name.length ≠ 0 := by
  decide

theorem randOptions_hasArg : ∀ o ∈ randOptions, (o.hasArg = true ↔ o.name = str "-out") := by
  decide

theorem readRandOptions_once (h : (readRandOptions argv).error = none) :
    ∀ o ∈ randOptions, matchOption argv 1 o ≠ some (.foundTwice, none) := by
  have hrun : (randReader argv).running (readRandOptions argv) = true := by simp [randReader, h]
  refine OptReader.once_of_running (fun _ => rfl) ?_ hrun
  intro optarg s
  simp [randReader, RandOptions.handle]

end Reading

section Scan
variable {argv front rest : Args} {token : List Byte} {s s' : RandScan}

def OptionName (token : List Byte) : Prop :=
  isHelp token = true ∨ ∃ o ∈ randOptions, o.name = token

def Positional (argv : Args) (k : Nat) : Prop :=
  2 ≤ k ∧ ∃ token, argv[k]? = some token ∧ ¬ OptionName token ∧
    boundIndex argv (str "-out") ≠ some k

inductive RandStep (i : Nat) (token : List Byte) : RandScan → RandScan → Prop where
  | bound (s s' : RandScan) (hskip : s.skipNext = true) (hclear : s'.skipNext = false)
      (hcount : s'.countIdx = s.countIdx) : RandStep i token s s'
  | help (s : RandScan) (hskip : s.skipNext = false) (hhelp : isHelp token = true) :
      RandStep i token s s
  | option (s s' : RandScan) (o : LongOption RandOption) (hskip : s.skipNext = false)
      (ho : o ∈ randOptions) (hname : o.name = token) (hnext : s'.skipNext = o.hasArg)
      (hcount : s'.countIdx = s.countIdx) : RandStep i token s s'
  | count (s : RandScan) (hskip : s.skipNext = false) (hname : ¬ OptionName token)
      (hfirst : s.countIdx = none) : RandStep i token s { s with countIdx := some i }

theorem randMarkOption_some {seen seen' : List RandOption} {o : LongOption RandOption} {dup : Bool}
    (h : randMarkOption token seen = some (o, dup, seen')) : o ∈ randOptions ∧ o.name = token := by
  obtain ⟨o', hfind, heq⟩ := Option.map_eq_some_iff.mp h
  cases heq
  exact ⟨List.mem_of_find?_eq_some hfind, by simpa using List.find?_some hfind⟩

theorem randMarkOption_none {seen : List RandOption} (h : randMarkOption token seen = none) :
    ∀ o ∈ randOptions, o.name ≠ token := by
  intro o ho hname
  have hfind := List.find?_eq_none.mp (Option.map_eq_none_iff.mp h) o ho
  exact hfind (decide_eq_true hname)

theorem randScan_cons {i : Nat} (h : randScan i (token :: rest) s = .ok s') :
    ∃ t, RandStep i token s t ∧ randScan (i + 1) rest t = .ok s' := by
  rw [randScan] at h
  by_cases hskip : s.skipNext = true
  · rw [if_pos hskip] at h
    rcases hmark : randMarkOption token s.seen with _ | ⟨o, _ | _, seen⟩
    · rw [hmark] at h
      exact ⟨{ s with skipNext := false }, .bound _ _ hskip rfl rfl, h⟩
    · rw [hmark] at h
      exact ⟨{ s with skipNext := false, seen := seen }, .bound _ _ hskip rfl rfl, h⟩
    · rw [hmark] at h
      cases h
  · rw [if_neg hskip] at h
    have hskip' := Bool.eq_false_of_not_eq_true hskip
    by_cases hhelp : isHelp token = true
    · rw [if_pos hhelp] at h
      exact ⟨s, .help s hskip' hhelp, h⟩
    · rw [if_neg hhelp] at h
      rcases hmark : randMarkOption token s.seen with _ | ⟨o, _ | _, seen⟩
      · rw [hmark] at h
        have hname : ¬ OptionName token := by
          rintro (hyes | ⟨o, ho, hname⟩)
          · exact hhelp hyes
          · exact randMarkOption_none hmark o ho hname
        dsimp only at h
        split_ifs at h
        cases hfirst : s.countIdx with
        | none =>
          rw [hfirst] at h
          exact ⟨{ s with countIdx := some i }, .count s hskip' hname hfirst, h⟩
        | some k =>
          rw [hfirst] at h
          cases h
      · rw [hmark] at h
        obtain ⟨ho, hname⟩ := randMarkOption_some hmark
        exact ⟨{ s with skipNext := o.hasArg, seen := seen },
          .option _ _ o hskip' ho hname rfl rfl, h⟩
      · rw [hmark] at h
        cases h

structure ScanInv (argv front : Args) (s : RandScan) : Prop where
  skip : s.skipNext = true ↔ front.getLast? = some (str "-out")
  count : ∀ k, s.countIdx = some k ↔ k < front.length ∧ Positional argv k

theorem positional_here (hargv : argv = front ++ token :: rest) (hlen : 2 ≤ front.length)
    (honce : argv.count (str "-out") ≤ 1) :
    Positional argv front.length ↔
      ¬ OptionName token ∧ front.getLast? ≠ some (str "-out") := by
  obtain ⟨n, hn⟩ := Nat.exists_eq_add_of_le' hlen
  have hhere : argv[front.length]? = some token := by
    rw [hargv, List.getElem?_append_right le_rfl, Nat.sub_self, List.getElem?_cons_zero]
  have hlast : argv[n + 1]? = front.getLast? := by
    rw [hargv, List.getElem?_append_left (by omega), List.getLast?_eq_getElem?, hn]
    rfl
  have hbound := boundIndex_iff (randOptions_plain _ List.mem_cons_self) honce n
  rw [hlast, ← hn] at hbound
  simp only [Positional, hlen, true_and, hhere, Option.some.injEq, exists_eq_left', Ne, ← hbound]

theorem length_snoc (k : Nat) :
    k < (front ++ [token]).length ↔ k < front.length ∨ k = front.length := by
  rw [List.length_append, List.length_singleton]
  omega

theorem ScanInv.skip_token (inv : ScanInv argv front s) (hnot : ¬ Positional argv front.length)
    (hcount : s'.countIdx = s.countIdx) (k : Nat) :
    s'.countIdx = some k ↔ k < (front ++ [token]).length ∧ Positional argv k := by
  rw [hcount, inv.count, length_snoc]
  constructor
  · exact fun hk => ⟨.inl hk.1, hk.2⟩
  · rintro ⟨hk | rfl, hpos⟩
    · exact ⟨hk, hpos⟩
    · exact absurd hpos hnot

theorem ScanInv.count_token (inv : ScanInv argv front s) (hpos : Positional argv front.length)
    (hfirst : s.countIdx = none) (k : Nat) :
    some front.length = some k ↔ k < (front ++ [token]).length ∧ Positional argv k := by
  have hbefore := inv.count k
  rw [hfirst] at hbefore
  rw [Option.some.injEq, length_snoc]
  constructor
  · rintro rfl
    exact ⟨.inr rfl, hpos⟩
  · rintro ⟨hk | rfl, hlater⟩
    · cases hbefore.mpr ⟨hk, hlater⟩
    · rfl

theorem optionName_out : OptionName (str "-out") := .inr ⟨_, List.mem_cons_self, rfl⟩

theorem ScanInv.step (hargv : argv = front ++ token :: rest) (hlen : 2 ≤ front.length)
    (honce : argv.count (str "-out") ≤ 1) (inv : ScanInv argv front s)
    (h : RandStep front.length token s s') : ScanInv argv (front ++ [token]) s' := by
  have hlast : (front ++ [token]).getLast? = some token := by simp
  have hhere := positional_here hargv hlen honce
  cases h with
  | bound _ hskip hclear hcount =>
    have hprev := inv.skip.mp hskip
    have hout : token ≠ str "-out" := by
      rintro rfl
      have hmem := List.count_pos_iff.mpr (List.mem_of_getLast? hprev)
      rw [hargv, List.count_append, List.count_cons_self] at honce
      omega
    refine ⟨?_, inv.skip_token (fun hpos => (hhere.mp hpos).2 hprev) hcount⟩
    rw [hclear, hlast]
    simp [hout]
  | help hskip hhelp =>
    have hout : token ≠ str "-out" := by
      rintro rfl
      revert hhelp
      decide
    refine ⟨?_, inv.skip_token (fun hpos => (hhere.mp hpos).1 (.inl hhelp)) rfl⟩
    rw [hskip, hlast]
    simp [hout]
  | option _ o hskip ho hname hnext hcount =>
    refine ⟨?_, inv.skip_token (fun hpos => (hhere.mp hpos).1 (.inr ⟨o, ho, hname⟩)) hcount⟩
    rw [hnext, hlast, Option.some.injEq, randOptions_hasArg o ho, hname]
  | count hskip hname hfirst =>
    have hprev : front.getLast? ≠ some (str "-out") := by
      intro hlast
      rw [inv.skip.mpr hlast] at hskip
      cases hskip
    have hout : token ≠ str "-out" := by
      rintro rfl
      exact hname optionName_out
    refine ⟨?_, inv.count_token (hhere.mpr ⟨hname, hprev⟩) hfirst⟩
    rw [hlast]
    simp [hskip, hout]

theorem ScanInv.run (hargv : argv = front ++ rest) (hlen : 2 ≤ front.length)
    (honce : argv.count (str "-out") ≤ 1) (inv : ScanInv argv front s)
    (h : randScan front.length rest s = .ok s') : ScanInv argv argv s' := by
  induction rest generalizing front s with
  | nil =>
    rw [List.append_nil] at hargv
    cases h
    rwa [hargv] at inv ⊢
  | cons token rest ih =>
    obtain ⟨t, hstep, hrest⟩ := randScan_cons h
    refine ih ?_ ?_ (inv.step hargv hlen honce hstep) ?_
    · simp [hargv]
    · simp
      omega
    · rw [List.length_append]
      exact hrest

end Scan

section Dispatch
variable {haveOcsp : Bool} {argv line : Args}

theorem modeHandler_rand {m : Mode} (h : modeHandler argv m = .rand) : m = .rand := by
  cases m with
  | rand => rfl
  | crypt =>
    rw [modeHandler] at h
    split at h <;> cases h
  | _ => cases h

theorem flagHandler_rand {flag : Flag} (h : flagHandler argv flag = .rand) :
    flag = .mode .rand := by
  cases flag with
  | mode m => rw [modeHandler_rand h]
  | argFoundTwice | endOfArgs | fatalError => cases h

theorem modeOptions_rand :
    ∀ o ∈ modeOptions haveOcsp, o.val = .rand → o.name = str "rand" := by
  cases haveOcsp <;> decide

theorem getMode_rand {arg : List Byte} (h : getMode (modeOptions haveOcsp) arg = .mode .rand) :
    arg = str "rand" := by
  rw [getMode] at h
  split at h
  · rename_i o hfind
    have hname := modeOptions_rand o (List.mem_of_find?_eq_some hfind) (Flag.mode.inj h)
    have hmatch := List.find?_some hfind
    rw [decide_eq_true_eq] at hmatch
    obtain ⟨hlen, hcmp⟩ := hmatch
    rw [hname] at hlen hcmp
    have htake := strncmp_eq_zero.mp hcmp
    rw [← hlen] at htake
    have hle := cstr_length_le arg
    have hcstr : cstr arg = str "rand" := by
      rw [List.take_of_length_le (by omega)] at htake
      exact htake.trans (by decide)
    have hwhole : cstr arg = arg :=
      (List.takeWhile_prefix _).eq_of_length (by rw [← hlen, ← hcstr, cstr])
    rw [← hwhole, hcstr]
  · cases h

theorem matchOption_second {o : LongOption Mode} {m : Mode} {optarg : Option (List Byte)}
    (hhelp : strncmp o.name (str "-help") o.name.length ≠ 0)
    (h : matchOption argv 0 o = some (.found m, optarg)) :
    o.val = m ∧ argv[1]? = some o.name := by
  have hcheck := checkForArg_count (helpFree_of_name hhelp argv)
  simp only [matchOption] at h
  by_cases htwice : checkForArg o.name argv = userInputError
  · rw [if_pos htwice] at h
    cases h
  · rw [if_neg htwice] at h
    split at h
    · rename_i hfound
      obtain ⟨hval, -⟩ := Prod.mk.inj (Option.some.inj h)
      refine ⟨Opt.found.inj hval, ?_⟩
      have hone : checkForArg o.name argv = 1 := by omega
      rw [hone] at hcheck htwice
      split at hcheck
      · exact absurd hcheck htwice
      · split at hcheck
        · rename_i hmem
          have hidx : argv.idxOf o.name = 1 := by omega
          have hlt := List.idxOf_lt_length_of_mem hmem
          rw [← hidx, List.getElem?_eq_getElem hlt, List.getElem_idxOf hlt]
        · cases hcheck
    · cases h

theorem getOptMode_rand (h : getOptMode argv (modeOptions haveOcsp) = .mode .rand) :
    argv[1]? = some (str "rand") := by
  have hscan := (getOptFrom_spec argv 0 (rfl : (modeOptions haveOcsp).drop 0 = _)).1
  rw [getOptMode, getOpt, hscan] at h
  split at h
  · rename_i m optarg hhead
    obtain ⟨o, ho, hmatch⟩ := List.mem_filterMap.mp (List.mem_of_mem_head? hhead)
    obtain ⟨hval, hsecond⟩ := matchOption_second ((modeOptions_table haveOcsp).help o ho) hmatch
    rw [hsecond, modeOptions_rand o ho (hval.trans (Flag.mode.inj h))]
  · cases h
  · cases h

theorem main_rand (h : main haveOcsp line = (.rand, argv)) :
    ∃ prog args, argv = prog :: str "rand" :: args := by
  have hsecond (l : Args) (hl : l[1]? = some (str "rand")) :
      ∃ prog args, l = prog :: str "rand" :: args := by
    match l, hl with
    | prog :: arg :: args, hl => exact ⟨prog, args, by rw [Option.some.inj hl]⟩
  simp only [main] at h
  split at h
  · rename_i prog arg args
    split at h
    · obtain ⟨hhandler, rfl⟩ := Prod.mk.inj h
      have hflag := flagHandler_rand hhandler
      split at hflag
      · cases hflag
      · exact ⟨prog, args, by rw [getMode_rand hflag]⟩
    · obtain ⟨hhandler, rfl⟩ := Prod.mk.inj h
      exact hsecond _ (getOptMode_rand (flagHandler_rand hhandler))
  · obtain ⟨hhandler, rfl⟩ := Prod.mk.inj h
    exact hsecond _ (getOptMode_rand (flagHandler_rand hhandler))

end Dispatch

section Accepted
variable {argv : Args} {request : RandRequest} {o : RandOptions} {countIdx : Nat}
  {token : List Byte}

theorem randRequest_ok (h : randRequest o countIdx token = .ok request) :
    request.countIdx = countIdx ∧ request.size = atoi token ∧ request.outFile = o.outFile := by
  simp only [randRequest] at h
  split_ifs at h
  cases h
  exact ⟨rfl, rfl, rfl⟩

theorem randArgs_ok (h : randArgs argv = .ok request) :
    (readRandOptions argv).error = none ∧
      request.outFile = (readRandOptions argv).outFile ∧
      request.size = atoi (argv.getD request.countIdx []) ∧
      ∃ scan, randScan 2 (argv.drop 2) ⟨none, false, []⟩ = .ok scan ∧
        scan.countIdx = some request.countIdx := by
  simp only [randArgs] at h
  cases herror : (readRandOptions argv).error with
  | some e =>
    rw [herror] at h
    cases h
  | none =>
    rw [herror] at h
    rcases hscan : randScan 2 (argv.drop 2) ⟨none, false, []⟩ with e | scan
    · rw [hscan] at h
      cases h
    · rw [hscan] at h
      dsimp only at h
      cases hcount : scan.countIdx with
      | none =>
        rw [hcount] at h
        cases h
      | some countIdx =>
        rw [hcount] at h
        obtain ⟨rfl, hsize, hout⟩ := randRequest_ok h
        exact ⟨rfl, hout, hsize, scan, rfl, hcount⟩

theorem randFlags_outFile {name : Option (List Byte)} {s : RandOptions} (hs : s.outFile = name) :
    ((randReader argv).run 1 randOptions.tail s).outFile = name := by
  refine OptReader.run_preserves (P := fun s : RandOptions => s.outFile = name) ?_ hs
  intro opt optarg s hval hs
  cases opt with
  | foundTwice => exact hs
  | found val =>
    obtain ⟨o, ho, rfl⟩ := hval val rfl
    have hflag : ∀ o ∈ randOptions.tail, o.val = .base64 ∨ o.val = .hex := by decide
    rcases hflag o ho with hval | hval
    · rw [hval]
      exact hs
    · rw [hval]
      exact hs

theorem readRandOptions_outFile (h : (readRandOptions argv).error = none) :
    (readRandOptions argv).outFile = (boundIndex argv (str "-out")).bind (argv[·]?) := by
  have hout := matchOption_bound rfl (readRandOptions_once h _ List.mem_cons_self)
  have hsplit : readRandOptions argv = (randReader argv).run 1 randOptions.tail
      ((randReader argv).run 1 [⟨str "-out", true, .outfile⟩] ⟨none, false, false, none⟩) :=
    OptReader.run_append [_] randOptions.tail _
  have hrun : (randReader argv).running ⟨none, false, false, none⟩ = true := by simp [randReader]
  rw [hsplit]
  apply randFlags_outFile
  simp only [OptReader.run, if_pos hrun]
  rw [show (randReader argv).argv _ = argv from rfl, hout]
  cases boundIndex argv (str "-out") with
  | none => rfl
  | some k =>
    simp only [Option.map_some, Option.bind_some]
    cases argv[k]? with
    | none => rfl
    | some name => rfl

theorem randScan_start {prog : List Byte} {args : Args} :
    ScanInv (prog :: str "rand" :: args) [prog, str "rand"] ⟨none, false, []⟩ where
  skip := by
    have hne : str "rand" ≠ str "-out" := by decide
    simp [hne]
  count := by
    intro k
    constructor
    · intro h
      cases h
    · rintro ⟨hlt, hle, -⟩
      simp only [List.length_cons, List.length_nil] at hlt
      omega

theorem randArgs_positional {prog : List Byte} {args : Args}
    (h : randArgs (prog :: str "rand" :: args) = .ok request) (k : Nat) :
    k = request.countIdx ↔ Positional (prog :: str "rand" :: args) k := by
  obtain ⟨herror, -, -, scan, hscan, hcount⟩ := randArgs_ok h
  have honce := matchOption_once (randOptions_plain _ List.mem_cons_self)
    (readRandOptions_once herror _ List.mem_cons_self)
  have hrun : randScan [prog, str "rand"].length args ⟨none, false, []⟩ = .ok scan := hscan
  have inv := randScan_start.run (by rfl) le_rfl honce hrun
  have hk := inv.count k
  rw [hcount, Option.some.injEq, eq_comm] at hk
  rw [hk]
  constructor
  · exact fun hpos => hpos.2
  · intro hpos
    obtain ⟨token, htoken, -⟩ := hpos.2
    exact ⟨(List.getElem?_eq_some_iff.mp htoken).1, hpos⟩

end Accepted

section Command
variable {ρ : Type}

theorem rand_rejected (lib : RandLib ρ) (env : RandEnv) {argv : Args} {e : RandError}
    (h : randArgs argv = .error e) : (rand lib env argv).opened = none := by
  rw [rand]
  split
  · rfl
  · rw [h]
    rfl

theorem rand_count_positional (haveOcsp : Bool) (line argv : Args)
    (hrand : main haveOcsp line = (.rand, argv)) (lib : RandLib ρ) (env : RandEnv) :
    (∀ request, randArgs argv = .ok request →
      (∃ token, argv[request.countIdx]? = some token ∧ request.size = atoi token) ∧
        (∀ k, k = request.countIdx ↔ Positional argv k) ∧
        request.outFile = (boundIndex argv (str "-out")).bind (argv[·]?)) ∧
      ∀ e, randArgs argv = .error e → (rand lib env argv).opened = none := by
  obtain ⟨prog, args, rfl⟩ := main_rand hrand
  refine ⟨fun request hok => ?_, fun e => rand_rejected lib env⟩
  obtain ⟨herror, hout, hsize, -⟩ := randArgs_ok hok
  have hpositional := randArgs_positional hok
  obtain ⟨-, token, htoken, -⟩ := (hpositional request.countIdx).mp rfl
  refine ⟨⟨token, htoken, ?_⟩, hpositional, hout.trans (readRandOptions_outFile herror)⟩
  rw [hsize, List.getD_eq_getElem?_getD, htoken]
  rfl

end Command

def counterLib : RandLib Nat where
  rngMaxBlockLen := 65536
  initRng := some 0
  generateBlock c n := some (c + n, (List.range n).map fun i => UInt8.ofNat (c + i))
  base64Size buf := some (4 * ((buf.length + 2) / 3) + 1)
  base64Encode buf := some (Base64.encode buf ++ str "\n")
  rngMaxBlockLen_pos := by decide

def grantingEnv : RandEnv where
  fileOpens _ := true
  malloc _ _ := true
  stale _ := 0
  stdoutOpens := true
  bioWrite data := data.length

def hexFileLine : Args := [str "wolfssl", str "rand", str "-out", str "-hex", str "16"]

theorem rand_count_hex_file :
    ((randArgs hexFileLine).toOption.map fun r => (r.countIdx, r.size, r.outFile)) =
        some (4, 16, some (str "-hex")) ∧
      ∀ k, k = 4 ↔ Positional hexFileLine k := by
  have hview : ((randArgs hexFileLine).toOption.map fun r => (r.countIdx, r.size, r.outFile)) =
      some (4, 16, some (str "-hex")) := by decide
  have hmain : main true hexFileLine = (.rand, hexFileLine) := by decide
  refine ⟨hview, fun k => ?_⟩
  obtain ⟨request, hok, heq⟩ := Option.map_eq_some_iff.mp hview
  have hcount : request.countIdx = 4 := congrArg Prod.fst heq
  have hpositional := ((rand_count_positional true _ _ hmain counterLib grantingEnv).1 request
    (ok_of_toOption hok)).2.1
  rw [← hcount]
  exact hpositional k

end WolfCLU
