import WolfCLU.Crypto.Bio
import WolfCLU.ErrorCodes
import WolfCLU.Foundation.Base64
import WolfCLU.Foundation.MachineInt

namespace WolfCLU
open CString

inductive CodingSource where
  | stdin
  | file
  deriving DecidableEq, Repr

inductive PemType where
  | privateKey
  | cert
  | pkcs7
  deriving DecidableEq, Repr

structure Base64Lib where
  encodeLength : List Byte → Option Nat
  encode : List Byte → Nat → Except Int (List Byte)
  decode : List Byte → Nat → Except Int (List Byte)

structure CodingEnv where
  malloc : Nat → Bool
  bioNew : Bool
  bioWrite : List Byte → Int
  pemToDer : PemType → List Byte → Option (List Byte)
  maxDigestSize : Nat

def maxStdinSz : Nat := 8192

section Commands
variable (lib : Base64Lib) (env : CodingEnv)

def readInput (opened : Bool) (data : List Byte) (inputSz : Int) : Except Int (List Byte) :=
  if ¬ env.malloc (MachineInt.sizeT inputSz) then .error memoryE
  else if ¬ opened ∨ inputSz < 0 then .error wolfcluFatalError
  else
    let (ret, input, _) := Bio.read ⟨.file, data⟩ inputSz.toNat
    if ret < 0 then .error wolfcluFatalError else .ok input

def encodeText (lengthError : Int) (input : List Byte) : Except Int (List Byte) :=
  match lib.encodeLength input with
  | none => .error lengthError
  | some outputSz =>
    if env.malloc outputSz then (lib.encode input outputSz).mapError fun _ => wolfcluFatalError
    else .error memoryE

def decodeText (outputSz : Nat) (input : List Byte) : Except Int (List Byte) :=
  if env.malloc outputSz then (lib.decode input outputSz).mapError fun _ => wolfcluFatalError
  else .error memoryE

def isPem (input : List Byte) : Bool := 11 < input.length ∧ input.take 10 = str "-----BEGIN"

def pemDecode (input : List Byte) : Except Int (List Byte) :=
  match (env.pemToDer .privateKey input).or
      ((env.pemToDer .cert input).or (env.pemToDer .pkcs7 input)) with
  | none => .error wolfcluFatalError
  | some der => if env.malloc der.length then .ok der else .error memoryE

def base64Code (decode : Bool) (input : List Byte) : Except Int (List Byte) :=
  if decode then
    if isPem input then pemDecode env input
    else decodeText lib env (input.length / 4 * 3 + input.length % 4 * 3 / 4 + 1) input
  else encodeText lib env wolfcluFatalError input

def base64Write (outFile : Bool) (output : List Byte) : Except Int (List Byte) :=
  if ¬ outFile ∧ ¬ env.bioNew then .error memoryE
  else
    let ret := env.bioWrite output
    if ret ≤ 0 then .error wolfcluFatalError else .ok (output.take ret.toNat)

def base64Setup (src : CodingSource) (outFile decode : Bool) (data : List Byte) :
    Except Int (List Byte) := do
  let inputSz : Int :=
    match src with
    | .stdin => 8000
    | .file => MachineInt.toInt32 data.length
  let input ← readInput env (src = .file ∨ env.bioNew) data inputSz
  let output ← base64Code lib env decode input
  base64Write env outFile output

def hashCode (decode : Bool) (input : List Byte) : Except Int (List Byte) :=
  if decode then decodeText lib env input.length input else encodeText lib env badFuncArg input

def hashWrite (outFile : Bool) (output : List Byte) : Except Int (List Byte) :=
  if ¬ outFile ∧ ¬ env.bioNew then .error memoryE
  else if env.bioWrite output ≠ output.length then .error wolfcluFatalError
  else .ok output

def hashInputSz (src : CodingSource) (data : List Byte) : Except Int Int :=
  match src with
  | .stdin => .ok maxStdinSz
  | .file => if (data.length : Int) > MachineInt.intMax then .error wolfcluFatalError
    else .ok data.length

def hashCoding (src : CodingSource) (outFile decode : Bool) (data : List Byte) :
    Except Int (List Byte) :=
  if src = .stdin ∧ ¬ env.bioNew then .error memoryE
  else if ¬ env.malloc env.maxDigestSize then .error memoryE
  else do
    let inputSz ← hashInputSz src data
    let input ← readInput env true data inputSz
    let output ← hashCode lib env decode input
    hashWrite env outFile output

end Commands

inductive CodingCommand where
  | base64
  | hash
  deriving DecidableEq, Repr

namespace CodingCommand

def run (lib : Base64Lib) (env : CodingEnv) (src : CodingSource) (outFile decode : Bool)
    (data : List Byte) : CodingCommand → Except Int (List Byte)
  | .base64 => base64Setup lib env src outFile decode data
  | .hash => hashCoding lib env src outFile decode data

def stdinSz : CodingCommand → Nat
  | .base64 => 8000
  | .hash => maxStdinSz

def Fits (cmd : CodingCommand) : CodingSource → Nat → Prop
  | .stdin, n => n ≤ cmd.stdinSz
  | .file, n => (n : Int) ≤ MachineInt.intMax

end CodingCommand

structure CodingEnv.Works (env : CodingEnv) : Prop where
  malloc : ∀ n, env.malloc n = true
  bioNew : env.bioNew = true
  bioWrite : ∀ output, env.bioWrite output = output.length

structure Base64Lib.Coding (lib : Base64Lib) (text : List Byte → List Byte) : Prop where
  length : ∀ x, x ≠ [] → lib.encodeLength x = some (text x).length
  encode : ∀ x capacity, x ≠ [] → (text x).length ≤ capacity → lib.encode x capacity = .ok (text x)
  grows : ∀ x, x.length ≤ (text x).length
  alphabet : ∀ x, (45 : Byte) ∉ text x
  decode : ∀ x capacity, x ≠ [] → 3 * (text x).length / 4 ≤ capacity →
    lib.decode (text x) capacity = .ok x

section Process
variable {lib : Base64Lib} {env : CodingEnv} {text : List Byte → List Byte} {cmd : CodingCommand}
  {src : CodingSource} {outFile decode : Bool} {data : List Byte}

def CodingCommand.process (lib : Base64Lib) (env : CodingEnv) (outFile decode : Bool)
    (input : List Byte) : CodingCommand → Except Int (List Byte)
  | .base64 => base64Code lib env decode input >>= base64Write env outFile
  | .hash => hashCode lib env decode input >>= hashWrite env outFile

def CodingCommand.seen (cmd : CodingCommand) (data : List Byte) : CodingSource → List Byte
  | .stdin => data.take cmd.stdinSz
  | .file => data

theorem readInput_works (hworks : env.Works) (hne : data ≠ []) (n : Nat) :
    readInput env true data n = .ok (data.take n) := by
  have hmalloc := hworks.malloc (MachineInt.sizeT n)
  simp only [readInput, hmalloc, Bio.read_of_ne .file hne]
  rw [if_neg (by simp), if_neg (by simp), if_neg (by omega), Int.toNat_natCast]

theorem base64Setup_seen (hworks : env.Works) (hne : data ≠ [])
    (hfits : src = .file → (data.length : Int) ≤ MachineInt.intMax) :
    base64Setup lib env src outFile decode data =
      CodingCommand.base64.process lib env outFile decode (CodingCommand.base64.seen data src) := by
  have hopened : decide (src = .file ∨ env.bioNew = true) = true := by
    rw [hworks.bioNew]
    simp
  cases src with
  | stdin =>
    have hread : readInput env true data 8000 = .ok (data.take 8000) := readInput_works hworks hne 8000
    rw [base64Setup, hopened, hread]
    rfl
  | file =>
    have hsize : MachineInt.toInt32 data.length = (data.length : Int) :=
      MachineInt.toInt32_of_range (by omega) (hfits rfl)
    rw [base64Setup, hopened]
    simp only [hsize, readInput_works hworks hne, List.take_length]
    rfl

theorem hashInputSz_seen (hworks : env.Works) (hne : data ≠ [])
    (hfits : src = .file → (data.length : Int) ≤ MachineInt.intMax) :
    (hashInputSz src data >>= fun inputSz => readInput env true data inputSz) =
      .ok (CodingCommand.hash.seen data src) := by
  cases src with
  | stdin => exact readInput_works hworks hne maxStdinSz
  | file =>
    have hle := hfits rfl
    have hread := readInput_works hworks hne data.length
    rw [List.take_length] at hread
    rw [hashInputSz, if_neg (by omega)]
    exact hread

theorem hashCoding_seen (hworks : env.Works) (hne : data ≠ [])
    (hfits : src = .file → (data.length : Int) ≤ MachineInt.intMax) :
    hashCoding lib env src outFile decode data =
      CodingCommand.hash.process lib env outFile decode (CodingCommand.hash.seen data src) := by
  have hsize := hashInputSz_seen hworks hne hfits
  obtain ⟨inputSz, hinputSz, hread⟩ := bind_eq_ok.mp hsize
  rw [hashCoding, if_neg (by simp [hworks.bioNew]), if_neg (by simp [hworks.malloc]), hinputSz]
  simp only [bind, Except.bind, hread]
  rfl

theorem run_seen (hworks : env.Works) (hne : data ≠ [])
    (hfits : src = .file → (data.length : Int) ≤ MachineInt.intMax) :
    cmd.run lib env src outFile decode data =
      cmd.process lib env outFile decode (cmd.seen data src) := by
  cases cmd with
  | base64 => exact base64Setup_seen hworks hne hfits
  | hash => exact hashCoding_seen hworks hne hfits

theorem write_works (hworks : env.Works) {output : List Byte} (hne : output ≠ []) :
    base64Write env outFile output = .ok output ∧ hashWrite env outFile output = .ok output := by
  have hwrite := hworks.bioWrite output
  have hpos := List.length_pos_iff.mpr hne
  constructor
  · simp only [base64Write, hwrite]
    rw [if_neg (by simp [hworks.bioNew]), if_neg (by omega), Int.toNat_natCast, List.take_length]
  · rw [hashWrite, if_neg (by simp [hworks.bioNew]), if_neg (by simp [hwrite])]

theorem process_of_code (hworks : env.Works) {input output : List Byte} (hne : output ≠ [])
    (hbase64 : base64Code lib env decode input = .ok output)
    (hhash : hashCode lib env decode input = .ok output) :
    cmd.process lib env outFile decode input = .ok output := by
  obtain ⟨hfirst, hsecond⟩ := @write_works env outFile hworks output hne
  cases cmd with
  | base64 => exact bind_eq_ok.mpr ⟨output, hbase64, hfirst⟩
  | hash => exact bind_eq_ok.mpr ⟨output, hhash, hsecond⟩

theorem encodeText_works (hcoding : lib.Coding text) (hworks : env.Works) (lengthError : Int)
    {x : List Byte} (hne : x ≠ []) : encodeText lib env lengthError x = .ok (text x) := by
  simp only [encodeText, hcoding.length x hne, hworks.malloc, if_true,
    hcoding.encode x _ hne (Nat.le_refl _)]
  rfl

theorem decodeText_works (hcoding : lib.Coding text) (hworks : env.Works) {outputSz : Nat}
    {x : List Byte} (hne : x ≠ []) (hsize : 3 * (text x).length / 4 ≤ outputSz) :
    decodeText lib env outputSz (text x) = .ok x := by
  rw [decodeText, if_pos (hworks.malloc _), hcoding.decode x _ hne hsize]
  rfl

theorem text_ne_nil (hcoding : lib.Coding text) {x : List Byte} (hne : x ≠ []) : text x ≠ [] := by
  intro hnil
  have hgrows := hcoding.grows x
  rw [hnil, List.length_nil, Nat.le_zero, List.length_eq_zero_iff] at hgrows
  exact hne hgrows

theorem text_not_pem (hcoding : lib.Coding text) (x : List Byte) : isPem (text x) = false := by
  refine decide_eq_false ?_
  rintro ⟨-, hhead⟩
  apply hcoding.alphabet x
  apply List.mem_of_mem_take (i := 10)
  rw [hhead]
  decide

theorem process_encode (hcoding : lib.Coding text) (hworks : env.Works) {x : List Byte}
    (hne : x ≠ []) : cmd.process lib env outFile false x = .ok (text x) := by
  apply process_of_code hworks (text_ne_nil hcoding hne)
  · exact encodeText_works hcoding hworks _ hne
  · exact encodeText_works hcoding hworks _ hne

theorem process_decode (hcoding : lib.Coding text) (hworks : env.Works) {x : List Byte}
    (hne : x ≠ []) : cmd.process lib env outFile true (text x) = .ok x := by
  apply process_of_code hworks hne
  · rw [base64Code, if_pos rfl, text_not_pem hcoding]
    exact decodeText_works hcoding hworks hne (by omega)
  · exact decodeText_works hcoding hworks hne (by omega)

theorem text_injective (hcoding : lib.Coding text) {x y : List Byte} (hx : x ≠ []) (hy : y ≠ [])
    (h : text x = text y) : x = y := by
  have hfirst := hcoding.decode x (text x).length hx (by omega)
  have hsecond := hcoding.decode y (text x).length hy (by rw [h]; omega)
  rw [h] at hfirst
  exact Except.ok.inj (hfirst.symm.trans (h ▸ hsecond))

theorem seen_of_fits (hfits : cmd.Fits src data.length) :
    cmd.seen data src = data ∧ (src = .file → (data.length : Int) ≤ MachineInt.intMax) := by
  cases src with
  | stdin => exact ⟨List.take_of_length_le hfits, nofun⟩
  | file => exact ⟨rfl, fun _ => hfits⟩

theorem run_fits (hworks : env.Works) (hne : data ≠ []) (hfits : cmd.Fits src data.length) :
    cmd.run lib env src outFile decode data = cmd.process lib env outFile decode data := by
  obtain ⟨hseen, hfile⟩ := seen_of_fits hfits
  rw [run_seen hworks hne hfile, hseen]

theorem fits_file_of_stdin (h : cmd.Fits .stdin data.length) : cmd.Fits .file data.length := by
  have hstdin : cmd.stdinSz ≤ 8192 := by cases cmd <;> decide
  have hle : data.length ≤ cmd.stdinSz := h
  simp only [CodingCommand.Fits, MachineInt.intMax]
  omega

theorem hash_stdin_front (hworks : env.Works) (hne : data ≠ []) :
    CodingCommand.hash.run lib env .stdin outFile decode data =
      CodingCommand.hash.run lib env .file outFile decode (data.take maxStdinSz) := by
  have hfront : data.take maxStdinSz ≠ [] := by
    rw [Ne, List.take_eq_nil_iff]
    exact not_or.mpr ⟨by decide, hne⟩
  have hfits : CodingCommand.hash.Fits .file (data.take maxStdinSz).length := by
    apply fits_file_of_stdin
    exact List.length_take_le _ _
  rw [@run_seen lib env .hash .stdin outFile decode data hworks hne nofun,
    run_fits hworks hfront hfits]
  rfl

theorem hash_file_refused (hworks : env.Works) (hlong : MachineInt.intMax < data.length) :
    CodingCommand.hash.run lib env .file outFile decode data = .error wolfcluFatalError := by
  have hsize : hashInputSz .file data = .error wolfcluFatalError := by
    rw [hashInputSz, if_pos hlong]
  rw [CodingCommand.run, hashCoding, if_neg (by simp), if_neg (by simp [hworks.malloc]), hsize]
  rfl

end Process

structure CodedExactly (lib : Base64Lib) (env : CodingEnv) (x : List Byte) : Prop where
  restored : ∀ (cmd cmd' : CodingCommand) src src' outFile outFile',
    ∃ t, cmd.run lib env src outFile false x = .ok t ∧ cmd'.run lib env src' outFile' true t = .ok x
  sources : ∀ (cmd : CodingCommand) outFile decode,
    cmd.run lib env .stdin outFile decode x = cmd.run lib env .file outFile decode x

theorem not_codedExactly {lib : Base64Lib} {text : List Byte → List Byte} (hcoding : lib.Coding text)
    {env : CodingEnv} (hworks : env.Works) {x : List Byte} (hlong : maxStdinSz < x.length)
    (hfile : (x.length : Int) ≤ MachineInt.intMax) : ¬ CodedExactly lib env x := by
  intro h
  have hne : x ≠ [] := List.length_pos_iff.mp (Nat.zero_lt_of_lt hlong)
  have hfront : x.take maxStdinSz ≠ [] := by
    rw [Ne, List.take_eq_nil_iff]
    exact not_or.mpr ⟨by decide, hne⟩
  have hfits : CodingCommand.hash.Fits .file (x.take maxStdinSz).length :=
    fits_file_of_stdin (List.length_take_le _ _)
  have hsame := h.sources .hash false false
  rw [hash_stdin_front hworks hne, run_fits hworks hfront hfits,
    @run_fits lib env .hash .file false false x hworks hne hfile,
    process_encode hcoding hworks hfront, process_encode hcoding hworks hne] at hsame
  have hcut := text_injective hcoding hfront hne (Except.ok.inj hsame)
  have hlength := congrArg List.length hcut
  rw [List.length_take] at hlength
  omega

theorem base64_commands_within_buffers (lib : Base64Lib) (text : List Byte → List Byte)
    (hcoding : lib.Coding text) (env : CodingEnv) (hworks : env.Works) (x : List Byte) (hne : x ≠ []) :
    (∀ (cmd cmd' : CodingCommand) src src' outFile outFile', cmd.Fits src x.length →
      cmd'.Fits src' (text x).length →
      ∃ t, cmd.run lib env src outFile false x = .ok t ∧
        cmd'.run lib env src' outFile' true t = .ok x) ∧
    (∀ (cmd : CodingCommand) outFile decode, cmd.Fits .stdin x.length →
      cmd.run lib env .stdin outFile decode x = cmd.run lib env .file outFile decode x) ∧
    (∀ outFile decode, CodingCommand.hash.run lib env .stdin outFile decode x =
      CodingCommand.hash.run lib env .file outFile decode (x.take maxStdinSz)) ∧
    (∀ outFile decode, MachineInt.intMax < x.length →
      CodingCommand.hash.run lib env .file outFile decode x = .error wolfcluFatalError) := by
  refine ⟨?_, ?_, ?_, ?_⟩
  · intro cmd cmd' src src' outFile outFile' hfits hfits'
    refine ⟨text x, ?_, ?_⟩
    · rw [run_fits hworks hne hfits, process_encode hcoding hworks hne]
    · rw [run_fits hworks (text_ne_nil hcoding hne) hfits', process_decode hcoding hworks hne]
  · intro cmd outFile decode hfits
    rw [run_fits hworks hne hfits, run_fits hworks hne (fits_file_of_stdin hfits)]
  · intro outFile decode
    exact hash_stdin_front hworks hne
  · intro outFile decode hlong
    exact hash_file_refused hworks hlong

section Standard
open Base64

def linedText (x : List Byte) : List Byte := lines (encode x)

def standardBase64 : Base64Lib where
  encodeLength x := if x = [] then none else some (linedText x).length
  encode x capacity :=
    if x = [] ∨ capacity < (linedText x).length then .error badFuncArg else .ok (linedText x)
  decode t capacity :=
    if capacity < 3 * t.length / 4 then .error badFuncArg
    else
      match decode (t.filter fun c => c ≠ 10) with
      | none => .error badFuncArg
      | some bytes => .ok bytes

def workingEnv : CodingEnv where
  malloc _ := true
  bioNew := true
  bioWrite output := output.length
  pemToDer _ _ := none
  maxDigestSize := 64

theorem workingEnv_works : workingEnv.Works := ⟨fun _ => rfl, rfl, fun _ => rfl⟩

theorem standardBase64_coding : standardBase64.Coding linedText := by
  refine ⟨?_, ?_, ?_, ?_, ?_⟩
  · intro x hne
    exact if_neg hne
  · intro x capacity hne hroom
    refine if_neg (not_or.mpr ⟨hne, ?_⟩)
    omega
  · intro x
    have hfilter := filter_lines (newline_not_mem_encode x)
    have hle := List.length_filter_le (fun c => decide (c ≠ 10)) (lines (encode x))
    rw [hfilter, encode_length] at hle
    rw [linedText]
    omega
  · intro x hmem
    rcases mem_lines hmem with hmem | hdash
    · exact dash_not_mem_encode x hmem
    · exact absurd hdash (by decide)
  · intro x capacity _ hroom
    simp only [standardBase64]
    rw [if_neg (by omega), linedText, filter_lines (newline_not_mem_encode x), decode_encode]

theorem linedText_hello : linedText (str "hello") = str "aGVsbG8=\n" := by
  have hencode : encode (str "hello") = str "aGVsbG8=" := by decide
  have hend : (str "aGVsbG8=").drop 64 = [] := rfl
  rw [linedText, hencode, lines, Chunks.chunks_of_ne (by decide) (by decide), hend,
    Chunks.chunks_nil]
  rfl

theorem base64_commands_hello : ∃ t,
    CodingCommand.base64.run standardBase64 workingEnv .stdin false false (str "hello") = .ok t ∧
      CodingCommand.hash.run standardBase64 workingEnv .file false true t = .ok (str "hello") :=
  (base64_commands_within_buffers standardBase64 linedText standardBase64_coding workingEnv
    workingEnv_works (str "hello") (by decide)).1 .base64 .hash .stdin .file false false
    (show (str "hello").length ≤ 8000 by decide)
    (show ((linedText (str "hello")).length : Int) ≤ MachineInt.intMax by
      rw [linedText_hello]
      decide)

theorem long_stdin_cut :
    ¬ CodedExactly standardBase64 workingEnv (List.replicate (maxStdinSz + 1) 65) := by
  apply not_codedExactly standardBase64_coding workingEnv_works
  · rw [List.length_replicate]
    exact Nat.lt_succ_self _
  · rw [List.length_replicate]
    decide

end Standard

end WolfCLU
