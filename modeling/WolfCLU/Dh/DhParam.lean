import WolfCLU.Crypto.Bio
import WolfCLU.Dh.DhDer
import WolfCLU.Foundation.MachineInt
import WolfCLU.Foundation.Pem
import WolfCLU.Tools.GetOpt

namespace WolfCLU
open BigEndian CString Der

inductive DhOption where
  | infile
  | outfile
  | genKey
  | check
  | noOut
  | help
  deriving DecidableEq, Repr

def dhOptions : List (LongOption DhOption) :=
  [⟨str "-in", true, .infile⟩, ⟨str "-out", true, .outfile⟩, ⟨str "-genkey", false, .genKey⟩,
    ⟨str "-check", false, .check⟩, ⟨str "-noout", false, .noOut⟩, ⟨str "-help", false, .help⟩,
    ⟨str "-h", false, .help⟩]

def dhHelp : List (List Byte) :=
  [str "./wolfssl dhparam [options] [numbits]",
    str "\t-in file input for key to read",
    str "\t-out file to output to (default stdout)",
    str "\t-genkey generate DH key using param input",
    str "\t-check  check if parameters are valid",
    str "\t-noout  do not print out the params"]

inductive DhPem where
  | params
  | privateKey
  deriving DecidableEq, Repr

inductive DhAlloc where
  | input
  | paramsDer
  | paramsPem
  | check
  | keyDer
  | keyPem
  deriving DecidableEq, Repr

structure DhLib (ρ κ : Type) where
  initRng : Option ρ
  initKey : Option κ
  numbers : κ → DhKey
  pemToDer : DhPem → List Byte → Option (List Byte)
  derToPem : DhPem → List Byte → Option (List Byte)
  keyDecode : List Byte → κ → Option κ
  setNamed4096 : κ → Option κ
  generateParams : ρ → Int → κ → Option (ρ × κ)
  mpSize : Nat
  exportSizes : κ → Option (Nat × Nat × Nat)
  exportParamsRaw : κ → Option (List Byte × List Byte × List Byte)
  setKeyEx : κ → List Byte × List Byte × List Byte → Option κ
  generateKeyPair : κ → ρ → Option (List Byte)

structure DhEnv where
  file : List Byte → Option (List Byte)
  fileOpens : List Byte → Bool
  stdoutOpens : Bool
  malloc : DhAlloc → Nat → Bool
  stale : Nat → Byte
  bioWrite : DhPem → List Byte → Int

structure DhState where
  ret : Int
  log : List (List Byte)
  bioIn : Option (List Byte)
  out : Option (List Byte)
  genKey : Bool
  check : Bool
  noOut : Bool
  helped : Bool
  deriving DecidableEq, Repr

structure DhRun where
  ret : Int
  log : List (List Byte)
  written : List Byte
  deriving DecidableEq, Repr

section Arguments
variable (env : DhEnv)

def DhState.fail (s : DhState) (ret : Int) (message : List Byte) : DhState :=
  { s with ret := ret, log := s.log ++ [message] }

def DhState.handle : Opt DhOption → Option (List Byte) → DhState → DhState
  | .foundTwice, _, s => s.fail wolfcluFatalError (str "Found duplicate argument")
  | .found .infile, optarg, s =>
    match optarg.bind env.file with
    | none =>
      { s with bioIn := none }.fail wolfcluFatalError
        (str "Unable to open input file " ++ optarg.getD (str "(null)"))
    | some data => { s with bioIn := some data }
  | .found .outfile, optarg, s => { s with out := optarg }
  | .found .genKey, _, s => { s with genKey := true }
  | .found .check, _, s => { s with check := true }
  | .found .noOut, _, s => { s with noOut := true }
  | .found .help, _, s => { s with helped := true, log := s.log ++ dhHelp }

def dhReader (argv : Args) : OptReader DhOption DhState where
  argv := fun _ => argv
  running := fun s => !s.helped
  handle := DhState.handle env

def readDhOptions (argv : Args) : DhState :=
  (dhReader env argv).run 1 dhOptions ⟨wolfcluSuccess, [], none, none, false, false, false, false⟩

def dhNumBits : List Byte → Args → Option (List Byte)
  | _, [] => none
  | before, token :: rest =>
    if token.headD 0 ≠ 45 ∧ before ≠ str "-in" ∧ before ≠ str "-out" then some token
    else dhNumBits token rest

def DhState.numBits (s : DhState) (argv : Args) : DhState × Int :=
  if s.ret ≠ wolfcluSuccess then (s, -1)
  else
    match dhNumBits (argv.getD 1 []) (argv.drop 2) with
    | none => (s, -1)
    | some token =>
      if atoi token ≤ 0 then
        (s.fail userInputError (str "Can not parse " ++ token ++ str " as a number"), atoi token)
      else (s, atoi token)

end Arguments

section Steps
variable {ρ κ : Type} (lib : DhLib ρ κ) (env : DhEnv)

def dhRead (bioIn : Option (List Byte)) (dh : κ) : Except (Option (List Byte)) κ :=
  match bioIn with
  | none => .ok dh
  | some data =>
    let inSz := MachineInt.toInt32 data.length
    if inSz ≤ 0 then .ok dh
    else if ¬ env.malloc .input inSz.toNat then .error none
    else
      let (read, input, _) := Bio.read ⟨.file, data⟩ inSz.toNat
      if read ≤ 0 then .error none
      else
        match lib.pemToDer .params input with
        | none => .error none
        | some der =>
          if inSz.toNat < der.length then .error none
          else
            match lib.keyDecode der dh with
            | none => .error (some (str "Unable to decode input params"))
            | some dh => .ok dh

def dhOpenOut (out : Option (List Byte)) : Except (Option (List Byte)) Unit :=
  match out with
  | none => if env.stdoutOpens then .ok () else .error none
  | some name =>
    if env.fileOpens name then .ok () else .error (some (str "Unable to open output file (null)"))

def dhGenerate (bioIn : Option (List Byte)) (modSz : Int) (rng : ρ) (dh : κ) :
    Except (Option (List Byte)) (ρ × κ) :=
  if bioIn ≠ none then .ok (rng, dh)
  else if modSz = 4096 then
    match lib.setNamed4096 dh with
    | none => .error (some (str "Error setting named 4096 parameters"))
    | some dh => .ok (rng, dh)
  else
    match lib.generateParams rng modSz dh with
    | none => .error (some (str "Error generating parameters"))
    | some generated => .ok generated

def dhPem (kind : DhPem) (site : DhAlloc) (der : List Byte) : Except (Option (List Byte)) (List Byte) :=
  match lib.derToPem kind der with
  | none => .error none
  | some pem => if pem = [] ∨ ¬ env.malloc site pem.length then .error none else .ok pem

def staleBuffer (n : Nat) : List Byte := (List.range n).map env.stale

def dhParamsPem (dh : κ) : Except (Option (List Byte)) (List Byte) :=
  let query := dhParamsToDer (lib.numbers dh) none 0 0
  if query.ret ≠ lengthOnlyE then .error (some (str "Unable to get output buffer size"))
  else if ¬ env.malloc .paramsDer query.outSz then .error none
  else
    let run := dhParamsToDer (lib.numbers dh) (some (staleBuffer env query.outSz)) 0 query.outSz
    if run.ret ≤ 0 then .error none
    else dhPem lib env .params .paramsPem ((run.output.getD []).take run.outSz)

def dhCheck (check : Bool) (dh : κ) : Except (Option (List Byte)) (κ × List (List Byte)) :=
  if ¬ check then .ok (dh, [])
  else
    match lib.exportSizes dh with
    | none => .error (some (str "Failed to get sizes for export DH params"))
    | some (pLen, qLen, gLen) =>
      if ¬ (env.malloc .check pLen ∧ env.malloc .check qLen ∧ env.malloc .check gLen) then
        .error (some (str "Failed to malloc DH params buffer"))
      else
        match lib.exportParamsRaw dh with
        | none => .error (some (str "Failed to export DH params"))
        | some raw =>
          match lib.setKeyEx dh raw with
          | none => .error (some (str "Failed to set/check DH params"))
          | some dh => .ok (dh, [str "DH params are valid."])

def dhKeyPem (dh : κ) (rng : ρ) : Except (Option (List Byte)) (List Byte) :=
  match lib.generateKeyPair dh rng with
  | none => .error (some (str "Error making DH key"))
  | some prv =>
    let query := dhParamsToDer (lib.numbers dh) none 0 0
    if query.ret ≠ lengthOnlyE then .error (some (str "Unable to get output buffer size"))
    else
      let outBufSz := query.outSz + query.outSz + 8
      if ¬ env.malloc .keyDer outBufSz then .error none
      else
        let run := dhPrivKeyToDer lib.mpSize (lib.numbers dh) prv (some (staleBuffer env outBufSz)) outBufSz
        if run.ret ≤ 0 then .error (some (str "Error converting DH key to buffer"))
        else dhPem lib env .privateKey .keyPem ((run.output.getD []).take run.ret.toNat)

def dhSection (wanted : Bool) (kind : DhPem) (pem : Except (Option (List Byte)) (List Byte))
    (run : DhRun) : DhRun :=
  if run.ret ≠ wolfcluSuccess ∨ ¬ wanted then run
  else
    match pem with
    | .error message => { run with ret := wolfcluFatalError, log := run.log ++ message.toList }
    | .ok pem =>
      let ret := env.bioWrite kind pem
      { run with
        ret := if ret ≤ 0 then wolfcluFatalError else run.ret
        written := run.written ++ pem.take ret.toNat }

def dhPrepare (s : DhState) (modSz : Int) (rng : ρ) : Except (Option (List Byte)) (ρ × κ) :=
  match lib.initKey with
  | none => .error (some (str "Unable to initialize dh"))
  | some dh => do
    let dh ← dhRead lib env s.bioIn dh
    dhOpenOut env s.out
    dhGenerate lib s.bioIn modSz rng dh

def dhEmit (s : DhState) (rng : ρ) (dh : κ) : DhRun :=
  let run := dhSection env (!s.noOut) .params (dhParamsPem lib env dh) ⟨s.ret, s.log, []⟩
  match (if run.ret = wolfcluSuccess then dhCheck lib env s.check dh else .ok (dh, [])) with
  | .error message => { run with ret := wolfcluFatalError, log := run.log ++ message.toList }
  | .ok (dh, log) =>
    dhSection env s.genKey .privateKey (dhKeyPem lib env dh rng) { run with log := run.log ++ log }

def dhParamSetup (argv : Args) : DhRun :=
  let s := readDhOptions env argv
  if s.helped then ⟨wolfcluSuccess, s.log, []⟩
  else
    let (s, modSz) := s.numBits argv
    match lib.initRng with
    | none => ⟨wolfcluFatalError, s.log ++ [str "Unable to initialize rng"], []⟩
    | some rng =>
      if s.ret ≠ wolfcluSuccess then ⟨s.ret, s.log, []⟩
      else
        match dhPrepare lib env s modSz rng with
        | .error message => ⟨wolfcluFatalError, s.log ++ message.toList, []⟩
        | .ok (rng, dh) => dhEmit lib env s rng dh

end Steps

section Pem
variable {ρ κ : Type} {lib : DhLib ρ κ} {env : DhEnv}

structure DhLib.Documented (lib : DhLib ρ κ) : Prop where
  pem : ∀ {kind der pem}, lib.derToPem kind der = some pem →
    lib.pemToDer kind pem = some der ∧ der.length ≤ pem.length
  decode : ∀ dh old, DhSized (lib.numbers dh) →
    ∃ dh', lib.keyDecode (dhParamsDer (lib.numbers dh)) old = some dh' ∧
      lib.numbers dh' = lib.numbers dh
  refuse : ∀ dh old, DhHeld (lib.numbers dh) → (lib.numbers dh).p = 0 ∨ (lib.numbers dh).g = 0 →
    lib.keyDecode (dhParamsWritten (lib.numbers dh)) old = none
  init : ∀ {dh}, lib.initKey = some dh → lib.numbers dh = ⟨0, 0⟩
  decoded : ∀ {der old dh}, lib.keyDecode der old = some dh → DhHeld (lib.numbers dh)
  named : ∀ {old dh}, lib.setNamed4096 old = some dh → DhSized (lib.numbers dh)
  generated : ∀ {rng modSz old rng' dh}, lib.generateParams rng modSz old = some (rng', dh) →
    DhSized (lib.numbers dh)
  setKey : ∀ {dh dh' raw}, lib.exportParamsRaw dh = some raw → lib.setKeyEx dh raw = some dh' →
    lib.numbers dh' = lib.numbers dh
  pair : ∀ {dh rng prv}, lib.generateKeyPair dh rng = some prv →
    DhKeySized (lib.numbers dh) (value prv) ∧ prv.length ≤ lib.mpSize

theorem dhPem_ok {kind : DhPem} {site : DhAlloc} {der pem : List Byte}
    (h : dhPem lib env kind site der = .ok pem) : lib.derToPem kind der = some pem ∧ pem ≠ [] := by
  unfold dhPem at h
  split at h
  · cases h
  · rename_i text htext
    split at h
    · cases h
    · rename_i hne
      cases h
      exact ⟨htext, fun hnil => hne (Or.inl hnil)⟩

theorem staleBuffer_length (env : DhEnv) (n : Nat) : (staleBuffer env n).length = n := by
  simp [staleBuffer]

theorem blit_take_length {buffer bs : List Byte} :
    (Buffer.blit buffer 0 bs).take bs.length = bs := by
  have htake := @Buffer.blit_take_append _ _ bs 0 (Nat.zero_le buffer.length)
  rw [Nat.zero_add, List.take_zero, List.nil_append] at htake
  exact htake

theorem tlv_length_pos (tag : Byte) (content : List Byte) : 0 < (tlv tag content).length := by
  rw [tlv_length]
  omega

theorem dhParamsPem_eq {dh : κ} (h : DhHeld (lib.numbers dh)) :
    dhParamsPem lib env dh =
      if ¬ env.malloc .paramsDer (dhParamsWritten (lib.numbers dh)).length then .error none
      else dhPem lib env .params .paramsPem (dhParamsWritten (lib.numbers dh)) := by
  have hpos : ¬ ((dhParamsWritten (lib.numbers dh)).length : Int) ≤ 0 := by
    have := tlv_length_pos 48 (unsigned (lib.numbers dh).p ++ unsigned (lib.numbers dh).g)
    rw [dhParamsWritten]
    omega
  have hwritten := @DhHeld.toDer_written _ _ 0 _ h le_rfl
    (Nat.zero_le (staleBuffer env (dhParamsWritten (lib.numbers dh)).length).length)
  simp only [dhParamsPem, h.toDer_size, hwritten, if_neg hpos, ne_eq, not_true_eq_false,
    if_false, Option.getD_some, blit_take_length]

theorem dhKeyPem_eq {dh : κ} {rng : ρ} {prv : List Byte}
    (hpair : lib.generateKeyPair dh rng = some prv) (hread : prv.length ≤ lib.mpSize)
    (h : DhKeySized (lib.numbers dh) (value prv)) :
    dhKeyPem lib env dh rng =
      let room := (dhParamsDer (lib.numbers dh)).length + (dhParamsDer (lib.numbers dh)).length + 8
      if ¬ env.malloc .keyDer room then .error none
      else if room < (dhKeyDer (lib.numbers dh) (value prv)).length then
        .error (some (str "Error converting DH key to buffer"))
      else dhPem lib env .privateKey .keyPem (dhKeyDer (lib.numbers dh) (value prv)) := by
  simp only [dhKeyPem, hpair, dhParamsToDer_size h.params, ne_eq, not_true_eq_false, if_false]
  by_cases hsmall : (dhParamsDer (lib.numbers dh)).length + (dhParamsDer (lib.numbers dh)).length + 8 <
      (dhKeyDer (lib.numbers dh) (value prv)).length
  · simp only [dhPrivKeyToDer_small hread h hsmall, if_pos hsmall]
    rfl
  · have hpos : ¬ ((dhKeyDer (lib.numbers dh) (value prv)).length : Int) ≤ 0 := by
      have := tlv_length_pos 48 (dhKeyBody (lib.numbers dh) (value prv))
      rw [show dhKeyDer (lib.numbers dh) (value prv) =
        tlv 48 (dhKeyBody (lib.numbers dh) (value prv)) from rfl]
      omega
    rw [if_neg hsmall, dhPrivKeyToDer_written hread h (by omega) (by rw [staleBuffer_length])]
    simp only [if_neg hpos, Option.getD_some, Int.toNat_natCast, blit_take_length]

theorem lengthOctets_length_le {n : Nat} (h : n < 2 ^ 24) : (lengthOctets n).length ≤ 4 := by
  rw [lengthOctets]
  split
  · simp
  · have hle : byteLen n ≤ 3 := byteLen_le_iff.mpr (by omega)
    simp only [List.length_cons, bytes_length]
    omega

theorem tlv_length_le (tag : Byte) {content : List Byte} (h : content.length < 2 ^ 24) :
    (tlv tag content).length ≤ content.length + 5 := by
  have hoctets := lengthOctets_length_le h
  rw [tlv_length]
  omega

theorem byteLen_le_natural {n : Nat} (hpos : 0 < n) :
    byteLen n ≤ (naturalContent n).length ∧ (naturalContent n).length ≤ byteLen n + 1 := by
  rw [naturalContent_length hpos]
  split <;> omega

theorem dhKeyDer_fits {key : DhKey} {x : Nat} (h : DhKeySized key x)
    (hshort : byteLen x + 25 ≤ byteLen key.p) :
    (dhKeyDer key x).length ≤ (dhParamsDer key).length + (dhParamsDer key).length + 8 := by
  have hkey := tlv_length_le 48 h.body
  have halgorithm := tlv_length_le 48 h.algorithm
  have hsecret := tlv_length_le 4 h.secret
  have hx := tlv_length_le 2 ((content_lt_tlv 2 (naturalContent x)).trans h.secret)
  have hxlen := (byteLen_le_natural h.x_pos).2
  have hp := content_lt_tlv 2 (naturalContent key.p)
  have hplen := (byteLen_le_natural h.p_pos).1
  have houter := content_lt_tlv 48 (natural key.p ++ natural key.g)
  have hoid : (tlv 6 keyDhOid).length = 11 := by decide
  have hversion : (natural 0).length = 3 := rfl
  have hbody : (dhKeyBody key x).length = 3 + ((tlv 48 (dhAlgorithm key)).length +
      (tlv 4 (natural x)).length) := by
    rw [dhKeyBody, List.length_append, List.length_append, hversion]
  have hinner : (dhAlgorithm key).length = 11 + (dhParamsDer key).length := by
    rw [dhAlgorithm, List.length_append, hoid]
  have hsum : (natural key.p).length ≤ (natural key.p ++ natural key.g).length := by
    rw [List.length_append]
    omega
  have hparams : byteLen key.p + 2 ≤ (dhParamsDer key).length := by
    simp only [dhParamsDer, natural] at houter hsum hp ⊢
    omega
  have hnat : (natural x).length ≤ byteLen x + 6 := by
    rw [natural]
    omega
  rw [show dhKeyDer key x = tlv 48 (dhKeyBody key x) from rfl]
  omega

end Pem

section Group

def oneGroup : DhKey := ⟨2 ^ 240 - 59, 2⟩

def DhPem.label : DhPem → List Byte
  | .params => str "DH PARAMETERS"
  | .privateKey => str "DH PRIVATE KEY"

def groupLib : DhLib Unit DhKey where
  initRng := some ()
  initKey := some ⟨0, 0⟩
  numbers := fun key => key
  pemToDer kind text := Pem.unarmor kind.label text
  derToPem kind der := some (Pem.armor kind.label der)
  keyDecode der _ :=
    (readDhParams der).filter fun key => decide ((dhParamsWritten key).length < 2 ^ 24)
  setNamed4096 _ := some oneGroup
  generateParams rng _ _ := some (rng, oneGroup)
  mpSize := 512
  exportSizes key := some (byteLen key.p, 0, byteLen key.g)
  exportParamsRaw key := some (bytes key.p, [], bytes key.g)
  setKeyEx _ raw := some ⟨value raw.1, value raw.2.2⟩
  generateKeyPair key _ := if key = oneGroup then some [7] else none

theorem oneGroup_sized : DhKeySized oneGroup (value [7]) :=
  ⟨by decide, by decide, by decide, by decide⟩

theorem groupLib_documented : groupLib.Documented where
  pem := by
    intro kind der pem h
    cases h
    exact ⟨Pem.unarmor_armor _ _, Pem.armor_length _ _⟩
  decode := by
    intro key old hsized
    refine ⟨key, ?_, rfl⟩
    have hread : readDhParams (dhParamsDer (groupLib.numbers key)) = some key :=
      readDhParams_der hsized
    exact Option.filter_eq_some_iff.mpr ⟨hread, decide_eq_true hsized.held⟩
  refuse := by
    intro key old hheld hzero
    have hread : readDhParams (dhParamsWritten (groupLib.numbers key)) = none :=
      readDhParams_zero hheld hzero
    exact (congrArg (Option.filter _) hread).trans (Option.filter_none _)
  init := by
    intro key h
    cases h
    rfl
  decoded := by
    intro der old key h
    have hheld := (Option.filter_eq_some_iff.mp h).2
    exact @of_decide_eq_true ((dhParamsWritten key).length < 2 ^ 24) _ hheld
  named := by
    intro old key h
    cases h
    exact oneGroup_sized.params
  generated := by
    intro rng modSz old rng' key h
    cases h
    exact oneGroup_sized.params
  setKey := by
    intro key key' raw hraw hset
    cases hraw
    cases hset
    simp only [groupLib, value_bytes]
  pair := by
    intro key rng prv h
    simp only [groupLib] at h ⊢
    split at h
    · rename_i hkey
      cases h
      rw [hkey]
      exact ⟨oneGroup_sized, by decide⟩
    · cases h

def dhHostEnv (file : List Byte → Option (List Byte)) : DhEnv where
  file := file
  fileOpens _ := true
  stdoutOpens := true
  malloc _ _ := true
  stale _ := 0
  bioWrite _ pem := pem.length

end Group

section Runs
variable {ρ κ : Type} {lib : DhLib ρ κ} {env : DhEnv} {argv : Args}

theorem dhKeyPem_unread {dh : κ} {rng : ρ} {prv : List Byte}
    (hmalloc : ∀ site n, env.malloc site n = true)
    (hpair : lib.generateKeyPair dh rng = some prv) (h : DhSized (lib.numbers dh))
    (hread : lib.mpSize < prv.length) :
    dhKeyPem lib env dh rng = .error (some (str "Error converting DH key to buffer")) := by
  simp only [dhKeyPem, hpair, dhParamsToDer_size h, ne_eq, not_true_eq_false, if_false, hmalloc,
    dhPrivKeyToDer_unread _ hread]
  rfl

theorem dhKeyPem_room {dh : κ} {rng : ρ} {prv : List Byte}
    (hmalloc : ∀ site n, env.malloc site n = true)
    (hpair : lib.generateKeyPair dh rng = some prv) (h : DhKeySized (lib.numbers dh) (value prv)) :
    (prv.length ≤ lib.mpSize → byteLen (value prv) + 25 ≤ byteLen (lib.numbers dh).p →
      dhKeyPem lib env dh rng =
        dhPem lib env .privateKey .keyPem (dhKeyDer (lib.numbers dh) (value prv))) ∧
    (dhKeyPem lib env dh rng = .error (some (str "Error converting DH key to buffer")) ↔
      lib.mpSize < prv.length ∨
        (dhParamsDer (lib.numbers dh)).length + (dhParamsDer (lib.numbers dh)).length + 8 <
          (dhKeyDer (lib.numbers dh) (value prv)).length) := by
  by_cases hread : lib.mpSize < prv.length
  · refine ⟨fun hle => absurd hread (Nat.not_lt.mpr hle), fun _ => Or.inl hread, fun _ => ?_⟩
    exact dhKeyPem_unread hmalloc hpair h.params hread
  rw [dhKeyPem_eq hpair (Nat.not_lt.mp hread) h]
  simp only [hmalloc, not_true_eq_false, if_false, hread, false_or]
  refine ⟨fun _ => ?_, ?_⟩
  · intro hshort
    have hfits := dhKeyDer_fits h hshort
    rw [if_neg (by omega)]
  · constructor
    · intro herror
      by_contra hroom
      rw [if_neg hroom] at herror
      unfold dhPem at herror
      split at herror
      · cases herror
      · split at herror <;> cases herror
    · intro hsmall
      rw [if_pos hsmall]

theorem dhKeyPem_room_oneGroup :
    ([(7 : Byte)].length ≤ groupLib.mpSize → byteLen (value [7]) + 25 ≤ byteLen oneGroup.p →
      dhKeyPem groupLib (dhHostEnv fun _ => none) oneGroup () =
        dhPem groupLib (dhHostEnv fun _ => none) .privateKey .keyPem
          (dhKeyDer oneGroup (value [7]))) ∧
    (dhKeyPem groupLib (dhHostEnv fun _ => none) oneGroup () =
        .error (some (str "Error converting DH key to buffer")) ↔
      groupLib.mpSize < [(7 : Byte)].length ∨
        (dhParamsDer oneGroup).length + (dhParamsDer oneGroup).length + 8 <
          (dhKeyDer oneGroup (value [7])).length) :=
  @dhKeyPem_room _ _ groupLib _ oneGroup () [7] (fun _ _ => rfl) rfl oneGroup_sized

def DhEnv.Complete (env : DhEnv) : Prop := ∀ kind pem, env.bioWrite kind pem = pem.length

theorem dhSection_unwanted {kind : DhPem} {pem : Except (Option (List Byte)) (List Byte)}
    {run : DhRun} : dhSection env false kind pem run = run := by
  simp [dhSection]

theorem dhSection_success {wanted : Bool} {kind : DhPem} {run : DhRun}
    {pem : Except (Option (List Byte)) (List Byte)}
    (h : (dhSection env wanted kind pem run).ret = wolfcluSuccess) :
    run.ret = wolfcluSuccess ∧ (wanted = true → ∃ text, pem = .ok text) := by
  unfold dhSection at h
  split at h
  · rename_i hcond
    refine ⟨h, fun hwanted => ?_⟩
    simp only [h, hwanted, ne_eq, not_true_eq_false, or_self] at hcond
  · rename_i hcond
    rw [not_or, not_not] at hcond
    cases pem with
    | error message => exact absurd h fails_fatal
    | ok text => exact ⟨hcond.1, fun _ => ⟨text, rfl⟩⟩

theorem dhParamsPem_ok {dh : κ} {text : List Byte} (hheld : DhHeld (lib.numbers dh))
    (h : dhParamsPem lib env dh = .ok text) :
    lib.derToPem .params (dhParamsWritten (lib.numbers dh)) = some text ∧ text ≠ [] := by
  rw [dhParamsPem_eq hheld] at h
  split at h
  · cases h
  · exact dhPem_ok h

theorem dhKeyPem_ok (hdoc : lib.Documented) {dh : κ} {rng : ρ} {text : List Byte}
    (h : dhKeyPem lib env dh rng = .ok text) :
    ∃ prv, lib.generateKeyPair dh rng = some prv ∧
      lib.derToPem .privateKey (dhKeyDer (lib.numbers dh) (value prv)) = some text ∧ text ≠ [] := by
  cases hpair : lib.generateKeyPair dh rng with
  | none =>
    simp only [dhKeyPem, hpair] at h
    cases h
  | some prv =>
    rw [dhKeyPem_eq hpair (hdoc.pair hpair).2 (hdoc.pair hpair).1] at h
    simp only at h
    split_ifs at h
    exact ⟨prv, rfl, dhPem_ok h⟩

theorem dhCheck_ok (hdoc : lib.Documented) {check : Bool} {dh dh' : κ} {log : List (List Byte)}
    (h : dhCheck lib env check dh = .ok (dh', log)) : lib.numbers dh' = lib.numbers dh := by
  unfold dhCheck at h
  split at h
  · cases h
    rfl
  · split at h
    · cases h
    · split at h
      · cases h
      · split at h
        · cases h
        · rename_i raw hraw
          split at h
          · cases h
          · rename_i dh'' hset
            cases h
            exact hdoc.setKey hraw hset

def ReadsParams (lib : DhLib ρ κ) (text : List Byte) (key : DhKey) : Prop :=
  (lib.pemToDer .params text).bind readDhParams = some key

def ReadsKey (lib : DhLib ρ κ) (text : List Byte) (key : DhKey) (x : Nat) : Prop :=
  (lib.pemToDer .privateKey text).bind readDhPrivateKey = some (key, x)

theorem dhParamsPem_der (hdoc : lib.Documented) {dh : κ} {text : List Byte}
    (hheld : DhHeld (lib.numbers dh)) (h : dhParamsPem lib env dh = .ok text) :
    lib.pemToDer .params text = some (dhParamsWritten (lib.numbers dh)) :=
  (hdoc.pem (dhParamsPem_ok hheld h).1).1

theorem dhKeyPem_reads (hdoc : lib.Documented) {dh : κ} {rng : ρ} {text : List Byte}
    (h : dhKeyPem lib env dh rng = .ok text) :
    ∃ prv, DhKeySized (lib.numbers dh) (value prv) ∧
      ReadsKey lib text (lib.numbers dh) (value prv) := by
  obtain ⟨prv, hpair, hpem, -⟩ := dhKeyPem_ok hdoc h
  refine ⟨prv, (hdoc.pair hpair).1, ?_⟩
  rw [ReadsKey, (hdoc.pem hpem).1, Option.bind_some, readDhPrivateKey_der (hdoc.pair hpair).1]

structure DhTexts (lib : DhLib ρ κ) (s : DhState) (key : DhKey) (params secret : List Byte) :
    Prop where
  noParams : s.noOut = true → params = []
  readsParams : s.noOut = false → 0 < key.p → 0 < key.g → ReadsParams lib params key
  zeroParams : s.noOut = false → key.p = 0 ∨ key.g = 0 →
    (lib.pemToDer .params params).bind readDhParams = none
  noSecret : s.genKey = false → secret = []
  readsSecret : s.genKey = true → 0 < key.p ∧ 0 < key.g ∧ ∃ x, ReadsKey lib secret key x

theorem dhSection_written (hwrite : env.Complete) {wanted : Bool} {kind : DhPem} {run : DhRun}
    {pem : Except (Option (List Byte)) (List Byte)}
    (h : (dhSection env wanted kind pem run).ret = wolfcluSuccess) :
    ∃ text, (dhSection env wanted kind pem run).written = run.written ++ text ∧
      (wanted = false → text = []) ∧ (wanted = true → pem = .ok text) := by
  obtain ⟨hrun, hpem⟩ := dhSection_success h
  cases wanted with
  | false => exact ⟨[], by rw [dhSection_unwanted, List.append_nil], fun _ => rfl, by simp⟩
  | true =>
    obtain ⟨text, rfl⟩ := hpem rfl
    refine ⟨text, ?_, by simp, fun _ => rfl⟩
    simp [dhSection, hrun, hwrite kind text]

theorem dhEmit_texts (hdoc : lib.Documented) (hwrite : env.Complete) {s : DhState} {rng : ρ}
    {dh : κ} (hheld : DhHeld (lib.numbers dh))
    (h : (dhEmit lib env s rng dh).ret = wolfcluSuccess) :
    ∃ params secret, (dhEmit lib env s rng dh).written = params ++ secret ∧
      DhTexts lib s (lib.numbers dh) params secret := by
  simp only [dhEmit] at h ⊢
  split at h
  · exact absurd h fails_fatal
  · rename_i dh' log hcheck
    obtain ⟨hrun, -⟩ := dhSection_success h
    have hparams : (dhSection env (!s.noOut) .params (dhParamsPem lib env dh)
      ⟨s.ret, s.log, []⟩).ret = wolfcluSuccess := hrun
    rw [if_pos hparams] at hcheck
    obtain ⟨params, hwritten, hnone, hsome⟩ := dhSection_written hwrite hparams
    obtain ⟨secret, hafter, hnone', hsome'⟩ := dhSection_written hwrite h
    have hder (hout : s.noOut = false) :=
      dhParamsPem_der hdoc hheld (hsome (by rw [hout]; rfl))
    refine ⟨params, secret, ?_, ?_, ?_, ?_, hnone', ?_⟩
    · rw [hafter]
      exact congrArg (· ++ secret) hwritten
    · intro hnoOut
      exact hnone (by rw [hnoOut]; rfl)
    · intro hout hp hg
      rw [ReadsParams, hder hout, Option.bind_some, dhParamsWritten_of_pos hp hg,
        readDhParams_der (hheld.sized hp hg)]
    · intro hout hzero
      rw [hder hout, Option.bind_some, readDhParams_zero hheld hzero]
    · intro hgen
      obtain ⟨prv, hsized, hreads⟩ := dhKeyPem_reads hdoc (hsome' hgen)
      rw [dhCheck_ok hdoc hcheck] at hsized hreads
      exact ⟨hsized.p_pos, hsized.g_pos, value prv, hreads⟩

def DhUnread (bioIn : Option (List Byte)) : Prop :=
  ∃ data, bioIn = some data ∧ MachineInt.toInt32 data.length ≤ 0

theorem dhRead_group (hdoc : lib.Documented) {bioIn : Option (List Byte)} {old dh : κ}
    (hold : lib.numbers old = ⟨0, 0⟩) (h : dhRead lib env bioIn old = .ok dh) :
    DhHeld (lib.numbers dh) ∧ (DhUnread bioIn → lib.numbers dh = ⟨0, 0⟩) := by
  have hzero : (dhParamsWritten ⟨0, 0⟩).length < 2 ^ 24 := by decide
  cases bioIn with
  | none =>
    cases h
    exact ⟨hold ▸ hzero, fun _ => hold⟩
  | some data =>
    simp only [dhRead] at h
    split at h
    · cases h
      exact ⟨hold ▸ hzero, fun _ => hold⟩
    · rename_i hsize
      have hread : ¬ DhUnread (some data) := by
        rintro ⟨_, hdata, hunread⟩
        cases hdata
        exact hsize hunread
      refine ⟨?_, fun hunread => absurd hunread hread⟩
      split at h
      · cases h
      · split at h
        · cases h
        · split at h
          · cases h
          · split at h
            · cases h
            · split at h
              · cases h
              · rename_i hdecode
                cases h
                exact hdoc.decoded hdecode

theorem dhPrepare_group (hdoc : lib.Documented) {s : DhState} {modSz : Int} {rng rng' : ρ} {dh : κ}
    (h : dhPrepare lib env s modSz rng = .ok (rng', dh)) :
    DhHeld (lib.numbers dh) ∧ (s.bioIn = none → DhSized (lib.numbers dh)) ∧
      (DhUnread s.bioIn → lib.numbers dh = ⟨0, 0⟩) := by
  unfold dhPrepare at h
  split at h
  · cases h
  · rename_i old hinit
    obtain ⟨read, hread, h⟩ := bind_eq_ok.mp h
    obtain ⟨-, -, h⟩ := bind_eq_ok.mp h
    obtain ⟨hheld, hunread⟩ := dhRead_group hdoc (hdoc.init hinit) hread
    unfold dhGenerate at h
    split at h
    · rename_i hin
      cases h
      exact ⟨hheld, fun hnone => absurd hnone hin, hunread⟩
    · rename_i hin
      rw [not_not] at hin
      have hsized : DhSized (lib.numbers dh) := by
        split at h
        · split at h
          · cases h
          · rename_i hnamed
            cases h
            exact hdoc.named hnamed
        · split at h
          · cases h
          · rename_i hgenerated
            cases h
            exact hdoc.generated hgenerated
      refine ⟨hsized.held, fun _ => hsized, ?_⟩
      rintro ⟨data, hdata, -⟩
      rw [hin] at hdata
      cases hdata

theorem numBits_success {s : DhState} (h : (s.numBits argv).1.ret = wolfcluSuccess) :
    (s.numBits argv).1 = s := by
  unfold DhState.numBits at h ⊢
  split
  · rfl
  · rename_i hret
    rw [if_neg hret] at h
    split
    · rfl
    · rename_i token htoken
      simp only [htoken] at h
      split
      · rename_i hbad
        rw [if_pos hbad] at h
        exact absurd h (show userInputError ≠ wolfcluSuccess by decide)
      · rfl

theorem dhParamSetup_success (hhelp : (readDhOptions env argv).helped = false)
    (h : (dhParamSetup lib env argv).ret = wolfcluSuccess) :
    ∃ rng rng' modSz dh, lib.initRng = some rng ∧
      dhPrepare lib env (readDhOptions env argv) modSz rng = .ok (rng', dh) ∧
      dhParamSetup lib env argv = dhEmit lib env (readDhOptions env argv) rng' dh := by
  have hrun := h
  unfold dhParamSetup at hrun
  simp only [hhelp, Bool.false_eq_true, if_false] at hrun
  split at hrun
  · exact absurd hrun fails_fatal
  · rename_i rng hrng
    split at hrun
    · rename_i hret
      exact absurd hrun hret
    · rename_i hret
      have hs := numBits_success (not_not.mp hret)
      split at hrun
      · exact absurd hrun fails_fatal
      · rename_i rng' dh hprepare
        rw [hs] at hprepare hret
        refine ⟨rng, rng', _, dh, hrng, hprepare, ?_⟩
        unfold dhParamSetup
        simp only [hhelp, Bool.false_eq_true, if_false, hrng, hs, if_neg hret, hprepare]

theorem dhParamSetup_texts (hdoc : lib.Documented) (hwrite : env.Complete)
    (hhelp : (readDhOptions env argv).helped = false)
    (h : (dhParamSetup lib env argv).ret = wolfcluSuccess) :
    ∃ key params secret, (dhParamSetup lib env argv).written = params ++ secret ∧
      DhTexts lib (readDhOptions env argv) key params secret ∧
      ((readDhOptions env argv).bioIn = none → 0 < key.p ∧ 0 < key.g) ∧
      (DhUnread (readDhOptions env argv).bioIn → key = ⟨0, 0⟩) := by
  obtain ⟨rng, rng', modSz, dh, -, hprepare, hrun⟩ := dhParamSetup_success hhelp h
  obtain ⟨hheld, hsized, hunread⟩ := dhPrepare_group hdoc hprepare
  rw [hrun] at h ⊢
  obtain ⟨params, secret, hwritten, htexts⟩ := dhEmit_texts hdoc hwrite hheld h
  exact ⟨lib.numbers dh, params, secret, hwritten, htexts,
    fun hnone => ⟨(hsized hnone).p_pos, (hsized hnone).g_pos⟩, hunread⟩

def genkeyArgs : Args := [str "wolfssl", str "dhparam", str "-genkey", str "2048"]

theorem genkeyArgs_options : readDhOptions (dhHostEnv fun _ => none) genkeyArgs =
    { ret := wolfcluSuccess
      log := []
      bioIn := none
      out := none
      genKey := true
      check := false
      noOut := false
      helped := false } := by decide

theorem dhParamSetup_texts_genkey :
    ∃ key params secret,
      (dhParamSetup groupLib (dhHostEnv fun _ => none) genkeyArgs).written = params ++ secret ∧
        DhTexts groupLib (readDhOptions (dhHostEnv fun _ => none) genkeyArgs) key params secret ∧
        ((readDhOptions (dhHostEnv fun _ => none) genkeyArgs).bioIn = none →
          0 < key.p ∧ 0 < key.g) ∧
        (DhUnread (readDhOptions (dhHostEnv fun _ => none) genkeyArgs).bioIn → key = ⟨0, 0⟩) :=
  dhParamSetup_texts groupLib_documented (fun _ _ => rfl) (by rw [genkeyArgs_options])
    (by decide +kernel)

end Runs

section Reprint
variable {ρ κ : Type} {lib : DhLib ρ κ} {env : DhEnv} {dh old : κ} {text : List Byte}

theorem dhRead_text (old : κ) (hdoc : lib.Documented) (hmalloc : ∀ site n, env.malloc site n = true)
    (hne : text ≠ []) (hpem : lib.derToPem .params (dhParamsWritten (lib.numbers dh)) = some text)
    (hlen : (text.length : Int) ≤ MachineInt.intMax) :
    dhRead lib env (some text) old =
      match lib.keyDecode (dhParamsWritten (lib.numbers dh)) old with
      | none => .error (some (str "Unable to decode input params"))
      | some dh => .ok dh := by
  obtain ⟨hder, hshort⟩ := hdoc.pem hpem
  have hpos := List.length_pos_iff.mpr hne
  have hsz : MachineInt.toInt32 text.length = text.length :=
    MachineInt.toInt32_of_range (by omega) hlen
  have hread := Bio.read_append .file hne []
  rw [List.append_nil] at hread
  simp only [dhRead, hsz, Int.toNat_natCast, hmalloc, hread, hder]
  rw [if_neg (by omega), if_neg (by simp), if_neg (by omega), if_neg (by omega)]

theorem dhParamsPem_same {env' : DhEnv} (hmalloc : ∀ site n, env'.malloc site n = true) {dh' : κ}
    (hnumbers : lib.numbers dh' = lib.numbers dh) (hheld : DhHeld (lib.numbers dh))
    (h : dhParamsPem lib env dh = .ok text) : dhParamsPem lib env' dh' = .ok text := by
  obtain ⟨hpem, hne⟩ := dhParamsPem_ok hheld h
  rw [dhParamsPem_eq (hnumbers ▸ hheld), hnumbers]
  simp [dhPem, hpem, hne, hmalloc]

def ReadableParams (lib : DhLib ρ κ) (text : List Byte) : Bool :=
  ((lib.pemToDer .params text).bind readDhParams).isSome

theorem readableParams_iff (hdoc : lib.Documented) (hheld : DhHeld (lib.numbers dh))
    (h : dhParamsPem lib env dh = .ok text) :
    ReadableParams lib text = true ↔ DhSized (lib.numbers dh) := by
  rw [ReadableParams, dhParamsPem_der hdoc hheld h, Option.bind_some]
  constructor
  · intro hsome
    by_contra hsized
    have hzero : (lib.numbers dh).p = 0 ∨ (lib.numbers dh).g = 0 := by
      by_contra hpos
      exact hsized (hheld.sized (by omega) (by omega))
    rw [readDhParams_zero hheld hzero] at hsome
    cases hsome
  · intro hsized
    rw [hsized.written, readDhParams_der hsized]
    rfl

def dhPrinting (text : List Byte) (out : Option (List Byte)) : DhState :=
  { ret := wolfcluSuccess
    log := []
    bioIn := some text
    out := out
    genKey := false
    check := false
    noOut := false
    helped := false }

theorem dhEmit_printing (hwrite : env.Complete) {out : Option (List Byte)} {rng : ρ}
    (h : dhParamsPem lib env dh = .ok text) (hne : text ≠ []) (input : List Byte) :
    dhEmit lib env (dhPrinting input out) rng dh = ⟨wolfcluSuccess, [], text⟩ := by
  simp [dhEmit, dhPrinting, dhSection, h, hwrite .params text, hne, dhCheck]

theorem dhEmit_params (hwrite : env.Complete) {s : DhState} {rng : ρ}
    (hout : s.noOut = false) (hgen : s.genKey = false)
    (h : (dhEmit lib env s rng dh).ret = wolfcluSuccess) :
    dhParamsPem lib env dh = .ok (dhEmit lib env s rng dh).written := by
  simp only [dhEmit] at h ⊢
  split at h
  · exact absurd h fails_fatal
  · obtain ⟨hrun, -⟩ := dhSection_success h
    obtain ⟨params, hwritten, -, hsome⟩ := dhSection_written hwrite (show (dhSection env (!s.noOut)
      .params (dhParamsPem lib env dh) ⟨s.ret, s.log, []⟩).ret = wolfcluSuccess from hrun)
    obtain ⟨secret, hafter, hnone, -⟩ := dhSection_written hwrite h
    refine (hsome (by rw [hout]; rfl)).trans (congrArg Except.ok ?_)
    rw [hafter, hnone hgen, List.append_nil]
    exact hwritten.symm

theorem dhParamSetup_printing {env' : DhEnv} {argv' : Args} {out : Option (List Byte)} {rng : ρ}
    (hheld : DhHeld (lib.numbers dh)) (hdoc : lib.Documented) (hwrite' : env'.Complete)
    (hmalloc : ∀ site n, env'.malloc site n = true) (hrng : lib.initRng = some rng)
    (hkey : lib.initKey = some old) (hparams : dhParamsPem lib env dh = .ok text)
    (hlen : (text.length : Int) ≤ MachineInt.intMax)
    (hread : readDhOptions env' argv' = dhPrinting text out)
    (hbits : dhNumBits (argv'.getD 1 []) (argv'.drop 2) = none)
    (hopen : dhOpenOut env' out = .ok ()) :
    dhParamSetup lib env' argv' =
      if ReadableParams lib text then ⟨wolfcluSuccess, [], text⟩
      else ⟨wolfcluFatalError, [str "Unable to decode input params"], []⟩ := by
  obtain ⟨hpem, hne⟩ := dhParamsPem_ok hheld hparams
  have hnum : (dhPrinting text out).numBits argv' = (dhPrinting text out, -1) := by
    simp only [DhState.numBits, hbits]
    rfl
  have htext := @dhRead_text ρ κ lib env' dh text old hdoc hmalloc hne hpem hlen
  by_cases hsized : DhSized (lib.numbers dh)
  · obtain ⟨dh', hdecode, hnumbers⟩ := hdoc.decode dh old hsized
    rw [hsized.written, hdecode] at htext
    have hsecond : dhPrepare lib env' (dhPrinting text out) (-1) rng = .ok (rng, dh') := by
      simp only [dhPrepare, hkey, dhPrinting, htext, hopen, dhGenerate]
      rfl
    have hsame := dhParamsPem_same hmalloc hnumbers hheld hparams
    rw [if_pos ((readableParams_iff hdoc hheld hparams).mpr hsized)]
    unfold dhParamSetup
    simp only [hread, hnum, hrng, hsecond, dhEmit_printing hwrite' hsame hne]
    rfl
  · have hzero : (lib.numbers dh).p = 0 ∨ (lib.numbers dh).g = 0 := by
      by_contra hpos
      exact hsized (hheld.sized (by omega) (by omega))
    rw [hdoc.refuse dh old hheld hzero] at htext
    have hsecond : dhPrepare lib env' (dhPrinting text out) (-1) rng =
        .error (some (str "Unable to decode input params")) := by
      simp only [dhPrepare, hkey, dhPrinting, htext]
      rfl
    rw [if_neg (mt (readableParams_iff hdoc hheld hparams).mp hsized)]
    unfold dhParamSetup
    simp only [hread, hnum, hrng, hsecond]
    rfl

theorem dhParamSetup_reprint {env' : DhEnv} {argv argv' : Args} {out : Option (List Byte)}
    (hdoc : lib.Documented) (hwrite : env.Complete) (hwrite' : env'.Complete)
    (hmalloc : ∀ site n, env'.malloc site n = true)
    (hhelp : (readDhOptions env argv).helped = false)
    (hprint : (readDhOptions env argv).noOut = false) (hgen : (readDhOptions env argv).genKey = false)
    (h : (dhParamSetup lib env argv).ret = wolfcluSuccess)
    (hlen : ((dhParamSetup lib env argv).written.length : Int) ≤ MachineInt.intMax)
    (hread : readDhOptions env' argv' = dhPrinting (dhParamSetup lib env argv).written out)
    (hbits : dhNumBits (argv'.getD 1 []) (argv'.drop 2) = none)
    (hopen : dhOpenOut env' out = .ok ()) :
    (dhParamSetup lib env' argv' =
      if ReadableParams lib (dhParamSetup lib env argv).written then
        ⟨wolfcluSuccess, [], (dhParamSetup lib env argv).written⟩
      else ⟨wolfcluFatalError, [str "Unable to decode input params"], []⟩) ∧
    ((readDhOptions env argv).bioIn = none →
      ReadableParams lib (dhParamSetup lib env argv).written) ∧
    (DhUnread (readDhOptions env argv).bioIn →
      ReadableParams lib (dhParamSetup lib env argv).written = false) := by
  obtain ⟨rng, rng', modSz, dh, hrng, hprepare, hrun⟩ := dhParamSetup_success hhelp h
  obtain ⟨hheld, hsized, hunread⟩ := dhPrepare_group hdoc hprepare
  rw [hrun] at h hread hlen ⊢
  have hparams := dhEmit_params hwrite hprint hgen h
  obtain ⟨old, hkey⟩ : ∃ old, lib.initKey = some old := by
    cases hkey : lib.initKey with
    | none =>
      simp only [dhPrepare, hkey] at hprepare
      cases hprepare
    | some old => exact ⟨old, rfl⟩
  have hreadable := readableParams_iff hdoc hheld hparams
  refine ⟨dhParamSetup_printing hheld hdoc hwrite' hmalloc hrng hkey hparams hlen hread hbits hopen,
    fun hnone => hreadable.mpr (hsized hnone), fun hempty => ?_⟩
  rw [← Bool.not_eq_true, hreadable, hunread hempty] at *
  exact fun hzero => absurd hzero.p_pos (lt_irrefl 0)

def printArgs : Args := [str "wolfssl", str "dhparam", str "2048"]

def printInArgs : Args := [str "wolfssl", str "dhparam", str "-in", str "dh.pem"]

theorem printArgs_options : readDhOptions (dhHostEnv fun _ => none) printArgs =
    { ret := wolfcluSuccess
      log := []
      bioIn := none
      out := none
      genKey := false
      check := false
      noOut := false
      helped := false } := by decide

theorem printInArgs_options (text : List Byte) :
    readDhOptions (dhHostEnv fun _ => some text) printInArgs = dhPrinting text none := rfl

theorem dhParamSetup_reprint_file :
    (dhParamSetup groupLib
        (dhHostEnv fun _ => some (dhParamSetup groupLib (dhHostEnv fun _ => none) printArgs).written)
        printInArgs =
      if ReadableParams groupLib
          (dhParamSetup groupLib (dhHostEnv fun _ => none) printArgs).written then
        ⟨wolfcluSuccess, [], (dhParamSetup groupLib (dhHostEnv fun _ => none) printArgs).written⟩
      else ⟨wolfcluFatalError, [str "Unable to decode input params"], []⟩) ∧
    ((readDhOptions (dhHostEnv fun _ => none) printArgs).bioIn = none →
      ReadableParams groupLib
        (dhParamSetup groupLib (dhHostEnv fun _ => none) printArgs).written) ∧
    (DhUnread (readDhOptions (dhHostEnv fun _ => none) printArgs).bioIn →
      ReadableParams groupLib
        (dhParamSetup groupLib (dhHostEnv fun _ => none) printArgs).written = false) :=
  dhParamSetup_reprint groupLib_documented (fun _ _ => rfl) (fun _ _ => rfl) (fun _ _ => rfl)
    (by rw [printArgs_options]) (by rw [printArgs_options]) (by rw [printArgs_options])
    (by decide +kernel) (by decide +kernel) (printInArgs_options _) (by decide) rfl

end Reprint

end WolfCLU
