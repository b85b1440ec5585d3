import WolfCLU.Hash.HashCommand
import WolfCLU.Tools.GetOptRuns

namespace WolfCLU
open CString CheckedMemory Buffer Incremental

section Options
variable {env : HashEnv} {argv : Args}

def HashSized (s : HashState) : Prop :=
  match s.alg with
  | none => s.size = 0
  | some alg =>
    if alg = .blake2b then s.ret = wolfcluSuccess → 1 ≤ s.size ∧ s.size ≤ 64
    else s.size = alg.size

theorem HashSized.setAlg {s : HashState} (h : HashSized s) (alg : HashAlg)
    (optarg : Option (List Byte)) : HashSized (s.setAlg env alg optarg) := by
  unfold HashState.setAlg
  split_ifs with hcompiled hset hblake hcoding
  · exact h
  · exact h
  · subst hblake
    dsimp only
    split_ifs with hrange
    · intro hret
      exact absurd hret fails_fatal
    · intro _
      rw [not_or, not_lt, not_lt] at hrange
      exact hrange
  · have hsize : s.size = 0 := by
      have hnone : s.alg = none := not_not.mp hset
      simp only [HashSized, hnone] at h
      exact h
    unfold HashSized
    simp only [if_neg hblake, hsize]
    revert hcoding
    cases alg <;> decide
  · unfold HashSized
    simp only [if_neg hblake]

theorem readHashOptions_sized : HashSized (readHashOptions env argv) := by
  refine OptReader.run_preserves (fun opt optarg s _ h => ?_) rfl
  cases opt with
  | foundTwice => exact h
  | found val =>
    cases val with
    | alg alg => exact h.setAlg alg optarg
    | infile => exact h
    | outfile => exact h
    | help => exact h

def chosenAlg (argv : Args) (o : LongOption HashOption) : Option HashAlg :=
  match matchOption argv 1 o, o.val with
  | some _, .alg alg => some alg
  | _, _ => none

theorem setAlg_set {s : HashState} {alg : HashAlg} {optarg : Option (List Byte)}
    (h : (s.setAlg env alg optarg).returned = none) :
    s.alg = none ∧ (s.setAlg env alg optarg).alg = some alg := by
  unfold HashState.setAlg at h ⊢
  split_ifs at h ⊢ with hcompiled hset
  · exact ⟨not_not.mp hset, rfl⟩
  · exact ⟨not_not.mp hset, rfl⟩
  · exact ⟨not_not.mp hset, rfl⟩

theorem run_algs (table : List (LongOption HashOption)) (s : HashState)
    (h : ((hashReader env argv).run 1 table s).returned = none) :
    ((hashReader env argv).run 1 table s).alg.toList =
      s.alg.toList ++ table.filterMap (chosenAlg argv) := by
  induction table generalizing s with
  | nil => simp only [OptReader.run, List.filterMap_nil, List.append_nil]
  | cons o table ih =>
    have hrunning : (hashReader env argv).running s = true := by
      by_contra hstop
      rw [OptReader.run_stopped (Bool.eq_false_of_not_eq_true hstop)] at h
      exact hstop (Option.isNone_iff_eq_none.mpr h)
    rw [OptReader.run, if_pos hrunning] at h ⊢
    rcases hmatch : matchOption ((hashReader env argv).argv s) 1 o with _ | ⟨opt, optarg⟩
    · have hnone : chosenAlg argv o = none := by
        unfold chosenAlg
        rw [show matchOption argv 1 o = none from hmatch]
      simp only [hmatch] at h ⊢
      rw [ih s h, List.filterMap_cons_none hnone]
    · have hmatched : matchOption argv 1 o = some (opt, optarg) := hmatch
      simp only [hmatch] at h ⊢
      rw [ih _ h]
      have hnext : ((hashReader env argv).handle opt optarg s).returned = none := by
        by_contra hstop
        have hstopped : (hashReader env argv).running ((hashReader env argv).handle opt optarg s) =
            false := Bool.eq_false_of_not_eq_true fun hrun =>
          hstop (Option.isNone_iff_eq_none.mp hrun)
        rw [OptReader.run_stopped hstopped] at h
        exact hstop h
      cases opt with
      | foundTwice => cases hnext
      | found val =>
        cases matchOption_val hmatched
        rw [List.filterMap_cons]
        unfold chosenAlg
        rw [hmatched]
        cases hval : o.val with
        | alg alg =>
          rw [hval] at hnext
          obtain ⟨hunset, hset⟩ := setAlg_set hnext
          simp only [hashReader, hset, hunset, Option.toList_none, Option.toList_some,
            List.nil_append, List.singleton_append]
        | infile => rfl
        | outfile => rfl
        | help =>
          rw [hval] at hnext
          cases hnext

theorem readHashOptions_algs (h : (readHashOptions env argv).returned = none) :
    (readHashOptions env argv).alg.toList = hashOptions.filterMap (chosenAlg argv) :=
  run_algs hashOptions _ h

end Options

section Digest
variable {σ β : Type} {env : HashEnv} {lib : HashCommandLib σ β}
  {absorbed : HashType → σ → List Byte → Prop} {hash : HashType → List Byte → List Byte}
  {taken : Int → β → List Byte → Prop} {blake2b : Int → List Byte → List Byte}

structure HashCommandLib.Computes (lib : HashCommandLib σ β)
    (absorbed : HashType → σ → List Byte → Prop) (hash : HashType → List Byte → List Byte)
    (taken : Int → β → List Byte → Prop) (blake2b : Int → List Byte → List Byte) : Prop where
  digests : lib.hash.Computes absorbed hash
  init : ∀ {size s}, lib.blake2bInit size = some s → taken size s []
  keyless : ∀ size, (lib.blake2b size).Computes (taken size) (blake2b size)
  size : ∀ size data, 0 < size → ((blake2b size data).length : Int) = size

def digestOf (hash : HashType → List Byte → List Byte) (blake2b : Int → List Byte → List Byte)
    (alg : HashAlg) (size : Int) (data : List Byte) : List Byte :=
  match alg.hashType with
  | some hashType => hash hashType data
  | none => blake2b size data

def Digests (lib : HashCommandLib σ β) (reads : List BioRead) (alg : HashAlg) (size : Int) : Prop :=
  match alg.hashType with
  | some hashType => ∃ digest, HashDelivers lib.hash reads hashType size.toNat digest
  | none => ∃ start s digest, lib.blake2bInit size = some start ∧
      Takes (lib.blake2b size) start reads s ∧ (lib.blake2b size).final s = some digest

theorem read_written {output digest : List Byte} (h : digest.length ≤ output.length) :
    (read (blit output 0 digest) 0 digest.length : Guarded Int (List Byte)) = step (.ok digest) := by
  have hfits : 0 + digest.length ≤ output.length := by omega
  rw [read_inside (by rw [blit_length hfits]; exact hfits), blit_window (Nat.zero_le _)]

theorem streamOutput_spec (hL : lib.hash.Computes absorbed hash) (reads : List BioRead)
    (hashType : HashType) (output : List Byte) :
    ((∃ digest, HashDelivers lib.hash reads hashType output.length digest) ∧
        streamOutput lib reads hashType output = step (.ok (hash hashType (wholeInput reads)))) ∨
      ((¬ ∃ digest, HashDelivers lib.hash reads hashType output.length digest) ∧
        ∃ ret, Fails ret ∧ streamOutput lib reads hashType output = step (.error ret)) := by
  rcases streamHashBio_spec hL reads hashType (le_refl output.length) with
    ⟨hdelivers, hrun⟩ | ⟨hnone, ret, hret, hrun⟩
  · refine .inl ⟨⟨_, hdelivers⟩, ?_⟩
    have hsize := hL.size hashType (wholeInput reads) hdelivers.1
    have hfits := hdelivers.2.1
    simp only [streamOutput, hrun, if_true]
    exact read_written (by omega)
  · refine .inr ⟨fun h => h.elim hnone, ret, hret, ?_⟩
    simp only [streamOutput, hrun, if_neg hret]

theorem blake2bOutput_spec (hL : lib.Computes absorbed hash taken blake2b) (reads : List BioRead)
    {size : Int} (hsize : 0 < size) :
    (Digests lib reads .blake2b size ∧
        blake2bOutput lib reads size (List.replicate size.toNat 0) =
          step (.ok (blake2b size (wholeInput reads)))) ∨
      (¬ Digests lib reads .blake2b size ∧
        ∃ ret, Fails ret ∧
          blake2bOutput lib reads size (List.replicate size.toNat 0) = step (.error ret)) := by
  rcases hinit : lib.blake2bInit size with _ | start
  · refine .inr ⟨?_, wolfcluFatalError, fails_fatal, by simp only [blake2bOutput, hinit]⟩
    rintro ⟨start, s, digest, hstart, -⟩
    rw [hinit] at hstart
    cases hstart
  · rcases @readLoop_spec β (lib.blake2b size) _ zeroChunk_length start reads with
      ⟨s, htakes, hrun⟩ | ⟨hnone, s, hrun⟩
    · rcases hfinal : (lib.blake2b size).final s with _ | digest
      · refine .inr ⟨?_, wolfcluFatalError, fails_fatal, ?_⟩
        · rintro ⟨start', s', digest, hstart, htakes', hdigest⟩
          rw [hinit, Option.some.injEq] at hstart
          subst hstart
          rw [htakes'.unique htakes, hfinal] at hdigest
          cases hdigest
        · simp only [blake2bOutput, hinit, hrun, if_true, hfinal]
      · have hdigest := htakes.digest (hL.keyless size) (hL.init hinit) hfinal
        subst hdigest
        have hlength := hL.size size (wholeInput reads) hsize
        have hroom : (blake2b size (wholeInput reads)).length = size.toNat := by omega
        refine .inl ⟨⟨start, s, _, hinit, htakes, hfinal⟩, ?_⟩
        simp only [blake2bOutput, hinit, hrun, if_true, hfinal]
        rw [write_bind_inside (by rw [List.length_replicate, hroom, Nat.zero_add]), ← hroom]
        exact read_written (by rw [List.length_replicate])
    · refine .inr ⟨?_, wolfcluFatalError, fails_fatal, ?_⟩
      · rintro ⟨start', s', digest, hstart, htakes, -⟩
        rw [hinit, Option.some.injEq] at hstart
        subst hstart
        exact hnone s' htakes
      · simp only [blake2bOutput, hinit, hrun, if_neg fails_fatal]

def HashReady (env : HashEnv) (src : CodingSource) (size : Int) : Prop :=
  (src = .stdin → env.coding.bioNew = true) ∧ env.coding.malloc size.toNat = true

def Digested (env : HashEnv) (lib : HashCommandLib σ β) (src : CodingSource) (data : List Byte)
    (alg : HashAlg) (size : Int) : Prop :=
  HashReady env src size ∧ Digests lib (env.deliver src data) alg size

theorem algOutput_spec (hL : lib.Computes absorbed hash taken blake2b) (src : CodingSource)
    (data : List Byte) {alg : HashAlg} (halg : alg.isCoding = false) {size : Int} (hsize : 0 < size) :
    (Digests lib (env.deliver src data) alg size ∧
        algOutput env lib src data alg size (List.replicate size.toNat 0) =
          step (.ok (digestOf hash blake2b alg size (wholeInput (env.deliver src data))))) ∨
      (¬ Digests lib (env.deliver src data) alg size ∧ ∃ ret, Fails ret ∧
        algOutput env lib src data alg size (List.replicate size.toNat 0) = step (.error ret)) := by
  rcases hhash : alg.hashType with _ | hashType
  · have hblake : alg = .blake2b := by
      revert hhash halg
      cases alg <;> decide
    subst hblake
    exact blake2bOutput_spec hL (env.deliver src data) hsize
  · have h := streamOutput_spec hL.digests (env.deliver src data) hashType (List.replicate size.toNat 0)
    rw [List.length_replicate] at h
    simpa only [Digests, algOutput, digestOf, hhash] using h

theorem hashOutput_spec (hL : lib.Computes absorbed hash taken blake2b) (src : CodingSource)
    (data : List Byte) {alg : HashAlg} (halg : alg.isCoding = false) {size : Int} (hsize : 0 < size) :
    (Digested env lib src data alg size ∧ hashOutput env lib src data alg size =
        step (.ok (digestOf hash blake2b alg size (wholeInput (env.deliver src data))))) ∨
      (¬ Digested env lib src data alg size ∧
        ∃ ret, Fails ret ∧ hashOutput env lib src data alg size = step (.error ret)) := by
  have hgiven : (if size = 0 then (env.coding.maxDigestSize : Int) else size) = size :=
    if_neg (by omega)
  simp only [hashOutput, hgiven]
  by_cases hbio : src = .stdin ∧ ¬ env.coding.bioNew = true
  · rw [if_pos hbio]
    exact .inr ⟨fun h => hbio.2 (h.1.1 hbio.1), memoryE, fails_memory, rfl⟩
  · rw [if_neg hbio]
    by_cases halloc : env.coding.malloc size.toNat = true
    · have hready : HashReady env src size :=
        ⟨fun hsrc => not_not.mp fun hnew => hbio ⟨hsrc, hnew⟩, halloc⟩
      rw [if_neg (not_not.mpr halloc)]
      rcases @algOutput_spec _ _ env _ _ _ _ _ hL src data alg halg size hsize with
        ⟨hdigests, hrun⟩ | ⟨hnone, hrun⟩
      · exact .inl ⟨⟨hready, hdigests⟩, hrun⟩
      · exact .inr ⟨fun h => hnone h.2, hrun⟩
    · rw [if_pos halloc]
      exact .inr ⟨fun h => halloc h.1.2, memoryE, fails_memory, rfl⟩

structure Base64Lib.Codes (base64 : Base64Lib) (text : List Byte → List Byte)
    (bytes : List Byte → Option (List Byte)) : Prop where
  encode : ∀ {x n output}, base64.encode x n = .ok output → output = text x
  decode : ∀ {t n output}, base64.decode t n = .ok output → bytes t = some output
  restores : ∀ x, x ≠ [] → bytes (text x) = some x

def codingSize (src : CodingSource) (data : List Byte) : Nat :=
  match src with
  | .stdin => maxStdinSz
  | .file => data.length

def codingInput (src : CodingSource) (data : List Byte) : List Byte := data.take (codingSize src data)

def CodeTaken (base64 : Base64Lib) (env : CodingEnv) (decode : Bool) (input : List Byte) : Prop :=
  if decode then env.malloc input.length = true ∧ ∃ output, base64.decode input input.length = .ok output
  else ∃ n, base64.encodeLength input = some n ∧ env.malloc n = true ∧
    ∃ output, base64.encode input n = .ok output

def CodedAs (text : List Byte → List Byte) (bytes : List Byte → Option (List Byte)) (decode : Bool)
    (input output : List Byte) : Prop :=
  if decode then bytes input = some output else output = text input

structure CodingReady (env : CodingEnv) (src : CodingSource) (data : List Byte) : Prop where
  bio : src = .stdin → env.bioNew = true
  room : env.malloc env.maxDigestSize = true
  fits : src = .file → (data.length : Int) ≤ MachineInt.intMax
  inputRoom : env.malloc (codingSize src data) = true

def Coded (env : HashEnv) (lib : HashCommandLib σ β) (src : CodingSource) (data : List Byte)
    (decode : Bool) : Prop :=
  CodingReady env.coding src data ∧ CodeTaken lib.base64 env.coding decode (codingInput src data)

section Coding
variable {text : List Byte → List Byte} {bytes : List Byte → Option (List Byte)}

theorem mapError_cases (x : Except Int (List Byte)) :
    (∃ output, x = .ok output ∧ (x.mapError fun _ => wolfcluFatalError) = .ok output) ∨
      ((¬ ∃ output, x = .ok output) ∧
        (x.mapError fun _ => wolfcluFatalError) = .error wolfcluFatalError) := by
  cases x with
  | ok output => exact .inl ⟨output, rfl, rfl⟩
  | error ret => exact .inr ⟨nofun, rfl⟩

theorem decodeText_cases (input : List Byte) :
    (CodeTaken lib.base64 env.coding true input ∧ ∃ output,
        lib.base64.decode input input.length = .ok output ∧
        decodeText lib.base64 env.coding input.length input = .ok output) ∨
      (¬ CodeTaken lib.base64 env.coding true input ∧ ∃ ret, Fails ret ∧
        decodeText lib.base64 env.coding input.length input = .error ret) := by
  unfold CodeTaken decodeText
  simp only [if_true]
  by_cases halloc : env.coding.malloc input.length = true
  · rw [if_pos halloc]
    rcases mapError_cases (lib.base64.decode input input.length) with
      ⟨output, hdecode, hrun⟩ | ⟨hnone, hrun⟩
    · exact .inl ⟨⟨halloc, output, hdecode⟩, output, hdecode, hrun⟩
    · exact .inr ⟨fun h => hnone h.2, _, fails_fatal, hrun⟩
  · rw [if_neg halloc]
    exact .inr ⟨fun h => halloc h.1, _, fails_memory, rfl⟩

theorem encodeText_cases (input : List Byte) :
    (CodeTaken lib.base64 env.coding false input ∧ ∃ n output,
        lib.base64.encode input n = .ok output ∧
        encodeText lib.base64 env.coding badFuncArg input = .ok output) ∨
      (¬ CodeTaken lib.base64 env.coding false input ∧ ∃ ret, Fails ret ∧
        encodeText lib.base64 env.coding badFuncArg input = .error ret) := by
  have hlength : Fails badFuncArg := fails_of_neg (by decide)
  unfold CodeTaken encodeText
  simp only [Bool.false_eq_true, if_false]
  rcases hn : lib.base64.encodeLength input with _ | n
  · refine .inr ⟨?_, _, hlength, rfl⟩
    rintro ⟨n, hsome, -⟩
    cases hsome
  · dsimp only
    by_cases halloc : env.coding.malloc n = true
    · rw [if_pos halloc]
      rcases mapError_cases (lib.base64.encode input n) with
        ⟨output, hencode, hrun⟩ | ⟨hnone, hrun⟩
      · exact .inl ⟨⟨n, rfl, halloc, output, hencode⟩, n, output, hencode, hrun⟩
      · refine .inr ⟨?_, _, fails_fatal, hrun⟩
        rintro ⟨n', hn', -, hencode⟩
        cases hn'
        exact hnone hencode
    · rw [if_neg halloc]
      refine .inr ⟨?_, _, fails_memory, rfl⟩
      rintro ⟨n', hn', halloc', -⟩
      cases hn'
      exact halloc halloc'

theorem hashCode_spec (hC : lib.base64.Codes text bytes) (decode : Bool) (input : List Byte) :
    (CodeTaken lib.base64 env.coding decode input ∧ ∃ output, CodedAs text bytes decode input output ∧
        hashCode lib.base64 env.coding decode input = .ok output) ∨
      (¬ CodeTaken lib.base64 env.coding decode input ∧ ∃ ret, Fails ret ∧
        hashCode lib.base64 env.coding decode input = .error ret) := by
  cases decode with
  | true =>
    rcases @decodeText_cases _ _ env lib input with ⟨htaken, output, hdecode, hrun⟩ | hfails
    · exact .inl ⟨htaken, output, hC.decode hdecode, hrun⟩
    · exact .inr hfails
  | false =>
    rcases @encodeText_cases _ _ env lib input with ⟨htaken, n, output, hencode, hrun⟩ | hfails
    · exact .inl ⟨htaken, output, hC.encode hencode, hrun⟩
    · exact .inr hfails

theorem sizeT_of_int {n : Nat} (h : (n : Int) ≤ MachineInt.intMax) : MachineInt.sizeT n = n := by
  simp only [MachineInt.sizeT, MachineInt.intMax] at *
  omega

theorem readInput_open {env : CodingEnv} {data : List Byte} {n : Nat}
    (h : (n : Int) ≤ MachineInt.intMax) : readInput env true data n =
      if env.malloc n = true then .ok (data.take n) else .error memoryE := by
  simp only [readInput, sizeT_of_int h, Int.toNat_natCast]
  by_cases halloc : env.malloc n = true
  · rw [if_neg (not_not.mpr halloc), if_neg (by simp), if_pos halloc]
    by_cases hdata : data = []
    · subst hdata
      rw [List.take_nil]
      rfl
    · rw [Bio.read_of_ne .file hdata, if_neg (by simp)]
  · rw [if_pos halloc, if_neg halloc]

theorem hashInputSz_cases (src : CodingSource) (data : List Byte) :
    ((src = .file → (data.length : Int) ≤ MachineInt.intMax) ∧
        (codingSize src data : Int) ≤ MachineInt.intMax ∧
        hashInputSz src data = .ok (codingSize src data)) ∨
      ((¬ (src = .file → (data.length : Int) ≤ MachineInt.intMax)) ∧
        hashInputSz src data = .error wolfcluFatalError) := by
  cases src with
  | stdin =>
    have hle : (maxStdinSz : Int) ≤ MachineInt.intMax := by decide
    exact .inl ⟨nofun, hle, rfl⟩
  | file =>
    by_cases hfits : (data.length : Int) ≤ MachineInt.intMax
    · exact .inl ⟨fun _ => hfits, hfits, if_neg (not_lt.mpr hfits)⟩
    · exact .inr ⟨fun h => hfits (h rfl), if_pos (not_le.mp hfits)⟩

theorem codingOutput_spec (hC : lib.base64.Codes text bytes) (src : CodingSource) (data : List Byte)
    (decode : Bool) (hbio : src = .stdin → env.coding.bioNew = true)
    (hroom : env.coding.malloc env.coding.maxDigestSize = true) :
    (Coded env lib src data decode ∧ ∃ output,
        CodedAs text bytes decode (codingInput src data) output ∧
        codingOutput env lib src data decode = .ok output) ∨
      (¬ Coded env lib src data decode ∧ ∃ ret, Fails ret ∧
        codingOutput env lib src data decode = .error ret) := by
  unfold codingOutput
  rcases hashInputSz_cases src data with ⟨hfits, hint, hsize⟩ | ⟨hlong, hsize⟩
  · rw [hsize]
    simp only [bind, Except.bind, readInput_open hint]
    by_cases halloc : env.coding.malloc (codingSize src data) = true
    · have hready : CodingReady env.coding src data := ⟨hbio, hroom, hfits, halloc⟩
      simp only [if_pos halloc]
      rcases @hashCode_spec _ _ env lib _ _ hC decode (codingInput src data) with
        ⟨htaken, hrun⟩ | ⟨hnone, hrun⟩
      · exact .inl ⟨⟨hready, htaken⟩, hrun⟩
      · exact .inr ⟨fun h => hnone h.2, hrun⟩
    · simp only [if_neg halloc]
      exact .inr ⟨fun h => halloc h.1.inputRoom, _, fails_memory, rfl⟩
  · rw [hsize]
    exact .inr ⟨fun h => hlong h.1.fits, _, fails_fatal, rfl⟩

theorem hashOutput_coding (hC : lib.base64.Codes text bytes) (src : CodingSource) (data : List Byte)
    {alg : HashAlg} (halg : alg.isCoding = true) :
    (Coded env lib src data (decide (alg = .base64dec)) ∧ ∃ output,
        CodedAs text bytes (decide (alg = .base64dec)) (codingInput src data) output ∧
        hashOutput env lib src data alg 0 = step (.ok output)) ∨
      (¬ Coded env lib src data (decide (alg = .base64dec)) ∧
        ∃ ret, Fails ret ∧ hashOutput env lib src data alg 0 = step (.error ret)) := by
  simp only [hashOutput, if_true, Int.toNat_natCast]
  by_cases hbio : src = .stdin ∧ ¬ env.coding.bioNew = true
  · rw [if_pos hbio]
    exact .inr ⟨fun h => hbio.2 (h.1.bio hbio.1), _, fails_memory, rfl⟩
  · rw [if_neg hbio]
    by_cases halloc : env.coding.malloc env.coding.maxDigestSize = true
    · rw [if_neg (not_not.mpr halloc)]
      have hhash : alg.hashType = none ∧ alg ≠ .blake2b := by
        revert halg
        cases alg <;> decide
      simp only [algOutput, hhash.1, if_neg hhash.2]
      have hnew : src = .stdin → env.coding.bioNew = true :=
        fun hsrc => not_not.mp fun hnew => hbio ⟨hsrc, hnew⟩
      rcases @codingOutput_spec _ _ env lib _ _ hC src data (decide (alg = .base64dec)) hnew halloc
        with ⟨hcoded, output, hmeans, hrun⟩ | ⟨hnone, ret, hfails, hrun⟩
      · exact .inl ⟨hcoded, output, hmeans, by rw [hrun]⟩
      · exact .inr ⟨hnone, ret, hfails, by rw [hrun]⟩
    · rw [if_pos halloc]
      exact .inr ⟨fun h => halloc h.1.room, _, fails_memory, rfl⟩

end Coding

end Digest

section Setup
variable {σ β : Type} {env : HashEnv} {lib : HashCommandLib σ β}
  {absorbed : HashType → σ → List Byte → Prop} {hash : HashType → List Byte → List Byte}
  {taken : Int → β → List Byte → Prop} {blake2b : Int → List Byte → List Byte}
  {text : List Byte → List Byte} {bytes : List Byte → Option (List Byte)} {argv : Args}
  {disk : Disk}

theorem putOutput_frame {outFile : Option (List Byte)} {isCoding : Bool} {output : List Byte}
    {name : List Byte} (h : outFile ≠ some name) :
    (putOutput env outFile isCoding output disk).disk name = disk name := by
  unfold putOutput
  cases outFile with
  | none =>
    dsimp only
    split_ifs <;> rfl
  | some out => exact Function.update_of_ne (fun heq => h (congrArg some heq.symm)) _ _

structure HashOutcome (env : HashEnv) (lib : HashCommandLib σ β)
    (hash : HashType → List Byte → List Byte) (blake2b : Int → List Byte → List Byte)
    (text : List Byte → List Byte) (bytes : List Byte → Option (List Byte)) (s : HashState)
    (alg : HashAlg) (src : CodingSource) (data : List Byte) (disk : Disk) (run : HashRun) :
    Prop where
  digest : alg.isCoding = false → Digested env lib src data alg s.size →
    run = putOutput env s.outFile false
      (digestOf hash blake2b alg s.size (wholeInput (env.deliver src data))) disk
  undigested : alg.isCoding = false → ¬ Digested env lib src data alg s.size →
    Fails run.ret ∧ run.stdout = [] ∧ run.disk = disk
  encoded : alg = .base64enc → Coded env lib src data false →
    run = putOutput env s.outFile true (text (codingInput src data)) disk
  decoded : alg = .base64dec → Coded env lib src data true →
    ∃ output, bytes (codingInput src data) = some output ∧
      (∀ x, x ≠ [] → codingInput src data = text x → output = x) ∧
      run = putOutput env s.outFile true output disk
  uncoded : alg.isCoding = true → ¬ Coded env lib src data (decide (alg = .base64dec)) →
    Fails run.ret ∧ run.stdout = [] ∧ run.disk = disk

theorem coding_outcome (hC : lib.base64.Codes text bytes) (s : HashState) {alg : HashAlg}
    (hcoding : alg.isCoding = true) (hsize : s.size = 0) (src : CodingSource) (data : List Byte)
    (disk : Disk) :
    ∃ run, env.hash lib src data s.outFile alg s.size disk = some run ∧
      (∀ name, s.outFile ≠ some name → run.disk name = disk name) ∧
      HashOutcome env lib hash blake2b text bytes s alg src data disk run := by
  have hcodes : alg.isCoding ≠ false := by simp [hcoding]
  rcases @hashOutput_coding _ _ env lib _ _ hC src data alg hcoding with
    ⟨hcoded, output, hmeans, hrun⟩ | ⟨hnone, ret, hfails, hrun⟩
  · refine ⟨putOutput env s.outFile true output disk, ?_, fun name hname => putOutput_frame hname,
      fun h => absurd h hcodes, fun h => absurd h hcodes, fun henc _ => ?_, fun hdec _ => ?_,
      fun _ hnone => absurd hcoded hnone⟩
    · rw [HashEnv.hash, hsize, hrun, ← hcoding]
      rfl
    · subst henc
      have houtput : output = text (codingInput src data) := hmeans
      rw [houtput]
    · subst hdec
      have houtput : bytes (codingInput src data) = some output := hmeans
      refine ⟨output, houtput, fun x hx htext => ?_, rfl⟩
      rw [htext, hC.restores x hx, Option.some.injEq] at houtput
      exact houtput.symm
  · refine ⟨⟨ret, [], disk⟩, by rw [HashEnv.hash, hsize, hrun]; rfl, fun _ _ => rfl,
      fun h => absurd h hcodes, fun h => absurd h hcodes, fun henc hcoded => ?_,
      fun hdec hcoded => ?_, fun _ _ => ⟨hfails, rfl, rfl⟩⟩
    · subst henc
      exact absurd hcoded hnone
    · subst hdec
      exact absurd hcoded hnone

theorem digest_outcome (hL : lib.Computes absorbed hash taken blake2b) (s : HashState)
    {alg : HashAlg} (hcoding : alg.isCoding = false) (hsize : 0 < s.size) (src : CodingSource)
    (data : List Byte) (disk : Disk) :
    ∃ run, env.hash lib src data s.outFile alg s.size disk = some run ∧
      (∀ name, s.outFile ≠ some name → run.disk name = disk name) ∧
      HashOutcome env lib hash blake2b text bytes s alg src data disk run := by
  have hcodes : alg.isCoding ≠ true := by simp [hcoding]
  have henc : alg ≠ .base64enc := by
    rintro rfl
    cases hcoding
  have hdec : alg ≠ .base64dec := by
    rintro rfl
    cases hcoding
  rcases @hashOutput_spec _ _ env _ _ _ _ _ hL src data alg hcoding s.size hsize with
    ⟨hdigested, hrun⟩ | ⟨hnone, ret, hfails, hrun⟩
  · refine ⟨_, by rw [HashEnv.hash, hrun]; rfl, fun name hname => putOutput_frame hname, ?_, ?_,
      fun h => absurd h henc, fun h => absurd h hdec, fun h => absurd h hcodes⟩
    · intro _ _
      rw [hcoding]
    · intro _ hnone
      exact absurd hdigested hnone
  · refine ⟨⟨ret, [], disk⟩, by rw [HashEnv.hash, hrun]; rfl, fun _ _ => rfl, ?_, ?_,
      fun h => absurd h henc, fun h => absurd h hdec, fun h => absurd h hcodes⟩
    · intro _ hdigested
      exact absurd hdigested hnone
    · intro _ _
      exact ⟨hfails, rfl, rfl⟩

theorem hash_outcome (hL : lib.Computes absorbed hash taken blake2b)
    (hC : lib.base64.Codes text bytes) (s : HashState) {alg : HashAlg} (halg : s.alg = some alg)
    (hret : s.ret = wolfcluSuccess) (hs : HashSized s) (src : CodingSource) (data : List Byte)
    (disk : Disk) :
    ∃ run, env.hash lib src data s.outFile alg s.size disk = some run ∧
      (∀ name, s.outFile ≠ some name → run.disk name = disk name) ∧
      HashOutcome env lib hash blake2b text bytes s alg src data disk run := by
  unfold HashSized at hs
  rw [halg] at hs
  cases hcoding : alg.isCoding with
  | false =>
    have hsize : 0 < s.size := by
      dsimp only at hs
      split_ifs at hs with hblake
      · have := (hs hret).1
        omega
      · rw [hs]
        revert hblake hcoding
        cases alg <;> decide
    exact digest_outcome hL s hcoding hsize src data disk
  | true =>
    have hsize : s.size = 0 := by
      dsimp only at hs
      split_ifs at hs with hblake
      · subst hblake
        cases hcoding
      · rw [hs]
        revert hcoding
        cases alg <;> decide
    exact coding_outcome hC s hcoding hsize src data disk

theorem start_ok {s : HashState} {alg : HashAlg} {src : CodingSource} {started : Disk}
    (h : s.start env disk = .ok (alg, src, started)) : s.ret = wolfcluSuccess ∧ s.alg = some alg ∧
      ∀ name, s.outFile ≠ some name → started name = disk name := by
  simp only [HashState.start, bind_eq_ok] at h
  obtain ⟨found, hchosen, _, -, opened, hopened, hlast⟩ := h
  cases hlast
  unfold HashState.chosen at hchosen
  split_ifs at hchosen with hret
  rcases halg : s.alg with _ | set
  · rw [halg] at hchosen
    cases hchosen
  · rw [halg] at hchosen
    cases hchosen
    refine ⟨not_not.mp hret, rfl, fun name hname => ?_⟩
    unfold openHashOutput at hopened
    rcases hout : s.outFile with _ | out
    · rw [hout] at hopened
      cases hopened
      rfl
    · rw [hout] at hopened hname
      dsimp only at hopened
      split_ifs at hopened
      cases hopened
      exact Function.update_of_ne (fun heq => hname (congrArg some heq.symm)) _ _

theorem hashSetup_outcome (hL : lib.Computes absorbed hash taken blake2b)
    (hC : lib.base64.Codes text bytes) (argv : Args) (disk : Disk) :
    ∃ run, hashSetup env lib argv disk = some run ∧
      (∀ name, (readHashOptions env argv).outFile ≠ some name → run.disk name = disk name) ∧
      ∀ alg src started, (readHashOptions env argv).returned = none →
        (readHashOptions env argv).start env disk = .ok (alg, src, started) →
        hashOptions.filterMap (chosenAlg argv) = [alg] ∧
          HashOutcome env lib hash blake2b text bytes (readHashOptions env argv) alg src
            (hashInput env (readHashOptions env argv).inFile started) started run := by
  rcases hreturned : (readHashOptions env argv).returned with _ | ret
  · rcases hstart : (readHashOptions env argv).start env disk with ret | ⟨alg, src, started⟩
    · refine ⟨⟨ret, [], disk⟩, by simp only [hashSetup, hreturned, hstart], fun _ _ => rfl, ?_⟩
      intro _ _ _ _ h
      cases h
    · obtain ⟨hret, halg, hframe⟩ := start_ok hstart
      obtain ⟨run, hrun, hkept, houtcome⟩ := @hash_outcome _ _ env lib _ _ _ _ _ _ hL hC
        (readHashOptions env argv) alg halg hret readHashOptions_sized src
        (hashInput env (readHashOptions env argv).inFile started) started
      refine ⟨run, by simp only [hashSetup, hreturned, hstart, hrun],
        fun name hname => (hkept name hname).trans (hframe name hname), ?_⟩
      intro alg' src' started' _ h
      cases h
      refine ⟨?_, houtcome⟩
      rw [← readHashOptions_algs hreturned, halg, Option.toList_some]
  · refine ⟨⟨ret, [], disk⟩, by simp only [hashSetup, hreturned], fun _ _ => rfl, ?_⟩
    intro _ _ _ h
    cases h

end Setup

def sampleHashLib : HashCommandLib (List Byte) (List Byte) where
  hash := greetingHashLib
  blake2bInit _ := some []
  blake2b size := gathering fun _ => List.replicate size.toNat 7
  base64 := standardBase64

def greetingEnv : HashEnv where
  compiled _ := true
  coding := workingEnv
  fileOpens _ := true
  outOpens _ := true
  stdin := []
  deliver _ data := if data = greeting then greetingReads else []

theorem sampleHashLib_computes : sampleHashLib.Computes (fun _ s data => s = data)
    (fun _ => greetingMd5) (fun _ s data => s = data) fun size _ => List.replicate size.toNat 7 where
  digests := greetingHashLib_computes
  init h := (Option.some.inj h).symm
  keyless _ := gathering_computes _
  size size data hsize := by
    rw [List.length_replicate]
    omega

theorem standardBase64_codes : standardBase64.Codes linedText
    fun t => Base64.decode (t.filter fun c => c ≠ 10) where
  encode {x n output} h := by
    simp only [standardBase64] at h
    split_ifs at h
    exact (Except.ok.inj h).symm
  decode {t n output} h := by
    simp only [standardBase64] at h
    split_ifs at h
    split at h
    · cases h
    · rename_i hbytes
      rw [hbytes, Except.ok.inj h]
  restores x _ := by
    rw [linedText, Base64.filter_lines (Base64.newline_not_mem_encode x), Base64.decode_encode]

def greetingDisk : Disk
  | [102] => some greeting
  | _ => none

def md5Args : Args :=
  [str "wolfssl", str "hash", str "-md5", str "-in", str "f", str "-out", str "d"]

theorem md5_state : readHashOptions greetingEnv md5Args =
    ⟨wolfcluSuccess, none, some .md5, 16, some (str "f"), some (str "d")⟩ := by decide +kernel

theorem md5_start : (readHashOptions greetingEnv md5Args).start greetingEnv greetingDisk =
    .ok (.md5, .file, Function.update greetingDisk (str "d") (some [])) := by
  rw [md5_state]
  rfl

theorem md5_digested : Digested greetingEnv sampleHashLib .file greeting .md5 16 := by
  refine ⟨⟨nofun, rfl⟩, greetingMd5 greeting, by decide, by decide, [], greeting, rfl, ?_, rfl⟩
  exact takes_cons.mpr ⟨_, rfl, takes_cons.mpr ⟨_, rfl, takes_nil _ _⟩⟩

theorem hashSetup_outcome_md5 :
    ∃ run, hashSetup greetingEnv sampleHashLib md5Args greetingDisk = some run ∧
      run.ret = wolfcluSuccess ∧ run.disk (str "d") = some (greetingMd5 greeting) ∧
      run.disk (str "f") = some greeting := by
  obtain ⟨run, hrun, hframe, houtcome⟩ := @hashSetup_outcome _ _ greetingEnv sampleHashLib _ _ _ _ _
    _ sampleHashLib_computes standardBase64_codes md5Args greetingDisk
  obtain ⟨-, hput⟩ := houtcome .md5 .file _ (by rw [md5_state]) md5_start
  have hdigest := hput.digest rfl
  rw [md5_state] at hdigest hframe
  have hdone := hdigest md5_digested
  refine ⟨run, hrun, by rw [hdone]; rfl, by rw [hdone]; rfl, hframe (str "f") (by decide)⟩

section Agreement
variable {σ β : Type} {env : HashEnv} {lib : HashCommandLib σ β} {algorithm : AlgHash}
  {prog cmd : List Byte} {file : Option (List Byte)}

def AlgHash.flag : AlgHash → List Byte
  | .md5 => str "-md5"
  | .sha256 => str "-sha256"
  | .sha384 => str "-sha384"
  | .sha512 => str "-sha512"

def Operand (word : List Byte) : Prop :=
  abbreviatesHelp word = false ∧ ∀ o ∈ hashOptions, o.name ≠ word

def fileArgs : Option (List Byte) → Args
  | none => []
  | some f => [str "-in", f]

def hashArgs (prog cmd : List Byte) (algorithm : AlgHash) (file : Option (List Byte)) : Args :=
  prog :: cmd :: algorithm.flag :: fileArgs file

def answers (algorithm : AlgHash) (file : Option (List Byte)) (o : LongOption HashOption) :
    Option (Opt HashOption × Option (List Byte)) :=
  if o.name = algorithm.flag then some (.found o.val, none)
  else if o.name = str "-in" then file.map fun f => (.found o.val, some f)
  else none

theorem flag_plain (algorithm : AlgHash) : ∀ o ∈ hashOptions, o.name = algorithm.flag →
    o.hasArg = false := by
  cases algorithm <;> decide

theorem in_required : ∀ o ∈ hashOptions, o.name = str "-in" → o.hasArg = true := by
  decide

theorem hashArgs_helpless (hprog : Operand prog) (hcmd : Operand cmd)
    (hfile : ∀ f, file = some f → Operand f) :
    ∀ arg ∈ hashArgs prog cmd algorithm file, abbreviatesHelp arg = false := by
  intro arg harg
  have hflag : abbreviatesHelp algorithm.flag = false := by
    cases algorithm <;> decide
  have hin : abbreviatesHelp (str "-in") = false := by decide
  simp only [hashArgs, List.mem_cons] at harg
  rcases harg with rfl | rfl | rfl | harg
  · exact hprog.1
  · exact hcmd.1
  · exact hflag
  · cases file with
    | none => cases harg
    | some f =>
      simp only [fileArgs, List.mem_cons, List.not_mem_nil, or_false] at harg
      rcases harg with rfl | rfl
      · exact hin
      · exact (hfile _ rfl).1

theorem hashArgs_answers (hprog : Operand prog) (hcmd : Operand cmd)
    (hfile : ∀ f, file = some f → Operand f) {o : LongOption HashOption} (ho : o ∈ hashOptions) :
    matchOption (hashArgs prog cmd algorithm file) 1 o = answers algorithm file o := by
  have hhead : (hashArgs prog cmd algorithm file).head? ≠ some o.name :=
    fun h => hprog.2 o ho (Option.some.inj h).symm
  have hhelp : ¬ HelpMatched (hashArgs prog cmd algorithm file) o := by
    rintro ⟨-, arg, harg, htrue⟩
    rw [hashArgs_helpless hprog hcmd hfile arg harg] at htrue
    cases htrue
  have hdistinct : algorithm.flag ≠ str "-in" := by
    cases algorithm <;> decide
  have hprog' := hprog.2 o ho
  have hcmd' := hcmd.2 o ho
  rw [matchOption_answer (by decide) (by decide) hhead, optionAnswer, if_neg hhelp]
  have hcount : (hashArgs prog cmd algorithm file).count o.name =
      (algorithm.flag :: fileArgs file).count o.name := by
    rw [hashArgs, List.count_cons_of_ne hprog'.symm, List.count_cons_of_ne hcmd'.symm]
  rw [hcount]
  unfold answers
  by_cases hflag : o.name = algorithm.flag
  · have hone : (algorithm.flag :: fileArgs file).count o.name = 1 := by
      rw [hflag, List.count_cons_self]
      cases file with
      | none => rfl
      | some f =>
        have hf := (hfile f rfl).2 o ho
        rw [fileArgs, List.count_cons_of_ne hdistinct.symm, List.count_cons_of_ne (hflag ▸ hf.symm),
          List.count_nil]
    rw [hone, if_pos hflag]
    simp only [flag_plain algorithm o ho hflag, Bool.false_eq_true, if_false]
  · rw [if_neg hflag, List.count_cons_of_ne (Ne.symm hflag)]
    by_cases hin : o.name = str "-in"
    · rw [if_pos hin]
      cases file with
      | none => rfl
      | some f =>
        have hf := (hfile f rfl).2 o ho
        have hone : (fileArgs (some f)).count o.name = 1 := by
          rw [fileArgs, hin, List.count_cons_self, List.count_cons_of_ne (hin ▸ hf.symm),
            List.count_nil]
        have hplace : (hashArgs prog cmd algorithm (some f)).idxOf o.name = 3 := by
          rw [hashArgs, List.idxOf_cons_ne _ hprog'.symm, List.idxOf_cons_ne _ hcmd'.symm,
            List.idxOf_cons_ne _ (Ne.symm hflag), fileArgs, hin, List.idxOf_cons_self]
        rw [hone]
        simp only [in_required o ho hin, if_true, argumentOf, hplace]
        rfl
    · rw [if_neg hin]
      cases file with
      | none => rfl
      | some f =>
        have hf := (hfile f rfl).2 o ho
        rw [fileArgs, List.count_cons_of_ne (Ne.symm hin), List.count_cons_of_ne hf.symm]
        rfl

theorem readHashOptions_args (hprog : Operand prog) (hcmd : Operand cmd)
    (hfile : ∀ f, file = some f → Operand f) :
    readHashOptions env (hashArgs prog cmd algorithm file) =
      if env.compiled algorithm.alg = true then
        ⟨wolfcluSuccess, none, some algorithm.alg, algorithm.alg.size, file, none⟩
      else ⟨wolfcluSuccess, some notCompiledIn, none, 0, file, none⟩ := by
  have h := @hashArgs_answers algorithm prog cmd file hprog hcmd hfile
  simp only [hashOptions, List.forall_mem_cons] at h
  obtain ⟨h1, h2, h3, h4, h5, h6, h7, h8, h9, h10, h11, h12, -⟩ := h
  unfold readHashOptions hashOptions
  cases hcompiled : env.compiled algorithm.alg <;> cases algorithm <;>
    dsimp only [AlgHash.alg] at hcompiled <;> cases file <;>
    simp +decide only [OptReader.run, hashReader, h1, h2, h3, h4, h5, h6, h7, h8, h9, h10, h11, h12,
      answers, HashState.setAlg, AlgHash.alg, hcompiled, Option.map_none, Option.map_some, if_true,
      if_false, Option.isNone_none, Option.isNone_some]

theorem algHashSetup_agrees (hprog : Operand prog) (hcmd : Operand cmd)
    (hfile : ∀ f, file = some f → Operand f) (word : List Byte) (disk : Disk) :
    hashSetup env lib (hashArgs prog cmd algorithm file) disk =
      algHashSetup env lib (prog :: word :: file.toList) algorithm disk := by
  have hin : (prog :: word :: file.toList)[2]? = file := by
    cases file <;> rfl
  simp only [hashSetup, readHashOptions_args hprog hcmd hfile, algHashSetup, hin]
  by_cases hcompiled : env.compiled algorithm.alg = true
  · simp only [if_pos hcompiled, HashState.start, HashState.chosen, openHashOutput, bind, Except.bind]
    rcases openHashInput env file disk with ret | src
    · simp [hcompiled]
    · simp [hcompiled]
  · have hrefused := Bool.eq_false_of_not_eq_true hcompiled
    simp only [hrefused, Bool.false_eq_true, if_false, if_true]

theorem algHashSetup_agrees_md5 :
    hashSetup greetingEnv sampleHashLib
        [str "wolfssl", str "hash", str "-md5", str "-in", str "f"] greetingDisk =
      algHashSetup greetingEnv sampleHashLib [str "wolfssl", str "md5", str "f"] .md5
        greetingDisk := by
  have hplain : ∀ word, word = str "wolfssl" ∨ word = str "hash" ∨ word = str "f" → Operand word := by
    rintro word (rfl | rfl | rfl)
    · exact ⟨by decide, by decide⟩
    · exact ⟨by decide, by decide⟩
    · exact ⟨by decide, by decide⟩
  have hfile : ∀ f, some (str "f") = some f → Operand f := fun f hf =>
    hplain f (.inr (.inr (Option.some.inj hf).symm))
  exact @algHashSetup_agrees _ _ greetingEnv sampleHashLib .md5 (str "wolfssl") (str "hash")
    (some (str "f")) (hplain _ (.inl rfl)) (hplain _ (.inr (.inl rfl))) hfile (str "md5") greetingDisk

end Agreement

end WolfCLU
