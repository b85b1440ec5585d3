import WolfCLU.Crypto.CamelliaRoundTrip
import WolfCLU.Crypto.EvpRoundTrip
import WolfCLU.Crypto.Setup

namespace WolfCLU
open Buffer CString

section Ciphers
variable {σ H : Type} {lib : EvpLib σ H} {evpFault : EvpFault → Bool} {camellia : CamelliaLib}
  {fault : CamelliaFault → Bool}

theorem evpCrypto_inits {args : EvpArgs H} {enc : Bool} {generated fileIn : List Byte}
    (hreach : (evpCrypto lib evpFault args enc generated fileIn).inits ≠ []) :
    (evpCrypto lib evpFault args enc generated fileIn).derivations
        = (if args.keyType = .user then 0 else 1) ∧
      (args.keyType = .user → (evpCrypto lib evpFault args enc generated fileIn).inits
        = [⟨args.key.take lib.keyLength, args.iv.take lib.ivLength, enc⟩]) := by
  generalize hrun : evpCrypto lib evpFault args enc generated fileIn = run at hreach ⊢
  have hempty {ret : Int} {out : List Byte} {n : Nat} (h : (⟨ret, out, n, []⟩ : EvpRun) = run) :
      False := hreach (congrArg EvpRun.inits h).symm
  rw [evpCrypto] at hrun
  extract_lets derivations at hrun
  split at hrun
  · exact (hempty hrun).elim
  split at hrun
  · exact (hempty hrun).elim
  split at hrun
  · exact (hempty hrun).elim
  split at hrun
  · exact (hempty hrun).elim
  split at hrun
  · exact (hempty hrun).elim
  split at hrun
  rename_i key iv hmaterial
  extract_lets init header at hrun
  split at hrun
  · exact (hempty hrun).elim
  split at hrun
  · exact (hempty hrun).elim
  split at hrun
  · exact (hempty hrun).elim
  have hinits (hkey : args.keyType = .user) : [init] =
      [⟨args.key.take lib.keyLength, args.iv.take lib.ivLength, enc⟩] := by
    rw [if_pos hkey] at hmaterial
    obtain ⟨rfl, rfl⟩ := Prod.mk.inj hmaterial
    rfl
  split at hrun
  · exact hrun ▸ ⟨rfl, hinits⟩
  · exact hrun ▸ ⟨rfl, hinits⟩

theorem inits_grow {init : CipherInit} {inits : List CipherInit} (hinits : ∀ i ∈ inits, i = init)
    (used : Bool) : ∀ i ∈ (if used then inits ++ [init] else inits), i = init := by
  cases used with
  | false => exact hinits
  | true => exact List.forall_mem_append.mpr ⟨hinits, fun i hi => List.mem_singleton.mp hi⟩

theorem encryptLoop_inits {c : ChunkCipher} {padCounter : Nat} {rest input output : List Byte}
    {eof : Bool} {length : Int} {out out' : List Byte} {inits inits' : List CipherInit} {ret : Int}
    (h : camelliaEncryptLoop camellia fault c padCounter rest eof input output length out inits
      = some (ret, out', inits')) (hinits : ∀ i ∈ inits, i = c.init true) :
    ∀ i ∈ inits', i = c.init true := by
  fun_induction camelliaEncryptLoop camellia fault c padCounter rest eof input output length out
    inits with
  | case1 | case2 | case7 =>
    simp only [Option.some.injEq, Prod.mk.injEq] at h
    obtain ⟨-, -, rfl⟩ := h
    exact hinits
  | case3 =>
    simp only [Option.some.injEq, Prod.mk.injEq] at h
    obtain ⟨-, -, rfl⟩ := h
    exact inits_grow hinits true
  | case4 =>
    simp only [Option.some.injEq, Prod.mk.injEq] at h
    obtain ⟨-, -, rfl⟩ := h
    exact inits_grow hinits _
  | case5 => cases h
  | case6 =>
    rename_i ih
    exact ih h (inits_grow hinits _)

theorem encryptLoop_returns {c : ChunkCipher} {padCounter : Nat} {rest input output : List Byte}
    {eof : Bool} {length : Int} {out : List Byte} {inits : List CipherInit}
    (hmore : eof = false → length ≤ rest.length + padCounter) (hdone : eof = true → length ≤ 0) :
    (camelliaEncryptLoop camellia fault c padCounter rest eof input output length out inits).isSome
    := by
  fun_induction camelliaEncryptLoop camellia fault c padCounter rest eof input output length out
    inits with
  | case1 | case2 | case3 | case4 | case7 => rfl
  | case5 rest eof _ _ _ _ _ hlen _ chunk padded tempMax _ _ _ htemp =>
    exfalso
    cases eof with
    | true => exact absurd (hdone rfl) (not_le.mpr hlen)
    | false =>
      have hchunk : chunk.length = 0 := by omega
      have hrest : rest.length = 0 := by
        simp only [chunk, nextChunk, Bool.false_eq_true, if_false, List.length_take, maxLen] at hchunk
        omega
      have hpad : padCounter = 0 := by
        have hpadded : padded.length = 0 := by omega
        simp only [padded, chunkPadding, hchunk, maxLen] at hpadded
        simpa using hpadded
      have := hmore rfl
      omega
  | case6 rest eof _ _ length _ _ hlen _ chunk eof' _ padded _ tempMax _ _ _ _ _ _ =>
    rename_i ih
    have heof : eof = false := by
      cases eof with
      | true => exact absurd (hdone rfl) (not_le.mpr hlen)
      | false => rfl
    have hchunk : chunk = rest.take maxLen := by simp [chunk, nextChunk, heof]
    have hlast : eof' = decide (chunk.length < maxLen) := by simp [eof', heof]
    have hlength : chunk.length = min maxLen rest.length := by rw [hchunk, List.length_take]
    have htotal := hmore heof
    refine ih (fun hfull => ?_) (fun hshort => ?_)
    · have hnot : ¬ chunk.length < maxLen := of_decide_eq_false (hlast.symm.trans hfull)
      simp only [hfull, Bool.false_eq_true, dite_false, List.length_drop, tempMax]
      omega
    · have hlt : chunk.length < maxLen := of_decide_eq_true (hlast.symm.trans hshort)
      have hpadded : padded.length = padCounter := by
        simp [padded, chunkPadding, hlt.ne]
      simp only [tempMax, hpadded]
      omega

theorem decryptLoop_inits {c : ChunkCipher} (rest : List Byte) (eof : Bool) (curr last : Int)
    (st : DecryptState) (hinits : ∀ i ∈ st.inits, i = c.init false) :
    ∀ i ∈ (camelliaDecryptLoop camellia fault c rest eof curr last st).inits, i = c.init false := by
  fun_induction camelliaDecryptLoop camellia fault c rest eof curr last st with
  | case1 | case2 | case3 | case6 => exact hinits
  | case4 => exact inits_grow hinits _
  | case5 =>
    rename_i ih
    exact ih (inits_grow hinits _)

theorem padLength_total {block fuel k : Nat} {x : Int} (hlo : -2147483648 ≤ x) :
    (padLength block fuel x k).1 + k ≤ x + (padLength block fuel x k).2 := by
  induction fuel generalizing x k with
  | zero => exact le_refl _
  | succ fuel ih =>
    rw [padLength]
    split
    · have hrec := @ih (k + 1) (MachineInt.toInt32 (x + 1)) (MachineInt.toInt32_range _).1
      have hstep := MachineInt.toInt32_le (show -2147483648 ≤ x + 1 by omega)
      push_cast at hrec
      omega
    · exact le_refl _

theorem camelliaEncrypt_returns (alg : Algo) (mode pwdKey key : List Byte) (size : Nat)
    (inName : List Byte) (inFile : Option (List Byte)) (randomIv randomSalt iv : List Byte)
    (block : Nat) (ivCheck : Bool) :
    (camelliaEncrypt camellia fault alg mode pwdKey key size inName inFile randomIv randomSalt iv
      block ivCheck).isSome := by
  have htotal := @padLength_total block block 0 _
    (MachineInt.toInt32_range (inFile.getD inName).length).1
  have hsize := MachineInt.toInt32_le (show -2147483648 ≤ ((inFile.getD inName).length : Int)
    by omega)
  rw [camelliaEncrypt]
  extract_lets iv' derivations
  split
  · rfl
  split
  · rfl
  split
  rename_i length padCounter hpad
  have hlength : length ≤ (inFile.getD inName).length + padCounter := by
    rw [hpad] at htotal
    simp only at htotal
    omega
  split
  · rfl
  split
  · rfl
  split
  extract_lets key'
  split
  · rfl
  split
  · rfl
  rw [Option.isSome_map]
  exact encryptLoop_returns (fun _ => hlength) (fun h => absurd h Bool.false_ne_true)

theorem camelliaEncrypt_explicit {alg : Algo} {mode pwdKey key : List Byte} {size : Nat}
    {inName : List Byte} {inFile : Option (List Byte)} {randomIv randomSalt iv : List Byte}
    {block : Nat} {run : CamelliaRun}
    (h : camelliaEncrypt camellia fault alg mode pwdKey key size inName inFile randomIv randomSalt iv
      block true = some run) (hreach : run.inits ≠ []) :
    run.derivations = 0 ∧ ∀ i ∈ run.inits, i = ⟨key.take (size / 8), iv.take block, true⟩ := by
  simp only [camelliaEncrypt, not_true, false_and, if_false, if_true] at h
  split_ifs at h
  all_goals first
    | obtain rfl := Option.some.inj h
      exact absurd rfl hreach
    | obtain ⟨⟨ret, out, inits⟩, hloop, rfl⟩ := Option.map_eq_some_iff.mp h
      exact ⟨rfl, encryptLoop_inits hloop fun i hi => absurd hi List.not_mem_nil⟩

theorem camelliaDecrypt_inits {alg : Algo} {mode pwdKey key file iv : List Byte} {size block : Nat}
    {keyType : KeyType}
    (hreach : (camelliaDecrypt camellia fault alg mode pwdKey key size file iv block keyType).inits
      ≠ []) :
    saltSize + block ≤ file.length ∧
      (camelliaDecrypt camellia fault alg mode pwdKey key size file iv block keyType).derivations
        = (if keyType = .password then 1 else 0) ∧
      (keyType ≠ .password → ∀ i ∈
        (camelliaDecrypt camellia fault alg mode pwdKey key size file iv block keyType).inits,
        i = ⟨key.take (size / 8), (blit iv 0 ((file.drop saltSize).take block)).take block, false⟩)
    := by
  rcases Cbc.camelliaDecrypt_cases camellia fault alg mode pwdKey key file iv size block keyType with
    ⟨_, _, _, hrun⟩ | ⟨_, hle, key', last, st, hkey', hst, hrun⟩
  · rw [hrun] at hreach
    exact absurd rfl hreach
  · rw [hrun]
    refine ⟨hle, rfl, fun hkey => ?_⟩
    rw [← hkey' hkey, hst]
    exact decryptLoop_inits _ _ _ _ _ fun i hi => absurd hi List.not_mem_nil

end Ciphers

section Options
variable {σ H : Type} (env : SetupEnv σ H)

def keyOfFile (contents : List Byte) : Option (List Byte) :=
  match keyFileText contents with
  | some keyString => env.base16Decode keyString
  | none => some contents

def keyOfNamedFile (name : List Byte) : Option (List Byte) := (env.file name).bind (keyOfFile env)

def denotedKey (argv : Args) : Option (List Byte) :=
  if Given argv (str "-inkey") then (argumentOf argv (str "-inkey")).bind (keyOfNamedFile env)
  else (argumentOf argv (str "-key")).bind env.base16Decode

def denotedIv (argv : Args) : Option (List Byte) :=
  (argumentOf argv (str "-iv")).bind env.base16Decode

def loweredArgs (argv : Args) : Args :=
  if Given argv (str "-output") then lowerArgument (str "-output") argv else argv

def PasswordGiven (argv : Args) : Prop :=
  Given (loweredArgs argv) (str "-k") ∨ Given (loweredArgs argv) (str "-pass")

instance (argv : Args) : Decidable (PasswordGiven argv) :=
  inferInstanceAs (Decidable (_ ∨ _))

def Encrypting (argv : Args) (action : Action) : Prop :=
  action = .encrypt ∧ ¬ Given (loweredArgs argv) (str "-d")

instance (argv : Args) (action : Action) : Decidable (Encrypting argv action) :=
  inferInstanceAs (Decidable (_ ∧ _))

def inputName (argv : Args) : Option (List Byte) :=
  if Given argv (str "-output") then (argumentOf argv (str "-output")).map (·.map toLower)
  else if Given argv (str "-in") then argumentOf argv (str "-in")
  else none

structure Documented : Prop where
  base16Length : ∀ {hex bytes}, env.base16Decode hex = some bytes → hex.length = bytes.length * 2
  fileLength : ∀ n, env.fileLength n = n ∨ env.fileLength n ≤ 0

structure Material where
  argv : Args
  key : List Byte
  iv : List Byte
  keyCheck : Bool
  ivCheck : Bool
  inCheck : Bool
  encCheck : Bool
  input : Option (List Byte)

def SetupState.material (s : SetupState H) : Material :=
  ⟨s.argv, s.key, s.iv, s.keyCheck, s.ivCheck, s.inCheck, s.encCheck, s.input⟩

def CryptOption.neutral : CryptOption → Bool
  | .password | .key | .iv | .inkey | .output | .infile | .decrypt | .passwordSource => false
  | _ => true

variable {env} {block keySize : Nat}

theorem run_neutral {table : List (LongOption CryptOption)}
    (hneutral : ∀ o ∈ table, o.val.neutral = true) (s : SetupState H) :
    ((setupReader env block keySize).run 1 table s).material = s.material ∧
      ((setupReader env block keySize).run 1 table s).keyType = s.keyType := by
  refine OptReader.run_preserves (P := fun s' : SetupState H => s'.material = s.material ∧
    s'.keyType = s.keyType) (fun opt arg s' hval hs => ?_) ⟨rfl, rfl⟩
  cases opt with
  | foundTwice => exact hs
  | found val =>
    obtain ⟨o, ho, rfl⟩ := hval val rfl
    have hn := hneutral o ho
    generalize o.val = val at hn
    cases val with
    | md =>
      simp only [setupReader, SetupState.option]
      split <;> exact hs
    | password | key | iv | inkey | output | infile | decrypt | passwordSource =>
      exact absurd hn (by decide)
    | _ => exact hs

theorem option_run {o : LongOption CryptOption} {s : SetupState H}
    (hhelp : strncmp o.name (str "-help") o.name.length ≠ 0)
    (hok : ((setupReader env block keySize).run 1 [o] s).ret = wolfcluSuccess) :
    s.ret = wolfcluSuccess ∧
      ((¬ Given s.argv o.name ∧ (setupReader env block keySize).run 1 [o] s = s) ∨
        (Given s.argv o.name ∧ (setupReader env block keySize).run 1 [o] s
          = s.option env block keySize o.val
              (if o.hasArg then argumentOf s.argv o.name else none))) := by
  have hrun : (setupReader env block keySize).running s = true :=
    OptReader.running_of_run (decide_eq_true hok)
  refine ⟨of_decide_eq_true hrun, ?_⟩
  rcases OptReader.run_single hhelp hrun with htwice | hcases
  · rw [htwice] at hok
    exact absurd hok (by simp [setupReader, wolfcluFatalError, wolfcluSuccess])
  · exact hcases

theorem loadHexKeyInto_success (laws : Documented env) {keyOut keyOut' hex : List Byte}
    {keyBytes : Nat} (h : loadHexKeyInto env keyOut keyBytes hex = (wolfcluSuccess, keyOut')) :
    ∃ k, env.base16Decode hex = some k ∧ k.length = keyBytes ∧ keyOut' = blit keyOut 0 k := by
  have hne : ¬ wolfcluFatalError = wolfcluSuccess := by decide
  have hmem : ¬ memoryE = wolfcluSuccess := by decide
  simp only [loadHexKeyInto, hexToBin] at h
  cases hdec : env.base16Decode hex with
  | none =>
    rw [hdec] at h
    split_ifs at h <;> simp_all
  | some k =>
    rw [hdec] at h
    have hk := laws.base16Length hdec
    split_ifs at h with hlen halloc hbin
    · simp_all
    · have hkey : k.length = keyBytes := by omega
      refine ⟨k, rfl, hkey, ?_⟩
      rw [← (Prod.mk.inj h).2, List.take_of_length_le hkey.le]
    · simp_all
    · simp_all

theorem loadKeyFile_success (laws : Documented env) {key key' name : List Byte} {keyBytes : Nat}
    (h : loadKeyFile env key keyBytes name = (wolfcluSuccess, key')) :
    ∃ k, keyOfNamedFile env name = some k ∧ k.length = keyBytes ∧ key' = blit key 0 k := by
  have hne : ¬ wolfcluFatalError = wolfcluSuccess := by decide
  simp only [loadKeyFile] at h
  cases hfile : env.file name with
  | none => simp_all
  | some contents =>
    simp only [hfile] at h
    by_cases hbad : env.fileLength contents.length ≤ 0 ∨ ¬ env.alloc .keyFile ∨
        contents.length < env.fileLength contents.length
    · rw [if_pos hbad] at h
      exact absurd (Prod.mk.inj h).1 hne
    · rw [if_neg hbad] at h
      have hlen : env.fileLength contents.length = contents.length := by
        rcases laws.fileLength contents.length with heq | hneg
        · exact heq
        · exact absurd (.inl hneg) hbad
      have hall : contents.take (env.fileLength contents.length).toNat = contents := by
        rw [hlen, Int.toNat_natCast, List.take_length]
      rw [hall] at h
      rw [keyOfNamedFile, hfile, Option.bind_some, keyOfFile]
      cases htext : keyFileText contents with
      | some keyString =>
        simp only [htext] at h
        split_ifs at h
        · exact loadHexKeyInto_success laws h
        · simp_all
      | none =>
        simp only [htext] at h
        split_ifs at h with hbytes
        · simp_all
        · exact ⟨contents, rfl, not_not.mp hbytes, (Prod.mk.inj h).2.symm⟩

theorem loadIv_success {iv iv' optarg : List Byte}
    (h : loadIv env iv block optarg = (wolfcluSuccess, iv')) :
    ∃ v, env.base16Decode optarg = some v ∧ v.length = block ∧ iv' = blit iv 0 v := by
  have hne : ¬ wolfcluFatalError = wolfcluSuccess := by decide
  simp only [loadIv, hexToBin] at h
  cases hdec : env.base16Decode optarg with
  | none =>
    rw [hdec] at h
    split_ifs at h <;> simp_all
  | some v =>
    rw [hdec] at h
    split_ifs at h with halloc hbin
    · by_cases hlen : v.length = block
      · simp only [hlen, ne_eq, not_true, if_false, Prod.mk.injEq, true_and] at h
        exact ⟨v, rfl, hlen, h.symm⟩
      · simp_all
    · simp_all
    · simp_all

theorem option_key (laws : Documented env) {s : SetupState H} {arg : Option (List Byte)}
    (hok : (s.option env block keySize .key arg).ret = wolfcluSuccess) :
    ∃ k, arg.bind env.base16Decode = some k ∧ k.length = (keySize + 7) / 8 ∧
      s.option env block keySize .key arg = { s with
        ret := wolfcluSuccess, key := blit s.key 0 k, keyCheck := true, keyType := .user } := by
  cases arg with
  | none => exact absurd hok (by simp [SetupState.option, wolfcluFatalError, wolfcluSuccess])
  | some arg =>
    obtain ⟨ret, key, hload⟩ : ∃ ret key,
        loadHexKeyInto env s.key ((keySize + 7) / 8) arg = (ret, key) := ⟨_, _, rfl⟩
    simp only [SetupState.option, hload] at hok ⊢
    split_ifs at hok ⊢ with hret
    · subst hret
      obtain ⟨k, hk, hlen, rfl⟩ := loadHexKeyInto_success laws hload
      exact ⟨k, hk, hlen, rfl⟩
    · exact absurd hok hret

theorem option_inkey (laws : Documented env) {s : SetupState H} {arg : Option (List Byte)}
    (hok : (s.option env block keySize .inkey arg).ret = wolfcluSuccess) :
    ∃ k, arg.bind (keyOfNamedFile env) = some k ∧ k.length = (keySize + 7) / 8 ∧
      s.option env block keySize .inkey arg = { s with
        ret := wolfcluSuccess, key := blit s.key 0 k, keyCheck := true, keyType := .user } := by
  cases arg with
  | none => exact absurd hok (by simp [SetupState.option, wolfcluFatalError, wolfcluSuccess])
  | some arg =>
    obtain ⟨ret, key, hload⟩ : ∃ ret key,
        loadKeyFile env s.key ((keySize + 7) / 8) arg = (ret, key) := ⟨_, _, rfl⟩
    simp only [SetupState.option, hload] at hok ⊢
    split_ifs at hok ⊢ with hret
    · subst hret
      obtain ⟨k, hk, hlen, rfl⟩ := loadKeyFile_success laws hload
      exact ⟨k, hk, hlen, rfl⟩
    · exact absurd hok hret

theorem option_iv {s : SetupState H} {arg : Option (List Byte)}
    (hok : (s.option env block keySize .iv arg).ret = wolfcluSuccess) :
    ∃ v, arg.bind env.base16Decode = some v ∧ v.length = block ∧
      s.option env block keySize .iv arg = { s with
        ret := wolfcluSuccess, iv := blit s.iv 0 v, ivCheck := true } := by
  cases arg with
  | none => exact absurd hok (by simp [SetupState.option, wolfcluFatalError, wolfcluSuccess])
  | some arg =>
    obtain ⟨ret, iv, hload⟩ : ∃ ret iv, loadIv env s.iv block arg = (ret, iv) := ⟨_, _, rfl⟩
    simp only [SetupState.option, hload] at hok ⊢
    split_ifs at hok ⊢ with hret
    · subst hret
      obtain ⟨v, hv, hlen, rfl⟩ := loadIv_success hload
      exact ⟨v, hv, hlen, rfl⟩
    · exact absurd hok hret

theorem option_password {s : SetupState H} {arg : Option (List Byte)} {opt : CryptOption}
    (hopt : opt = .password ∨ opt = .passwordSource)
    (hok : (s.option env block keySize opt arg).ret = wolfcluSuccess) :
    (s.option env block keySize opt arg).material = s.material ∧
      (s.option env block keySize opt arg).keyType = .password := by
  have hne : ¬ wolfcluFatalError = wolfcluSuccess := by decide
  cases arg with
  | none => rcases hopt with rfl | rfl <;> exact absurd hok hne
  | some arg =>
    rcases hopt with rfl | rfl
    · exact ⟨rfl, rfl⟩
    · simp only [SetupState.option] at hok ⊢
      split_ifs at hok ⊢ with hret
      · exact ⟨rfl, rfl⟩
      · exact absurd hok hret

theorem blit_overwrite {buffer xs ys : List Byte} (h : xs.length = ys.length) :
    blit (blit buffer 0 xs) 0 ys = blit buffer 0 ys := by
  simp [blit, ← h]

structure Untouched (argv : Args) (action : Action) (block keySize : Nat) (m : Material) : Prop where
  args : m.argv = argv
  key : m.key = List.replicate keySize 0
  iv : m.iv = List.replicate block 0
  keyCheck : m.keyCheck = false
  ivCheck : m.ivCheck = false
  encCheck : m.encCheck = decide (action = .encrypt)
  input : m.inCheck = true → Given argv (str "-in") ∧ m.input = argumentOf argv (str "-in")

variable (env) in
structure HexKeyRead (argv : Args) (action : Action) (block keySize : Nat) (s : SetupState H) : Prop
    where
  args : s.argv = argv
  iv : s.iv = List.replicate block 0
  ivCheck : s.ivCheck = false
  encCheck : s.encCheck = decide (action = .encrypt)
  input : s.inCheck = true → Given argv (str "-in") ∧ s.input = argumentOf argv (str "-in")
  key : (s.keyCheck = false ∧ s.key = List.replicate keySize 0) ∨
    (s.keyCheck = true ∧ s.keyType = .user ∧
      ∃ k, (argumentOf argv (str "-key")).bind env.base16Decode = some k ∧
        k.length = (keySize + 7) / 8 ∧ s.key = blit (List.replicate keySize 0) 0 k)

variable (env) in
structure KeysRead (argv : Args) (action : Action) (block keySize : Nat) (s : SetupState H) : Prop
    where
  args : s.argv = argv
  encCheck : s.encCheck = decide (action = .encrypt)
  input : s.inCheck = true → Given argv (str "-in") ∧ s.input = argumentOf argv (str "-in")
  iv : s.ivCheck = true → ∃ v, denotedIv env argv = some v ∧ v.length = block ∧ s.iv = v
  keyType : s.keyCheck = true → s.keyType = .user
  key : s.keyCheck = true → ∃ k, denotedKey env argv = some k ∧ k.length = (keySize + 7) / 8 ∧
    s.key = blit (List.replicate keySize 0) 0 k

variable (env) in
structure MaterialRead (argv : Args) (block keySize : Nat) (m : Material) : Prop where
  args : m.argv = loweredArgs argv
  input : m.inCheck = true → m.input = inputName argv
  iv : m.ivCheck = true → ∃ v, denotedIv env argv = some v ∧ v.length = block ∧ m.iv = v
  key : m.keyCheck = true → ∃ k, denotedKey env argv = some k ∧ k.length = (keySize + 7) / 8 ∧
    m.key = blit (List.replicate keySize 0) 0 k

variable (env) in
structure OptionsRead (argv : Args) (action : Action) (block keySize : Nat) (s : SetupState H) : Prop
    where
  material : MaterialRead env argv block keySize s.material
  keyType : s.keyCheck = true → s.keyType = if PasswordGiven argv then .password else .user
  encCheck : s.encCheck = decide (Encrypting argv action)

section Stages
variable {argv : Args} {action : Action}

theorem untouched_initial :
    Untouched argv action block keySize
      (SetupState.initial env argv action block keySize).material where
  args := rfl
  key := rfl
  iv := rfl
  keyCheck := rfl
  ivCheck := rfl
  encCheck := rfl
  input h := absurd h Bool.false_ne_true

theorem untouched_in {s : SetupState H} (h : Untouched argv action block keySize s.material)
    (hok : ((setupReader env block keySize).run 1 [⟨str "-in", true, .infile⟩] s).ret
      = wolfcluSuccess) :
    Untouched argv action block keySize
      ((setupReader env block keySize).run 1 [⟨str "-in", true, .infile⟩] s).material := by
  rcases (option_run (by decide) hok).2 with ⟨-, hsame⟩ | ⟨hgiven, hread⟩
  · rwa [hsame]
  · have hargv : s.argv = argv := h.args
    rw [hread]
    exact { h with input := fun _ => ⟨hargv ▸ hgiven, by rw [← hargv]; rfl⟩ }

theorem untouched_pwd {s : SetupState H} (h : Untouched argv action block keySize s.material)
    (hok : ((setupReader env block keySize).run 1 [⟨str "-pwd", true, .password⟩] s).ret
      = wolfcluSuccess) :
    Untouched argv action block keySize
      ((setupReader env block keySize).run 1 [⟨str "-pwd", true, .password⟩] s).material := by
  rcases (option_run (by decide) hok).2 with ⟨-, hsame⟩ | ⟨-, hread⟩
  · rwa [hsame]
  · rw [hread] at hok ⊢
    rwa [(option_password (.inl rfl) hok).1]

theorem hexKey_read (laws : Documented env) {s : SetupState H}
    (h : Untouched argv action block keySize s.material)
    (hok : ((setupReader env block keySize).run 1 [⟨str "-key", true, .key⟩] s).ret
      = wolfcluSuccess) :
    HexKeyRead env argv action block keySize
      ((setupReader env block keySize).run 1 [⟨str "-key", true, .key⟩] s) := by
  rcases (option_run (by decide) hok).2 with ⟨-, hsame⟩ | ⟨-, hread⟩
  · rw [hsame]
    exact ⟨h.args, h.iv, h.ivCheck, h.encCheck, h.input, .inl ⟨h.keyCheck, h.key⟩⟩
  · rw [hread] at hok ⊢
    obtain ⟨k, hk, hlen, hnew⟩ := option_key laws hok
    have hargv : s.argv = argv := h.args
    have hkey : s.key = List.replicate keySize 0 := h.key
    rw [hnew]
    refine ⟨h.args, h.iv, h.ivCheck, h.encCheck, h.input, .inr ⟨rfl, rfl, k, ?_, hlen, ?_⟩⟩
    · rw [← hargv]
      exact hk
    · rw [← hkey]

theorem hexKey_iv {s : SetupState H} (h : HexKeyRead env argv action block keySize s)
    (hok : ((setupReader env block keySize).run 1 [⟨str "-iv", true, .iv⟩] s).ret = wolfcluSuccess) :
    ∃ iv ivCheck, ((setupReader env block keySize).run 1 [⟨str "-iv", true, .iv⟩] s)
        = { s with ret := wolfcluSuccess, iv := iv, ivCheck := ivCheck } ∧
      (ivCheck = true → ∃ v, denotedIv env argv = some v ∧ v.length = block ∧ iv = v) := by
  obtain ⟨hret, ⟨-, hsame⟩ | ⟨-, hread⟩⟩ := option_run (by decide) hok
  · refine ⟨s.iv, s.ivCheck, ?_, fun hiv => absurd (h.ivCheck.symm.trans hiv) Bool.false_ne_true⟩
    rw [hsame, ← hret]
  · rw [hread] at hok ⊢
    obtain ⟨v, hv, hlen, hnew⟩ := option_iv hok
    refine ⟨blit s.iv 0 v, true, hnew, fun _ => ⟨v, ?_, hlen, ?_⟩⟩
    · rw [denotedIv, ← h.args]
      exact hv
    · rw [h.iv, blit, hlen]
      simp

theorem keys_read (laws : Documented env) {s : SetupState H} {iv : List Byte} {ivCheck : Bool}
    (h : HexKeyRead env argv action block keySize s)
    (hiv : ivCheck = true → ∃ v, denotedIv env argv = some v ∧ v.length = block ∧ iv = v)
    (hok : ((setupReader env block keySize).run 1 [⟨str "-inkey", true, .inkey⟩]
      { s with ret := wolfcluSuccess, iv := iv, ivCheck := ivCheck }).ret = wolfcluSuccess) :
    KeysRead env argv action block keySize ((setupReader env block keySize).run 1
      [⟨str "-inkey", true, .inkey⟩] { s with ret := wolfcluSuccess, iv := iv, ivCheck := ivCheck })
    := by
  have hargs : s.argv = argv := h.args
  rcases (option_run (by decide) hok).2 with ⟨hnot, hsame⟩ | ⟨hgiven, hread⟩
  · have hhex : denotedKey env argv = (argumentOf argv (str "-key")).bind env.base16Decode := by
      rw [denotedKey, if_neg (hargs ▸ hnot)]
    rw [hsame]
    rcases h.key with ⟨hnone, -⟩ | ⟨-, htype, hk⟩
    · exact ⟨hargs, h.encCheck, h.input, hiv,
        fun hc => absurd (hnone.symm.trans hc) Bool.false_ne_true,
        fun hc => absurd (hnone.symm.trans hc) Bool.false_ne_true⟩
    · exact ⟨hargs, h.encCheck, h.input, hiv, fun _ => htype, fun _ => by rw [hhex]; exact hk⟩
  · rw [hread] at hok ⊢
    obtain ⟨k, hk, hlen, hnew⟩ := option_inkey laws hok
    rw [hnew]
    refine ⟨hargs, h.encCheck, h.input, hiv, fun _ => rfl, fun _ => ⟨k, ?_, hlen, ?_⟩⟩
    · rw [denotedKey, if_pos (hargs ▸ hgiven), ← hargs]
      exact hk
    · show blit s.key 0 k = blit (List.replicate keySize 0) 0 k
      rcases h.key with ⟨-, hzero⟩ | ⟨-, -, k', -, hlen', hkey⟩
      · rw [hzero]
      · rw [hkey, blit_overwrite (hlen'.trans hlen.symm)]

theorem output_read {s : SetupState H} (h : KeysRead env argv action block keySize s)
    (hok : ((setupReader env block keySize).run 1 [⟨str "-output", true, .output⟩] s).ret
      = wolfcluSuccess) :
    MaterialRead env argv block keySize
        ((setupReader env block keySize).run 1 [⟨str "-output", true, .output⟩] s).material ∧
      ((setupReader env block keySize).run 1 [⟨str "-output", true, .output⟩] s).encCheck
        = decide (action = .encrypt) ∧
      (((setupReader env block keySize).run 1 [⟨str "-output", true, .output⟩] s).keyCheck = true →
        ((setupReader env block keySize).run 1 [⟨str "-output", true, .output⟩] s).keyType
          = .user) := by
  have hargs : s.argv = argv := h.args
  rcases (option_run (by decide) hok).2 with ⟨hnot, hsame⟩ | ⟨hgiven, hread⟩
  · rw [hargs] at hnot
    rw [hsame]
    refine ⟨⟨?_, fun hin => ?_, h.iv, h.key⟩, h.encCheck, h.keyType⟩
    · rw [loweredArgs, if_neg hnot]
      exact hargs
    · obtain ⟨hin', hinput⟩ := h.input hin
      rw [inputName, if_neg hnot, if_pos hin']
      exact hinput
  · rw [hargs] at hgiven
    rw [hread]
    refine ⟨⟨?_, fun _ => ?_, h.iv, h.key⟩, h.encCheck, h.keyType⟩
    · show lowerArgument (str "-output") s.argv = loweredArgs argv
      rw [loweredArgs, if_pos hgiven, hargs]
    · show (argumentOf s.argv (str "-output")).map (·.map toLower) = inputName argv
      rw [inputName, if_pos hgiven, hargs]

theorem decrypt_read {s : SetupState H} (hargs : s.argv = loweredArgs argv)
    (henc : s.encCheck = decide (action = .encrypt))
    (hok : ((setupReader env block keySize).run 1 [⟨str "-d", false, .decrypt⟩] s).ret
      = wolfcluSuccess) :
    ∃ decCheck, ((setupReader env block keySize).run 1 [⟨str "-d", false, .decrypt⟩] s)
      = { s with encCheck := decide (Encrypting argv action), decCheck := decCheck } := by
  rcases (option_run (by decide) hok).2 with ⟨hnot, hsame⟩ | ⟨hgiven, hread⟩
  · rw [hargs] at hnot
    refine ⟨s.decCheck, ?_⟩
    simp only [Encrypting, hnot, not_false_eq_true, and_true, ← henc]
    exact hsame
  · rw [hargs] at hgiven
    refine ⟨true, ?_⟩
    simp only [Encrypting, hgiven, not_true, and_false, decide_false]
    exact hread

theorem password_read {name : List Byte} {opt : CryptOption} {s : SetupState H}
    (hhelp : strncmp name (str "-help") name.length ≠ 0)
    (hopt : opt = .password ∨ opt = .passwordSource)
    (hok : ((setupReader env block keySize).run 1 [⟨name, true, opt⟩] s).ret = wolfcluSuccess) :
    ((setupReader env block keySize).run 1 [⟨name, true, opt⟩] s).material = s.material ∧
      ((setupReader env block keySize).run 1 [⟨name, true, opt⟩] s).keyType
        = if Given s.argv name then .password else s.keyType := by
  rcases (option_run hhelp hok).2 with ⟨hnot, hsame⟩ | ⟨hgiven, hread⟩
  · rw [hsame, if_neg hnot]
    exact ⟨rfl, rfl⟩
  · rw [hread] at hok ⊢
    rw [if_pos hgiven]
    exact option_password hopt hok

theorem running_before {front back : List (LongOption CryptOption)} {s : SetupState H}
    (hok : ((setupReader env block keySize).run 1 back
      ((setupReader env block keySize).run 1 front s)).ret = wolfcluSuccess) :
    ((setupReader env block keySize).run 1 front s).ret = wolfcluSuccess :=
  of_decide_eq_true (@OptReader.running_of_run _ _ (setupReader env block keySize) 1 back _
    (decide_eq_true hok))

theorem front_read (laws : Documented env) {s : SetupState H}
    (hs : (setupReader env block keySize).run 1 (cryptOptions.take 11)
      (SetupState.initial env argv action block keySize) = s) (hok : s.ret = wolfcluSuccess) :
    KeysRead env argv action block keySize s := by
  have htable : cryptOptions.take 11 = cryptOptions.take 5 ++ ([⟨str "-in", true, .infile⟩] ++
      ([⟨str "-out", true, .outfile⟩] ++ ([⟨str "-pwd", true, .password⟩] ++
        ([⟨str "-key", true, .key⟩] ++ ([⟨str "-iv", true, .iv⟩] ++
          [⟨str "-inkey", true, .inkey⟩]))))) := rfl
  rw [htable] at hs
  simp only [OptReader.run_append] at hs
  subst hs
  have hiv := running_before hok
  have hkey := running_before hiv
  have hpwd := running_before hkey
  have hout := running_before hpwd
  have hin := running_before hout
  have hsha := (@run_neutral _ _ env block keySize (cryptOptions.take 5) (by decide)
    (SetupState.initial env argv action block keySize)).1
  have hstart : Untouched argv action block keySize _ := hsha ▸ untouched_initial
  have hin' := untouched_in hstart hin
  have hout' := (@run_neutral _ _ env block keySize [⟨str "-out", true, .outfile⟩] (by decide)
    _).1 ▸ hin'
  have hpwd' := untouched_pwd hout' hpwd
  have hkey' := hexKey_read laws hpwd' hkey
  obtain ⟨iv, ivCheck, heq, hread⟩ := hexKey_iv hkey' hiv
  rw [heq] at hok ⊢
  exact keys_read laws hkey' hread hok

theorem options_read (laws : Documented env) {s : SetupState H}
    (hs : (setupReader env block keySize).run 1 cryptOptions
      (SetupState.initial env argv action block keySize) = s) (hok : s.ret = wolfcluSuccess) :
    OptionsRead env argv action block keySize s := by
  have htable : cryptOptions = cryptOptions.take 11 ++ ([⟨str "-output", true, .output⟩] ++
      ([⟨str "-pbkdf2", false, .pbkdf2⟩, ⟨str "-md", true, .md⟩] ++
        ([⟨str "-d", false, .decrypt⟩] ++ ([⟨str "-p", false, .debug⟩] ++
          ([⟨str "-k", true, .password⟩] ++ ([⟨str "-base64", false, .base64⟩,
            ⟨str "-nosalt", false, .nosalt⟩] ++ [⟨str "-pass", true, .passwordSource⟩])))))) := rfl
  rw [htable] at hs
  simp only [OptReader.run_append] at hs
  subst hs
  have hencode := running_before hok
  have hk := running_before hencode
  have hdebug := running_before hk
  have hdecrypt := running_before hdebug
  have hkdf := running_before hdecrypt
  have houtput := running_before hkdf
  have hkeys := front_read laws rfl (running_before houtput)
  generalize (setupReader env block keySize).run 1 (cryptOptions.take 11)
    (SetupState.initial env argv action block keySize) = s₀ at *
  obtain ⟨hmaterial, henc, htype⟩ := output_read hkeys houtput
  generalize (setupReader env block keySize).run 1 [⟨str "-output", true, .output⟩] s₀ = s₁ at *
  obtain ⟨hm₂, ht₂⟩ := @run_neutral _ _ env block keySize
    [⟨str "-pbkdf2", false, .pbkdf2⟩, ⟨str "-md", true, .md⟩] (by decide) s₁
  generalize (setupReader env block keySize).run 1
    [⟨str "-pbkdf2", false, .pbkdf2⟩, ⟨str "-md", true, .md⟩] s₁ = s₂ at *
  rw [← hm₂] at hmaterial
  have henc₂ : s₂.encCheck = decide (action = .encrypt) :=
    (congrArg Material.encCheck hm₂).trans henc
  have htype₂ : s₂.keyCheck = true → s₂.keyType = .user := fun hc =>
    ht₂.trans (htype ((congrArg Material.keyCheck hm₂).symm.trans hc))
  obtain ⟨decCheck, hs₃⟩ := decrypt_read hmaterial.args henc₂ hdecrypt
  have hread₃ : MaterialRead env argv block keySize
      ((setupReader env block keySize).run 1 [⟨str "-d", false, .decrypt⟩] s₂).material := by
    rw [hs₃]
    exact ⟨hmaterial.args, hmaterial.input, hmaterial.iv, hmaterial.key⟩
  have henc₃ : ((setupReader env block keySize).run 1 [⟨str "-d", false, .decrypt⟩] s₂).encCheck
      = decide (Encrypting argv action) := by rw [hs₃]
  have htype₃ : ((setupReader env block keySize).run 1 [⟨str "-d", false, .decrypt⟩] s₂).keyCheck
      = true → ((setupReader env block keySize).run 1 [⟨str "-d", false, .decrypt⟩] s₂).keyType
        = .user := by
    rw [hs₃]
    exact htype₂
  clear hs₃
  generalize (setupReader env block keySize).run 1 [⟨str "-d", false, .decrypt⟩] s₂ = s₃ at *
  obtain ⟨hm₄, ht₄⟩ := @run_neutral _ _ env block keySize [⟨str "-p", false, .debug⟩] (by decide) s₃
  generalize (setupReader env block keySize).run 1 [⟨str "-p", false, .debug⟩] s₃ = s₄ at *
  obtain ⟨hm₅, ht₅⟩ := password_read (by decide) (.inl rfl) hk
  generalize (setupReader env block keySize).run 1 [⟨str "-k", true, .password⟩] s₄ = s₅ at *
  obtain ⟨hm₆, ht₆⟩ := @run_neutral _ _ env block keySize
    [⟨str "-base64", false, .base64⟩, ⟨str "-nosalt", false, .nosalt⟩] (by decide) s₅
  generalize (setupReader env block keySize).run 1
    [⟨str "-base64", false, .base64⟩, ⟨str "-nosalt", false, .nosalt⟩] s₅ = s₆ at *
  obtain ⟨hm₇, ht₇⟩ := password_read (by decide) (.inr rfl) hok
  generalize (setupReader env block keySize).run 1 [⟨str "-pass", true, .passwordSource⟩] s₆ = s₇ at *
  have hargs₄ : s₄.argv = loweredArgs argv := (congrArg Material.argv hm₄).trans hread₃.args
  have hm₆₃ : s₆.material = s₃.material := hm₆.trans (hm₅.trans hm₄)
  have hargs₆ : s₆.argv = loweredArgs argv := (congrArg Material.argv hm₆₃).trans hread₃.args
  have hm₇₃ : s₇.material = s₃.material := hm₇.trans hm₆₃
  refine ⟨hm₇₃ ▸ hread₃, fun hc => ?_, (congrArg Material.encCheck hm₇₃).trans henc₃⟩
  have huser : s₃.keyType = .user := htype₃ ((congrArg Material.keyCheck hm₇₃).symm.trans hc)
  rw [ht₇, ht₆, ht₅, ht₄, huser, hargs₄, hargs₆]
  by_cases hpass : Given (loweredArgs argv) (str "-pass")
  · rw [if_pos hpass, if_pos (.inr hpass)]
  · by_cases hk : Given (loweredArgs argv) (str "-k")
    · rw [if_neg hpass, if_pos hk, if_pos (.inl hk)]
    · rw [if_neg hpass, if_neg hk, if_neg (by simp [PasswordGiven, hpass, hk])]

end Stages

theorem checkFlags_ok {s : SetupState H} (hok : s.checkFlags.ret = wolfcluSuccess) :
    s.checkFlags = s ∧ s.ret = wolfcluSuccess ∧ (s.keyCheck = true → s.ivCheck = true) ∧
      (s.decCheck = true → s.inCheck = true) ∧ ¬ (s.encCheck = true ∧ s.decCheck = true) := by
  have hne : ¬ wolfcluFatalError = wolfcluSuccess := by decide
  simp only [SetupState.checkFlags, SetupState.fail] at hok ⊢
  split_ifs at hok ⊢ with hret hboth hin hiv hkey
  · exact absurd hok hret
  · exact absurd hok hne
  · exact absurd hok hne
  · exact absurd hok hne
  · exact absurd hok hne
  · refine ⟨rfl, hok, fun hc => ?_, fun hd => ?_, hboth⟩
    · by_contra hno
      exact hkey ⟨hc, hno⟩
    · by_contra hno
      exact hin ⟨hno, hd⟩

theorem askPassword_explicit {s : SetupState H} (hkey : s.keyCheck = true) :
    s.askPassword env block keySize = s := by
  rw [SetupState.askPassword, if_neg (fun h => h.2.2 hkey)]

theorem askPassword_keyCheck (s : SetupState H) :
    (s.askPassword env block keySize).keyCheck = s.keyCheck := by
  simp only [SetupState.askPassword, SetupState.fail]
  split_ifs
  · rfl
  · split <;> rfl
  · rfl

theorem askInput_ok {s : SetupState H} (hok : (s.askInput env).ret = wolfcluSuccess) :
    s.ret = wolfcluSuccess ∧ ∃ input inCheck,
      s.askInput env = { s with input := input, inCheck := inCheck } ∧
        (s.encCheck = false → input = s.input) := by
  have hne : ¬ wolfcluFatalError = wolfcluSuccess := by decide
  simp only [SetupState.askInput, SetupState.fail] at hok ⊢
  split_ifs at hok ⊢ with hask
  · cases hprompt : env.promptInput with
    | none =>
      rw [hprompt] at hok
      exact absurd hok hne
    | some name =>
      exact ⟨hask.1, some name, true, rfl,
        fun henc => absurd (henc.symm.trans hask.2.2) Bool.false_ne_true⟩
  · exact ⟨hok, s.input, s.inCheck, rfl, fun _ => rfl⟩

theorem dropPassword_eq (s : SetupState H) :
    ∃ pwdKey, s.dropPassword block keySize = { s with pwdKey := pwdKey } := by
  rw [SetupState.dropPassword]
  split_ifs
  · exact ⟨_, rfl⟩
  · exact ⟨s.pwdKey, rfl⟩

theorem check_explicit {s : SetupState H} (hok : (s.check env block keySize).ret = wolfcluSuccess)
    (hkey : (s.check env block keySize).keyCheck = true) :
    s.ret = wolfcluSuccess ∧ s.keyCheck = true ∧ s.ivCheck = true ∧
      (s.decCheck = true → s.inCheck = true) ∧ ¬ (s.encCheck = true ∧ s.decCheck = true) ∧
      ∃ input inCheck pwdKey, s.check env block keySize
          = { s with input := input, inCheck := inCheck, pwdKey := pwdKey } ∧
        (s.encCheck = false → input = s.input) := by
  obtain ⟨pwdKey, hdrop⟩ := @dropPassword_eq _ block keySize
    ((s.checkFlags.askPassword env block keySize).askInput env)
  have hcheck : s.check env block keySize
      = { (s.checkFlags.askPassword env block keySize).askInput env with pwdKey := pwdKey } := hdrop
  rw [hcheck] at hok hkey
  obtain ⟨hret, input, inCheck, hask, hinput⟩ := askInput_ok hok
  rw [hask] at hkey
  have hkeyFlags : s.checkFlags.keyCheck = true := (askPassword_keyCheck _).symm.trans hkey
  have hskip := @askPassword_explicit _ _ env block keySize _ hkeyFlags
  rw [hskip] at hret hask hinput
  obtain ⟨hsame, hs, hiv, hin, hboth⟩ := checkFlags_ok hret
  rw [hsame] at hkeyFlags hask hinput
  refine ⟨hs, hkeyFlags, hiv hkeyFlags, hin, hboth, input, inCheck, pwdKey, ?_, hinput⟩
  rw [hcheck, hskip, hsame, hask]

def ExplicitOnly (env : SetupEnv σ H) (argv : Args) (run : SetupRun) : Prop :=
  run.derivations = 0 ∧ ∃ key iv, denotedKey env argv = some key ∧ denotedIv env argv = some iv ∧
    ∀ init ∈ run.inits, init.key = key ∧ init.iv = iv

def headerIv (env : SetupEnv σ H) (argv : Args) (block : Nat) : Option (List Byte) :=
  ((inputName argv).bind env.file).map fun file => (file.drop saltSize).take block

def KeepsExplicit (env : SetupEnv σ H) (argv : Args) (action : Action) : Prop :=
  let named := getAlgo (env.alloc .mode) argv env.uninitialised
  if usesEvp named.2.alg then
    ¬ PasswordGiven argv ∧ (env.evp named.2.alg).keyLength = (named.2.size.toNat + 7) / 8 ∧
      named.1.toNat ≤ (env.evp named.2.alg).ivLength
  else
    Encrypting argv action ∨
      (¬ PasswordGiven argv ∧ headerIv env argv named.1.toNat = denotedIv env argv)

instance (env : SetupEnv σ H) (argv : Args) (action : Action) :
    Decidable (KeepsExplicit env argv action) :=
  inferInstanceAs (Decidable
    (if usesEvp (getAlgo (env.alloc .mode) argv env.uninitialised).2.alg then _ ∧ _ ∧ _
      else _ ∨ (_ ∧ _)))

theorem key_prefix {k : List Byte} {n : Nat} (hlen : k.length = (keySize + 7) / 8)
    (hsize : 8 ≤ keySize) :
    (blit (List.replicate keySize 0) 0 k).take n = k ↔ n = (keySize + 7) / 8 := by
  have hbuffer : blit (List.replicate keySize 0) 0 k
      = k ++ List.replicate (keySize - k.length) 0 := by simp [blit]
  rw [hbuffer]
  refine ⟨fun h => ?_, fun h => by rw [List.take_left' (hlen.trans h.symm)]⟩
  have hcount := congrArg List.length h
  rw [List.length_take, List.length_append, List.length_replicate] at hcount
  omega

variable (env) in
structure ExplicitState (argv : Args) (block keySize : Nat) (s : SetupState H)
    (key iv : List Byte) : Prop where
  keyBuffer : s.key = blit (List.replicate keySize 0) 0 key
  keyLength : key.length = (keySize + 7) / 8
  size : 8 ≤ keySize ∧ 8 ∣ keySize
  ivBuffer : s.iv = iv
  ivLength : iv.length = block
  ivCheck : s.ivCheck = true
  keyType : s.keyType = if PasswordGiven argv then .password else .user
  keyDenoted : denotedKey env argv = some key
  ivDenoted : denotedIv env argv = some iv

section Cases
variable {argv : Args} {action : Action} {s : SetupState H} {key iv : List Byte}

theorem ExplicitState.only_iff (h : ExplicitState env argv block keySize s key iv) (run : SetupRun) :
    ExplicitOnly env argv run ↔
      run.derivations = 0 ∧ ∀ init ∈ run.inits, init.key = key ∧ init.iv = iv := by
  constructor
  · rintro ⟨hnone, key', iv', hk, hv, hall⟩
    rw [h.keyDenoted, Option.some.injEq] at hk
    rw [h.ivDenoted, Option.some.injEq] at hv
    exact ⟨hnone, hk ▸ hv ▸ hall⟩
  · rintro ⟨hnone, hall⟩
    exact ⟨hnone, key, iv, h.keyDenoted, h.ivDenoted, hall⟩

theorem ExplicitState.camellia_key (h : ExplicitState env argv block keySize s key iv) :
    s.key.take (keySize / 8) = key := by
  obtain ⟨hmin, hdvd⟩ := h.size
  rw [h.keyBuffer, key_prefix h.keyLength hmin]
  omega

theorem ExplicitState.evp_iff (h : ExplicitState env argv block keySize s key iv)
    {lib : EvpLib σ H} {enc : Bool} {run : SetupRun} (hrun : runEvp env lib keySize enc s = run)
    (hreach : run.inits ≠ []) :
    ExplicitOnly env argv run ↔
      ¬ PasswordGiven argv ∧ lib.keyLength = (keySize + 7) / 8 ∧ block ≤ lib.ivLength := by
  rw [runEvp] at hrun
  cases hfile : s.input.bind env.file with
  | none =>
    rw [hfile] at hrun
    exact absurd (hrun ▸ rfl) hreach
  | some contents =>
    rw [hfile] at hrun
    subst hrun
    obtain ⟨hcount, huser⟩ := evpCrypto_inits hreach
    rw [h.only_iff]
    dsimp only at hcount huser ⊢
    rw [hcount]
    by_cases hpass : PasswordGiven argv
    · simp [h.keyType, hpass]
    · have htype : s.keyType = .user := by rw [h.keyType, if_neg hpass]
      rw [huser htype, htype]
      have hiv : iv.take lib.ivLength = iv ↔ block ≤ lib.ivLength := by
        rw [List.take_eq_self_iff, h.ivLength]
      simp only [hpass, if_true, not_false_eq_true, true_and, List.mem_singleton,
        forall_eq, h.keyBuffer, key_prefix h.keyLength h.size.1, h.ivBuffer, hiv]

theorem runCamellia_reached {alg : Algo} {mode : List Byte} {enc : Bool} {run : SetupRun}
    (hrun : runCamellia env alg mode block keySize enc s = some run) (hreach : run.inits ≠ []) :
    run.keyCheck = s.keyCheck ∧ ∃ name, s.input = some name ∧
      if enc then
        ∃ r, camelliaEncrypt env.camellia env.camelliaFault alg mode s.pwdKey s.key keySize name
            (env.file name) env.randomIv env.randomSalt s.iv block s.ivCheck = some r ∧
          run.derivations = r.derivations ∧ run.inits = r.inits
      else
        ∃ contents, env.file name = some contents ∧
          run.derivations = (camelliaDecrypt env.camellia env.camelliaFault alg mode s.pwdKey s.key
            keySize contents s.iv block s.keyType).derivations ∧
          run.inits = (camelliaDecrypt env.camellia env.camelliaFault alg mode s.pwdKey s.key keySize
            contents s.iv block s.keyType).inits := by
  rw [runCamellia] at hrun
  by_cases hprompt : ¬ s.outCheck ∧ env.promptOutput = none
  · rw [if_pos hprompt] at hrun
    obtain rfl := Option.some.inj hrun
    exact absurd rfl hreach
  · rw [if_neg hprompt] at hrun
    cases hname : s.input with
    | none =>
      rw [hname] at hrun
      obtain rfl := Option.some.inj hrun
      exact absurd rfl hreach
    | some name =>
      rw [hname] at hrun
      cases enc with
      | true =>
        obtain ⟨r, hr, rfl⟩ := Option.map_eq_some_iff.mp hrun
        exact ⟨rfl, name, rfl, r, hr, rfl, rfl⟩
      | false =>
        cases hfile : env.file name with
        | none =>
          simp only [hfile, Bool.false_eq_true, if_false] at hrun
          obtain rfl := Option.some.inj hrun
          exact absurd rfl hreach
        | some contents =>
          simp only [hfile, Bool.false_eq_true, if_false] at hrun
          obtain rfl := Option.some.inj hrun
          exact ⟨rfl, name, rfl, contents, hfile, rfl, rfl⟩

theorem ExplicitState.encrypt_only (h : ExplicitState env argv block keySize s key iv)
    {alg : Algo} {mode : List Byte} {run : SetupRun}
    (hrun : runCamellia env alg mode block keySize true s = some run) (hreach : run.inits ≠ []) :
    ExplicitOnly env argv run := by
  obtain ⟨-, name, -, r, hr, hcount, hinits⟩ := runCamellia_reached hrun hreach
  rw [hinits] at hreach
  rw [h.ivCheck] at hr
  obtain ⟨hnone, hall⟩ := camelliaEncrypt_explicit hr hreach
  rw [h.only_iff, hcount, hinits]
  refine ⟨hnone, fun init hinit => ?_⟩
  rw [hall init hinit, h.camellia_key, h.ivBuffer, List.take_of_length_le h.ivLength.le]
  exact ⟨rfl, rfl⟩

theorem ExplicitState.decrypt_iff (h : ExplicitState env argv block keySize s key iv)
    (hinput : s.input = inputName argv) {alg : Algo} {mode : List Byte} {run : SetupRun}
    (hrun : runCamellia env alg mode block keySize false s = some run) (hreach : run.inits ≠ []) :
    ExplicitOnly env argv run ↔
      ¬ PasswordGiven argv ∧ headerIv env argv block = denotedIv env argv := by
  obtain ⟨-, name, hname, contents, hfile, hcount, hinits⟩ := runCamellia_reached hrun hreach
  rw [hinits] at hreach
  obtain ⟨hlarge, hderived, hall⟩ := camelliaDecrypt_inits hreach
  have hheader : headerIv env argv block = some ((contents.drop saltSize).take block) := by
    rw [headerIv, ← hinput, hname, Option.bind_some, hfile, Option.map_some]
  have hlen : ((contents.drop saltSize).take block).length = block := by
    rw [List.length_take, List.length_drop]
    omega
  rw [h.only_iff, hcount, hinits, hderived, hheader, h.ivDenoted]
  by_cases hpass : PasswordGiven argv
  · simp [h.keyType, hpass]
  · have huser : s.keyType = .user := by rw [h.keyType, if_neg hpass]
    have hread : (blit s.iv 0 ((contents.drop saltSize).take block)).take block
        = (contents.drop saltSize).take block := by
      rw [blit, List.take_zero, List.nil_append, List.take_left' hlen]
    obtain ⟨init, hinit⟩ := List.exists_mem_of_ne_nil _ hreach
    have hall' := hall (by rw [huser]; decide)
    rw [hread, h.camellia_key] at hall'
    simp only [huser, reduceCtorEq, if_false, hpass, not_false_eq_true, true_and, Option.some.injEq]
      at hinit hall' ⊢
    constructor
    · intro hall''
      rw [← (hall'' init hinit).2, hall' init hinit]
    · intro hsame init' hinit'
      rw [hall' init' hinit', hsame]
      exact ⟨rfl, rfl⟩

end Cases

theorem size_valid {block : Int} {st : AlgoState} (h : ValidAlgo block st) :
    8 ≤ st.size.toNat ∧ 8 ∣ st.size.toNat := by
  rcases h.sizes with ⟨-, hsize⟩ | ⟨-, hsize, -⟩ <;> rcases hsize with hsize | hsize | hsize <;>
    rw [hsize] <;> decide

theorem runCipher_reached {st : AlgoState} {s : SetupState H} {run : SetupRun}
    (hrun : runCipher env st block keySize s = some run) (hreach : run.inits ≠ []) :
    s.ret = wolfcluSuccess ∧ run.keyCheck = s.keyCheck ∧ (s.encCheck = true ∨ s.decCheck = true) ∧
      if usesEvp st.alg then runEvp env (env.evp st.alg) keySize s.encCheck s = run
      else runCamellia env st.alg (st.mode.getD []) block keySize s.encCheck s = some run := by
  rw [runCipher] at hrun
  by_cases hready : s.ret = wolfcluSuccess ∧ (s.encCheck ∨ s.decCheck)
  · rw [if_pos hready] at hrun
    split_ifs at hrun ⊢
    · obtain rfl := Option.some.inj hrun
      refine ⟨hready.1, ?_, hready.2, rfl⟩
      rw [runEvp]
      cases s.input.bind env.file <;> rfl
    · exact ⟨hready.1, (runCamellia_reached hrun hreach).1, hready.2, hrun⟩
  · rw [if_neg hready] at hrun
    obtain rfl := Option.some.inj hrun
    exact absurd rfl hreach

theorem setup_reached {argv : Args} {action : Action} {run : SetupRun}
    (h : setup env argv action = some run) (hreach : run.inits ≠ []) :
    ∃ block st, getAlgo (env.alloc .mode) (oldAlgo argv) env.uninitialised = (block, st) ∧
      0 ≤ block ∧ runCipher env st block.toNat st.size.toNat
        (((setupReader env block.toNat st.size.toNat).run 1 cryptOptions (SetupState.initial env
          (oldAlgo argv) action block.toNat st.size.toNat)).check env block.toNat st.size.toNat)
        = some run := by
  obtain ⟨block, st, halgo⟩ : ∃ block st,
      getAlgo (env.alloc .mode) (oldAlgo argv) env.uninitialised = (block, st) := ⟨_, _, rfl⟩
  refine ⟨block, st, halgo, ?_⟩
  simp only [setup, halgo] at h
  split_ifs at h with hhelp hblock halloc
  · obtain rfl := Option.some.inj h
    exact absurd rfl hreach
  · obtain rfl := Option.some.inj h
    exact absurd rfl hreach
  · obtain rfl := Option.some.inj h
    exact absurd rfl hreach
  · exact ⟨not_lt.mp hblock, h⟩

theorem explicit_state (laws : Documented env) {argv : Args} {action : Action} {algo : AlgoState}
    {block : Int} (hvalid : ValidAlgo block algo) {s : SetupState H}
    (hs : (setupReader env block.toNat algo.size.toNat).run 1 cryptOptions
      (SetupState.initial env argv action block.toNat algo.size.toNat) = s)
    (hok : s.ret = wolfcluSuccess) (hkey : s.keyCheck = true) (hiv : s.ivCheck = true) :
    ∃ key iv, ExplicitState env argv block.toNat algo.size.toNat s key iv := by
  have hread := options_read laws hs hok
  obtain ⟨k, hk, hlen, hbuffer⟩ := hread.material.key hkey
  obtain ⟨v, hv, hblock, hivbuffer⟩ := hread.material.iv hiv
  exact ⟨k, v, hbuffer, hlen, size_valid hvalid, hivbuffer, hblock, hiv, hread.keyType hkey, hk, hv⟩

theorem setup_explicit_iff (laws : Documented env) {argv : Args} {action : Action} {run : SetupRun}
    (h : setup env argv action = some run) (hkey : run.keyCheck = true) (hreach : run.inits ≠ []) :
    ExplicitOnly env (oldAlgo argv) run ↔ KeepsExplicit env (oldAlgo argv) action := by
  obtain ⟨block, algo, halgo, hblock, hcipher⟩ := setup_reached h hreach
  have hvalid := getAlgo_valid halgo hblock
  obtain ⟨s, hs⟩ : ∃ s, (setupReader env block.toNat algo.size.toNat).run 1 cryptOptions
    (SetupState.initial env (oldAlgo argv) action block.toNat algo.size.toNat) = s := ⟨_, rfl⟩
  rw [hs] at hcipher
  obtain ⟨hok, hcheck, hmode, hrun⟩ := runCipher_reached hcipher hreach
  rw [hcheck] at hkey
  obtain ⟨hret, hkey', hiv, hin, hboth, input, inCheck, pwdKey, heq, hinput⟩ :=
    check_explicit hok hkey
  have hread := options_read laws hs hret
  obtain ⟨key, iv, hstate⟩ := explicit_state laws hvalid hs hret hkey' hiv
  have hstate' : ExplicitState env (oldAlgo argv) block.toNat algo.size.toNat
      (s.check env block.toNat algo.size.toNat) key iv := by
    rw [heq]
    exact { hstate with }
  have henc : (s.check env block.toNat algo.size.toNat).encCheck
      = decide (Encrypting (oldAlgo argv) action) := by
    rw [heq]
    exact hread.encCheck
  simp only [KeepsExplicit, halgo]
  split_ifs at hrun ⊢ with hevp
  · exact hstate'.evp_iff hrun hreach
  · rw [henc] at hrun
    by_cases hencrypting : Encrypting (oldAlgo argv) action
    · rw [decide_eq_true hencrypting] at hrun
      exact iff_of_true (hstate'.encrypt_only hrun hreach) (.inl hencrypting)
    · rw [decide_eq_false hencrypting] at hrun henc
      have hinput' : (s.check env block.toNat algo.size.toNat).input = inputName (oldAlgo argv) := by
        rw [heq] at henc hmode ⊢
        have hencs : s.encCheck = false := henc
        have hdec : s.decCheck = true := by simpa [hencs] using hmode
        exact (hinput hencs).trans (hread.material.input (hin hdec))
      rw [hstate'.decrypt_iff hinput' hrun hreach, or_iff_right hencrypting]

end Options

theorem setup_returns {σ H : Type} (env : SetupEnv σ H) (argv : Args) (action : Action) :
    (setup env argv action).isSome := by
  have hcamellia (alg : Algo) (mode : List Byte) (block keySize : Nat) (enc : Bool)
      (s : SetupState H) : (runCamellia env alg mode block keySize enc s).isSome := by
    rw [runCamellia]
    split
    · rfl
    · split
      · rfl
      · split
        · rw [Option.isSome_map]
          exact camelliaEncrypt_returns _ _ _ _ _ _ _ _ _ _ _ _
        · split <;> rfl
  have hcipher (st : AlgoState) (block keySize : Nat) (s : SetupState H) :
      (runCipher env st block keySize s).isSome := by
    rw [runCipher]
    split_ifs
    · rfl
    · exact hcamellia _ _ _ _ _ _
    · rfl
  simp only [setup]
  split_ifs
  · rfl
  · rfl
  · rfl
  · exact hcipher _ _ _ _

def plainEnv : SetupEnv Byte Unit where
  evp _ := Evp.streamLib
  evpFault _ := false
  camellia := Cbc.xorLib
  camelliaFault _ := false
  alloc _ := true
  base16Decode := hexPairs
  file name := if name = str "msg" then some (str "hello") else none
  fileLength n := n
  digestByName _ := some ()
  sha256 := ()
  stdinLine := none
  promptPassword := none
  promptInput := none
  promptOutput := none
  uninitialised := .other 0
  generatedSalt := List.replicate 8 1
  randomIv := List.replicate 16 2
  randomSalt := List.replicate 8 3

theorem plainEnv_documented : Documented plainEnv where
  base16Length := hexPairs_length
  fileLength _ := .inl rfl

def keyArgs : Args :=
  [str "wolfssl", str "encrypt", str "aes-128-cbc", str "-in", str "msg", str "-out", str "enc",
    str "-key", str "000102030405060708090a0b0c0d0e0f", str "-iv",
    str "f0f1f2f3f4f5f6f7f8f9fafbfcfdfeff"]

theorem setup_explicit_keyArgs :
    ∃ run, setup plainEnv keyArgs .encrypt = some run ∧ ExplicitOnly plainEnv (oldAlgo keyArgs) run :=
  ⟨(setup plainEnv keyArgs .encrypt).get (setup_returns _ _ _), (Option.some_get _).symm,
    (setup_explicit_iff plainEnv_documented (Option.some_get _).symm (by decide) (by decide)).mpr
      (by decide)⟩

theorem keyArgs_with_password_derived :
    ∃ run, setup plainEnv (keyArgs ++ [str "-k", str "pw"]) .encrypt = some run ∧
      run.keyCheck = true ∧ run.inits ≠ [] ∧
      ¬ ExplicitOnly plainEnv (oldAlgo (keyArgs ++ [str "-k", str "pw"])) run :=
  ⟨(setup plainEnv (keyArgs ++ [str "-k", str "pw"]) .encrypt).get (setup_returns _ _ _),
    (Option.some_get _).symm, by decide, by decide, fun h => absurd h.1 (by decide)⟩

end WolfCLU
