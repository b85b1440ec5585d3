import WolfCLU.Crypto.ExplicitKey

namespace WolfCLU
open Buffer CString

section HexDigits

def HexKey (keyBytes : Nat) (digits d : List Byte) : Prop :=
  digits.length = keyBytes * 2 ∧ hexPairs digits = some d

theorem HexKey.length_eq {keyBytes : Nat} {digits d : List Byte} (h : HexKey keyBytes digits d) :
    d.length = keyBytes := by
  have := hexPairs_length h.2
  have := h.1
  omega

def keyDigits (contents : List Byte) : List Byte := contents.filter fun c => !isKeyBlank c

def HasBinaryByte (contents : List Byte) : Prop :=
  ∃ c ∈ contents, Hex.isDigit c = false ∧ isKeyBlank c = false

def KeyFileDenotes (keyBytes : Nat) (contents d : List Byte) : Prop :=
  HexKey keyBytes (keyDigits contents) d ∨
    (HasBinaryByte contents ∧ contents.length = keyBytes ∧ contents = d)

theorem keyFileText_cases (contents : List Byte) :
    (keyFileText contents = some (keyDigits contents) ∧ ¬ HasBinaryByte contents) ∨
      (keyFileText contents = none ∧ HasBinaryByte contents) := by
  rw [keyFileText]
  by_cases hall : contents.all fun c => isKeyBlank c || Hex.isDigit c
  · refine Or.inl ⟨if_pos hall, ?_⟩
    rintro ⟨c, hc, hdigit, hblank⟩
    have := List.all_eq_true.mp hall c hc
    simp [hdigit, hblank] at this
  · refine Or.inr ⟨if_neg hall, ?_⟩
    simp only [List.all_eq_true, not_forall] at hall
    obtain ⟨c, hc, hno⟩ := hall
    simp only [Bool.or_eq_true, not_or, Bool.not_eq_true] at hno
    exact ⟨c, hc, hno.2, hno.1⟩

theorem HexKey.not_binary {keyBytes : Nat} {contents d : List Byte}
    (h : HexKey keyBytes (keyDigits contents) d) : ¬ HasBinaryByte contents := by
  rintro ⟨c, hc, hdigit, hblank⟩
  have hmem : c ∈ keyDigits contents := List.mem_filter.mpr ⟨hc, by simp [hblank]⟩
  rw [hexPairs_digits h.2 c hmem] at hdigit
  cases hdigit

end HexDigits

section Loaders
variable {σ H : Type} {env : SetupEnv σ H} {block keySize : Nat}

variable (env) in
structure KeyLaws : Prop where
  base16Decode : ∀ hex, env.base16Decode hex = hexPairs hex
  fileLength : ∀ n, env.fileLength n = n ∨ env.fileLength n ≤ 0

variable (env) in
structure KeyMemory : Prop where
  alloc : ∀ site, env.alloc site = true
  fileLength : ∀ n, env.fileLength n = n

def KeyLoads (keyOut : List Byte) (Denoted : List Byte → Prop) (result : Int × List Byte) : Prop :=
  (result.1 = wolfcluSuccess ∧ ∃ d, Denoted d ∧ result.2 = blit keyOut 0 d) ∨
    (result.1 ≠ wolfcluSuccess ∧ result.2 = keyOut)

theorem keyLoads_fatal (keyOut : List Byte) (Denoted : List Byte → Prop) :
    KeyLoads keyOut Denoted (wolfcluFatalError, keyOut) := Or.inr ⟨fails_fatal, rfl⟩

theorem memoryE_fails : memoryE ≠ wolfcluSuccess := by decide

theorem loadHexKeyInto_loads (laws : KeyLaws env) (keyOut : List Byte) (keyBytes : Nat)
    (hex : List Byte) :
    KeyLoads keyOut (HexKey keyBytes hex) (loadHexKeyInto env keyOut keyBytes hex) := by
  simp only [loadHexKeyInto, hexToBin, laws.base16Decode]
  by_cases hlen : hex.length = keyBytes * 2
  · rw [if_neg (not_not.mpr hlen)]
    cases env.alloc .hexCopy with
    | false => exact Or.inr ⟨memoryE_fails, rfl⟩
    | true =>
      cases env.alloc .hexToBin with
      | false => exact Or.inr ⟨memoryE_fails, rfl⟩
      | true =>
        cases hpairs : hexPairs hex with
        | none => exact keyLoads_fatal _ _
        | some d =>
          have hkey : HexKey keyBytes hex d := ⟨hlen, hpairs⟩
          have htake : d.take keyBytes = d := List.take_of_length_le hkey.length_eq.le
          exact Or.inl ⟨rfl, d, hkey, congrArg (blit keyOut 0) htake⟩
  · rw [if_pos hlen]
    exact keyLoads_fatal _ _

theorem loadHexKeyInto_denoted (laws : KeyLaws env) (memory : KeyMemory env) (keyOut : List Byte)
    {keyBytes : Nat} {hex d : List Byte} (h : HexKey keyBytes hex d) :
    loadHexKeyInto env keyOut keyBytes hex = (wolfcluSuccess, blit keyOut 0 d) := by
  have htake : d.take keyBytes = d := List.take_of_length_le h.length_eq.le
  simp only [loadHexKeyInto, hexToBin, laws.base16Decode, memory.alloc, h.1, h.2, htake, ne_eq,
    not_true, if_false, if_true]

theorem loadKeyFile_loads (laws : KeyLaws env) (key : List Byte) (keyBytes : Nat) (name : List Byte) :
    KeyLoads key (fun d => ∃ contents, env.file name = some contents ∧ KeyFileDenotes keyBytes contents d)
      (loadKeyFile env key keyBytes name) := by
  rw [loadKeyFile]
  cases env.file name with
  | none => exact keyLoads_fatal _ _
  | some contents =>
    simp only [Option.some.injEq, exists_eq_left']
    by_cases hbad : env.fileLength contents.length ≤ 0 ∨ ¬ env.alloc .keyFile ∨
        contents.length < env.fileLength contents.length
    · rw [if_pos hbad]
      exact keyLoads_fatal _ _
    rw [if_neg hbad]
    have hlen : env.fileLength contents.length = contents.length := by
      rcases laws.fileLength contents.length with heq | hneg
      · exact heq
      · exact absurd (Or.inl hneg) hbad
    rw [hlen, Int.toNat_natCast, List.take_length]
    rcases keyFileText_cases contents with ⟨htext, -⟩ | ⟨htext, hbinary⟩
    · simp only [htext]
      cases env.alloc .keyString with
      | false => exact keyLoads_fatal _ _
      | true =>
        rcases loadHexKeyInto_loads laws key keyBytes (keyDigits contents) with ⟨hret, d, hd, hkey⟩ | hfail
        · exact Or.inl ⟨hret, d, Or.inl hd, hkey⟩
        · exact Or.inr hfail
    · simp only [htext]
      by_cases hbytes : contents.length = keyBytes
      · rw [if_neg (not_not.mpr hbytes)]
        exact Or.inl ⟨rfl, contents, Or.inr ⟨hbinary, hbytes, rfl⟩, rfl⟩
      · rw [if_pos hbytes]
        exact keyLoads_fatal _ _

theorem loadKeyFile_denoted (laws : KeyLaws env) (memory : KeyMemory env) (key : List Byte)
    {keyBytes : Nat} (hbytes : 0 < keyBytes) {name contents d : List Byte}
    (hfile : env.file name = some contents) (h : KeyFileDenotes keyBytes contents d) :
    loadKeyFile env key keyBytes name = (wolfcluSuccess, blit key 0 d) := by
  have hpos : 0 < contents.length := by
    rcases h with hhex | ⟨-, hlen, -⟩
    · have hdigits := hhex.1
      have hle : (keyDigits contents).length ≤ contents.length := List.length_filter_le _ _
      omega
    · omega
  have hgood : ¬ ((contents.length : Int) ≤ 0 ∨ ¬ env.alloc .keyFile = true ∨
      (contents.length : Int) < contents.length) := by
    rintro (hle | hno | hlt)
    · omega
    · exact hno (memory.alloc _)
    · omega
  simp only [loadKeyFile, hfile, memory.fileLength]
  rw [if_neg hgood, Int.toNat_natCast, List.take_length]
  rcases keyFileText_cases contents with ⟨htext, hno⟩ | ⟨htext, hbinary⟩
  · rcases h with hhex | ⟨hbinary, -⟩
    · simp only [htext, memory.alloc, if_true]
      exact loadHexKeyInto_denoted laws memory key hhex
    · exact absurd hbinary hno
  · rcases h with hhex | ⟨-, hlen, rfl⟩
    · exact absurd hbinary hhex.not_binary
    · simp only [htext, hlen, ne_eq, not_true, if_false]

end Loaders

section Options
variable {σ H : Type} (env : SetupEnv σ H) {block keySize : Nat}

def KeyDenoted (keyBytes : Nat) : CryptOption → Option (List Byte) → List Byte → Prop
  | .key, some hex, d => HexKey keyBytes hex d
  | .inkey, some name, d => ∃ contents, env.file name = some contents ∧ KeyFileDenotes keyBytes contents d
  | _, _, _ => False

structure KeyTaken (keyBytes : Nat) (s s' : SetupState H) (d : List Byte) : Prop where
  ret : s'.ret = wolfcluSuccess
  length : d.length = keyBytes
  key : s'.key = blit s.key 0 d
  keyCheck : s'.keyCheck = true
  keyType : s'.keyType = .user

structure KeyLeftUnset (block keySize : Nat) (s s' : SetupState H) : Prop where
  key : s'.key = s.key
  keyCheck : s'.keyCheck = s.keyCheck
  keyType : s'.keyType = s.keyType
  fails : s'.ret ≠ wolfcluSuccess
  stops : ∀ (table : List (LongOption CryptOption)) (optIndex : Int) (st : AlgoState),
    runCipher env st block keySize
        (((setupReader env block keySize).run optIndex table s').check env block keySize) =
      some (s'.stopped s'.ret)

variable {env}

theorem setup_stops {s : SetupState H} (h : s.ret ≠ wolfcluSuccess)
    (table : List (LongOption CryptOption)) (optIndex : Int) (st : AlgoState) :
    runCipher env st block keySize
        (((setupReader env block keySize).run optIndex table s).check env block keySize) =
      some (s.stopped s.ret) := by
  have hrun : (setupReader env block keySize).run optIndex table s = s :=
    OptReader.run_stopped (decide_eq_false h) table
  have hcheck : s.check env block keySize = s := by
    simp only [SetupState.check, SetupState.checkFlags, if_pos h, SetupState.askPassword,
      SetupState.askInput, SetupState.dropPassword, h, false_and, if_false]
  rw [hrun, hcheck, runCipher, if_neg (fun hcon => h hcon.1)]

theorem option_loads {opt : CryptOption} (hopt : opt = .key ∨ opt = .inkey) (laws : KeyLaws env)
    (s : SetupState H) (arg : Option (List Byte)) :
    (∃ d, KeyDenoted env ((keySize + 7) / 8) opt arg d ∧
      s.option env block keySize opt arg = { s with
        ret := wolfcluSuccess, key := blit s.key 0 d, keyCheck := true, keyType := .user }) ∨
      ∃ ret, ret ≠ wolfcluSuccess ∧ s.option env block keySize opt arg = { s with ret := ret } := by
  cases arg with
  | none => rcases hopt with rfl | rfl <;> exact Or.inr ⟨wolfcluFatalError, fails_fatal, rfl⟩
  | some arg =>
    rcases hopt with rfl | rfl
    · have hload := loadHexKeyInto_loads laws s.key ((keySize + 7) / 8) arg
      simp only [SetupState.option]
      rcases hload with ⟨hret, d, hd, hkey⟩ | ⟨hret, -⟩
      · rw [if_pos hret, hret, hkey]
        exact Or.inl ⟨d, hd, rfl⟩
      · rw [if_neg hret]
        exact Or.inr ⟨_, hret, rfl⟩
    · have hload := loadKeyFile_loads laws s.key ((keySize + 7) / 8) arg
      simp only [SetupState.option]
      rcases hload with ⟨hret, d, hd, hkey⟩ | ⟨hret, -⟩
      · rw [if_pos hret, hret, hkey]
        exact Or.inl ⟨d, hd, rfl⟩
      · rw [if_neg hret]
        exact Or.inr ⟨_, hret, rfl⟩

theorem KeyDenoted.length_eq {keyBytes : Nat} {opt : CryptOption} {arg : Option (List Byte)}
    {d : List Byte} (h : KeyDenoted env keyBytes opt arg d) : d.length = keyBytes := by
  unfold KeyDenoted at h
  split at h
  · exact h.length_eq
  · obtain ⟨contents, -, hhex | ⟨-, hlen, rfl⟩⟩ := h
    · exact hhex.length_eq
    · exact hlen
  · cases h

theorem option_denoted {opt : CryptOption} (laws : KeyLaws env) (memory : KeyMemory env)
    (hsize : 0 < keySize) (s : SetupState H) {arg : Option (List Byte)} {d : List Byte}
    (h : KeyDenoted env ((keySize + 7) / 8) opt arg d) :
    s.option env block keySize opt arg = { s with
      ret := wolfcluSuccess, key := blit s.key 0 d, keyCheck := true, keyType := .user } := by
  have hbytes : 0 < (keySize + 7) / 8 := by omega
  unfold KeyDenoted at h
  split at h
  · simp only [SetupState.option, loadHexKeyInto_denoted laws memory s.key h, if_true]
  · obtain ⟨contents, hfile, hdenotes⟩ := h
    simp only [SetupState.option, loadKeyFile_denoted laws memory s.key hbytes hfile hdenotes, if_true]
  · cases h

theorem keyOption_exact (laws : KeyLaws env) (hsize : 0 < keySize) {opt : CryptOption}
    (hopt : opt = .key ∨ opt = .inkey) (s : SetupState H) (arg : Option (List Byte)) :
    (∀ d, KeyTaken ((keySize + 7) / 8) s (s.option env block keySize opt arg) d →
        KeyDenoted env ((keySize + 7) / 8) opt arg d) ∧
      (KeyMemory env → ∀ d, KeyDenoted env ((keySize + 7) / 8) opt arg d →
        KeyTaken ((keySize + 7) / 8) s (s.option env block keySize opt arg) d) ∧
      ((¬ ∃ d, KeyTaken ((keySize + 7) / 8) s (s.option env block keySize opt arg) d) →
        KeyLeftUnset env block keySize s (s.option env block keySize opt arg)) := by
  refine ⟨?_, ?_, ?_⟩
  · intro d htaken
    rcases option_loads hopt laws s arg with ⟨d', hd', hstate⟩ | ⟨ret, hret, hstate⟩
    · have hkey := htaken.key
      rw [hstate] at hkey
      have hprefix := congrArg (List.take (0 + d.length)) hkey
      rw [blit_take_append (Nat.zero_le _), htaken.length, ← hd'.length_eq,
        blit_take_append (Nat.zero_le _)] at hprefix
      have hsame : d' = d := by simpa using hprefix
      exact hsame ▸ hd'
    · have hok := htaken.ret
      rw [hstate] at hok
      exact absurd hok hret
  · intro memory d hd
    rw [option_denoted laws memory hsize s hd]
    exact ⟨rfl, hd.length_eq, rfl, rfl, rfl⟩
  · intro hnone
    rcases option_loads hopt laws s arg with ⟨d, hd, hstate⟩ | ⟨ret, hret, hstate⟩
    · exact absurd ⟨d, hstate ▸ ⟨rfl, hd.length_eq, rfl, rfl, rfl⟩⟩ hnone
    · rw [hstate]
      exact ⟨rfl, rfl, rfl, hret, setup_stops hret⟩

end Options

theorem plainEnv_laws : KeyLaws plainEnv where
  base16Decode _ := rfl
  fileLength _ := Or.inl rfl

def freshState (keySize : Nat) : SetupState Unit := .initial plainEnv [] .encrypt 16 keySize

theorem keyOption_two_sources :
    KeyTaken 2 (freshState 16) ((freshState 16).option plainEnv 16 16 .key (some (str "0aFF")))
        [10, 255] ∧
      KeyTaken 5 (freshState 40) ((freshState 40).option plainEnv 16 40 .inkey (some (str "msg")))
        (str "hello") := by
  have memory : KeyMemory plainEnv := ⟨fun _ => rfl, fun _ => rfl⟩
  refine ⟨?_, ?_⟩
  · exact (@keyOption_exact _ _ plainEnv 16 16 plainEnv_laws (by decide) .key (Or.inl rfl) _
      (some (str "0aFF"))).2.1 memory _ ⟨by decide, by decide⟩
  · refine (@keyOption_exact _ _ plainEnv 16 40 plainEnv_laws (by decide) .inkey (Or.inr rfl) _
      (some (str "msg"))).2.1 memory _ ⟨str "hello", by decide, Or.inr ⟨?_, by decide, rfl⟩⟩
    exact ⟨104, by decide, by decide, by decide⟩

end WolfCLU
