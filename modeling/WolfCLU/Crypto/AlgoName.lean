import WolfCLU.Crypto.Algo

namespace WolfCLU
open CString TextLine

inductive CipherMode where
  | cbc
  | ctr
  deriving DecidableEq, Repr

inductive EvpCipher where
  | aes (size : Nat) (mode : CipherMode)
  | desCbc
  | desEde3Cbc
  deriving DecidableEq, Repr

def cipherTypeFromAlgo : Algo → Option EvpCipher
  | .aes128ctr => some (.aes 128 .ctr)
  | .aes192ctr => some (.aes 192 .ctr)
  | .aes256ctr => some (.aes 256 .ctr)
  | .aes128cbc => some (.aes 128 .cbc)
  | .aes192cbc => some (.aes 192 .cbc)
  | .aes256cbc => some (.aes 256 .cbc)
  | .descbc => some .desCbc
  | _ => none

inductive CipherFamily where
  | aes
  | des3
  | camellia
  deriving DecidableEq, Repr

def CipherFamily.name : CipherFamily → List Byte
  | .aes => str "aes"
  | .des3 => str "3des"
  | .camellia => str "camellia"

def CipherFamily.sizes : CipherFamily → List Int
  | .aes => [128, 192, 256]
  | .des3 => [56, 112, 168]
  | .camellia => [128, 192, 256]

def CipherFamily.block : CipherFamily → Int
  | .aes => 16
  | .des3 => 24
  | .camellia => 16

def CipherMode.name : CipherMode → List Byte
  | .cbc => str "cbc"
  | .ctr => str "ctr"

structure CipherName where
  family : CipherFamily
  size : Nat
  mode : CipherMode
  deriving DecidableEq, Repr

namespace CipherName

def supported : List CipherName :=
  [⟨.aes, 128, .cbc⟩, ⟨.aes, 192, .cbc⟩, ⟨.aes, 256, .cbc⟩, ⟨.aes, 128, .ctr⟩, ⟨.aes, 192, .ctr⟩,
    ⟨.aes, 256, .ctr⟩, ⟨.des3, 56, .cbc⟩, ⟨.des3, 112, .cbc⟩, ⟨.des3, 168, .cbc⟩,
    ⟨.camellia, 128, .cbc⟩, ⟨.camellia, 192, .cbc⟩, ⟨.camellia, 256, .cbc⟩]

variable (c : CipherName)

def sizeFirst : List Byte := c.family.name ++ dash :: decimal c.size ++ dash :: c.mode.name

def modeFirst : List Byte := c.family.name ++ dash :: c.mode.name ++ dash :: decimal c.size

def Spells (name : List Byte) : Prop := name = c.sizeFirst ∨ name = c.modeFirst

def algo : Algo :=
  match c.family, c.mode with
  | .aes, .cbc => bySize c.size .aes128cbc .aes192cbc .aes256cbc (.other 0)
  | .aes, .ctr => bySize c.size .aes128ctr .aes192ctr .aes256ctr (.other 0)
  | .des3, _ => .descbc
  | .camellia, _ => bySize c.size .camellia128cbc .camellia192cbc .camellia256cbc (.other 0)

def evp : Option EvpCipher :=
  match c.family with
  | .aes => some (.aes c.size c.mode)
  | .des3 => some .desEde3Cbc
  | .camellia => none

end CipherName

structure ReportsName (name : List Byte) (st : AlgoState) (c : CipherName) : Prop where
  supported : c ∈ CipherName.supported
  spells : c.Spells name
  alg : st.alg = c.algo
  size : st.size = c.size
  mode : st.mode = some c.mode.name
  evp : cipherTypeFromAlgo st.alg = c.evp

def AlgoClaim (name : List Byte) : Prop :=
  ∀ modeAlloc st ret st', parseAlgo modeAlloc name st = (ret, st') → 0 ≤ ret →
    ∃ c, ReportsName name st' c

def sizeAndMode (a b : List Byte) : List Byte × List Byte := if isDigit (a.headD 0) then (a, b) else (b, a)

def modeWords : List (List Byte) := [str "c", str "cb", str "cbc", str "ct", str "ctr"]

def Acceptable (name : List Byte) : Prop :=
  ∃ (family : CipherFamily) (a b : List Byte) (rest : List (List Byte)),
    strtok dash name = family.name :: a :: b :: rest ∧ atoi (sizeAndMode a b).1 ∈ family.sizes ∧
      (sizeAndMode a b).2 ∈ modeWords

section Tokens

theorem accepted_iff {names : List (List Byte)} {token : List Byte} (htoken : (0 : Byte) ∉ token)
    (hnames : ∀ name ∈ names, (0 : Byte) ∉ name) :
    accepted names token = true ↔ ∃ name ∈ names, token <+: name := by
  rw [accepted, List.any_eq_true]
  refine exists_congr fun name => and_congr_right fun hname => ?_
  rw [decide_eq_true_eq, strncmp_eq_zero, cstr_of_nul_free htoken,
    cstr_of_nul_free (hnames name hname), List.take_length, List.prefix_iff_eq_take]

theorem prefix_of_words {names : List (List Byte)} {token : List Byte}
    (h : ∃ name ∈ names, token <+: name) : token ∈ names.flatMap List.inits := by
  obtain ⟨name, hname, hpre⟩ := h
  exact List.mem_flatMap.mpr ⟨name, hname, (List.mem_inits token name).mpr hpre⟩

theorem accepted_mode {token : List Byte} (hne : token ≠ []) (htoken : (0 : Byte) ∉ token) :
    accepted acceptMode token = true ↔ token ∈ modeWords := by
  constructor
  · intro h
    have hmem := prefix_of_words ((accepted_iff htoken (by decide)).mp h)
    have hall : ∀ word ∈ acceptMode.flatMap List.inits, word ≠ [] → word ∈ modeWords := by
      decide
    exact hall token hmem hne
  · intro h
    have hall : ∀ word ∈ modeWords, accepted acceptMode word = true := by decide
    exact hall token h

theorem accepted_alg {token : List Byte} (htoken : (0 : Byte) ∉ token)
    (h : accepted acceptAlgs token = true) :
    (∃ family : CipherFamily, token = family.name) ∨
      (strncmp token (str "aes") 3 ≠ 0 ∧ strncmp token (str "3des") 4 ≠ 0 ∧
        strncmp token (str "camellia") 8 ≠ 0) := by
  have hmem := prefix_of_words ((accepted_iff htoken (by decide)).mp h)
  have hall : ∀ word ∈ acceptAlgs.flatMap List.inits,
      (word = CipherFamily.aes.name ∨ word = CipherFamily.des3.name ∨
        word = CipherFamily.camellia.name) ∨
      (strncmp word (str "aes") 3 ≠ 0 ∧ strncmp word (str "3des") 4 ≠ 0 ∧
        strncmp word (str "camellia") 8 ≠ 0) := by decide
  refine (hall token hmem).imp ?_ id
  rintro (rfl | rfl | rfl)
  · exact ⟨.aes, rfl⟩
  · exact ⟨.des3, rfl⟩
  · exact ⟨.camellia, rfl⟩

theorem family_accepted (family : CipherFamily) : accepted acceptAlgs family.name = true := by
  cases family <;> decide

end Tokens

section Parse

theorem selectAlgo_family (family : CipherFamily) (mode : List Byte) (st : AlgoState) :
    (selectAlgo family.name mode st).1 =
      if st.size ∈ family.sizes then family.block else wolfcluFatalError := by
  have haes : strncmp (str "aes") (str "aes") 3 = 0 := by decide
  have hdes : ¬ strncmp (str "3des") (str "aes") 3 = 0 := by decide
  have hdes' : strncmp (str "3des") (str "3des") 4 = 0 := by decide
  have hcam : ¬ strncmp (str "camellia") (str "aes") 3 = 0 := by decide
  have hcam' : ¬ strncmp (str "camellia") (str "3des") 4 = 0 := by decide
  have hcam'' : strncmp (str "camellia") (str "camellia") 8 = 0 := by decide
  cases family with
  | aes => simp [selectAlgo, CipherFamily.name, CipherFamily.sizes, CipherFamily.block, haes]
  | des3 => simp [selectAlgo, CipherFamily.name, CipherFamily.sizes, CipherFamily.block, hdes, hdes']
  | camellia =>
    simp [selectAlgo, CipherFamily.name, CipherFamily.sizes, CipherFamily.block, hcam, hcam', hcam'']

theorem family_block (family : CipherFamily) : ¬ family.block < 0 := by
  cases family <;> decide

theorem parseModeAndSize_accepts {modeAlloc : Bool} {tmpAlg sz mode : List Byte} {st : AlgoState}
    (h : 0 ≤ (parseModeAndSize modeAlloc tmpAlg sz mode st).1) :
    accepted acceptMode mode = true ∧
      0 ≤ (selectAlgo tmpAlg mode { st with size := atoi sz }).1 := by
  have hfatal : ¬ 0 ≤ wolfcluFatalError := by decide
  rw [parseModeAndSize] at h
  by_cases hmode : accepted acceptMode mode = true
  · refine ⟨hmode, ?_⟩
    by_contra hneg
    simp only [if_pos hmode, if_pos (not_le.mp hneg)] at h
    exact hneg h
  · rw [if_neg hmode] at h
    exact absurd h hfatal

theorem parseModeAndSize_family {family : CipherFamily} {sz mode : List Byte}
    (hsize : atoi sz ∈ family.sizes) (hmode : accepted acceptMode mode = true) (st : AlgoState) :
    parseModeAndSize true family.name sz mode st = (family.block,
      ⟨(selectAlgo family.name mode { st with size := atoi sz }).2, some mode, atoi sz⟩) := by
  have hblock := selectAlgo_family family mode { st with size := atoi sz }
  rw [if_pos hsize] at hblock
  simp only [parseModeAndSize, if_pos hmode, hblock, if_neg (family_block family), if_true]

theorem parseAlgo_words {name tmpAlg a b : List Byte} {rest : List (List Byte)}
    (htokens : strtok dash name = tmpAlg :: a :: b :: rest) (modeAlloc : Bool) (st : AlgoState) :
    parseAlgo modeAlloc name st = if accepted acceptAlgs tmpAlg then
      parseModeAndSize modeAlloc tmpAlg (sizeAndMode a b).1 (sizeAndMode a b).2 st
      else (wolfcluFatalError, st) := by
  simp only [parseAlgo, htokens, sizeAndMode]
  split_ifs <;> rfl

theorem parseAlgo_accepts {name : List Byte} (hname : (0 : Byte) ∉ name) {modeAlloc : Bool}
    {st : AlgoState} (h : 0 ≤ (parseAlgo modeAlloc name st).1) : Acceptable name := by
  have hfatal : ¬ 0 ≤ wolfcluFatalError := by decide
  rcases htokens : strtok dash name with _ | ⟨tmpAlg, _ | ⟨a, _ | ⟨b, rest⟩⟩⟩
  · rw [parseAlgo, htokens] at h
    exact absurd h hfatal
  · rw [parseAlgo, htokens] at h
    exact absurd h hfatal
  · rw [parseAlgo, htokens] at h
    exact absurd h hfatal
  · have hmem : ∀ token ∈ [tmpAlg, a, b], token ≠ [] ∧ (0 : Byte) ∉ token := by
      intro token htoken
      obtain ⟨hne, -, hsub⟩ := @of_mem_strtok dash name token (by
        rw [htokens]
        simp only [List.mem_cons, List.not_mem_nil, or_false] at htoken ⊢
        tauto)
      exact ⟨hne, fun h0 => hname (hsub h0)⟩
    rw [parseAlgo_words htokens] at h
    by_cases halg : accepted acceptAlgs tmpAlg = true
    · rw [if_pos halg] at h
      obtain ⟨hmode, hselect⟩ := parseModeAndSize_accepts h
      have hword : (sizeAndMode a b).2 ≠ [] ∧ (0 : Byte) ∉ (sizeAndMode a b).2 := by
        rw [sizeAndMode]
        split
        · exact hmem b (by simp)
        · exact hmem a (by simp)
      rcases accepted_alg (hmem tmpAlg (by simp)).2 halg with ⟨family, rfl⟩ | ⟨haes, hdes, hcam⟩
      · refine ⟨family, a, b, rest, htokens, ?_, (accepted_mode hword.1 hword.2).mp hmode⟩
        by_contra hsize
        rw [selectAlgo_family, if_neg hsize] at hselect
        exact hfatal hselect
      · simp only [selectAlgo, if_neg haes, if_neg hdes, if_neg hcam] at hselect
        exact absurd hselect hfatal
    · rw [if_neg halg] at h
      exact absurd h hfatal

theorem parseAlgo_acceptable {name : List Byte} (h : Acceptable name) (st : AlgoState) :
    0 ≤ (parseAlgo true name st).1 := by
  obtain ⟨family, a, b, rest, htokens, hsize, hmode⟩ := h
  have hall : ∀ word ∈ modeWords, accepted acceptMode word = true := by decide
  rw [parseAlgo_words htokens, if_pos (family_accepted family),
    parseModeAndSize_family hsize (hall _ hmode)]
  exact not_lt.mp (family_block family)

theorem spelled_words {c : CipherName} (hc : c ∈ CipherName.supported) {name : List Byte}
    (h : c.Spells name) : ∃ a b, strtok dash name = [c.family.name, a, b] ∧
      sizeAndMode a b = (decimal c.size, c.mode.name) := by
  have hall : ∀ c ∈ CipherName.supported,
      (strtok dash c.sizeFirst = [c.family.name, decimal c.size, c.mode.name] ∧
        sizeAndMode (decimal c.size) c.mode.name = (decimal c.size, c.mode.name)) ∧
      strtok dash c.modeFirst = [c.family.name, c.mode.name, decimal c.size] ∧
        sizeAndMode c.mode.name (decimal c.size) = (decimal c.size, c.mode.name) := by
    decide +kernel
  obtain ⟨hsizeFirst, hmodeFirst⟩ := hall c hc
  rcases h with rfl | rfl
  · exact ⟨_, _, hsizeFirst⟩
  · exact ⟨_, _, hmodeFirst⟩

theorem selectAlgo_spelled {c : CipherName} (hc : c ∈ CipherName.supported) (st : AlgoState) :
    (selectAlgo c.family.name c.mode.name { st with size := c.size }).2 = c.algo := by
  simp only [CipherName.supported, List.mem_cons, List.not_mem_nil, or_false] at hc
  rcases hc with rfl | rfl | rfl | rfl | rfl | rfl | rfl | rfl | rfl | rfl | rfl | rfl <;> rfl

theorem cipherTypeFromAlgo_spelled {c : CipherName} (hc : c ∈ CipherName.supported) :
    cipherTypeFromAlgo c.algo = c.evp ↔ c.family ≠ .des3 := by
  have hall : ∀ c ∈ CipherName.supported, cipherTypeFromAlgo c.algo = c.evp ↔ c.family ≠ .des3 := by
    decide
  exact hall c hc

theorem parseAlgo_spelled {c : CipherName} (hc : c ∈ CipherName.supported) {name : List Byte}
    (h : c.Spells name) (modeAlloc : Bool) (st : AlgoState) :
    parseAlgo modeAlloc name st = parseModeAndSize modeAlloc c.family.name (decimal c.size)
      c.mode.name st := by
  obtain ⟨a, b, htokens, hab⟩ := spelled_words hc h
  rw [parseAlgo_words htokens, if_pos (family_accepted c.family), hab]

theorem spelled_size {c : CipherName} (hc : c ∈ CipherName.supported) :
    atoi (decimal c.size) = c.size ∧ (c.size : Int) ∈ c.family.sizes ∧
      accepted acceptMode c.mode.name = true := by
  have hall : ∀ c ∈ CipherName.supported, atoi (decimal c.size) = c.size ∧
      (c.size : Int) ∈ c.family.sizes ∧ accepted acceptMode c.mode.name = true := by decide +kernel
  exact hall c hc

theorem parseModeAndSize_spelled {c : CipherName} (hc : c ∈ CipherName.supported) {modeAlloc : Bool}
    {st st' : AlgoState} {ret : Int}
    (h : parseModeAndSize modeAlloc c.family.name (decimal c.size) c.mode.name st = (ret, st'))
    (hret : 0 ≤ ret) : st' = ⟨c.algo, some c.mode.name, c.size⟩ := by
  have hmemory : ¬ 0 ≤ memoryE := by decide
  obtain ⟨hatoi, hsize, hmode⟩ := spelled_size hc
  have hblock := selectAlgo_family c.family c.mode.name { st with size := c.size }
  rw [if_pos hsize] at hblock
  cases modeAlloc with
  | false =>
    simp only [parseModeAndSize, if_pos hmode, hatoi, hblock, if_neg (family_block c.family),
      Bool.false_eq_true, if_false, Prod.mk.injEq] at h
    exact absurd (h.1 ▸ hret) hmemory
  | true =>
    rw [parseModeAndSize_family (hatoi ▸ hsize) hmode, hatoi, selectAlgo_spelled hc,
      Prod.mk.injEq] at h
    exact h.2.symm

theorem parseAlgo_exact {name : List Byte} (hname : (0 : Byte) ∉ name) :
    AlgoClaim name ↔
      (Acceptable name → ∃ c ∈ CipherName.supported, c.family ≠ .des3 ∧ c.Spells name) := by
  constructor
  · intro h hacceptable
    have hret := parseAlgo_acceptable hacceptable ⟨.other 0, none, 0⟩
    obtain ⟨c, hc⟩ := h true ⟨.other 0, none, 0⟩ _ _ rfl hret
    have hevp := hc.evp
    rw [hc.alg, cipherTypeFromAlgo_spelled hc.supported] at hevp
    exact ⟨c, hc.supported, hevp, hc.spells⟩
  · intro h modeAlloc st ret st' hparse hret
    have haccepts : 0 ≤ (parseAlgo modeAlloc name st).1 := by rwa [hparse]
    obtain ⟨c, hc, hfamily, hspells⟩ := h (parseAlgo_accepts hname haccepts)
    rw [parseAlgo_spelled hc hspells] at hparse
    obtain rfl := parseModeAndSize_spelled hc hparse hret
    exact ⟨c, hc, hspells, rfl, rfl, rfl, (cipherTypeFromAlgo_spelled hc).mpr hfamily⟩

end Parse

theorem parseAlgo_aes_name : AlgoClaim (str "aes-ctr-192") :=
  (parseAlgo_exact (by decide)).mpr fun _ =>
    ⟨⟨.aes, 192, .ctr⟩, by decide +kernel, by decide +kernel, Or.inr (by decide +kernel)⟩

theorem parseAlgo_loose_names :
    parseAlgo true (str "aes-128-c") ⟨.other 7, none, 0⟩ = (16, ⟨.other 7, some (str "c"), 128⟩) ∧
      parseAlgo true (str "aes-256bit-cbc-x") ⟨.other 7, none, 0⟩ =
        (16, ⟨.aes256cbc, some (str "cbc"), 256⟩) ∧
      parseAlgo true (str "3des-168-cbc") ⟨.other 7, none, 0⟩ =
        (24, ⟨.descbc, some (str "cbc"), 168⟩) ∧
      cipherTypeFromAlgo .descbc = some .desCbc ∧
      ¬ AlgoClaim (str "aes-128-c") ∧ ¬ AlgoClaim (str "aes-256bit-cbc-x") ∧
      ¬ AlgoClaim (str "3des-168-cbc") := by
  have hshort : parseAlgo true (str "aes-128-c") ⟨.other 7, none, 0⟩ =
      (16, ⟨.other 7, some (str "c"), 128⟩) := by decide
  have htrailing : parseAlgo true (str "aes-256bit-cbc-x") ⟨.other 7, none, 0⟩ =
      (16, ⟨.aes256cbc, some (str "cbc"), 256⟩) := by decide
  have hdes : parseAlgo true (str "3des-168-cbc") ⟨.other 7, none, 0⟩ =
      (24, ⟨.descbc, some (str "cbc"), 168⟩) := by decide
  have hspelled : ∀ c ∈ CipherName.supported, ¬ c.Spells (str "aes-128-c") ∧
      ¬ c.Spells (str "aes-256bit-cbc-x") ∧
      (c.Spells (str "3des-168-cbc") → c.evp = some .desEde3Cbc) := by
    unfold CipherName.Spells
    decide +kernel
  refine ⟨hshort, htrailing, hdes, rfl, ?_, ?_, ?_⟩
  · intro h
    obtain ⟨c, hc⟩ := h true _ _ _ hshort (by decide)
    exact (hspelled c hc.supported).1 hc.spells
  · intro h
    obtain ⟨c, hc⟩ := h true _ _ _ htrailing (by decide)
    exact (hspelled c hc.supported).2.1 hc.spells
  · intro h
    obtain ⟨c, hc⟩ := h true _ _ _ hdes (by decide)
    have hevp := hc.evp
    rw [(hspelled c hc.supported).2.2 hc.spells] at hevp
    exact absurd hevp (by decide)

end WolfCLU
