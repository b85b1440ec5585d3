import WolfCLU.Tools.HexToBin
import WolfCLU.Tools.StreamHash

namespace WolfCLU
open CString Buffer

def wcMaxDigestSize : Nat := 64

structure DgstHmacEnv (σ : Type) where
  lib : HmacLib σ
  noMd5 : Bool
  alloc : Nat → Bool
  base16Decode : List Byte → Except Int (List Byte)
  ctxNew : Bool
  openFile : List Byte → Bool
  openStdout : Bool
  bioWrite : List Byte → Int

structure DgstHmacRun where
  ret : Int
  stdout : List Byte
  file : Option (List Byte)

def macKeyVal (hmacKey : List Byte) : Except Int (List Byte × Bool) :=
  match strstr (str ":") hmacKey with
  | none => .error wolfcluFatalError
  | some sep =>
    if strncmp hmacKey (str "hexkey:") 7 = 0 then .ok (hmacKey.drop (sep + 1), true)
    else if strncmp hmacKey (str "key:") 4 ≠ 0 then .error wolfcluFatalError
    else .ok (hmacKey.drop (sep + 1), false)

section Hmac
variable {σ : Type} (env : DgstHmacEnv σ)

def macKeyBytes (hmacKey : List Byte) : Except Int (List Byte) := do
  let (val, hex) ← macKeyVal hmacKey
  if val = [] then .error wolfcluFatalError
  else if hex then hexToBytes env.alloc env.base16Decode val
  else .ok val

def hmacFailed (ret : Int) : DgstHmacRun := { ret := ret, stdout := [], file := none }

def outputMac (outFile : Option (List Byte)) (mac : List Byte) : DgstHmacRun :=
  match outFile with
  | some name =>
    if env.openFile name then
      { ret := if env.bioWrite mac ≤ 0 then wolfcluFatalError else wolfcluSuccess
        stdout := []
        file := some (mac.take (env.bioWrite mac).toNat) }
    else hmacFailed wolfcluFatalError
  | none =>
    if env.openStdout then
      { ret := wolfcluSuccess, stdout := mac.flatMap Hex.lowerByte ++ [10], file := none }
    else hmacFailed wolfcluFatalError

def dgstHmac (dataBio : List BioRead) (hmacKey : Option (List Byte)) (hashType : HashType)
    (outFile : Option (List Byte)) : Option DgstHmacRun :=
  match hmacKey with
  | none => some (hmacFailed wolfcluFatalError)
  | some hmacKey =>
    match macKeyBytes env hmacKey with
    | .error ret => some (hmacFailed ret)
    | .ok key =>
      if env.ctxNew then do
        let (ret, digest) ← hmacHash env.lib env.noMd5 (some key) key.length hashType (some dataBio)
          { area := some (List.replicate wcMaxDigestSize 0), size := some wcMaxDigestSize }
        if ret = wolfcluSuccess then do
          let area ← digest.area
          let digestSz ← digest.size
          some (outputMac env outFile (area.take digestSz))
        else some (hmacFailed ret)
      else some (hmacFailed wolfcluFatalError)

end Hmac

section KeyText

theorem strstr_colon {form : List Byte} (h : (58 : Byte) ∉ form) (V : List Byte) :
    strstr (str ":") (form ++ 58 :: V) = some form.length := by
  rw [show str ":" = [58] from rfl, strstr_append_of_not_mem h]
  simp [strstr]

theorem macKeyVal_key (V : List Byte) : macKeyVal (str "key:" ++ V) = .ok (V, false) := by
  have hcolon := @strstr_colon (str "key") (by decide) V
  have hhex : ¬ str "hexkey:" <+: str "key:" ++ V := by
    rintro ⟨rest, hrest⟩
    cases hrest
  have hkey : strncmp (str "key:" ++ V) (str "key:") 4 = 0 :=
    (strncmp_whole (by decide)).mpr (List.prefix_append _ _)
  have hnot : ¬ strncmp (str "key:" ++ V) (str "hexkey:") 7 = 0 := fun h =>
    hhex ((strncmp_whole (by decide)).mp h)
  change strstr (str ":") (str "key:" ++ V) = some 3 at hcolon
  simp only [macKeyVal, hcolon, if_neg hnot, hkey, ne_eq, not_true_eq_false, if_false]
  rfl

theorem macKeyVal_hexkey (V : List Byte) : macKeyVal (str "hexkey:" ++ V) = .ok (V, true) := by
  have hcolon := @strstr_colon (str "hexkey") (by decide) V
  have hkey : strncmp (str "hexkey:" ++ V) (str "hexkey:") 7 = 0 :=
    (strncmp_whole (by decide)).mpr (List.prefix_append _ _)
  change strstr (str ":") (str "hexkey:" ++ V) = some 6 at hcolon
  simp only [macKeyVal, hcolon, if_pos hkey]
  rfl

theorem macKeyVal_cases (hmacKey : List Byte) :
    (∃ val, hmacKey = str "hexkey:" ++ val ∧ macKeyVal hmacKey = .ok (val, true)) ∨
      (∃ val, hmacKey = str "key:" ++ val ∧ macKeyVal hmacKey = .ok (val, false)) ∨
      macKeyVal hmacKey = .error wolfcluFatalError := by
  rcases hsep : strstr (str ":") hmacKey with _ | sep
  · exact Or.inr (Or.inr (by simp only [macKeyVal, hsep]))
  · by_cases hhex : strncmp hmacKey (str "hexkey:") 7 = 0
    · obtain ⟨val, rfl⟩ := (@strncmp_whole (str "hexkey:") _ (by decide)).mp hhex
      exact Or.inl ⟨val, rfl, macKeyVal_hexkey val⟩
    · by_cases hkey : strncmp hmacKey (str "key:") 4 = 0
      · obtain ⟨val, rfl⟩ := (@strncmp_whole (str "key:") _ (by decide)).mp hkey
        exact Or.inr (Or.inl ⟨val, rfl, macKeyVal_key val⟩)
      · exact Or.inr (Or.inr (by simp only [macKeyVal, hsep, if_neg hhex, ne_eq, hkey,
          not_false_eq_true, if_true]))

end KeyText

inductive KeyDenotes : List Byte → List Byte → Prop
  | text {V : List Byte} : V ≠ [] → KeyDenotes (str "key:" ++ V) V
  | hex {hex V : List Byte} : V ≠ [] → HexSpells hex V → KeyDenotes (str "hexkey:" ++ hex) V

structure DgstHmacLaws {σ : Type} (env : DgstHmacEnv σ)
    (absorbed : HashType → List Byte → σ → List Byte → Prop)
    (hmac : HashType → List Byte → List Byte → List Byte) : Prop where
  computes : env.lib.Computes absorbed hmac
  decode : ∀ hex, (env.base16Decode hex).toOption = hexPairs hex
  decodeFails : ∀ {hex e}, env.base16Decode hex = .error e → e < 0

section Forms
variable {σ : Type} {env : DgstHmacEnv σ}
  {absorbed : HashType → List Byte → σ → List Byte → Prop}
  {hmac : HashType → List Byte → List Byte → List Byte}

theorem macKeyBytes_key {V : List Byte} (hne : V ≠ []) :
    macKeyBytes env (str "key:" ++ V) = .ok V := by
  simp only [macKeyBytes, macKeyVal_key, bind, Except.bind, if_neg hne, Bool.false_eq_true,
    if_false]

theorem macKeyBytes_hexkey {hex : List Byte} (hne : hex ≠ []) :
    macKeyBytes env (str "hexkey:" ++ hex) = hexToBytes env.alloc env.base16Decode hex := by
  simp only [macKeyBytes, macKeyVal_hexkey, bind, Except.bind, if_neg hne, if_true]

theorem macKeyBytes_spelled (laws : DgstHmacLaws env absorbed hmac) {hex V : List Byte}
    (hne : V ≠ []) (hex_spells : HexSpells hex V) (halloc : env.alloc V.length = true) :
    macKeyBytes env (str "hexkey:" ++ hex) = .ok V := by
  have hpairs := hexPairs_iff.mpr hex_spells
  have hlen := hexPairs_length hpairs
  have hhex : hex ≠ [] := by
    rintro rfl
    cases hex_spells
    exact hne rfl
  have hhalf : hex.length / 2 = V.length := by omega
  rw [macKeyBytes_hexkey hhex, hexToBytes, hhalf, if_pos halloc]
  exact ok_of_toOption ((laws.decode hex).trans hpairs)

theorem macKeyBytes_malformed (laws : DgstHmacLaws env absorbed hmac) {hmacKey : List Byte}
    (h : ∀ V, ¬ KeyDenotes hmacKey V) : ∃ ret, Fails ret ∧ macKeyBytes env hmacKey = .error ret := by
  rcases macKeyVal_cases hmacKey with ⟨val, rfl, hval⟩ | ⟨val, rfl, hval⟩ | hval
  · by_cases hne : val = []
    · exact ⟨_, fails_fatal, by simp only [macKeyBytes, hval, bind, Except.bind, if_pos hne]⟩
    · rw [macKeyBytes_hexkey hne, hexToBytes]
      by_cases halloc : env.alloc (val.length / 2) = true
      · rw [if_pos halloc]
        rcases hdecode : env.base16Decode val with e | V
        · exact ⟨e, fails_of_neg (laws.decodeFails hdecode), rfl⟩
        · have hpairs : hexPairs val = some V := by
            rw [← laws.decode, hdecode]
            rfl
          have hspells := hexPairs_iff.mp hpairs
          have hV : V ≠ [] := by
            rintro rfl
            cases hspells
            exact hne rfl
          exact absurd (.hex hV hspells) (h V)
      · exact ⟨memoryE, fails_memory, by rw [if_neg halloc]⟩
  · by_cases hne : val = []
    · exact ⟨_, fails_fatal, by simp only [macKeyBytes, hval, bind, Except.bind, if_pos hne]⟩
    · exact absurd (.text hne) (h val)
  · exact ⟨_, fails_fatal, by simp only [macKeyBytes, hval, bind, Except.bind]⟩

theorem dgstHmac_keyed (laws : DgstHmacLaws env absorbed hmac) {hmacKey V : List Byte}
    (hkey : macKeyBytes env hmacKey = .ok V) (dataBio : List BioRead) (hashType : HashType)
    (outFile : Option (List Byte)) :
    (env.ctxNew = true ∧
        HmacDelivers env.lib env.noMd5 V hashType dataBio wcMaxDigestSize
          (hmac hashType V (wholeInput dataBio)) ∧
        dgstHmac env dataBio (some hmacKey) hashType outFile =
          some (outputMac env outFile (hmac hashType V (wholeInput dataBio)))) ∨
      (¬ (env.ctxNew = true ∧
          ∃ mac, HmacDelivers env.lib env.noMd5 V hashType dataBio wcMaxDigestSize mac) ∧
        ∃ ret, Fails ret ∧
          dgstHmac env dataBio (some hmacKey) hashType outFile = some (hmacFailed ret)) := by
  simp only [dgstHmac, hkey]
  by_cases hctx : env.ctxNew = true
  · have hfits : wcMaxDigestSize ≤ (List.replicate wcMaxDigestSize (0 : Byte)).length := by simp
    rw [if_pos hctx]
    rcases hmacHash_spec laws.computes env.noMd5 le_rfl hashType dataBio hfits with
      ⟨hdelivers, hrun⟩ | ⟨hnone, ret, hret, hrun⟩
    · rw [List.take_length] at hdelivers hrun
      have hmac : (blit (List.replicate wcMaxDigestSize 0) 0
          (hmac hashType V (wholeInput dataBio))).take
            (hmac hashType V (wholeInput dataBio)).length =
          hmac hashType V (wholeInput dataBio) := by
        have hwindow := @blit_window Byte (List.replicate wcMaxDigestSize 0)
          (hmac hashType V (wholeInput dataBio)) 0 (Nat.zero_le _)
        rwa [List.drop_zero] at hwindow
      refine Or.inl ⟨hctx, hdelivers, ?_⟩
      simp only [hrun, Option.bind_eq_bind, Option.bind_some, if_pos, hmac]
    · rw [List.take_length] at hnone
      refine Or.inr ⟨?_, ret, hret, ?_⟩
      · rintro ⟨_, mac, hmac⟩
        exact hnone mac hmac
      · simp only [hrun, Option.bind_eq_bind, Option.bind_some, if_neg hret]
  · refine Or.inr ⟨fun h => hctx h.1, wolfcluFatalError, fails_fatal, by rw [if_neg hctx]⟩

theorem dgstHmac_congr {hmacKey hmacKey' : List Byte}
    (h : macKeyBytes env hmacKey = macKeyBytes env hmacKey') (dataBio : List BioRead)
    (hashType : HashType) (outFile : Option (List Byte)) :
    dgstHmac env dataBio (some hmacKey) hashType outFile =
      dgstHmac env dataBio (some hmacKey') hashType outFile := by
  simp only [dgstHmac, h]

theorem dgstHmac_malformed (laws : DgstHmacLaws env absorbed hmac) {hmacKey : Option (List Byte)}
    (h : ∀ key V, hmacKey = some key → ¬ KeyDenotes key V) (dataBio : List BioRead)
    (hashType : HashType) (outFile : Option (List Byte)) :
    ∃ ret, Fails ret ∧ dgstHmac env dataBio hmacKey hashType outFile = some (hmacFailed ret) := by
  cases hmacKey with
  | none => exact ⟨_, fails_fatal, rfl⟩
  | some key =>
    obtain ⟨ret, hret, hkey⟩ := macKeyBytes_malformed laws fun V => h key V rfl
    exact ⟨ret, hret, by simp only [dgstHmac, hkey]⟩

theorem dgstHmac_forms_agree (env : DgstHmacEnv σ)
    (absorbed : HashType → List Byte → σ → List Byte → Prop)
    (hmac : HashType → List Byte → List Byte → List Byte) (laws : DgstHmacLaws env absorbed hmac)
    (dataBio : List BioRead) (hashType : HashType) (outFile : Option (List Byte)) :
    (∀ V hex, V ≠ [] → HexSpells hex V → env.alloc V.length = true →
      ∃ run, dgstHmac env dataBio (some (str "key:" ++ V)) hashType outFile = some run ∧
        dgstHmac env dataBio (some (str "hexkey:" ++ hex)) hashType outFile = some run ∧
        ((env.ctxNew = true ∧
            (∃ mac, HmacDelivers env.lib env.noMd5 V hashType dataBio wcMaxDigestSize mac) ∧
            run = outputMac env outFile (hmac hashType V (wholeInput dataBio))) ∨
          (¬ (env.ctxNew = true ∧
              ∃ mac, HmacDelivers env.lib env.noMd5 V hashType dataBio wcMaxDigestSize mac) ∧
            Fails run.ret ∧ run.stdout = [] ∧ run.file = none))) ∧
      ∀ hmacKey, (∀ key V, hmacKey = some key → ¬ KeyDenotes key V) →
        ∃ run, dgstHmac env dataBio hmacKey hashType outFile = some run ∧
          Fails run.ret ∧ run.stdout = [] ∧ run.file = none := by
  constructor
  · intro V hex hne hspells halloc
    have hkey : macKeyBytes env (str "key:" ++ V) = .ok V := macKeyBytes_key hne
    have hsame : macKeyBytes env (str "hexkey:" ++ hex) = macKeyBytes env (str "key:" ++ V) := by
      rw [hkey]
      exact macKeyBytes_spelled laws hne hspells halloc
    rw [dgstHmac_congr hsame]
    rcases dgstHmac_keyed laws hkey dataBio hashType outFile with
      ⟨hctx, hdelivers, hrun⟩ | ⟨hnone, ret, hret, hrun⟩
    · exact ⟨_, hrun, hrun, Or.inl ⟨hctx, ⟨_, hdelivers⟩, rfl⟩⟩
    · exact ⟨_, hrun, hrun, Or.inr ⟨hnone, hret, rfl, rfl⟩⟩
  · intro hmacKey h
    obtain ⟨ret, hret, hrun⟩ := dgstHmac_malformed laws h dataBio hashType outFile
    exact ⟨_, hrun, hret, rfl, rfl⟩

end Forms

def greetingHmacEnv : DgstHmacEnv (List Byte × List Byte) where
  lib := greetingHmacLib
  noMd5 := false
  alloc _ := true
  base16Decode hex :=
    match hexPairs hex with
    | some bytes => .ok bytes
    | none => .error badFuncArg
  ctxNew := true
  openFile _ := true
  openStdout := true
  bioWrite mac := mac.length

theorem greetingHmacEnv_laws :
    DgstHmacLaws greetingHmacEnv (fun _ key s data => s = (key, data)) (fun _ => greetingHmac) where
  computes := greetingHmacLib_computes
  decode hex := by
    simp only [greetingHmacEnv]
    cases hexPairs hex <;> rfl
  decodeFails := by
    intro hex e h
    simp only [greetingHmacEnv] at h
    split at h
    · cases h
    · cases h
      decide

def greetingHexKey : List Byte := str "0b0B0b0B0b0B0b0B0b0B0b0B0b0B0b0B"

theorem dgstHmac_forms_agree_greeting :
    ∃ run, dgstHmac greetingHmacEnv greetingReads (some (str "key:" ++ List.replicate 16 11)) .md5
          none = some run ∧
      dgstHmac greetingHmacEnv greetingReads (some (str "hexkey:" ++ greetingHexKey)) .md5 none =
        some run := by
  obtain ⟨run, htext, hhex, -⟩ := (dgstHmac_forms_agree greetingHmacEnv _ _ greetingHmacEnv_laws
    greetingReads .md5 none).1 (List.replicate 16 11) greetingHexKey (by decide)
    (hexPairs_iff.mp (by decide)) rfl
  exact ⟨run, htext, hhex⟩

end WolfCLU
