import WolfCLU.Foundation.CheckedMemory
import WolfCLU.SignVerify.SignRoundTrip

namespace WolfCLU
open CString CheckedMemory

inductive KeyPath where
  | signEd25519
  | signXmss
  | signXmssmt
  | verifyEd25519
  | verifyXmss
  | verifyXmssmt
  deriving DecidableEq, Repr

section Paths
variable {κ : Type} (lib : SignatureLib κ) (env : SignatureEnv)

def keyRun (path : KeyPath) (keyName : List Byte) (key : VerifyFile) (pubIn : Int) (inForm : Form) :
    Except Int κ :=
  match path with
  | .signEd25519 => ed25519SigningKey lib env key inForm
  | .signXmss => (xmssFamilySigningKey lib env .xmss (xmssName keyName) key).map Prod.fst
  | .signXmssmt => (xmssFamilySigningKey lib env .xmssmt (xmssmtName keyName) key).map Prod.fst
  | .verifyEd25519 => ed25519Key lib.toVerifyLib env.toVerifyEnv key pubIn inForm
  | .verifyXmss => xmssFamilyKey lib.toVerifyLib env.toVerifyEnv .xmss xmssParams key
  | .verifyXmssmt => xmssFamilyKey lib.toVerifyLib env.toVerifyEnv .xmssmt xmssmtParams key

namespace Checked

def keyDer (pubIn : Int) (inForm : Form) (keyBuf : List Byte) (fileSz : Nat) :
    Guarded Int (List Byte) :=
  if inForm = .pem then do
    let pem ← read keyBuf 0 fileSz
    let converted := keyPemToDer lib.toVerifyLib env.toVerifyEnv pem pubIn
    if converted.1 < 0 then
      if converted.1 = asnNoPemHeader then read keyBuf 0 fileSz else step (.error converted.1)
    else if converted.1 ≤ lib.pemSize (decide (pubIn ≠ 0)) pem then
      step (.ok (converted.2.take converted.1.toNat))
    else outside
  else if inForm = .raw then step (.ok (keyBuf.take fileSz))
  else read keyBuf 0 fileSz

def importPrivate (keyBuf : List Byte) : Guarded Int κ := do
  let priv ← read keyBuf 0 ed25519KeySize
  let pub ← read keyBuf ed25519KeySize ed25519KeySize
  step (succeeds (lib.importPrivate priv pub))

def ed25519Secret (inForm : Form) (keyBuf der : List Byte) : Guarded Int κ :=
  if inForm = .raw then importPrivate lib keyBuf
  else do
    let key ← step (succeeds (lib.privateDecode .ed25519 der))
    step (succeeds (lib.makePublic key))

def privateKeyDer (alg : SigAlg) (hi : Int) (privKey : VerifyFile) (inForm : Form) :
    Guarded Int (List Byte × List Byte) := do
  step (succeeds (lib.init alg, ()))
  step (succeeds (lib.initRng, ()))
  step (succeeds (if alg = .rsa then lib.rsaSetRng else 0, ()))
  let contents ← step (loadPrivateKey hi privKey)
  let der ← keyDer lib env 0 inForm (contents ++ [0]) contents.length
  step (.ok (contents, der))

def ed25519SigningKey (privKey : VerifyFile) (inForm : Form) : Guarded Int κ := do
  let (contents, der) ← privateKeyDer lib env .ed25519 (ed25519PrvKeySize * 16) privKey inForm
  let key ← ed25519Secret lib inForm (contents ++ [0]) der
  step (allocated env.outputAlloc)
  step (.ok key)

def ed25519PublicKey (inForm : Form) (keyBuf der : List Byte) : Guarded Int κ :=
  if inForm = .raw then do
    let pub ← read keyBuf 0 ed25519KeySize
    step (succeeds (lib.importPublic pub))
  else step (succeeds (lib.publicDecode .ed25519 der))

def ed25519PrivateKey (inForm : Form) (keyBuf der : List Byte) : Guarded Int κ := do
  let key ← if inForm = .raw then importPrivate lib keyBuf
    else step (succeeds (lib.privateDecode .ed25519 der))
  step (succeeds (lib.makePublic key))

def ed25519Key (keyPath : VerifyFile) (pubIn : Int) (inForm : Form) : Guarded Int κ := do
  step (succeeds (lib.init .ed25519, ()))
  let contents ← step (loadFile badFuncArg badFuncArg 0 maxFileSize keyPath)
  let der ← keyDer lib env pubIn inForm (contents ++ [0]) contents.length
  if pubIn = 1 then ed25519PublicKey lib inForm (contents ++ [0]) der
  else ed25519PrivateKey lib inForm (contents ++ [0]) der

def xmssFamilyKey (alg : SigAlg) (params : List (Nat × List Byte)) (pubKey : VerifyFile) :
    Guarded Int κ := do
  step (allocated env.keyAlloc)
  step (succeeds (lib.init alg, ()))
  let keyBuf ← step (loadFile outputFileError wolfcluFatalError 0 maxFileSize pubKey)
  step (allocated env.paramAlloc)
  let oid ← read keyBuf 0 xmssOidLen
  let param ← step (paramOfOid params (xmssOid oid))
  let key ← step (succeeds (lib.xmssSetParam param))
  let pub ← read keyBuf 0 keyBuf.length
  step (succeeds (lib.xmssImport key pub))

def keyRun (path : KeyPath) (keyName : List Byte) (key : VerifyFile) (pubIn : Int) (inForm : Form) :
    Guarded Int κ :=
  match path with
  | .signEd25519 => ed25519SigningKey lib env key inForm
  | .signXmss => step ((xmssFamilySigningKey lib env .xmss (xmssName keyName) key).map Prod.fst)
  | .signXmssmt => step ((xmssFamilySigningKey lib env .xmssmt (xmssmtName keyName) key).map Prod.fst)
  | .verifyEd25519 => ed25519Key lib env key pubIn inForm
  | .verifyXmss => xmssFamilyKey lib env .xmss xmssParams key
  | .verifyXmssmt => xmssFamilyKey lib env .xmssmt xmssmtParams key

end Checked

end Paths

def PemFits {κ : Type} (lib : VerifyLib κ) : Prop :=
  ∀ pub pem, 0 < lib.pemSize pub pem → (lib.pemDer pub pem).1 ≤ lib.pemSize pub pem

def LongEnough {κ : Type} (lib : SignatureLib κ) (env : SignatureEnv) (path : KeyPath)
    (key : VerifyFile) (pubIn : Int) (inForm : Form) : Prop :=
  let xmss (alg : SigAlg) : Prop :=
    env.keyAlloc = true → lib.init alg = 0 → Loads 0 maxFileSize key → env.paramAlloc = true →
      xmssOidLen ≤ key.loaded.length
  match path with
  | .signEd25519 => inForm = .raw → lib.init .ed25519 = 0 → lib.initRng = 0 →
      ∀ contents, loadPrivateKey (ed25519PrvKeySize * 16) key = .ok contents →
        2 * ed25519KeySize ≤ contents.length + 1
  | .verifyEd25519 => inForm = .raw → lib.init .ed25519 = 0 → Loads 0 maxFileSize key →
      (if pubIn = 1 then ed25519KeySize else 2 * ed25519KeySize) ≤ key.loaded.length + 1
  | .verifyXmss => xmss .xmss
  | .verifyXmssmt => xmss .xmssmt
  | .signXmss | .signXmssmt => True

section Reads
variable {κ : Type} {lib : SignatureLib κ} {env : SignatureEnv}

theorem read_contents (contents : List Byte) :
    (read (contents ++ [0]) 0 contents.length : Guarded Int (List Byte)) = step (.ok contents) := by
  rw [read_inside (by simp), List.drop_zero, List.take_left]

theorem keyPemToDer_fits (hpem : PemFits lib.toVerifyLib) {pubIn : Int} {pem : List Byte}
    (h : 0 ≤ (keyPemToDer lib.toVerifyLib env.toVerifyEnv pem pubIn).1) :
    (keyPemToDer lib.toVerifyLib env.toVerifyEnv pem pubIn).1
      ≤ lib.pemSize (decide (pubIn ≠ 0)) pem := by
  simp only [keyPemToDer] at h ⊢
  split_ifs at h ⊢ with hempty hsize hmax halloc hconverted
  · exact absurd h (not_le.mpr badFuncArg_negative)
  · exact absurd h (not_le.mpr fatal_negative)
  · exact hpem _ _ hsize
  · exact hpem _ _ hsize
  · exact absurd h (not_le.mpr memory_negative)
  · exact le_rfl

theorem keyDer_inside (hpem : PemFits lib.toVerifyLib) (pubIn : Int) (inForm : Form)
    (contents : List Byte) :
    Checked.keyDer lib env pubIn inForm (contents ++ [0]) contents.length =
      step (keyDer lib.toVerifyLib env.toVerifyEnv pubIn inForm contents) := by
  rw [Checked.keyDer, keyDer, read_contents]
  by_cases hform : inForm = .pem
  · rw [if_pos hform, if_pos hform, step_ok_bind]
    have hcases := keyPemToDer_cases lib.toVerifyLib env.toVerifyEnv contents pubIn
    simp only
    by_cases hneg : (keyPemToDer lib.toVerifyLib env.toVerifyEnv contents pubIn).1 < 0
    · have hkept : (keyPemToDer lib.toVerifyLib env.toVerifyEnv contents pubIn).2 = contents := by
        rcases hcases with h | h | h
        · exact h.2
        · omega
        · rw [h.1] at hneg
          omega
      rw [if_pos hneg, if_pos hneg, hkept]
      split_ifs <;> rfl
    · have hfit := keyPemToDer_fits hpem (not_lt.mp hneg)
      rw [if_neg hneg, if_neg hneg, if_pos hfit]
  · rw [if_neg hform, if_neg hform, List.take_left]
    split_ifs <;> rfl

theorem readMemory_inside {contents : List Byte} (heap : Nat → Byte) {n : Nat}
    (h : n ≤ contents.length + 1) :
    readMemory (contents ++ [0]) heap n = (contents ++ [0]).take n :=
  readMemory_take heap (by simpa using h)

theorem publicKey_inside (inForm : Form) {contents : List Byte} (der : List Byte)
    (hfit : inForm = .raw → ed25519KeySize ≤ contents.length + 1) :
    Checked.ed25519PublicKey lib inForm (contents ++ [0]) der =
      step (ed25519PublicKey lib.toVerifyLib env.toVerifyEnv inForm contents der) := by
  rw [Checked.ed25519PublicKey, ed25519PublicKey]
  by_cases hraw : inForm = .raw
  · rw [if_pos hraw, if_pos hraw, read_bind_inside (by simpa using hfit hraw),
      readMemory_inside _ (hfit hraw)]
    rfl
  · rw [if_neg hraw, if_neg hraw]

theorem publicKey_outside {contents : List Byte} (der : List Byte)
    (hshort : ¬ ed25519KeySize ≤ contents.length + 1) :
    Checked.ed25519PublicKey lib .raw (contents ++ [0]) der = outside := by
  rw [Checked.ed25519PublicKey, if_pos rfl, read_bind_outside (by simpa using hshort)]

theorem importPrivate_inside (heap : Nat → Byte) {contents : List Byte}
    (hfit : 2 * ed25519KeySize ≤ contents.length + 1) :
    Checked.importPrivate lib (contents ++ [0]) =
      step (succeeds (lib.importPrivate
        ((readMemory (contents ++ [0]) heap (2 * ed25519KeySize)).take ed25519KeySize)
        ((readMemory (contents ++ [0]) heap (2 * ed25519KeySize)).drop ed25519KeySize))) := by
  have hlen : (contents ++ [0]).length = contents.length + 1 := List.length_append
  rw [Checked.importPrivate, read_bind_inside (by omega), read_bind_inside (by omega),
    readMemory_inside heap hfit, List.take_take, List.drop_take, List.drop_zero]
  rfl

theorem importPrivate_outside {contents : List Byte}
    (hshort : ¬ 2 * ed25519KeySize ≤ contents.length + 1) :
    Checked.importPrivate lib (contents ++ [0]) = outside := by
  have hlen : (contents ++ [0]).length = contents.length + 1 := List.length_append
  rw [Checked.importPrivate]
  by_cases hpriv : ed25519KeySize ≤ contents.length + 1
  · rw [read_bind_inside (by omega), read_bind_outside (by omega)]
  · rw [read_bind_outside (by omega)]

theorem secret_inside (inForm : Form) {contents : List Byte} (der : List Byte)
    (hfit : inForm = .raw → 2 * ed25519KeySize ≤ contents.length + 1) :
    Checked.ed25519Secret lib inForm (contents ++ [0]) der =
      step (ed25519Secret lib env inForm contents der) := by
  rw [Checked.ed25519Secret, ed25519Secret]
  by_cases hraw : inForm = .raw
  · simp only [if_pos hraw, importPrivate_inside env.heap (hfit hraw)]
  · simp only [if_neg hraw]
    exact step_bind_congr fun _ _ => rfl

theorem secret_outside {contents : List Byte} (der : List Byte)
    (hshort : ¬ 2 * ed25519KeySize ≤ contents.length + 1) :
    Checked.ed25519Secret lib .raw (contents ++ [0]) der = outside := by
  rw [Checked.ed25519Secret, if_pos rfl, importPrivate_outside hshort]

theorem privateKey_inside (inForm : Form) {contents : List Byte} (der : List Byte)
    (hfit : inForm = .raw → 2 * ed25519KeySize ≤ contents.length + 1) :
    Checked.ed25519PrivateKey lib inForm (contents ++ [0]) der =
      step (ed25519PrivateKey lib.toVerifyLib env.toVerifyEnv inForm contents der) := by
  rw [Checked.ed25519PrivateKey, ed25519PrivateKey]
  by_cases hraw : inForm = .raw
  · simp only [if_pos hraw, importPrivate_inside env.heap (hfit hraw)]
    exact step_bind_congr fun _ _ => rfl
  · simp only [if_neg hraw]
    exact step_bind_congr fun _ _ => rfl

theorem privateKey_outside {contents : List Byte} (der : List Byte)
    (hshort : ¬ 2 * ed25519KeySize ≤ contents.length + 1) :
    Checked.ed25519PrivateKey lib .raw (contents ++ [0]) der = outside := by
  rw [Checked.ed25519PrivateKey, if_pos rfl, importPrivate_outside hshort, outside_bind]

theorem verifyEd25519_inside (hpem : PemFits lib.toVerifyLib) {key : VerifyFile} {pubIn : Int}
    {inForm : Form} (hfit : LongEnough lib env .verifyEd25519 key pubIn inForm) :
    Checked.ed25519Key lib env key pubIn inForm =
      step (ed25519Key lib.toVerifyLib env.toVerifyEnv key pubIn inForm) := by
  rw [Checked.ed25519Key, ed25519Key]
  refine step_bind_congr fun _ hstart => step_bind_congr fun contents hload => ?_
  obtain ⟨hloads, rfl⟩ := loadFile_ok_iff.mp hload
  have hinit : lib.init .ed25519 = 0 := (Prod.mk.inj (succeeds_ok_iff.mp hstart)).1
  rw [keyDer_inside hpem]
  refine step_bind_congr fun der _ => ?_
  by_cases hpub : pubIn = 1
  · rw [if_pos hpub, if_pos hpub]
    refine publicKey_inside inForm der fun hraw => ?_
    have := hfit hraw hinit hloads
    rwa [if_pos hpub] at this
  · rw [if_neg hpub, if_neg hpub]
    refine privateKey_inside inForm der fun hraw => ?_
    have := hfit hraw hinit hloads
    rwa [if_neg hpub] at this

theorem verifyEd25519_outside (hpem : PemFits lib.toVerifyLib) {key : VerifyFile} {pubIn : Int}
    {inForm : Form} (hshort : ¬ LongEnough lib env .verifyEd25519 key pubIn inForm) :
    Checked.ed25519Key lib env key pubIn inForm = outside := by
  simp only [LongEnough, Classical.not_imp] at hshort
  obtain ⟨rfl, hinit, hloads, hsize⟩ := hshort
  have hload : loadFile badFuncArg badFuncArg 0 maxFileSize key = .ok key.loaded :=
    loadFile_ok_iff.mpr ⟨hloads, rfl⟩
  have hder : keyDer lib.toVerifyLib env.toVerifyEnv pubIn .raw key.loaded = .ok key.loaded :=
    if_neg (by decide)
  rw [Checked.ed25519Key, hinit, hload]
  simp only [succeeds, if_true, step_ok_bind, keyDer_inside hpem, hder]
  by_cases hpub : pubIn = 1
  · rw [if_pos hpub] at hsize ⊢
    exact publicKey_outside _ hsize
  · rw [if_neg hpub] at hsize ⊢
    exact privateKey_outside _ hsize

theorem privateKeyDer_inside (hpem : PemFits lib.toVerifyLib) (alg : SigAlg) (hi : Int)
    (privKey : VerifyFile) (inForm : Form) :
    Checked.privateKeyDer lib env alg hi privKey inForm =
      step (privateKeyDer lib env alg hi privKey inForm) := by
  rw [Checked.privateKeyDer, privateKeyDer]
  refine step_bind_congr fun _ _ => step_bind_congr fun _ _ => step_bind_congr fun _ _ =>
    step_bind_congr fun contents _ => ?_
  rw [keyDer_inside hpem]
  exact step_bind_congr fun _ _ => rfl

theorem signEd25519_inside (hpem : PemFits lib.toVerifyLib) {key : VerifyFile} {pubIn : Int}
    {inForm : Form} (hfit : LongEnough lib env .signEd25519 key pubIn inForm) :
    Checked.ed25519SigningKey lib env key inForm = step (ed25519SigningKey lib env key inForm) := by
  rw [Checked.ed25519SigningKey, ed25519SigningKey, privateKeyDer_inside hpem]
  refine step_bind_congr ?_
  rintro ⟨contents, der⟩ hder
  simp only [privateKeyDer, bind_eq_ok] at hder
  obtain ⟨_, hinit, _, hrng, _, -, contents', hload, der', -, hpair⟩ := hder
  obtain ⟨rfl, rfl⟩ := Prod.mk.inj (Except.ok.inj hpair)
  have hsecret : Checked.ed25519Secret lib inForm (contents' ++ [0]) der' =
      step (ed25519Secret lib env inForm contents' der') := secret_inside inForm der' fun hraw =>
    hfit hraw (Prod.mk.inj (succeeds_ok_iff.mp hinit)).1 (Prod.mk.inj (succeeds_ok_iff.mp hrng)).1
      contents' hload
  simp only
  rw [hsecret]
  exact step_bind_congr fun _ _ => step_bind_congr fun _ _ => rfl

theorem signEd25519_outside (hpem : PemFits lib.toVerifyLib) {key : VerifyFile} {pubIn : Int}
    {inForm : Form} (hshort : ¬ LongEnough lib env .signEd25519 key pubIn inForm) :
    Checked.ed25519SigningKey lib env key inForm = outside := by
  simp only [LongEnough, Classical.not_imp, not_forall] at hshort
  obtain ⟨rfl, hinit, hrng, contents, hload, hsize⟩ := hshort
  have hder : privateKeyDer lib env .ed25519 (ed25519PrvKeySize * 16) key .raw
      = .ok (contents, contents) := by
    simp only [privateKeyDer, hinit, hrng, hload, succeeds]
    rfl
  rw [Checked.ed25519SigningKey, privateKeyDer_inside hpem, hder]
  simp only [step_ok_bind, secret_outside contents hsize, outside_bind]

section Xmss
variable {alg : SigAlg} {params : List (Nat × List Byte)} {key : VerifyFile}

theorem verifyXmss_inside
    (hfit : env.keyAlloc = true → lib.init alg = 0 → Loads 0 maxFileSize key → env.paramAlloc = true →
      xmssOidLen ≤ key.loaded.length) :
    Checked.xmssFamilyKey lib env alg params key =
      step (xmssFamilyKey lib.toVerifyLib env.toVerifyEnv alg params key) := by
  rw [Checked.xmssFamilyKey, xmssFamilyKey]
  refine step_bind_congr fun _ halloc => step_bind_congr fun _ hstart =>
    step_bind_congr fun contents hload => step_bind_congr fun _ hparam => ?_
  obtain ⟨hloads, rfl⟩ := loadFile_ok_iff.mp hload
  have hsize := hfit (allocated_ok_iff.mp halloc) (Prod.mk.inj (succeeds_ok_iff.mp hstart)).1 hloads
    (allocated_ok_iff.mp hparam)
  rw [read_bind_inside (by omega), readMemory_take env.heap hsize, List.drop_zero]
  refine step_bind_congr fun _ _ => step_bind_congr fun _ _ => ?_
  rw [read_bind_inside (by omega), List.drop_zero, List.take_length]

theorem verifyXmss_outside
    (hshort : ¬ (env.keyAlloc = true → lib.init alg = 0 → Loads 0 maxFileSize key →
      env.paramAlloc = true → xmssOidLen ≤ key.loaded.length)) :
    Checked.xmssFamilyKey lib env alg params key = outside := by
  simp only [Classical.not_imp] at hshort
  obtain ⟨halloc, hinit, hloads, hparam, hsize⟩ := hshort
  have hload : loadFile outputFileError wolfcluFatalError 0 maxFileSize key = .ok key.loaded :=
    loadFile_ok_iff.mpr ⟨hloads, rfl⟩
  rw [Checked.xmssFamilyKey, halloc, hinit, hload, hparam]
  simp only [allocated, succeeds, if_true, step_ok_bind]
  exact read_bind_outside (by omega) _

end Xmss

theorem key_reads_inside_iff (hpem : PemFits lib.toVerifyLib) (path : KeyPath) (keyName : List Byte)
    (key : VerifyFile) (pubIn : Int) (inForm : Form) :
    (Checked.keyRun lib env path keyName key pubIn inForm ≠ outside ↔
        LongEnough lib env path key pubIn inForm) ∧
      (LongEnough lib env path key pubIn inForm →
        Checked.keyRun lib env path keyName key pubIn inForm =
          step (keyRun lib env path keyName key pubIn inForm)) := by
  have hinside : LongEnough lib env path key pubIn inForm →
      Checked.keyRun lib env path keyName key pubIn inForm =
        step (keyRun lib env path keyName key pubIn inForm) := by
    intro hfit
    cases path with
    | signEd25519 => exact signEd25519_inside hpem hfit
    | verifyEd25519 => exact verifyEd25519_inside hpem hfit
    | verifyXmss => exact verifyXmss_inside hfit
    | verifyXmssmt => exact verifyXmss_inside hfit
    | signXmss => rfl
    | signXmssmt => rfl
  have houtside : ¬ LongEnough lib env path key pubIn inForm →
      Checked.keyRun lib env path keyName key pubIn inForm = outside := by
    intro hshort
    cases path with
    | signEd25519 => exact signEd25519_outside hpem hshort
    | verifyEd25519 => exact verifyEd25519_outside hpem hshort
    | verifyXmss => exact verifyXmss_outside hshort
    | verifyXmssmt => exact verifyXmss_outside hshort
    | signXmss => exact absurd trivial hshort
    | signXmssmt => exact absurd trivial hshort
  refine ⟨⟨fun h => ?_, fun hfit h => ?_⟩, hinside⟩
  · by_contra hshort
    exact h (houtside hshort)
  · exact outside_ne_step _ (h.symm.trans (hinside hfit))

end Reads

theorem echo_pemFits : PemFits echoLib.toVerifyLib := by
  intro _ _ h
  exact absurd h (show ¬ (0 : Int) < asnNoPemHeader by decide)

theorem key_reads_inside_raw :
    (Checked.keyRun echoLib echoEnv .signEd25519 [] (wholeFile (List.replicate 64 7)) 0 .raw ≠ outside ↔
        LongEnough echoLib echoEnv .signEd25519 (wholeFile (List.replicate 64 7)) 0 .raw) ∧
      (LongEnough echoLib echoEnv .signEd25519 (wholeFile (List.replicate 64 7)) 0 .raw →
        Checked.keyRun echoLib echoEnv .signEd25519 [] (wholeFile (List.replicate 64 7)) 0 .raw =
          step (keyRun echoLib echoEnv .signEd25519 [] (wholeFile (List.replicate 64 7)) 0 .raw)) :=
  key_reads_inside_iff echo_pemFits .signEd25519 [] _ 0 .raw

theorem short_raw_key_read_past_the_end :
    ¬ ∀ (κ : Type) (lib : SignatureLib κ) (env : SignatureEnv) (path : KeyPath)
      (keyName : List Byte) (key : VerifyFile) (pubIn : Int) (inForm : Form),
      PemFits lib.toVerifyLib → Checked.keyRun lib env path keyName key pubIn inForm ≠ outside := by
  intro h
  exact h _ echoLib echoEnv .verifyEd25519 [] (wholeFile (List.replicate 10 7)) 1 .raw echo_pemFits rfl

end WolfCLU
