import WolfCLU.X509.SignConfigValue

namespace WolfCLU.SignConfig
open Handles CString

def Signer.pointers (signer : Signer) : List (Option Handle) :=
  [some signer.self, signer.outDir, signer.config, signer.dataBase, signer.serialFile,
    signer.randFile, signer.ca, signer.caKey]

def OwnershipKept (s : State) : Prop :=
  ∀ h r, s.heap.acquired[h]? = some r → r ∈ [.config, .ca, .caKey] →
    match s.ret with
    | none => s.heap.released.count h = 1
    | some signer => s.heap.released.count h = 0 ∧ signer.pointers.count (some h) = 1

def KeyHeld (env : CaEnv) (conf : Conf) (sect : List Byte) : Prop :=
  ∀ name key, value conf sect "private_key" = some name → env.privateKey name = some key →
    key.kind = .rsa ∨ key.kind = .ec

section Release
variable {s : State} {h : Handle} {r : Resource} {signer : Signer}

theorem acquired_lt (hr : s.heap.acquired[h]? = some r) : h < s.heap.acquired.length :=
  (List.getElem?_eq_some_iff.mp hr).1

theorem cleanup_released (hinv : Inv s) (hfile : s.keyFile = none) (hret : s.ret = none)
    (hr : s.heap.acquired[h]? = some r) :
    (cleanup s).heap.released.count h = 1 + [s.conf.map Prod.fst].count (some h) := by
  have honce := hinv.owned.count (acquired_lt hr)
  have hslots : (slots.map s.slot).count (some h) =
      [s.ca.map Prod.fst, s.caKey.map Prod.fst].count (some h) := by
    have hmap : slots.map s.slot = [none, none, none, none, none, none, s.ca.map Prod.fst, none,
        s.caKey.map Prod.fst] := by
      simp [slots, signerSlots, localSlots, State.slot, hret, hfile]
    rw [hmap]
    simp [List.count_cons]
  have hcleanup : (cleanup s).heap.released = s.heap.released ++
      [s.conf.map Prod.fst, s.ca.map Prod.fst, s.caKey.map Prod.fst].reduceOption := by
    simp [cleanup, hret]
  rw [hcleanup, List.count_append, Owned.count_reduceOption, ← honce, hslots,
    ← List.singleton_append, List.count_append]
  omega

theorem released_not_config (hinv : Inv s) (hret : s.ret ≠ none)
    (hr : s.heap.acquired[h]? = some r) (hkind : r ∈ [.config, .ca, .caKey]) :
    s.heap.released.count h = 0 := by
  apply List.count_eq_zero_of_not_mem
  intro hmem
  have hlive := hinv.live hret h hmem
  rw [hr] at hlive
  obtain rfl := Option.some.inj hlive
  exact absurd hkind (by decide)

theorem getTypeFromPKey_held {key : PKey} :
    (getTypeFromPKey (some key) = .rsa ∨ getTypeFromPKey (some key) = .ecdsa) ↔
      key.kind = .rsa ∨ key.kind = .ec := by
  obtain ⟨kind, material⟩ := key
  cases kind <;> simp [getTypeFromPKey]

theorem kept_failed (hinv : Inv s) (hfile : s.keyFile = none) (hret : s.ret = none) :
    OwnershipKept (cleanup (setCA s)) ↔ s.conf = none := by
  have hsame : setCA s = s := by simp [setCA, State.whenSigner, hret]
  have hacquired : (cleanup s).heap.acquired = s.heap.acquired := by simp [cleanup, hret]
  have hnone : (cleanup s).ret = none := by rw [cleanup_ret, hret]
  rw [hsame]
  simp only [OwnershipKept, hnone, hacquired]
  constructor
  · intro hkept
    cases hconf : s.conf with
    | none => rfl
    | some p =>
      have hkind := hinv.conf p hconf
      have hone := hkept p.1 .config hkind (by decide)
      rw [cleanup_released hinv hfile hret hkind, hconf] at hone
      simp at hone
  · intro hconf h r hr _
    rw [cleanup_released hinv hfile hret hr, hconf]
    simp

def heldBefore (s : State) (signer : Signer) : List (Option Handle) :=
  [some signer.self, signer.outDir, signer.config, signer.dataBase, signer.serialFile,
    signer.randFile, s.ca.map Prod.fst]

theorem slots_count (hfile : s.keyFile = none) (hret : s.ret = some signer) :
    (slots.map s.slot).count (some h) =
      (heldBefore s signer).count (some h) + [s.caKey.map Prod.fst].count (some h) := by
  have hmap : slots.map s.slot = [signer.outDir, signer.config, signer.dataBase, signer.serialFile,
      signer.randFile, some signer.self, s.ca.map Prod.fst, none, s.caKey.map Prod.fst] := by
    simp [slots, signerSlots, localSlots, State.slot, hret, hfile]
  rw [hmap]
  simp only [heldBefore, List.count_cons, List.count_nil, beq_iff_eq, reduceCtorEq, if_false]
  omega

theorem setCA_held (hinv : Inv s) (hret : s.ret = some signer) :
    (setCA s).heap = s.heap ∧ ∃ signer', (setCA s).ret = some signer' ∧
      signer'.pointers = heldBefore s signer ++
        [s.caKey.bind fun p => if p.2.kind = .rsa ∨ p.2.kind = .ec then some p.1 else none] := by
  have hgiven := hinv.given (signer.ca, signer.caKey) (by simp [State.given, hret])
  obtain ⟨hca, hkey⟩ := Prod.ext_iff.mp hgiven
  simp only at hca hkey
  constructor
  · simp [setCA, State.whenSigner, hret, hca, hkey, Heap.releaseAll]
  · simp only [setCA, State.whenSigner, hret]
    refine ⟨_, rfl, ?_⟩
    cases hcaKey : s.caKey with
    | none => simp [Signer.pointers, heldBefore, hca, hkey]
    | some p =>
      simp [Signer.pointers, heldBefore, hca, hkey, getTypeFromPKey_held]

theorem kept_returned (hinv : Inv s) (hfile : s.keyFile = none) (hret : s.ret = some signer) :
    OwnershipKept (cleanup (setCA s)) ↔
      ∀ p, s.caKey = some p → p.2.kind = .rsa ∨ p.2.kind = .ec := by
  obtain ⟨hheap, signer', hreturned, hpointers⟩ := setCA_held hinv hret
  have hcleanup : cleanup (setCA s) = setCA s := by simp [cleanup, hreturned]
  rw [hcleanup]
  simp only [OwnershipKept, hheap, hreturned, hpointers, List.count_append]
  constructor
  · intro hkept p hcaKey
    by_contra hkind
    have hacquired := hinv.kinds .caKey p.1 (by simp [State.slot, hcaKey])
    obtain ⟨hzero, hone⟩ := hkept p.1 .caKey hacquired (by decide)
    have honce := hinv.owned.count (acquired_lt hacquired)
    rw [hzero, slots_count hfile hret, hcaKey] at honce
    rw [hcaKey, Option.bind_some, if_neg hkind] at hone
    simp only [Option.map_some, List.count_cons_self, List.count_nil] at honce
    simp only [List.count_cons, List.count_nil] at hone
    simp at hone
    omega
  · intro hkind h r hr htracked
    have hzero := released_not_config hinv (by simp [hret]) hr htracked
    have honce := hinv.owned.count (acquired_lt hr)
    rw [hzero, slots_count hfile hret] at honce
    refine ⟨hzero, ?_⟩
    have hheld : (s.caKey.bind fun p => if p.2.kind = .rsa ∨ p.2.kind = .ec then some p.1 else none) =
        s.caKey.map Prod.fst := by
      cases hcaKey : s.caKey with
      | none => rfl
      | some p => simp [hkind p hcaKey]
    rw [hheld]
    omega

end Release

section Runs
variable {config sect : List Byte}

theorem kept_refused {env : SignConfigEnv} (h : ∀ conf, ¬ Loads env config conf) :
    OwnershipKept (readSignConfig env config sect) := by
  obtain ⟨hret, hconf⟩ := openConfig_refused h
  have hready := (@readSettings_spec env sect _ _ (openConfig_ready env config)).1
  rw [readSignConfig, kept_failed hready.inv (hready.pending .keyFile (by decide))]
  · rw [hready.conf, hconf]
  · rw [readSettings_null hconf, hret]

theorem kept_loaded {env : SignConfigEnv} {conf : Conf} (h : Loads env config conf) :
    OwnershipKept (readSignConfig env config sect) ↔
      SettingsAccepted env.toCaEnv conf sect ∧ KeyHeld env.toCaEnv conf sect := by
  obtain ⟨k, hconf, hopened⟩ := openConfig_loads h
  obtain ⟨hready, hspec⟩ := @readSettings_spec env sect _ _ (openConfig_ready env config)
  have hfile := hready.pending .keyFile (by decide)
  have hview := hspec k conf hconf
  rw [hopened, Option.bind_some] at hview
  rw [← @settingsView_accepted sect env.toCaEnv conf
    (CertSign.new.setConfig (confFile env.toCaEnv conf), none, none), ← hview, readSignConfig]
  cases hret : (readSettings env sect (openConfig env config)).ret with
  | none =>
    rw [kept_failed hready.inv hfile hret, hready.conf, hconf, State.view, hret]
    simp
  | some signer =>
    rw [kept_returned hready.inv hfile hret]
    have hkey : (readSettings env sect (openConfig env config)).caKey.map Prod.snd =
        (value conf sect "private_key").bind env.privateKey := by
      rw [State.view, hret] at hview
      exact settingsView_key hview.symm
    have hreturned : (readSettings env sect (openConfig env config)).view ≠ none := by
      simp [State.view, hret]
    constructor
    · intro hkind
      refine ⟨hreturned, ?_⟩
      intro name key hname hread
      rw [hname, Option.bind_some, hread, Option.map_eq_some_iff] at hkey
      obtain ⟨p, hp, rfl⟩ := hkey
      exact hkind p hp
    · rintro ⟨-, hheld⟩ p hp
      rw [hp, Option.map_some, eq_comm, Option.bind_eq_some_iff] at hkey
      obtain ⟨name, hname, hread⟩ := hkey
      exact hheld name p.2 hname hread

theorem readSignConfig_ownership_iff (env : SignConfigEnv) (config sect : List Byte) :
    OwnershipKept (readSignConfig env config sect) ↔ ∀ conf, Loads env config conf →
      SettingsAccepted env.toCaEnv conf sect ∧ KeyHeld env.toCaEnv conf sect := by
  constructor
  · intro hkept conf h
    exact (kept_loaded h).mp hkept
  · intro h
    by_cases hloads : ∃ conf, Loads env config conf
    · obtain ⟨conf, hconf⟩ := hloads
      exact (kept_loaded hconf).mpr (h conf hconf)
    · exact kept_refused fun conf hconf => hloads ⟨conf, hconf⟩

end Runs

def bareConfig : SignConfigEnv where
  dualAlg := false
  signerAlloc := true
  outAlloc := true
  fileOpens _ := true
  dataBaseOpens _ := true
  serialOpens _ := true
  loadConf _ := some fun _ _ => none
  confNumber _ _ _ := none
  confPairs _ _ := none
  certificatePem _ := none
  certificateDer _ := none
  privateKey _ := none
  requestPem _ := none
  requestDer _ := none
  setVersion _ := true
  confAlloc := true
  randOpens _ := true

theorem config_released_twice :
    ¬ OwnershipKept (readSignConfig bareConfig (str "ca.conf") (str "ca")) := by
  intro hkept
  have htwice : (readSignConfig bareConfig (str "ca.conf") (str "ca")).heap.released.count 1 = 1 :=
    hkept 1 .config rfl (by decide)
  exact absurd htwice (by decide)

end WolfCLU.SignConfig
