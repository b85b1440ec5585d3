import WolfCLU.X509.SignConfig

namespace WolfCLU.SignConfig
open Handles CString

def State.slot (s : State) : Resource → Option Handle
  | .certSign => s.ret.map Signer.self
  | .config => s.ret.bind Signer.config
  | .outDir => s.ret.bind Signer.outDir
  | .dataBase => s.ret.bind Signer.dataBase
  | .serialFile => s.ret.bind Signer.serialFile
  | .randFile => s.ret.bind Signer.randFile
  | .ca => s.ca.map Prod.fst
  | .keyFile => s.keyFile
  | .caKey => s.caKey.map Prod.fst

def signerSlots : List Resource :=
  [.outDir, .config, .dataBase, .serialFile, .randFile, .certSign]

def localSlots : List Resource := [.ca, .keyFile, .caKey]

def slots : List Resource := signerSlots ++ localSlots

theorem slots_nodup : slots.Nodup := by decide

theorem mem_slots (r : Resource) : r ∈ slots := by cases r <;> decide

def State.given (s : State) : Option (Option Handle × Option Handle) :=
  s.ret.map fun signer => (signer.ca, signer.caKey)

structure Frame (s s' : State) : Prop where
  conf : s'.conf = s.conf
  given : s'.given = s.given

inductive Move (r : Resource) (s : State) : State → Prop
  | kept {s' : State} : s'.heap = s.heap → s'.slot = s.slot → Frame s s' → Move r s s'
  | failed {signer : Signer} : s.ret = some signer → Move r s (s.free signer)
  | acquired {s' : State} : s.slot r = none → s'.heap = (s.heap.acquire r).2 →
      s'.slot r = some (s.heap.acquire r).1 → (∀ r' ≠ r, s'.slot r' = s.slot r') → Frame s s' →
      Move r s s'

structure Inv (s : State) : Prop where
  owned : Owned s.heap (slots.map s.slot)
  kinds : ∀ r h, s.slot r = some h → s.heap.acquired[h]? = some r
  given : ∀ given, s.given = some given → given = (none, none)
  conf : ∀ p, s.conf = some p → s.heap.acquired[p.1]? = some .config
  freed : s.ret = none → ∀ p, s.conf = some p → p.1 ∈ s.heap.released
  held : s.ret ≠ none → ∀ p, s.conf = some p → s.slot .config = some p.1
  live : s.ret ≠ none → ∀ h ∈ s.heap.released, s.heap.acquired[h]? = some .keyFile

section Moves
variable {s s' : State} {r : Resource}

theorem Frame.ret (h : Frame s s') : s'.ret = none ↔ s.ret = none := by
  have hgiven := h.given
  simp only [State.given] at hgiven
  rw [← Option.map_eq_none_iff, hgiven, Option.map_eq_none_iff]

theorem free_slot {signer : Signer} (r : Resource) :
    (s.free signer).slot r = if r ∈ signerSlots then none else s.slot r := by
  cases r <;> rfl

theorem Move.pending {r' : Resource} (h : Move r s s') (hne : r' ≠ r) (hnull : s.slot r' = none) :
    s'.slot r' = none := by
  cases h with
  | kept _ hslot _ => rw [hslot, hnull]
  | failed _ => rw [free_slot, hnull, ite_self]
  | acquired _ _ _ hsame _ => rw [hsame r' hne, hnull]

theorem certSignFree_slots {signer : Signer} (hret : s.ret = some signer)
    (hgiven : ∀ given, s.given = some given → given = (none, none)) :
    certSignFree signer s.heap = s.heap.releaseAll (signerSlots.map s.slot) := by
  have hnull := hgiven (signer.ca, signer.caKey) (by simp [State.given, hret])
  obtain ⟨hca, hkey⟩ := Prod.ext_iff.mp hnull
  simp only at hca hkey
  have hpointers : signerSlots.map s.slot = [signer.outDir, signer.config, signer.dataBase,
      signer.serialFile, signer.randFile] ++ [some signer.self] := by
    simp [signerSlots, State.slot, hret]
  rw [certSignFree, hca, hkey, ite_self, hpointers, ← Heap.releaseAll_null, ← Heap.releaseAll_null]
  rfl

theorem Inv.move (h : Inv s) (hm : Move r s s') : Inv s' := by
  cases hm with
  | kept hheap hslot hframe =>
    refine ⟨?_, ?_, ?_, ?_, ?_, ?_, ?_⟩
    · rw [hheap, hslot]
      exact h.owned
    · rw [hheap, hslot]
      exact h.kinds
    · rw [hframe.given]
      exact h.given
    · rw [hheap, hframe.conf]
      exact h.conf
    · rw [hheap, hframe.conf, hframe.ret]
      exact h.freed
    · rw [hslot, hframe.conf, ne_eq, hframe.ret]
      exact h.held
    · rw [hheap, ne_eq, hframe.ret]
      exact h.live
  | @failed signer hret =>
    have hheap : (s.free signer).heap = s.heap.releaseAll (signerSlots.map s.slot) :=
      certSignFree_slots hret h.given
    refine ⟨?_, ?_, nofun, ?_, ?_, fun hlive => absurd rfl hlive, fun hlive => absurd rfl hlive⟩
    · rw [hheap]
      exact h.owned.releaseAll
    · intro r' k hk
      rw [free_slot] at hk
      split_ifs at hk
      rw [hheap]
      exact h.kinds r' k hk
    · rw [hheap]
      exact h.conf
    · intro _ p hconf
      have hheld := h.held (by simp [hret]) p hconf
      rw [hheap, Heap.releaseAll_released, List.mem_append, List.reduceOption_mem_iff, ← hheld]
      exact .inr (List.mem_map_of_mem (by decide))
  | acquired hnull hheap hnew hsame hframe =>
    refine ⟨?_, ?_, ?_, ?_, ?_, ?_, ?_⟩
    · rw [hheap]
      exact h.owned.acquire_slot slots_nodup (mem_slots r) hnull hnew hsame
    · intro r' k hk
      rw [hheap]
      by_cases hr : r' = r
      · subst hr
        obtain rfl := Option.some.inj (hnew.symm.trans hk)
        exact Heap.acquired_new r'
      · rw [hsame r' hr] at hk
        exact Heap.acquired_kept (h.kinds r' k hk)
    · rw [hframe.given]
      exact h.given
    · intro p hconf
      rw [hframe.conf] at hconf
      rw [hheap]
      exact Heap.acquired_kept (h.conf p hconf)
    · rw [hheap, hframe.conf, hframe.ret]
      exact h.freed
    · intro hlive p hconf
      rw [hframe.conf] at hconf
      have hheld := h.held (fun hret => hlive (hframe.ret.mpr hret)) p hconf
      rw [hsame .config]
      · exact hheld
      · rintro rfl
        rw [hnull] at hheld
        cases hheld
    · intro hlive k hk
      rw [hheap] at hk ⊢
      exact Heap.acquired_kept (h.live (fun hret => hlive (hframe.ret.mpr hret)) k hk)

end Moves

section Stages
variable {env : SignConfigEnv} {sect : List Byte} {s : State} {r : Resource} {signer : Signer}
open State

theorem Move.refl : Move r s s := .kept rfl rfl ⟨rfl, rfl⟩

theorem setSigner_same (hret : s.ret = some signer) : s.setSigner signer = s := by
  rw [setSigner, ← hret]

theorem whenConf_move {f : Conf → Signer → State → State}
    (h : ∀ conf signer, s.ret = some signer → Move r s (f conf signer s)) : Move r s (s.whenConf f) := by
  unfold whenConf
  split
  · rename_i signer _ conf hret _
    exact h conf signer hret
  · exact .refl

theorem setSigner_move {signer' : Signer} (hret : s.ret = some signer)
    (hslot : (s.setSigner signer').slot = (s.setSigner signer).slot)
    (hgiven : (s.setSigner signer').given = (s.setSigner signer).given) :
    Move r s (s.setSigner signer') := by
  rw [setSigner_same hret] at hslot hgiven
  exact .kept rfl hslot ⟨rfl, hgiven⟩

theorem acquire_move {put : Handle → Signer} (hret : s.ret = some signer) (hnull : s.slot r = none)
    (hnew : ∀ h, (s.setSigner (put h)).slot r = some h)
    (hsame : ∀ h, ∀ r' ≠ r, (s.setSigner (put h)).slot r' = (s.setSigner signer).slot r')
    (hgiven : ∀ h, (s.setSigner (put h)).given = (s.setSigner signer).given) :
    Move r s (s.acquire r fun h => setSigner (put h)) := by
  rw [setSigner_same hret] at hsame hgiven
  exact .acquired hnull rfl (hnew _) (hsame _) ⟨rfl, hgiven _⟩

theorem releaseAll_null (s : State) : { s with heap := s.heap.releaseAll [none] } = s := by
  rw [← List.nil_append [none], Heap.releaseAll_null]
  simp [Heap.releaseAll]

theorem setOutDir_move (hnull : s.slot .outDir = none) : Move .outDir s (setOutDir env sect s) := by
  apply whenConf_move
  intro conf signer hret
  have hold : signer.outDir = none := by simpa [slot, hret] using hnull
  cases (value conf sect "new_certs_dir").or (value conf sect "certs") with
  | none => exact .failed hret
  | some dir =>
    simp only [hold, releaseAll_null]
    split
    · exact .failed hret
    · refine acquire_move hret hnull (fun h => rfl) ?_ (fun h => rfl)
      intro h r' hne
      cases r' <;> first | rfl | exact absurd rfl hne

theorem openDataBase_move (hnull : s.slot .dataBase = none) :
    Move .dataBase s (openDataBase env sect s) := by
  apply whenConf_move
  intro conf signer hret
  cases value conf sect "database" with
  | none => exact .refl
  | some name =>
    dsimp only
    split
    · refine acquire_move hret hnull (fun h => rfl) ?_ (fun h => rfl)
      intro h r' hne
      cases r' <;> first | rfl | exact absurd rfl hne
    · exact .failed hret

theorem loadCertificate_move (hnull : s.slot .ca = none) :
    Move .ca s (loadCertificate env sect s) := by
  apply whenConf_move
  intro conf signer hret
  cases value conf sect "certificate" with
  | none => exact .refl
  | some name =>
    dsimp only
    split
    · exact .failed hret
    · refine .acquired hnull rfl rfl ?_ ⟨rfl, rfl⟩
      intro r' hne
      cases r' <;> first | rfl | exact absurd rfl hne

theorem setUnique_move : Move r s (setUnique sect s) :=
  whenConf_move fun _ _ hret => setSigner_move hret rfl rfl

theorem openSerial_move (hnull : s.slot .serialFile = none) :
    Move .serialFile s (openSerial env sect s) := by
  apply whenConf_move
  intro conf signer hret
  have hold : signer.serialFile = none := by simpa [slot, hret] using hnull
  cases value conf sect "serial" with
  | none => exact .refl
  | some name =>
    simp only [hold, releaseAll_null]
    split
    · refine acquire_move hret hnull (fun h => rfl) ?_ (fun h => rfl)
      intro h r' hne
      cases r' <;> first | rfl | exact absurd rfl hne
    · exact .failed hret

theorem openRandFile_move (hnull : s.slot .randFile = none) :
    Move .randFile s (openRandFile env sect s) := by
  apply whenConf_move
  intro conf signer hret
  have hold : signer.randFile = none := by simpa [slot, hret] using hnull
  cases value conf sect "RANDFILE" with
  | none => exact .refl
  | some name =>
    simp only [hold, releaseAll_null]
    split
    · refine acquire_move hret hnull (fun h => rfl) ?_ (fun h => rfl)
      intro h r' hne
      cases r' <;> first | rfl | exact absurd rfl hne
    · refine setSigner_move hret ?_ rfl
      funext r'
      cases r' <;> first | rfl | exact hold.symm

theorem setDefaults_move : Move r s (setDefaults env sect s) :=
  whenConf_move fun _ _ hret => setSigner_move hret rfl rfl

theorem openKeyFile_move (hnull : s.slot .keyFile = none) :
    Move .keyFile s (openKeyFile env sect s) := by
  apply whenConf_move
  intro conf signer hret
  cases value conf sect "private_key" with
  | none => exact .refl
  | some name =>
    dsimp only
    split
    · refine .acquired hnull rfl rfl ?_ ⟨rfl, rfl⟩
      intro r' hne
      cases r' <;> first | rfl | exact absurd rfl hne
    · exact .failed hret

theorem readKey_move (hnull : s.slot .caKey = none) : Move .caKey s (readKey env sect s) := by
  apply whenConf_move
  intro conf signer hret
  split
  · refine .acquired hnull rfl rfl ?_ ⟨rfl, rfl⟩
    intro r' hne
    cases r' <;> first | rfl | exact absurd rfl hne
  · exact .refl

theorem setPolicy_move : Move r s (setPolicy sect s) :=
  whenConf_move fun _ _ hret => setSigner_move hret rfl rfl

theorem newConfig_move (hnull : s.slot .config = none) : Move .config s (newConfig env s) := by
  unfold newConfig whenSigner
  split
  · exact .refl
  · rename_i signer hret
    split
    · refine acquire_move hret hnull (fun h => rfl) ?_ (fun h => rfl)
      intro h r' hne
      cases r' <;> first | rfl | exact absurd rfl hne
    · exact .failed hret

theorem closeKeyFile_inv (h : Inv s) : Inv (closeKeyFile s) := by
  have hnull : (closeKeyFile s).slot .keyFile = none := rfl
  have hsame : ∀ r' ≠ Resource.keyFile, (closeKeyFile s).slot r' = s.slot r' := by
    intro r' hne
    cases r' <;> first | rfl | exact absurd rfl hne
  refine ⟨?_, ?_, h.given, h.conf, ?_, h.held, ?_⟩
  · exact h.owned.release_slot slots_nodup (mem_slots _) hnull hsame
  · intro r' k hk
    by_cases hr : r' = .keyFile
    · rw [hr, hnull] at hk
      cases hk
    · rw [hsame r' hr] at hk
      exact h.kinds r' k hk
  · intro hret p hconf
    exact List.mem_append_left _ (h.freed hret p hconf)
  · intro hlive k hk
    rcases List.mem_append.mp hk with hk | hk
    · exact h.live hlive k hk
    · rw [List.reduceOption_mem_iff, List.mem_singleton] at hk
      exact h.kinds .keyFile k hk.symm

theorem null_slot (r : Resource) : State.null.slot r = none := by
  cases r <;> rfl

theorem null_inv : Inv State.null := by
  refine ⟨List.Perm.refl _, ?_, nofun, nofun, nofun, nofun, nofun⟩
  intro r k hk
  rw [null_slot] at hk
  cases hk

theorem certSignNew_inv (env : SignConfigEnv) : Inv (certSignNew env) := by
  unfold certSignNew
  split
  · refine ⟨?_, ?_, ?_, nofun, nofun, nofun, nofun⟩
    · refine null_inv.owned.acquire_slot slots_nodup (mem_slots .certSign) rfl rfl ?_
      intro r' hne
      cases r' <;> first | rfl | exact absurd rfl hne
    · intro r k hk
      cases r <;> cases hk
      rfl
    · intro given hgiven
      exact (Option.some.inj hgiven).symm
  · exact null_inv

theorem loaded_slot {conf : Conf} {file : ConfFile} (hret : s.ret = some signer) :
    ({ s with
      ret := some { signer with csign := signer.csign.setConfig file }
      conf := signer.config.map (·, conf) } : State).slot = s.slot := by
  funext r
  cases r <;> simp [slot, hret]

theorem loadConfig_inv {config : List Byte} (h : Inv s) : Inv (loadConfig env config s) := by
  unfold loadConfig whenSigner
  split
  · exact h
  · rename_i signer hret
    split
    · exact h.move (r := .config) (.failed hret)
    · rename_i conf _
      have hslot := @loaded_slot s signer conf (confFile env.toCaEnv conf) hret
      have hconfig : ∀ p, signer.config.map (·, conf) = some p → s.slot .config = some p.1 := by
        intro p hp
        obtain ⟨k, hk, rfl⟩ := Option.map_eq_some_iff.mp hp
        simpa [slot, hret] using hk
      refine ⟨?_, ?_, ?_, ?_, nofun, ?_, ?_⟩
      · rw [hslot]
        exact h.owned
      · rw [hslot]
        exact h.kinds
      · intro given hgiven
        refine h.given given ?_
        rw [← hgiven]
        simp [State.given, hret]
      · intro p hp
        exact h.kinds .config p.1 (hconfig p hp)
      · intro _ p hp
        rw [hslot]
        exact hconfig p hp
      · intro _
        exact h.live (by simp [hret])

theorem loadConfig_pending {config : List Byte} (hnull : s.slot r = none) :
    (loadConfig env config s).slot r = none := by
  unfold loadConfig whenSigner
  split
  · exact hnull
  · rename_i signer hret
    split
    · rw [free_slot, hnull, ite_self]
    · rw [loaded_slot hret]
      exact hnull

end Stages

theorem Move.conf {s s' : State} {r : Resource} (h : Move r s s') : s'.conf = s.conf := by
  cases h with
  | kept _ _ hframe => exact hframe.conf
  | failed _ => rfl
  | acquired _ _ _ _ hframe => exact hframe.conf

structure Ready (conf : Option (Handle × Conf)) (todo : List Resource) (s : State) : Prop where
  inv : Inv s
  conf : s.conf = conf
  pending : ∀ r ∈ todo, s.slot r = none

def afterConfig : List Resource :=
  [.outDir, .dataBase, .ca, .serialFile, .randFile, .keyFile, .caKey]

section Run
variable {s s' : State} {conf : Option (Handle × Conf)} {todo : List Resource} {r : Resource}

theorem Ready.keep (h : Ready conf todo s) (hm : Move r s s') (hr : r ∉ todo) :
    Ready conf todo s' := by
  refine ⟨h.inv.move hm, hm.conf.trans h.conf, ?_⟩
  intro r' hr'
  apply hm.pending
  · rintro rfl
    exact hr hr'
  · exact h.pending r' hr'

theorem Ready.move (h : Ready conf (r :: todo) s) (hm : s.slot r = none → Move r s s')
    (hr : r ∉ todo) : Ready conf todo s' := by
  have hrest : Ready conf todo s :=
    ⟨h.inv, h.conf, fun r' hr' => h.pending r' (List.mem_cons_of_mem _ hr')⟩
  exact hrest.keep (hm (h.pending r List.mem_cons_self)) hr

theorem openConfig_ready (env : SignConfigEnv) (config : List Byte) :
    Ready (openConfig env config).conf afterConfig (openConfig env config) := by
  have hnew : ∀ r, r ≠ .certSign → (certSignNew env).slot r = none := by
    intro r hne
    unfold certSignNew
    split
    · cases r <;> first | rfl | exact absurd rfl hne
    · exact null_slot r
  have hmove := @newConfig_move env (certSignNew env) (hnew .config nofun)
  refine ⟨loadConfig_inv ((certSignNew_inv env).move hmove), rfl, ?_⟩
  intro r hr
  apply loadConfig_pending
  apply hmove.pending
  · rintro rfl
    exact absurd hr (by decide)
  · apply hnew
    rintro rfl
    exact absurd hr (by decide)

end Run

end WolfCLU.SignConfig
