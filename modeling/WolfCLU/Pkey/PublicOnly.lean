import WolfCLU.Pkey.KeyCommand
import WolfCLU.SignVerify.DgstRoundTrip
import WolfCLU.Tools.GetOptRuns

namespace WolfCLU
open CString Function

section Output
variable {ρ κ σ τ π π' : Type} {env : PkeyEnv τ} {lib : PkeyLib ρ κ σ} {pub : ρ → π}
  {ecPub : κ → π'}

structure PublicHalf (lib : PkeyLib ρ κ σ) (pub : ρ → π) (ecPub : κ → π') : Prop where
  pkeyId : FactorsThrough lib.pkeyId pub
  rsaPem : FactorsThrough (lib.rsaPem false) pub
  rsaDer : FactorsThrough lib.rsaPublicDer pub
  ecKey : FactorsThrough (fun pkey => (lib.ecKey pkey).map ecPub) pub
  i2d : FactorsThrough (lib.i2d false) pub
  ecPem : FactorsThrough (lib.ecPem false) ecPub
  eccDerSize : FactorsThrough (lib.eccDerSize false) ecPub
  eccToDer : FactorsThrough (lib.eccToDer false) ecPub

variable (hpub : PublicHalf lib pub ecPub) {k k' : ρ} (hk : pub k = pub k')

theorem bind_congr_map {α β γ : Type} {f : α → γ} {g : α → Option β} (hg : FactorsThrough g f)
    {x y : Option α} (h : x.map f = y.map f) : x.bind g = y.bind g := by
  cases x with
  | none =>
    cases y with
    | none => rfl
    | some b => cases h
  | some a =>
    cases y with
    | none => cases h
    | some b => exact hg (Option.some.inj h)

include hpub hk

theorem eccPKeyPem_public : eccPKeyPem lib k false = eccPKeyPem lib k' false := by
  unfold eccPKeyPem eccKeyOf
  refine bind_congr_map hpub.ecPem ?_
  have hkey := hpub.ecKey hk
  dsimp only at hkey
  rw [hpub.i2d hk]
  rcases hfound : lib.ecKey k with _ | ec
  · rcases hfound' : lib.ecKey k' with _ | ec'
    · rfl
    · rw [hfound, hfound'] at hkey
      cases hkey
  · rcases hfound' : lib.ecKey k' with _ | ec'
    · rw [hfound, hfound'] at hkey
      cases hkey
    · rw [hfound, hfound'] at hkey
      exact hkey

theorem pKeyPEMtoPubKey_public : pKeyPEMtoPubKey env lib k = pKeyPEMtoPubKey env lib k' := by
  unfold pKeyPEMtoPubKey pKeyPem
  rw [hpub.pkeyId hk, hpub.rsaPem hk, eccPKeyPem_public hpub hk]

theorem pKeyToKeyECC_public : pKeyToKeyECC env.toDgstEnv lib.toDgstLib k false =
    pKeyToKeyECC env.toDgstEnv lib.toDgstLib k' false := by
  have hkey := hpub.ecKey hk
  dsimp only at hkey
  unfold pKeyToKeyECC
  rcases hfound : lib.ecKey k with _ | ec
  · rcases hfound' : lib.ecKey k' with _ | ec'
    · rfl
    · rw [hfound, hfound'] at hkey
      cases hkey
  · rcases hfound' : lib.ecKey k' with _ | ec'
    · rw [hfound, hfound'] at hkey
      cases hkey
    · rw [hfound, hfound'] at hkey
      have hsame : ecPub ec = ecPub ec' := Option.some.inj hkey
      simp only [hpub.eccDerSize hsame, hpub.eccToDer hsame]

theorem pKeytoPubKey_public : pKeytoPubKey env.toDgstEnv lib.toDgstLib k =
    pKeytoPubKey env.toDgstEnv lib.toDgstLib k' := by
  unfold pKeytoPubKey
  rw [hpub.pkeyId hk, hpub.rsaDer hk, pKeyToKeyECC_public hpub hk]

theorem publicOutput_public (inForm outForm : Form) :
    publicOutput env lib inForm outForm k = publicOutput env lib inForm outForm k' := by
  unfold publicOutput
  rw [pKeyPEMtoPubKey_public hpub hk, pKeytoPubKey_public hpub hk]

end Output

section Reader
variable {α σ : Type} {argv : Args} {o : LongOption α}

theorem matchOption_mem (hhelp : strncmp o.name (str "-help") o.name.length ≠ 0)
    (hmem : o.name ∈ argv.tail) :
    ∃ opt optarg, matchOption argv 1 o = some (opt, optarg) ∧ (opt = .foundTwice ∨ opt = .found o.val) := by
  have hmem' := List.mem_of_mem_tail hmem
  have hcheck := checkForArg_count (helpFree_of_name hhelp argv)
  by_cases htwice : 2 ≤ argv.count o.name
  · rw [if_pos htwice] at hcheck
    exact ⟨.foundTwice, none, by simp only [matchOption, hcheck, if_true], .inl rfl⟩
  · rw [if_neg htwice, if_pos hmem'] at hcheck
    have hfirst : argv.head? ≠ some o.name := by
      intro hhead
      obtain ⟨rest, rfl⟩ := List.head?_eq_some_iff.mp hhead
      rw [List.count_cons_self] at htwice
      have := List.count_pos_iff.mpr hmem
      rw [List.tail_cons] at this
      omega
    have hpos := idxOf_pos hfirst hmem'
    rw [matchOption_eq (by decide) (by decide) o hcheck, if_neg (by omega)]
    exact ⟨_, _, rfl, .inr rfl⟩

variable {reader : OptReader α σ} {table : List (LongOption α)} {s s' : σ}

theorem OptReader.run_related {R : σ → σ → Prop}
    (hargv : ∀ {s s'}, R s s' → reader.argv s = reader.argv s')
    (hrunning : ∀ {s s'}, R s s' → reader.running s = reader.running s')
    (hhandle : ∀ opt optarg {s s'}, R s s' →
      R (reader.handle opt optarg s) (reader.handle opt optarg s'))
    (h : R s s') : R (reader.run 1 table s) (reader.run 1 table s') := by
  refine OptReader.run_simulates (fun h => (hrunning h).symm) (fun o _ s s' h => ?_) h
  rw [← hargv h]
  cases matchOption (reader.argv s) 1 o with
  | none => exact .inl ⟨rfl, rfl⟩
  | some r => exact .inr ⟨r.1, r.2, r.2, rfl, rfl, hhandle _ _ h⟩

theorem OptReader.run_reaches {P Q : σ → Prop}
    (hP : ∀ opt optarg s, P s → P (reader.handle opt optarg s))
    (hQ : ∀ opt optarg s, Q s → Q (reader.handle opt optarg s))
    (hmet : ∀ s, P s → ∃ opt optarg, matchOption (reader.argv s) 1 o = some (opt, optarg) ∧
      Q (reader.handle opt optarg s))
    (ho : o ∈ table) (hs : P s) (hrun : reader.running (reader.run 1 table s) = true) :
    Q (reader.run 1 table s) := by
  obtain ⟨front, back, rfl⟩ := List.append_of_mem ho
  rw [OptReader.run_append] at hrun ⊢
  have hfront : P (reader.run 1 front s) :=
    OptReader.run_invariant (fun _ _ opt optarg s _ hs => hP opt optarg s hs) hs
  obtain ⟨opt, optarg, hmatch, hhit⟩ := hmet _ hfront
  simp only [OptReader.run, if_pos (OptReader.running_of_run hrun), hmatch]
  exact OptReader.run_invariant (fun _ _ opt optarg s _ hs => hQ opt optarg s hs) hhit

end Reader

section Options
variable {τ : Type} {env : PkeyEnv τ} {argv args : Args} {disk : Disk} {token : List Byte}

theorem mem_lowerArgument (name : List Byte) (htoken : token.map toLower = token)
    (h : token ∈ argv.tail) : token ∈ (lowerArgument name argv).tail := by
  cases argv with
  | nil => cases h
  | cons first args =>
    obtain ⟨i, hi⟩ := List.mem_iff_getElem?.mp h
    rw [List.tail_cons] at hi
    rw [lowerArgument, List.modify_succ_cons, List.tail_cons]
    refine List.mem_iff_getElem?.mpr ⟨i, ?_⟩
    rw [List.getElem?_modify, hi, Option.map_eq_map, Option.map_some, htoken, ite_self]

def PkeyState.PubOut (s : PkeyState) : Prop := s.ret = wolfcluSuccess → s.pubOut = true

theorem option_keeps_token (htoken : token.map toLower = token) (opt : Opt PkeyOption)
    (optarg : Option (List Byte)) (s : PkeyState) (h : token ∈ s.argv.tail) :
    token ∈ ((pkeyReader env).handle opt optarg s).argv.tail := by
  rcases opt with _ | val
  · exact h
  · cases val with
    | infile | outfile =>
      simp only [pkeyReader, PkeyState.option]
      split <;> exact h
    | inform | outform => exact mem_lowerArgument _ htoken h
    | pubout | pubin | help => exact h

theorem option_keeps_pubOut (opt : Opt PkeyOption) (optarg : Option (List Byte)) (s : PkeyState)
    (h : s.PubOut) : ((pkeyReader env).handle opt optarg s).PubOut := by
  rcases opt with _ | val
  · exact fun hret => absurd hret fails_fatal
  · cases val with
    | infile | outfile =>
      simp only [pkeyReader, PkeyState.option]
      split
      · exact fun hret => absurd hret fails_fatal
      · exact h
    | inform | outform | help => exact h
    | pubout | pubin => exact fun _ => rfl

theorem pubOption_name : ∀ o ∈ pkeyOptions, o.val = .pubout ∨ o.val = .pubin →
    o.name.map toLower = o.name ∧ strncmp o.name (str "-help") o.name.length ≠ 0 := by decide

theorem readPkeyOptions_pubOut {o : LongOption PkeyOption} (ho : o ∈ pkeyOptions)
    (hval : o.val = .pubout ∨ o.val = .pubin) (hmem : o.name ∈ argv.tail)
    (hrun : (readPkeyOptions env argv disk).helped = false) :
    (readPkeyOptions env argv disk).PubOut := by
  have hname := pubOption_name o ho hval
  refine OptReader.run_reaches (P := fun s => o.name ∈ s.argv.tail)
    (option_keeps_token hname.1) option_keeps_pubOut (fun s hs => ?_) ho hmem ?_
  · obtain ⟨opt, optarg, hmatch, rfl | rfl⟩ := matchOption_mem hname.2 hs
    · exact ⟨_, _, hmatch, fun hret => absurd hret fails_fatal⟩
    · refine ⟨_, _, hmatch, fun _ => ?_⟩
      rcases hval with hval | hval
      · rw [hval]
        rfl
      · rw [hval]
        rfl
  · exact decide_eq_true hrun

end Options

section Runs
variable {ρ κ σ τ π π' : Type} {env : PkeyEnv τ} {lib : PkeyLib ρ κ σ} {pub : ρ → π}
  {ecPub : κ → π'} {f : List Byte} {text text' : List Byte} {disk disk' : Disk} {s s' : PkeyState}

structure ApartAt (f text text' : List Byte) (disk disk' : Disk) : Prop where
  off : ∀ g, g ≠ f → disk g = disk' g
  here : (disk f = some text ∧ disk' f = some text') ∨ disk f = disk' f

theorem ApartAt.isSome (h : ApartAt f text text' disk disk') (g : List Byte) :
    (disk g).isSome = (disk' g).isSome := by
  by_cases hg : g = f
  · subst hg
    rcases h.here with ⟨hdisk, hdisk'⟩ | hsame
    · rw [hdisk, hdisk']
      rfl
    · rw [hsame]
  · rw [h.off g hg]

theorem ApartAt.update (h : ApartAt f text text' disk disk') (g : List Byte) (v : Option (List Byte)) :
    ApartAt f text text' (Function.update disk g v) (Function.update disk' g v) := by
  by_cases hg : f = g
  · subst hg
    refine ⟨fun k hk => ?_, .inr ?_⟩
    · rw [update_of_ne hk, update_of_ne hk, h.off k hk]
    · rw [update_self, update_self]
  · refine ⟨fun k hk => ?_, ?_⟩
    · by_cases hkg : k = g
      · rw [hkg, update_self, update_self]
      · rw [update_of_ne hkg, update_of_ne hkg, h.off k hk]
    · rw [update_of_ne hg, update_of_ne hg]
      exact h.here

def PkeyState.Apart (f text text' : List Byte) (s s' : PkeyState) : Prop :=
  ∃ disk', s' = { s with disk := disk' } ∧ ApartAt f text text' s.disk disk'

theorem option_apart (opt : Opt PkeyOption) (optarg : Option (List Byte))
    (h : s.Apart f text text' s') : PkeyState.Apart f text text'
      ((pkeyReader env).handle opt optarg s) ((pkeyReader env).handle opt optarg s') := by
  obtain ⟨disk', rfl, hdisk⟩ := h
  rcases opt with _ | val
  · exact ⟨disk', rfl, hdisk⟩
  · cases val with
    | infile =>
      simp only [pkeyReader, PkeyState.option, hdisk.isSome]
      generalize optarg.filter _ = found
      rcases found with _ | name
      · exact ⟨disk', rfl, hdisk⟩
      · exact ⟨disk', rfl, hdisk⟩
    | outfile =>
      simp only [pkeyReader, PkeyState.option]
      generalize optarg.filter _ = found
      rcases found with _ | name
      · exact ⟨disk', rfl, hdisk⟩
      · exact ⟨_, rfl, hdisk.update _ _⟩
    | inform | outform | pubout | pubin | help => exact ⟨disk', rfl, hdisk⟩

theorem readPkeyOptions_apart (h : ApartAt f text text' disk disk') (argv : Args) :
    (readPkeyOptions env argv disk).Apart f text text' (readPkeyOptions env argv disk') := by
  refine OptReader.run_related ?_ ?_ (fun opt optarg _ _ => option_apart opt optarg) ⟨disk', rfl, h⟩
  · rintro s s' ⟨_, rfl, _⟩
    rfl
  · rintro s s' ⟨_, rfl, _⟩
    rfl

def SameHalf (lib : PkeyLib ρ κ σ) (pub : ρ → π) (text text' : List Byte) : Prop :=
  ∀ pubIn inForm, (readKeyText lib pubIn inForm text).map pub =
    (readKeyText lib pubIn inForm text').map pub

theorem readKeyText_apart (hhalf : SameHalf lib pub text text')
    (hdisk : ApartAt f text text' disk disk') (pubIn : Bool) (inForm : Form) (name : List Byte) :
    (readKeyText lib pubIn inForm ((disk name).getD [])).map pub =
      (readKeyText lib pubIn inForm ((disk' name).getD [])).map pub := by
  by_cases hname : name = f
  · subst hname
    rcases hdisk.here with ⟨htext, htext'⟩ | hsame
    · rw [htext, htext']
      exact hhalf pubIn inForm
    · rw [hsame]
  · rw [hdisk.off name hname]

def SameRun (f : List Byte) (run run' : PkeyRun) : Prop :=
  run.ret = run'.ret ∧ run.stdout = run'.stdout ∧ ∀ g, g ≠ f → run.disk g = run'.disk g

inductive SameInput (env : PkeyEnv τ) (lib : PkeyLib ρ κ σ) (s s' : PkeyState) :
    Except Int (Option ρ) → Except Int (Option ρ) → Prop
  | error (ret : Int) : SameInput env lib s s' (.error ret) (.error ret)
  | ok {k k' : Option ρ} (h : s.output env lib k = s'.output env lib k') :
    SameInput env lib s s' (.ok k) (.ok k')

section Finish
variable (hhelped : s'.helped = s.helped) (hret : s'.ret = s.ret) (hfile : s'.outFile = s.outFile)
  (hdisk : ∀ g, g ≠ f → s.disk g = s'.disk g)

include hfile hdisk

theorem put_same (out : BioOutput) : SameRun f (s.put out) (s'.put out) := by
  unfold PkeyState.put
  rw [hfile]
  rcases s.outFile with _ | name
  · exact ⟨rfl, rfl, hdisk⟩
  · refine ⟨rfl, rfl, fun g hg => ?_⟩
    dsimp only
    by_cases hname : g = name
    · rw [hname, update_self, update_self]
    · rw [update_of_ne hname, update_of_ne hname, hdisk g hg]

theorem outcome_same {input input' : Except Int (Option ρ)}
    (hinput : SameInput env lib s s' input input') :
    SameRun f (s.outcome env lib input) (s'.outcome env lib input') := by
  cases hinput with
  | error ret => exact ⟨rfl, rfl, hdisk⟩
  | ok h =>
    simp only [PkeyState.outcome, hfile, h]
    split_ifs
    · exact ⟨rfl, rfl, hdisk⟩
    · exact put_same hfile hdisk _

include hhelped hret

theorem finish_same (hinput : s.helped = false → s.ret = wolfcluSuccess →
      SameInput env lib s s' (s.readInput lib) (s'.readInput lib)) :
    SameRun f (s.finish env lib) (s'.finish env lib) := by
  unfold PkeyState.finish
  rw [hhelped, hret]
  by_cases hstop : s.helped = true
  · rw [if_pos hstop, if_pos hstop]
    exact ⟨rfl, rfl, hdisk⟩
  · rw [if_neg hstop, if_neg hstop]
    by_cases hok : s.ret = wolfcluSuccess
    · rw [if_neg (not_not.mpr hok), if_neg (not_not.mpr hok)]
      exact outcome_same hfile hdisk (hinput (Bool.eq_false_of_not_eq_true hstop) hok)
    · rw [if_pos hok, if_pos hok]
      exact ⟨rfl, rfl, hdisk⟩

end Finish

theorem readInput_public (hpub : PublicHalf lib pub ecPub) (hhalf : SameHalf lib pub text text')
    (hout : s.pubOut = true) (h : s.Apart f text text' s') :
    SameInput env lib s s' (s.readInput lib) (s'.readInput lib) := by
  obtain ⟨disk', rfl, hdisk⟩ := h
  unfold PkeyState.readInput
  rcases s.inFile with _ | name
  · exact .ok rfl
  · have hkeys := readKeyText_apart hhalf hdisk s.pubIn s.inForm name
    dsimp only
    generalize readKeyText lib s.pubIn s.inForm ((s.disk name).getD []) = k at hkeys ⊢
    generalize readKeyText lib s.pubIn s.inForm ((disk' name).getD []) = k' at hkeys ⊢
    rcases k with _ | k
    · rcases k' with _ | k'
      · exact .error _
      · cases hkeys
    · rcases k' with _ | k'
      · cases hkeys
      · refine .ok ?_
        simp only [PkeyState.output, if_pos hout]
        exact publicOutput_public hpub (Option.some.inj hkeys) _ _

theorem pKeySetup_public_only (hpub : PublicHalf lib pub ecPub)
    (hdisk : ApartAt f text text' disk disk') (hhalf : SameHalf lib pub text text') (argv : Args)
    (hmem : str "-pubout" ∈ argv.tail ∨ str "-pubin" ∈ argv.tail) :
    SameRun f (pKeySetup env lib argv disk) (pKeySetup env lib argv disk') := by
  have hread : (readPkeyOptions env argv disk).Apart f text text' (readPkeyOptions env argv disk') :=
    readPkeyOptions_apart hdisk argv
  have hpubOut (hrun : (readPkeyOptions env argv disk).helped = false) :
      (readPkeyOptions env argv disk).PubOut := by
    rcases hmem with hmem | hmem
    · exact readPkeyOptions_pubOut (pkeyOptions.get_mem ⟨4, by decide⟩) (.inl rfl) hmem hrun
    · exact readPkeyOptions_pubOut (pkeyOptions.get_mem ⟨5, by decide⟩) (.inr rfl) hmem hrun
  have hinput (hrun : (readPkeyOptions env argv disk).helped = false)
      (hret : (readPkeyOptions env argv disk).ret = wolfcluSuccess) :
      SameInput env lib (readPkeyOptions env argv disk) (readPkeyOptions env argv disk') _ _ :=
    readInput_public hpub hhalf (hpubOut hrun hret) hread
  obtain ⟨disk'', hsame, hdisks⟩ := hread
  unfold pKeySetup
  rw [hsame] at hinput ⊢
  exact finish_same rfl rfl rfl hdisks.off hinput

end Runs

def halvesLib : PkeyLib (Byte × List Byte) (Byte × List Byte) (List Byte) where
  hash := greetingHashLib
  maxDerDigestSz := sampleDerDigestSz
  readPub pem text :=
    match pem, text with
    | true, 45 :: p :: _ | false, p :: _ => some (p, [])
    | _, _ => none
  readPriv pem text :=
    match pem, text with
    | true, 45 :: p :: secret | false, p :: secret => some (p, secret)
    | _, _ => none
  pkeyId _ := .rsa
  rsaPublicDer k := .ok [k.1]
  rsaPrivateDer k := .ok (k.1 :: k.2)
  ecKey k := some k
  eccDerSize isPrivate k := if isPrivate then k.2.length + 1 else 1
  eccToDer isPrivate k _ := .ok (if isPrivate then k.1 :: k.2 else [k.1])
  keyInit _ := true
  keyDecode _ _ _ := none
  hashOid _ := 649
  encodeSignature digest _ := digest.take sampleDerDigestSz
  signatureSize _ _ := 64
  generateHash _ _ _ _ _ := .error badFuncArg
  verifyHash _ _ _ _ _ := badFuncArg
  digest_fits := sampleDigest_fits
  encoded_fits _ _ _ := List.length_take_le _ _
  rsaPem isPrivate k := some (if isPrivate then 45 :: k.1 :: k.2 else [45, k.1])
  i2d isPrivate k := some (if isPrivate then k.1 :: k.2 else [k.1])
  d2i _ _ := none
  ecPem isPrivate k := some (if isPrivate then 45 :: k.1 :: k.2 else [45, k.1])
  derToPem der := some (45 :: der)

def greetingPkeyEnv : PkeyEnv (List Byte × List Byte) where
  toDgstEnv := greetingDgstEnv
  fileOpens _ := true

theorem halvesLib_publicHalf : PublicHalf halvesLib Prod.fst Prod.fst where
  pkeyId _ _ _ := rfl
  rsaPem k k' h := by
    dsimp only [halvesLib] at h ⊢
    rw [h]
    rfl
  rsaDer k k' h := by
    dsimp only [halvesLib]
    rw [h]
  ecKey k k' h := congrArg some h
  i2d k k' h := by
    dsimp only [halvesLib]
    rw [h]
    rfl
  ecPem k k' h := by
    dsimp only [halvesLib]
    rw [h]
    rfl
  eccDerSize _ _ _ := rfl
  eccToDer k k' h := by
    funext n
    dsimp only [halvesLib]
    rw [h]
    rfl

def keyDisk (text : List Byte) : Disk
  | [107] => some text
  | _ => none

def pubOutArgs : Args := [str "wolfssl", str "pkey", str "-in", str "k", str "-pubout"]

theorem keyDisk_apart (text text' : List Byte) :
    ApartAt (str "k") text text' (keyDisk text) (keyDisk text') where
  off g hg := by
    have hkey : g ≠ [107] := hg
    simp only [keyDisk]
  here := .inl ⟨rfl, rfl⟩

theorem secrets_sameHalf : SameHalf halvesLib Prod.fst (str "-AB") (str "-AC") := by
  intro pubIn inForm
  cases pubIn <;> cases inForm <;> rfl

theorem pKeySetup_public_only_halves :
    SameRun (str "k") (pKeySetup greetingPkeyEnv halvesLib pubOutArgs (keyDisk (str "-AB")))
        (pKeySetup greetingPkeyEnv halvesLib pubOutArgs (keyDisk (str "-AC"))) ∧
      (pKeySetup greetingPkeyEnv halvesLib pubOutArgs (keyDisk (str "-AB"))).stdout = str "-A" :=
  ⟨pKeySetup_public_only halvesLib_publicHalf (keyDisk_apart _ _) secrets_sameHalf pubOutArgs
    (by decide), by decide +kernel⟩

end WolfCLU
