import WolfCLU.SignVerify.Setup
import WolfCLU.Tools.Main

namespace WolfCLU
open CString

def sigAlgNames : List (List Byte × SigAlg) :=
  [(str "rsa", .rsa), (str "ed25519", .ed25519), (str "ecc", .ecc), (str "dilithium", .dilithium),
    (str "ml-dsa", .dilithium), (str "xmss", .xmss), (str "xmssmt", .xmssmt)]

def Alone (argv : Args) (name : List Byte) : Prop := argv.count name = 1 ∧ Given argv name

instance (argv : Args) (name : List Byte) : Decidable (Alone argv name) :=
  inferInstanceAs (Decidable (_ ∧ _))

structure Chosen (argv : Args) (alg : SigAlg) : Prop where
  own : ∃ p ∈ sigAlgNames, p.2 = alg ∧ Alone argv p.1
  before : ∀ p ∈ sigAlgNames.takeWhile (fun p => p.2 ≠ alg), ¬ Alone argv p.1

theorem checkForArg_pos_iff {name : List Byte}
    (hhelp : strncmp name (str "-help") name.length ≠ 0) (argv : Args) :
    checkForArg name argv > 0 ↔ Alone argv name := by
  rw [checkForArg_count (helpFree_of_name hhelp argv), Alone, Given]
  by_cases htwice : 2 ≤ argv.count name
  · rw [if_pos htwice, userInputError]
    omega
  · rw [if_neg htwice]
    cases argv with
    | nil => simp
    | cons prog args =>
      by_cases hprog : prog = name
      · subst hprog
        rw [List.count_cons_self] at htwice
        have hnot : prog ∉ args := List.count_eq_zero.mp (by omega)
        simp [hnot]
      · rw [List.count_cons_of_ne hprog] at htwice ⊢
        by_cases hmem : name ∈ args
        · have hpos := List.count_pos_iff.mpr hmem
          simp only [List.mem_cons, hmem, or_true, if_true, List.idxOf_cons_ne _ hprog, List.tail_cons,
            and_true]
          omega
        · simp [hmem, Ne.symm hprog]

theorem sigAlgNames_plain : ∀ p ∈ sigAlgNames, strncmp p.1 (str "-help") p.1.length ≠ 0 := by decide

theorem find_cons_if {α : Type} (P : α → Prop) [DecidablePred P] (a : α) (l : List α) :
    (a :: l).find? (fun a => P a) = if P a then some a else l.find? fun a => P a := by
  by_cases h : P a
  · rw [if_pos h, List.find?_cons_of_pos]
    exact decide_eq_true h
  · rw [if_neg h, List.find?_cons_of_neg]
    simpa using h

theorem algCheck_eq (argv : Args) :
    algCheck argv = (sigAlgNames.find? fun p => Alone argv p.1).map Prod.snd := by
  have hchain : algCheck argv
      = (sigAlgNames.find? fun p => checkForArg p.1 argv > 0).map Prod.snd := by
    simp only [algCheck, sigAlgNames, find_cons_if, apply_ite (Option.map Prod.snd), Option.map_some,
      List.find?_nil, Option.map_none]
  rw [hchain]
  congr 1
  refine List.find?_congr fun p hp => ?_
  exact decide_eq_decide.mpr (checkForArg_pos_iff (sigAlgNames_plain p hp) argv)

theorem find_map_eq_some_iff {α β : Type} [DecidableEq β] {entries : List (α × β)} {q : α × β → Bool}
    {b : β}
    (hgroup : ∀ p ∈ (entries.dropWhile fun p => p.2 ≠ b).dropWhile (fun p => p.2 = b), p.2 ≠ b) :
    (entries.find? q).map Prod.snd = some b ↔
      (∃ p ∈ entries, p.2 = b ∧ q p) ∧ ∀ p ∈ entries.takeWhile (fun p => p.2 ≠ b), ¬ q p := by
  set front := entries.takeWhile fun p => p.2 ≠ b
  set own := (entries.dropWhile fun p => p.2 ≠ b).takeWhile fun p => p.2 = b
  set back := (entries.dropWhile fun p => p.2 ≠ b).dropWhile fun p => p.2 = b
  have hsplit : entries = front ++ (own ++ back) := by
    rw [List.takeWhile_append_dropWhile, List.takeWhile_append_dropWhile]
  have hfront : ∀ p ∈ front, p.2 ≠ b := fun p hp => by simpa using List.mem_takeWhile_imp hp
  have hown : ∀ p ∈ own, p.2 = b := fun p hp => by simpa using List.mem_takeWhile_imp hp
  clear_value front own back
  subst hsplit
  rw [List.find?_append, List.find?_append]
  cases hfirst : front.find? q with
  | some p =>
    have hmem := List.mem_of_find?_eq_some hfirst
    have hhit := List.find?_some hfirst
    refine iff_of_false ?_ (fun h => h.2 p hmem hhit)
    simpa using hfront p hmem
  | none =>
    have hnone : ∀ p ∈ front, ¬ q p := List.find?_eq_none.mp hfirst
    rw [Option.none_or]
    cases hsecond : own.find? q with
    | some p =>
      have hmem := List.mem_of_find?_eq_some hsecond
      refine iff_of_true ?_ ⟨⟨p, by simp [hmem], hown p hmem, List.find?_some hsecond⟩, hnone⟩
      simpa using hown p hmem
    | none =>
      have hnoneOwn : ∀ p ∈ own, ¬ q p := List.find?_eq_none.mp hsecond
      rw [Option.none_or]
      refine iff_of_false ?_ ?_
      · rintro h
        obtain ⟨p, hp, hb⟩ := Option.map_eq_some_iff.mp h
        exact hgroup p (List.mem_of_find?_eq_some hp) hb
      · rintro ⟨⟨p, hp, hb, hhit⟩, -⟩
        rcases List.mem_append.mp hp with hp | hp
        · exact hnone p hp hhit
        · rcases List.mem_append.mp hp with hp | hp
          · exact hnoneOwn p hp hhit
          · exact hgroup p hp hb

theorem algCheck_iff {argv : Args} {alg : SigAlg} : algCheck argv = some alg ↔ Chosen argv alg := by
  have hgroup : ∀ p ∈ (sigAlgNames.dropWhile fun p => p.2 ≠ alg).dropWhile (fun p => p.2 = alg),
      p.2 ≠ alg := by
    cases alg <;> decide
  rw [algCheck_eq, find_map_eq_some_iff hgroup]
  constructor
  · rintro ⟨⟨p, hp, halg, halone⟩, hbefore⟩
    exact ⟨⟨p, hp, halg, of_decide_eq_true halone⟩, fun p hp halone =>
      hbefore p hp (decide_eq_true halone)⟩
  · rintro ⟨⟨p, hp, halg, halone⟩, hbefore⟩
    exact ⟨⟨p, hp, halg, decide_eq_true halone⟩, fun p hp halone =>
      hbefore p hp (of_decide_eq_true halone)⟩

def signVerifyModes : List Mode := [.rsaLegacy, .ecc, .ed25519, .dilithium, .xmss, .xmssmt]

theorem modeHandler_signVerify {argv : Args} {m : Mode}
    (h : modeHandler argv m = .signVerifySetup) : m ∈ signVerifyModes := by
  cases m with
  | crypt =>
    rw [modeHandler] at h
    split at h <;> cases h
  | rsaLegacy | ecc | ed25519 | dilithium | xmss | xmssmt => simp [signVerifyModes]
  | _ => cases h

theorem modeOptions_names (haveOcsp : Bool) : ∀ o ∈ modeOptions haveOcsp,
    o.val ∈ Mode.rsa :: signVerifyModes → o.name ∈ sigAlgNames.map Prod.fst := by
  cases haveOcsp <;> decide

theorem getMode_found {haveOcsp : Bool} {arg : List Byte} (harg : (0 : Byte) ∉ arg) {m : Mode}
    (h : getMode (modeOptions haveOcsp) arg = .mode m) :
    ∃ o ∈ modeOptions haveOcsp, o.name = arg ∧ o.val = m := by
  rw [getMode] at h
  cases hfind : (modeOptions haveOcsp).find? fun o =>
      o.name.length = arg.length ∧ strncmp arg o.name arg.length = 0 with
  | none =>
    rw [hfind] at h
    cases h
  | some o =>
    rw [hfind] at h
    have hmem := List.mem_of_find?_eq_some hfind
    refine ⟨o, hmem, ?_, by simpa using h⟩
    have hhit := List.find?_some hfind
    exact (strncmp_name harg ((modeOptions_table haveOcsp).nul o hmem)).mp (of_decide_eq_true hhit)

theorem getOptMode_found {haveOcsp : Bool} {argv : Args} {m : Mode}
    (h : getOptMode argv (modeOptions haveOcsp) = .mode m) :
    ∃ o ∈ modeOptions haveOcsp, argv[1]? = some o.name ∧ o.val = m := by
  have hscan := (getOptFrom_spec argv 0 (rfl : (modeOptions haveOcsp).drop 0 = _)).1
  rw [getOptMode, getOpt, hscan] at h
  cases hhead : (((modeOptions haveOcsp).drop 0).filterMap (matchOption argv 0)).head? with
  | none =>
    rw [hhead] at h
    cases h
  | some r =>
    rw [hhead] at h
    obtain ⟨opt, optarg⟩ := r
    obtain ⟨o, ho, hmatch⟩ := List.mem_filterMap.mp (List.mem_of_head? hhead)
    rw [List.drop_zero] at ho
    rcases checkForArg_cases ((modeOptions_table haveOcsp).help o ho) argv with
      htwice | ⟨habsent, -⟩ | ⟨hmem, -, hindex⟩
    · rw [matchOption, if_pos htwice] at hmatch
      obtain ⟨rfl, -⟩ := Prod.mk.inj (Option.some.inj hmatch)
      cases h
    · rw [matchOption, habsent, if_neg (by decide), if_neg (by decide)] at hmatch
      cases hmatch
    · have hne : ¬ checkForArg o.name argv = userInputError := by
        rw [hindex, userInputError]
        omega
      rw [matchOption, if_neg hne] at hmatch
      by_cases hfirst : checkForArg o.name argv = 0 + 1 ∨ (0 : Int) ≠ 0 ∧ checkForArg o.name argv > 0
      · rw [if_pos hfirst] at hmatch
        obtain ⟨rfl, -⟩ := Prod.mk.inj (Option.some.inj hmatch)
        have hone : argv.idxOf o.name = 1 := by
          rw [hindex] at hfirst
          omega
        refine ⟨o, ho, ?_, by simpa using h⟩
        rw [← hone]
        exact List.getElem?_idxOf (List.mem_of_mem_tail hmem)
      · rw [if_neg hfirst] at hmatch
        cases hmatch

theorem main_signVerify {haveOcsp : Bool} {argv0 argv : Args} (hnul : ∀ arg ∈ argv0, (0 : Byte) ∉ arg)
    (h : main haveOcsp argv0 = (.signVerifySetup, argv)) :
    ∃ p ∈ sigAlgNames, argv[1]? = some p.1 := by
  have hnamed : ∀ {o : LongOption Mode} {argv : Args}, o ∈ modeOptions haveOcsp →
      argv[1]? = some o.name → o.val ∈ Mode.rsa :: signVerifyModes →
      ∃ p ∈ sigAlgNames, argv[1]? = some p.1 := by
    intro o argv ho hat hval
    obtain ⟨p, hp, hname⟩ := List.mem_map.mp (modeOptions_names haveOcsp o ho hval)
    exact ⟨p, hp, by rw [hat, hname]⟩
  have hplain : ∀ {argv' : Args}, flagHandler argv' (getOptMode argv' (modeOptions haveOcsp)) =
      .signVerifySetup → ∃ p ∈ sigAlgNames, argv'[1]? = some p.1 := by
    intro argv' hhandler
    cases hflag : getOptMode argv' (modeOptions haveOcsp) with
    | mode m =>
      rw [hflag] at hhandler
      obtain ⟨o, ho, hat, rfl⟩ := getOptMode_found hflag
      exact hnamed ho hat (List.mem_cons_of_mem _ (modeHandler_signVerify hhandler))
    | _ =>
      rw [hflag] at hhandler
      cases hhandler
  rcases argv0 with _ | ⟨prog, _ | ⟨arg, args⟩⟩
  · obtain ⟨hhandler, rfl⟩ := Prod.mk.inj h
    exact hplain hhandler
  · obtain ⟨hhandler, rfl⟩ := Prod.mk.inj h
    exact hplain hhandler
  · by_cases hdash : arg.headD 0 = 45
    · have harg : (0 : Byte) ∉ arg.tail := fun hmem =>
        hnul arg (by simp) (List.mem_of_mem_tail hmem)
      simp only [main, if_pos hdash] at h
      obtain ⟨hhandler, rfl⟩ := Prod.mk.inj h
      cases hflag : getMode (modeOptions haveOcsp) arg.tail with
      | mode m =>
        obtain ⟨o, ho, hname, hval⟩ := getMode_found harg hflag
        rw [hflag] at hhandler
        refine hnamed ho (by rw [hname]; rfl) ?_
        rw [hval]
        by_cases hrsa : m = .rsa
        · exact hrsa ▸ List.mem_cons_self
        · rw [if_neg (by simpa using hrsa)] at hhandler
          exact List.mem_cons_of_mem _ (modeHandler_signVerify hhandler)
      | _ =>
        rw [hflag] at hhandler
        cases hhandler
    · simp only [main, if_neg hdash] at h
      obtain ⟨hhandler, rfl⟩ := Prod.mk.inj h
      exact hplain hhandler

theorem call_keyType {s : SignVerifyState} {alg : SigAlg} {call : SignVerifyCall}
    (h : s.call alg = .ok call) : call.keyType = alg := by
  rw [SignVerifyState.call] at h
  cases hpriv : s.priv with
  | none =>
    rw [hpriv] at h
    split_ifs at h
  | some priv =>
    rw [hpriv] at h
    cases hverify : s.verifyCheck with
    | false =>
      cases hsig : s.sig <;> simp only [hverify, hsig] at h <;> split_ifs at h <;> cases h <;> rfl
    | true =>
      cases hsig : s.sig <;> simp only [hverify, hsig] at h <;> split_ifs at h <;> cases h <;> rfl

theorem signVerifySetup_keyType {access : List Byte → Bool} {argv : Args} {call : SignVerifyCall}
    (h : signVerifySetup access argv = .ok call) : algCheck argv = some call.keyType := by
  rw [signVerifySetup] at h
  cases halg : algCheck argv with
  | none =>
    rw [halg] at h
    cases h
  | some alg =>
    rw [halg] at h
    exact congrArg some (call_keyType h).symm

theorem setup_algorithm_iff {haveOcsp : Bool} {argv0 argv : Args} {access : List Byte → Bool}
    {call : SignVerifyCall} (hnul : ∀ arg ∈ argv0, (0 : Byte) ∉ arg)
    (hmain : main haveOcsp argv0 = (.signVerifySetup, argv))
    (hcall : signVerifySetup access argv = .ok call) :
    ∃ name alg, argv[1]? = some name ∧ (name, alg) ∈ sigAlgNames ∧
      (call.keyType = alg ↔ Chosen argv alg) := by
  obtain ⟨⟨name, alg⟩, hp, hname⟩ := main_signVerify hnul hmain
  refine ⟨name, alg, hname, hp, ?_⟩
  rw [← algCheck_iff, signVerifySetup_keyType hcall]
  exact Option.some_inj.symm

def eccSignArgs (input : List Byte) : Args :=
  [str "wolfssl", str "-ecc", str "-sign", str "-inkey", str "key", str "-in", input, str "-out",
    str "sig"]

theorem setup_algorithm_ecc :
    ∃ name alg, (str "ecc") = name ∧ (name, alg) ∈ sigAlgNames ∧ (SigAlg.ecc = alg ↔
      Chosen (str "wolfssl" :: str "ecc" :: (eccSignArgs (str "msg")).drop 2) alg) := by
  obtain ⟨name, alg, hname, hmem, hiff⟩ := @setup_algorithm_iff true (eccSignArgs (str "msg"))
    (str "wolfssl" :: str "ecc" :: (eccSignArgs (str "msg")).drop 2) (fun _ => true)
    (.signData (some (str "msg")) (some (str "sig")) (str "key") .ecc .der) (by decide)
    (by decide) (by decide)
  exact ⟨name, alg, Option.some.inj hname, hmem, hiff⟩

theorem file_named_rsa_signs_with_rsa :
    ¬ ∀ (haveOcsp : Bool) (argv0 argv : Args) (access : List Byte → Bool) (call : SignVerifyCall),
      (∀ arg ∈ argv0, (0 : Byte) ∉ arg) → main haveOcsp argv0 = (.signVerifySetup, argv) →
      signVerifySetup access argv = .ok call →
      ∃ name, argv[1]? = some name ∧ (name, call.keyType) ∈ sigAlgNames := by
  intro h
  obtain ⟨name, hname, hmem⟩ := h true (eccSignArgs (str "rsa"))
    (str "wolfssl" :: str "ecc" :: (eccSignArgs (str "rsa")).drop 2) (fun _ => true)
    (.signData (some (str "rsa")) (some (str "sig")) (str "key") .rsa .der) (by decide)
    (by decide) (by decide)
  obtain rfl : str "ecc" = name := Option.some.inj hname
  exact absurd hmem (by decide)

end WolfCLU
