import WolfCLU.Tools.GetOptRuns

namespace WolfCLU
open CString

inductive Mode where
  | ca | encrypt | decrypt | crypt | benchmark | hash | md5 | certSha256 | certSha384 | certSha512
  | x509 | request | genKey | ecparam | pkey | rsa | rsaLegacy | ecc | ed25519 | dilithium | xmss
  | xmssmt | dgst | verify | pkcs7 | pkcs8 | pkcs12 | crl | client | server | rand | dsa | dh | ocsp
  | base64 | help | version
  deriving DecidableEq, Repr

def modeOptions (haveOcsp : Bool) : List (LongOption Mode) :=
  [⟨str "ca", false, .ca⟩, ⟨str "encrypt", true, .encrypt⟩, ⟨str "decrypt", true, .decrypt⟩,
    ⟨str "enc", false, .crypt⟩, ⟨str "bench", false, .benchmark⟩, ⟨str "hash", true, .hash⟩,
    ⟨str "md5", false, .md5⟩, ⟨str "sha256", false, .certSha256⟩,
    ⟨str "sha384", false, .certSha384⟩, ⟨str "sha512", false, .certSha512⟩,
    ⟨str "x509", false, .x509⟩, ⟨str "req", false, .request⟩, ⟨str "genkey", true, .genKey⟩,
    ⟨str "ecparam", false, .ecparam⟩, ⟨str "pkey", false, .pkey⟩, ⟨str "rsa", false, .rsa⟩,
    ⟨str "ecc", false, .ecc⟩, ⟨str "ed25519", false, .ed25519⟩,
    ⟨str "dilithium", false, .dilithium⟩, ⟨str "ml-dsa", false, .dilithium⟩,
    ⟨str "xmss", false, .xmss⟩, ⟨str "xmssmt", false, .xmssmt⟩, ⟨str "dgst", false, .dgst⟩,
    ⟨str "verify", false, .verify⟩, ⟨str "pkcs7", false, .pkcs7⟩, ⟨str "pkcs8", false, .pkcs8⟩,
    ⟨str "pkcs12", false, .pkcs12⟩, ⟨str "crl", false, .crl⟩, ⟨str "s_client", false, .client⟩,
    ⟨str "s_server", false, .server⟩, ⟨str "rand", false, .rand⟩, ⟨str "dsaparam", false, .dsa⟩,
    ⟨str "dhparam", false, .dh⟩] ++
  (if haveOcsp then [⟨str "ocsp", false, .ocsp⟩] else []) ++
  [⟨str "base64", false, .base64⟩, ⟨str "help", false, .help⟩, ⟨str "h", false, .help⟩,
    ⟨str "v", false, .version⟩, ⟨str "version", false, .version⟩]

inductive Flag where
  | mode (m : Mode)
  | argFoundTwice
  | endOfArgs
  | fatalError
  deriving DecidableEq, Repr

inductive Handler where
  | setup (action : Char)
  | caSetup
  | benchSetup
  | hashSetup
  | algHashSetup (alg : Mode)
  | certSetup
  | requestSetup
  | genKeySetup
  | ecparam
  | pKeySetup
  | dgstSetup
  | x509Verify
  | crlVerify
  | rsa
  | signVerifySetup
  | pkcs7
  | pkcs8
  | pkcs12
  | client
  | server
  | rand
  | dsaParamSetup
  | dhParamSetup
  | ocspSetup
  | base64Setup
  | help
  | version
  | unknownMode
  deriving DecidableEq, Repr

def modeHandler (argv : Args) : Mode → Handler
  | .crypt => if checkForArg (str "-d") argv > 0 then .setup 'd' else .setup 'e'
  | .encrypt => .setup 'e'
  | .decrypt => .setup 'd'
  | .ca => .caSetup
  | .benchmark => .benchSetup
  | .hash => .hashSetup
  | .md5 => .algHashSetup .md5
  | .certSha256 => .algHashSetup .certSha256
  | .certSha384 => .algHashSetup .certSha384
  | .certSha512 => .algHashSetup .certSha512
  | .x509 => .certSetup
  | .request => .requestSetup
  | .genKey => .genKeySetup
  | .ecparam => .ecparam
  | .pkey => .pKeySetup
  | .dgst => .dgstSetup
  | .verify => .x509Verify
  | .crl => .crlVerify
  | .rsa => .rsa
  | .rsaLegacy => .signVerifySetup
  | .ecc => .signVerifySetup
  | .ed25519 => .signVerifySetup
  | .dilithium => .signVerifySetup
  | .xmss => .signVerifySetup
  | .xmssmt => .signVerifySetup
  | .pkcs7 => .pkcs7
  | .pkcs8 => .pkcs8
  | .pkcs12 => .pkcs12
  | .client => .client
  | .server => .server
  | .rand => .rand
  | .dsa => .dsaParamSetup
  | .dh => .dhParamSetup
  | .ocsp => .ocspSetup
  | .base64 => .base64Setup
  | .help => .help
  | .version => .version

def flagHandler (argv : Args) : Flag → Handler
  | .mode m => modeHandler argv m
  | _ => .unknownMode

def getMode (table : List (LongOption Mode)) (arg : List Byte) : Flag :=
  match table.find? fun o => o.name.length = arg.length ∧ strncmp arg o.name arg.length = 0 with
  | some o => .mode o.val
  | none => .fatalError

def getOptMode (argv : Args) (table : List (LongOption Mode)) : Flag :=
  match (getOpt argv table 0 0).1 with
  | some (.found m, _) => .mode m
  | some (.foundTwice, _) => .argFoundTwice
  | none => .endOfArgs

def main (haveOcsp : Bool) (argv : Args) : Handler × Args :=
  match argv with
  | prog :: arg :: args =>
    if arg.headD 0 = 45 then
      let argv := prog :: arg.tail :: args
      let flag := getMode (modeOptions haveOcsp) arg.tail
      let flag := if flag = .mode .rsa then .mode .rsaLegacy else flag
      (flagHandler argv flag, argv)
    else (flagHandler argv (getOptMode argv (modeOptions haveOcsp)), argv)
  | _ => (flagHandler argv (getOptMode argv (modeOptions haveOcsp)), argv)

def FoundOnce (argv : Args) (o : LongOption Mode) : Prop := argv.count o.name ≤ 1

theorem strncmp_name {arg name : List Byte} (harg : (0 : Byte) ∉ arg) (hname : (0 : Byte) ∉ name) :
    name.length = arg.length ∧ strncmp arg name arg.length = 0 ↔ name = arg := by
  rw [strncmp_eq_zero, cstr_of_nul_free harg, cstr_of_nul_free hname, List.take_length]
  constructor
  · rintro ⟨hlen, htake⟩
    rw [htake, List.take_of_length_le hlen.le]
  · rintro rfl
    exact ⟨rfl, (List.take_length).symm⟩

structure ModeTable (table : List (LongOption Mode)) : Prop where
  names : (table.map LongOption.name).Nodup
  nul : ∀ o ∈ table, (0 : Byte) ∉ o.name
  help : ∀ o ∈ table, strncmp o.name (str "-help") o.name.length ≠ 0
  plain : ∀ o ∈ table, o.name.headD 0 ≠ 45
  legacy : ∀ o ∈ table, o.val = .rsa → o.name = str "rsa"

theorem modeOptions_table (haveOcsp : Bool) : ModeTable (modeOptions haveOcsp) := by
  cases haveOcsp <;> exact ⟨by decide, by decide, by decide, by decide, by decide⟩

theorem getMode_name {front back : List (LongOption Mode)} {o : LongOption Mode}
    (htable : ModeTable (front ++ o :: back)) :
    getMode (front ++ o :: back) o.name = .mode o.val := by
  have hnul := htable.nul
  have hfront : ∀ o' ∈ front, ¬ (o'.name.length = o.name.length ∧
      strncmp o.name o'.name o.name.length = 0) := by
    intro o' ho' heq
    have hname := (strncmp_name (hnul o (by simp)) (hnul o' (by simp [ho']))).mp heq
    have hnodup := htable.names
    rw [List.map_append, List.map_cons, List.nodup_append] at hnodup
    exact hnodup.2.2 o'.name (List.mem_map_of_mem ho') o.name List.mem_cons_self hname
  have hself : o.name.length = o.name.length ∧ strncmp o.name o.name o.name.length = 0 :=
    (strncmp_name (hnul o (by simp)) (hnul o (by simp))).mpr rfl
  have hfind : (front ++ o :: back).find? (fun o' => decide (o'.name.length = o.name.length ∧
      strncmp o.name o'.name o.name.length = 0)) = some o := by
    rw [List.find?_append, List.find?_eq_none.mpr fun o' ho' => by simpa using hfront o' ho',
      Option.none_or, List.find?_cons_of_pos (by simpa using hself)]
  rw [getMode, hfind]

section Plain
variable (prog : List Byte) (args : Args)

theorem matchOption_mode {m : List Byte} {o : LongOption Mode}
    (hhelp : strncmp o.name (str "-help") o.name.length ≠ 0) :
    matchOption (prog :: m :: args) 0 o =
      if 2 ≤ (prog :: m :: args).count o.name then some (.foundTwice, none)
      else if o.name = m then some (.found o.val, if o.hasArg then args[0]? else none)
      else none := by
  have hcheck := checkForArg_count (helpFree_of_name hhelp (prog :: m :: args))
  by_cases htwice : 2 ≤ (prog :: m :: args).count o.name
  · rw [if_pos htwice] at hcheck ⊢
    rw [matchOption, hcheck]
    rfl
  · rw [if_neg htwice] at hcheck ⊢
    by_cases hname : o.name = m
    · subst hname
      have hprog : prog ≠ o.name := by
        rintro rfl
        simp at htwice
      have hidx : (prog :: o.name :: args).idxOf o.name = 1 := by
        rw [List.idxOf_cons_ne _ hprog, List.idxOf_cons_self]
      rw [if_pos (by simp), hidx] at hcheck
      rw [if_pos rfl, matchOption, hcheck]
      rfl
    · have hidx : ¬ checkForArg o.name (prog :: m :: args) = 1 := by
        rw [hcheck]
        split
        · by_cases hprog : prog = o.name
          · subst hprog
            simp
          · rw [List.idxOf_cons_ne _ hprog, List.idxOf_cons_ne _ (Ne.symm hname)]
            omega
        · decide
      have hne : ¬ checkForArg o.name (prog :: m :: args) = userInputError := by
        rw [hcheck, userInputError]
        split <;> omega
      rw [if_neg hname]
      simp only [matchOption, if_neg hne]
      rw [if_neg]
      simpa using hidx

theorem getOptMode_plain {front back : List (LongOption Mode)} {o : LongOption Mode}
    (htable : ModeTable (front ++ o :: back)) :
    ((∀ o' ∈ front ++ [o], FoundOnce (prog :: o.name :: args) o') ∧
        getOptMode (prog :: o.name :: args) (front ++ o :: back) = .mode o.val) ∨
      ((¬ ∀ o' ∈ front ++ [o], FoundOnce (prog :: o.name :: args) o') ∧
        getOptMode (prog :: o.name :: args) (front ++ o :: back) = .argFoundTwice) := by
  have hscan := (getOptFrom_spec (prog :: o.name :: args) 0
    (rfl : (front ++ o :: back).drop 0 = front ++ o :: back)).1
  rw [List.drop_zero] at hscan
  rw [getOptMode, getOpt, List.drop_zero, hscan]
  have hhelp := htable.help
  have hnames := htable.names
  clear hscan htable
  induction front with
  | nil =>
    simp only [List.nil_append, List.filterMap_cons, matchOption_mode prog args (hhelp o (by simp)),
      List.mem_singleton, forall_eq, FoundOnce]
    by_cases htwice : 2 ≤ (prog :: o.name :: args).count o.name
    · right
      simp only [if_pos htwice]
      exact ⟨by omega, rfl⟩
    · left
      simp only [if_neg htwice, if_true]
      exact ⟨by omega, rfl⟩
  | cons o' front ih =>
    have hne : o'.name ≠ o.name := by
      intro heq
      rw [List.cons_append, List.map_cons, heq] at hnames
      simp at hnames
    have hrest := ih (fun p hp => hhelp p (by simp_all)) (by
      rw [List.cons_append, List.map_cons] at hnames
      exact hnames.of_cons)
    simp only [List.cons_append, List.filterMap_cons, List.forall_mem_cons,
      matchOption_mode prog args (hhelp o' (by simp)), if_neg hne]
    by_cases htwice : 2 ≤ (prog :: o.name :: args).count o'.name
    · right
      simp only [if_pos htwice]
      exact ⟨fun h => by
        have := h.1
        rw [FoundOnce] at this
        omega, rfl⟩
    · simp only [if_neg htwice]
      have honce : FoundOnce (prog :: o.name :: args) o' := by
        rw [FoundOnce]
        omega
      simpa only [honce, true_and] using hrest

end Plain

theorem modeHandler_known (argv : Args) (m : Mode) : modeHandler argv m ≠ .unknownMode := by
  cases m with
  | crypt =>
    rw [modeHandler]
    split <;> simp
  | _ => simp [modeHandler]

theorem main_dispatch_agrees_iff (haveOcsp : Bool) {o : LongOption Mode}
    (ho : o ∈ modeOptions haveOcsp) (hrsa : o.name ≠ str "rsa") (prog : List Byte) (args : Args) :
    (main haveOcsp (prog :: o.name :: args) = main haveOcsp (prog :: (45 :: o.name) :: args) ∧
      main haveOcsp (prog :: o.name :: args) =
        (modeHandler (prog :: o.name :: args) o.val, prog :: o.name :: args)) ↔
      ∀ o' ∈ (modeOptions haveOcsp).takeWhile (fun o' => o'.name ≠ o.name) ++ [o],
        FoundOnce (prog :: o.name :: args) o' := by
  have htable := modeOptions_table haveOcsp
  generalize hmodes : modeOptions haveOcsp = table at *
  obtain ⟨front, back, rfl, hfront⟩ : ∃ front back, table = front ++ o :: back ∧
      ∀ o' ∈ front, o'.name ≠ o.name := by
    obtain ⟨front, back, rfl⟩ := List.append_of_mem ho
    refine ⟨front, back, rfl, fun o' ho' heq => ?_⟩
    have hnodup := htable.names
    rw [List.map_append, List.map_cons, List.nodup_append] at hnodup
    exact hnodup.2.2 o'.name (List.mem_map_of_mem ho') o.name List.mem_cons_self heq
  have hbefore : (front ++ o :: back).takeWhile (fun o' => decide (o'.name ≠ o.name)) = front := by
    rw [List.takeWhile_append_of_pos fun o' ho' => by simpa using hfront o' ho',
      List.takeWhile_cons_of_neg (by simp), List.append_nil]
  have hval : o.val ≠ .rsa := fun h => hrsa (htable.legacy o ho h)
  have hdashed : main haveOcsp (prog :: (45 :: o.name) :: args) =
      (modeHandler (prog :: o.name :: args) o.val, prog :: o.name :: args) := by
    simp only [main, List.headD_cons, if_true, List.tail_cons, hmodes, getMode_name htable,
      Flag.mode.injEq, if_neg hval, flagHandler]
  have hplain : main haveOcsp (prog :: o.name :: args) =
      (flagHandler (prog :: o.name :: args)
        (getOptMode (prog :: o.name :: args) (front ++ o :: back)), prog :: o.name :: args) := by
    simp only [main, if_neg (htable.plain o ho), hmodes]
  rw [hbefore, hdashed, hplain, and_self]
  rcases getOptMode_plain prog args htable with ⟨honce, hflag⟩ | ⟨htwice, hflag⟩
  · rw [hflag]
    exact iff_of_true rfl honce
  · rw [hflag]
    refine iff_of_false (fun h => ?_) htwice
    exact modeHandler_known _ o.val (congrArg Prod.fst h).symm

theorem main_x509_dispatch :
    main true [str "wolfssl", str "x509", str "-in", str "ca"] =
      main true [str "wolfssl", str "-x509", str "-in", str "ca"] :=
  ((main_dispatch_agrees_iff true (o := ⟨str "x509", false, .x509⟩) (by simp [modeOptions]) (by decide)
    (str "wolfssl") [str "-in", str "ca"]).mpr (by unfold FoundOnce; decide)).1

theorem main_mode_name_as_value :
    main true [str "wolfssl", str "x509", str "-in", str "ca", str "-out", str "ca"] =
        (.unknownMode,
          [str "wolfssl", str "x509", str "-in", str "ca", str "-out", str "ca"]) ∧
      main true [str "wolfssl", str "-x509", str "-in", str "ca", str "-out", str "ca"] =
        (.certSetup,
          [str "wolfssl", str "x509", str "-in", str "ca", str "-out", str "ca"]) := by
  decide

end WolfCLU
