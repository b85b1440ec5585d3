import WolfCLU.Client.Setup

namespace WolfCLU
open CString

inductive ConnectForm : List Byte → Bool → List Byte → List Byte → Prop
  | plain {H P : List Byte} : (58 : Byte) ∉ H → (91 : Byte) ∉ H →
      ConnectForm (H ++ 58 :: P) false H P
  | bracketed {H P : List Byte} : (93 : Byte) ∉ H → ConnectForm (91 :: H ++ 93 :: 58 :: P) true H P

def connectArgs (ipv6 : Bool) (H P : List Byte) : ClientArgs :=
  some (str "wolfclu") :: (if ipv6 then [some (str "-6")] else []) ++
    [some (str "-h"), some H, some (str "-p"), some P]

inductive OtherArgs : ClientArgs → Prop
  | nil : OtherArgs []
  | flag {f : List Byte} {rest : ClientArgs} :
      f ∈ [str "--disable_stdin_check", str "-d", str "-x", str "-C"] → OtherArgs rest →
      OtherArgs (some f :: rest)
  | valued {f : List Byte} {v : Option (List Byte)} {rest : ClientArgs} :
      f ∈ [str "-M", str "-A", str "-S", str "-v"] → OtherArgs rest →
      OtherArgs (some f :: v :: rest)

def connectOption : LongOption ClientOption := ⟨str "-connect", true, .connect⟩

def HelpAsked (argv : Args) : Prop :=
  ∃ o ∈ clientOptions, o.val = .help ∧ matchOption argv 1 o ≠ none

structure ConnectExact (argv : Args) (s : List Byte) (run : ClientRun) : Prop where
  started : ∀ args, run.started = some args → ∃ ipv6 H P rest, ConnectForm s ipv6 H P ∧
    args = connectArgs ipv6 H P ++ rest ∧ OtherArgs rest
  refused : run.started = none → Fails run.ret ∨ HelpAsked argv

def ConnectHandled (s : List Byte) : Prop :=
  ∀ env argv, matchOption argv 1 connectOption = some (.found .connect, some s) →
    ∃ run, client env argv = some run ∧ ConnectExact argv s run

def MisplacedBracket (s : List Byte) : Prop :=
  ∃ before H rest, s = before ++ 91 :: H ++ 93 :: rest ∧ (91 : Byte) ∉ before ∧ (93 : Byte) ∉ H ∧
    H ≠ [] ∧ 2 ≤ rest.length ∧ (58 : Byte) ∈ s ∧ (before ≠ [] ∨ rest.head? ≠ some 58)

def connectParse (s : List Byte) : Option (Bool × List Byte × List Byte) :=
  match strstr (str "[") s with
  | none =>
    if (58 : Byte) ∈ s then
      some (false, s.takeWhile (· ≠ 58), s.drop ((s.takeWhile (· ≠ 58)).length + 1))
    else none
  | some start =>
    let idx := (s.drop start).idxOf 93
    if idx + 2 ≥ (s.drop start).length ∨ (58 : Byte) ∉ s ∨ idx < 2 then none
    else some (true, (s.drop 1).take (idx - 1), s.drop (idx + 2))

theorem OtherArgs.append {args rest : ClientArgs} (h : OtherArgs args) (hrest : OtherArgs rest) :
    OtherArgs (args ++ rest) := by
  induction h with
  | nil => exact hrest
  | flag hf _ ih => exact .flag hf ih
  | valued hf _ ih => exact .valued hf ih

section Step
variable {env : ClientEnv} {s : ClientState}
open ClientState

theorem strstr_colon_none {s : List Byte} : strstr (str ":") s = none ↔ (58 : Byte) ∉ s := by
  rw [← Option.not_isSome_iff_eq_none, isSome_strstr, show str ":" = [58] from rfl,
    List.singleton_infix_iff]

theorem clientStart_eq (argv : Args) : clientStart argv =
    { argv := argv, ret := wolfcluSuccess, host := none, idx := 0, verify := false,
      noservername := false, clientArgv := [some (str "wolfclu")], ended := none } := rfl

theorem fatal_ne_success : (wolfcluFatalError = wolfcluSuccess) = False := by decide

theorem whenOk_of_ok {f : ClientState → ClientState} (h : s.ret = wolfcluSuccess) :
    s.whenOk f = f s := if_pos h

theorem whenOk_of_fails {f : ClientState → ClientState} (h : s.ret ≠ wolfcluSuccess) :
    s.whenOk f = s := if_neg h

theorem whenOk_failed (s : ClientState) (f : ClientState → ClientState)
    (h : s.ret ≠ wolfcluSuccess) :
    (s.whenOk f).ret ≠ wolfcluSuccess ∧ (s.whenOk f).ended = s.ended ∧ (s.whenOk f).argv = s.argv := by
  rw [whenOk_of_fails h]
  exact ⟨h, rfl, rfl⟩

theorem fail_fails : s.fail.ret ≠ wolfcluSuccess := by
  intro h
  exact fatal_ne_success.mp h

theorem addClientArg_room {arg : Option (List Byte)} (h : s.clientArgv.length < maxClientArgs) :
    s.addClientArg arg = { s with clientArgv := s.clientArgv ++ [arg], ret := wolfcluSuccess } :=
  if_neg (Nat.not_le.mpr h)

theorem addPair_room {flag : List Byte} {arg : Option (List Byte)}
    (h : s.clientArgv.length + 1 < maxClientArgs) :
    s.addPair flag arg =
      { s with clientArgv := s.clientArgv ++ [some flag, arg], ret := wolfcluSuccess } := by
  have hsecond : (s.clientArgv ++ [some flag]).length < maxClientArgs := by
    simpa using h
  rw [addPair, addClientArg_room (by omega), whenOk_of_ok rfl, addClientArg_room hsecond]
  simp

def connectTail (env : ClientEnv) (optarg : List Byte) (ipv6 : Bool) (s : ClientState) :
    ClientState :=
  (s.whenOk (connectHost env optarg ipv6)).whenOk fun s =>
    s.addPair (str "-p") (some (optarg.drop (s.idx + 1)))

def hostPart (optarg : List Byte) (ipv6 : Bool) (idx : Nat) : List Byte :=
  if ipv6 then (optarg.drop 1).take (idx - 2) else optarg.take idx

def HostRead (env : ClientEnv) (ipv6 : Bool) (idx : Nat) : Prop :=
  env.malloc (idx + 1) = true ∧ (ipv6 = true → 2 < idx)

theorem connectHost_read {optarg : List Byte} {ipv6 : Bool}
    (hroom : s.clientArgv.length + 1 < maxClientArgs) (hok : s.ret = wolfcluSuccess)
    (h : HostRead env ipv6 s.idx) :
    s.connectHost env optarg ipv6 = { s with
      host := some (hostPart optarg ipv6 s.idx)
      clientArgv := s.clientArgv ++ [some (str "-h"), some (hostPart optarg ipv6 s.idx)]
      ret := wolfcluSuccess } := by
  obtain ⟨hmalloc, hlong⟩ := h
  cases ipv6 with
  | true =>
    have hidx : ¬ s.idx ≤ 2 := Nat.not_le.mpr (hlong rfl)
    simp only [connectHost, if_pos hmalloc, if_true, if_neg hidx, hostPart]
    refine (whenOk_of_ok ?_).trans (addPair_room ?_)
    · exact hok
    · exact hroom
  | false =>
    simp only [connectHost, if_pos hmalloc, Bool.false_eq_true, if_false, hostPart]
    refine (whenOk_of_ok ?_).trans (addPair_room ?_)
    · exact hok
    · exact hroom

theorem connectHost_unread {optarg : List Byte} {ipv6 : Bool} (h : ¬ HostRead env ipv6 s.idx) :
    (s.connectHost env optarg ipv6).ret ≠ wolfcluSuccess ∧
      (s.connectHost env optarg ipv6).ended = s.ended ∧
      (s.connectHost env optarg ipv6).argv = s.argv := by
  unfold connectHost
  by_cases hmalloc : env.malloc (s.idx + 1) = true
  · rw [if_pos hmalloc]
    have hshort : ipv6 = true ∧ s.idx ≤ 2 := by
      by_contra hno
      apply h
      refine ⟨hmalloc, ?_⟩
      intro hipv6
      by_contra hle
      exact hno ⟨hipv6, by omega⟩
    simp only [hshort.1, if_true, if_pos hshort.2]
    rw [whenOk_of_fails fail_fails]
    exact ⟨fail_fails, rfl, rfl⟩
  · rw [if_neg hmalloc]
    exact ⟨fail_fails, rfl, rfl⟩

theorem connectTail_read {optarg : List Byte} {ipv6 : Bool}
    (hroom : s.clientArgv.length + 3 < maxClientArgs) (hok : s.ret = wolfcluSuccess)
    (h : HostRead env ipv6 s.idx) :
    connectTail env optarg ipv6 s = { s with
      host := some (hostPart optarg ipv6 s.idx)
      clientArgv := s.clientArgv ++ [some (str "-h"), some (hostPart optarg ipv6 s.idx),
        some (str "-p"), some (optarg.drop (s.idx + 1))]
      ret := wolfcluSuccess } := by
  rw [connectTail, whenOk_of_ok hok, connectHost_read (by omega) hok h, whenOk_of_ok rfl,
    addPair_room (by simp only [List.length_append, List.length_cons, List.length_nil]; omega)]
  simp

theorem connectTail_unread {optarg : List Byte} {ipv6 : Bool} (hok : s.ret = wolfcluSuccess)
    (h : ¬ HostRead env ipv6 s.idx) :
    (connectTail env optarg ipv6 s).ret ≠ wolfcluSuccess ∧
      (connectTail env optarg ipv6 s).ended = s.ended ∧
      (connectTail env optarg ipv6 s).argv = s.argv := by
  have hhost := @connectHost_unread env s optarg ipv6 h
  rw [connectTail, whenOk_of_ok hok, whenOk_of_fails hhost.1]
  exact hhost

theorem connectTail_failed {optarg : List Byte} {ipv6 : Bool} (h : s.ret ≠ wolfcluSuccess) :
    connectTail env optarg ipv6 s = s := by
  rw [connectTail, whenOk_of_fails h, whenOk_of_fails h]

structure ConnectRead (env : ClientEnv) (argv : Args) (optarg : List Byte) (s : ClientState) :
    Prop where
  running : s.ended = none
  argv : s.argv = argv
  read : s.ret = wolfcluSuccess → ∃ ipv6 H P, connectParse optarg = some (ipv6, H, P) ∧
    s.host = some H ∧ s.clientArgv = connectArgs ipv6 H P
  succeeds : (∀ n, env.malloc n = true) → connectParse optarg ≠ none → s.ret = wolfcluSuccess

theorem connectRead_failed {argv : Args} {optarg : List Byte} (hended : s.ended = none)
    (hargv : s.argv = argv) (hret : s.ret ≠ wolfcluSuccess)
    (h : ¬ ∀ n, env.malloc n = true) : ConnectRead env argv optarg s :=
  ⟨hended, hargv, fun hok => absurd hok hret, fun hall => absurd hall h⟩

theorem connectRead_refused {argv : Args} {optarg : List Byte} (hended : s.ended = none)
    (hargv : s.argv = argv) (hret : s.ret ≠ wolfcluSuccess)
    (h : connectParse optarg = none) : ConnectRead env argv optarg s :=
  ⟨hended, hargv, fun hok => absurd hok hret, fun _ hne => absurd h hne⟩

theorem connect_plain (argv : Args) {optarg : List Byte} (h : strstr (str "[") optarg = none) :
    ConnectRead env argv optarg ((clientStart argv).connect env optarg) := by
  by_cases hcolon : (58 : Byte) ∈ optarg
  · have hsome : strstr (str ":") optarg ≠ none := fun hnone => strstr_colon_none.mp hnone hcolon
    have hparse : connectParse optarg = some (false, optarg.takeWhile (· ≠ 58),
        optarg.drop ((optarg.takeWhile (· ≠ 58)).length + 1)) := by
      simp only [connectParse, h, if_pos hcolon]
    have htake : optarg.take (optarg.takeWhile (· ≠ 58)).length = optarg.takeWhile (· ≠ 58) :=
      (List.prefix_iff_eq_take.mp (List.takeWhile_prefix _)).symm
    have hconnect : (clientStart argv).connect env optarg = connectTail env optarg false
        { clientStart argv with idx := (optarg.takeWhile (· ≠ 58)).length } := by
      simp only [connect, h, if_neg hsome, Option.isSome_none, connectTail]
      rw [if_pos ⟨rfl, trivial⟩]
    rw [hconnect]
    by_cases hread : HostRead env false (optarg.takeWhile (· ≠ 58)).length
    · rw [connectTail_read (by simp [clientStart_eq, maxClientArgs]) rfl hread]
      refine ⟨rfl, rfl, fun _ => ⟨_, _, _, hparse, ?_, ?_⟩, fun _ _ => rfl⟩
      · simp only [hostPart, Bool.false_eq_true, if_false, htake]
      · simp only [hostPart, Bool.false_eq_true, if_false, htake]
        rfl
    · obtain ⟨hret, hended, hargv⟩ := @connectTail_unread env
        { clientStart argv with idx := (optarg.takeWhile (· ≠ 58)).length } optarg false rfl hread
      refine connectRead_failed hended hargv hret ?_
      intro hall
      exact hread ⟨hall _, fun h => Bool.noConfusion h⟩
  · have hnone : strstr (str ":") optarg = none := strstr_colon_none.mpr hcolon
    have hparse : connectParse optarg = none := by
      simp only [connectParse, h, if_neg hcolon]
    have hconnect : (clientStart argv).connect env optarg =
        connectTail env optarg false (clientStart argv).fail := by
      simp only [connect, h, if_pos hnone, Option.isSome_none, connectTail]
      rw [if_neg fun hand => fail_fails hand.1]
    rw [hconnect, connectTail_failed fail_fails]
    exact connectRead_refused rfl rfl fail_fails hparse

theorem connectBracket_read {ipv6 : List Byte} (hroom : s.clientArgv.length < maxClientArgs)
    (hok : s.ret = wolfcluSuccess) (h : ipv6.idxOf 93 + 2 < ipv6.length) :
    s.connectBracket ipv6 = { s with
      idx := ipv6.idxOf 93 + 1
      clientArgv := s.clientArgv ++ [some (str "-6")]
      ret := wolfcluSuccess } := by
  have hfound : ¬ ipv6.idxOf 93 = ipv6.length := by omega
  have hspace : ¬ (s.ret = wolfcluSuccess ∧ ipv6.idxOf 93 + 2 ≥ ipv6.length) := by
    intro hand
    omega
  simp only [connectBracket, if_neg hfound, if_neg hspace]
  refine (whenOk_of_ok ?_).trans (addClientArg_room ?_)
  · exact hok
  · exact hroom

theorem connectBracket_failed {ipv6 : List Byte} (h : ¬ ipv6.idxOf 93 + 2 < ipv6.length) :
    (s.connectBracket ipv6).ret ≠ wolfcluSuccess ∧ (s.connectBracket ipv6).ended = s.ended ∧
      (s.connectBracket ipv6).argv = s.argv := by
  simp only [connectBracket]
  by_cases hfound : ipv6.idxOf 93 = ipv6.length
  · rw [if_pos hfound, if_neg fun hand => @fail_fails s hand.1]
    exact whenOk_failed { s.fail with idx := _ } _ (@fail_fails s)
  · rw [if_neg hfound]
    by_cases hok : s.ret = wolfcluSuccess
    · rw [if_pos ⟨hok, by omega⟩]
      exact whenOk_failed { s.fail with idx := _ } _ (@fail_fails s)
    · rw [if_neg fun hand => hok hand.1]
      exact whenOk_failed { s with idx := _ } _ hok

theorem connect_bracket (argv : Args) {optarg : List Byte} {start : Nat}
    (h : strstr (str "[") optarg = some start) :
    ConnectRead env argv optarg ((clientStart argv).connect env optarg) := by
  have hconnect : (clientStart argv).connect env optarg = connectTail env optarg true
      (if strstr (str ":") optarg = none then
        ((clientStart argv).connectBracket (optarg.drop start)).fail
      else (clientStart argv).connectBracket (optarg.drop start)) := by
    simp only [connect, h, Option.isSome_some, connectTail, reduceCtorEq, and_false, if_false]
  rw [hconnect]
  by_cases hroom : (optarg.drop start).idxOf 93 + 2 < (optarg.drop start).length
  · rw [connectBracket_read (by simp [clientStart_eq, maxClientArgs]) rfl hroom]
    by_cases hcolon : (58 : Byte) ∈ optarg
    · have hsome : strstr (str ":") optarg ≠ none := fun hnone =>
        strstr_colon_none.mp hnone hcolon
      rw [if_neg hsome]
      by_cases hread : HostRead env true ((optarg.drop start).idxOf 93 + 1)
      · have hlong := hread.2 rfl
        have hparse : connectParse optarg = some (true,
            (optarg.drop 1).take ((optarg.drop start).idxOf 93 - 1),
            optarg.drop ((optarg.drop start).idxOf 93 + 2)) := by
          simp only [connectParse, h]
          rw [if_neg]
          rintro (hle | hno | hshort)
          · omega
          · exact hno hcolon
          · omega
        rw [connectTail_read (by simp [clientStart_eq, maxClientArgs]) rfl hread]
        exact ⟨rfl, rfl, fun _ => ⟨_, _, _, hparse, rfl, rfl⟩, fun _ _ => rfl⟩
      · obtain ⟨hret, hended, hargv⟩ := @connectTail_unread env { clientStart argv with
          idx := (optarg.drop start).idxOf 93 + 1
          clientArgv := (clientStart argv).clientArgv ++ [some (str "-6")]
          ret := wolfcluSuccess } optarg true rfl hread
        refine ⟨hended, hargv, fun hok => absurd hok hret, ?_⟩
        intro hall hne
        refine absurd ⟨hall _, fun _ => ?_⟩ hread
        by_contra hshort
        apply hne
        simp only [connectParse, h]
        exact if_pos (Or.inr (Or.inr (by omega)))
    · rw [if_pos (strstr_colon_none.mpr hcolon), connectTail_failed fail_fails]
      refine connectRead_refused rfl rfl fail_fails ?_
      simp only [connectParse, h]
      exact if_pos (Or.inr (Or.inl hcolon))
  · obtain ⟨hret, hended, hargv⟩ := @connectBracket_failed (clientStart argv) _ hroom
    have hparse : connectParse optarg = none := by
      simp only [connectParse, h]
      exact if_pos (Or.inl (by omega))
    split
    · rw [connectTail_failed fail_fails]
      exact connectRead_refused hended hargv fail_fails hparse
    · rw [connectTail_failed hret]
      exact connectRead_refused hended hargv hret hparse

theorem connect_read (argv : Args) (optarg : List Byte) :
    ConnectRead env argv optarg ((clientStart argv).connect env optarg) := by
  cases h : strstr (str "[") optarg with
  | none => exact connect_plain argv h
  | some start => exact connect_bracket argv h

end Step

section Parse
variable {s : List Byte} {ipv6 : Bool} {H P : List Byte}

structure BracketSplit (s before H rest : List Byte) : Prop where
  text : s = before ++ 91 :: H ++ 93 :: rest
  first : (91 : Byte) ∉ before
  closed : (93 : Byte) ∉ H
  host : H ≠ []
  port : 2 ≤ rest.length
  colon : (58 : Byte) ∈ s

theorem connectParse_split {before rest : List Byte} (h : BracketSplit s before H rest) :
    connectParse s = some (true, (s.drop 1).take H.length, s.drop (H.length + 3)) := by
  have hstart : strstr (str "[") s = some before.length := by
    rw [h.text, show str "[" = [91] from rfl, List.append_assoc, strstr_append_of_not_mem h.first]
    simp [strstr]
  have hdrop : s.drop before.length = 91 :: H ++ 93 :: rest := by
    rw [h.text, List.append_assoc, List.drop_left]
  have hidx : (91 :: H ++ 93 :: rest).idxOf (93 : Byte) = H.length + 1 := by
    rw [List.idxOf_append_of_notMem (by simp [h.closed]), List.idxOf_cons_self, List.length_cons,
      Nat.add_zero]
  have hpos := List.length_pos_iff.mpr h.host
  have hport := h.port
  simp only [connectParse, hstart, hdrop, hidx, List.length_append, List.length_cons]
  rw [if_neg]
  · rfl
  · rintro (hle | hno | hshort)
    · omega
    · exact hno h.colon
    · omega

theorem connectParse_bracket {start : Nat} (hstart : strstr (str "[") s = some start)
    (h : connectParse s ≠ none) : ∃ before H rest, BracketSplit s before H rest := by
  obtain ⟨hfirst, htext⟩ := strstr_singleton hstart
  have hdrop : s.drop start = 91 :: s.drop (start + 1) := by
    obtain ⟨hle, hpre, _⟩ := strstr_eq_some.mp hstart
    obtain ⟨rest, hrest⟩ := hpre
    rw [← List.drop_drop, ← hrest]
    rfl
  simp only [connectParse, hstart, hdrop, ne_eq, ite_eq_left_iff, not_forall] at h
  obtain ⟨hchecks, -⟩ := h
  simp only [not_or, not_le, not_lt, not_not, ge_iff_le] at hchecks
  obtain ⟨hroom, hcolon, hlong⟩ := hchecks
  rw [List.idxOf_cons_ne _ (by decide)] at hroom hlong
  have hmem : (93 : Byte) ∈ s.drop (start + 1) := by
    rw [← List.idxOf_lt_length_iff]
    simp only [List.length_cons] at hroom
    omega
  obtain ⟨H, rest, hsplit, hclosed⟩ := List.eq_append_cons_of_mem hmem
  have hidx : (s.drop (start + 1)).idxOf 93 = H.length := by
    rw [hsplit, List.idxOf_append_of_notMem hclosed, List.idxOf_cons_self, Nat.add_zero]
  rw [hidx, hsplit] at hroom
  rw [hidx] at hlong
  simp only [List.length_cons, List.length_append] at hroom
  refine ⟨s.take start, H, rest, ?_, hfirst, hclosed, ?_, by omega, hcolon⟩
  · rw [List.append_assoc, List.cons_append, ← hsplit]
    exact htext
  · rintro rfl
    simp at hlong

theorem connectParse_form (h : connectParse s = some (ipv6, H, P)) (hplaced : ¬ MisplacedBracket s) :
    ConnectForm s ipv6 H P := by
  rcases hstart : strstr (str "[") s with _ | start
  · have hbracket : (91 : Byte) ∉ s := by
      rw [← List.singleton_infix_iff, ← isSome_strstr, show [91] = str "[" from rfl, hstart]
      decide
    simp only [connectParse, hstart] at h
    split at h
    · rename_i hcolon
      simp only [Option.some.injEq, Prod.mk.injEq] at h
      obtain ⟨rfl, rfl, rfl⟩ := h
      obtain ⟨host, port, rfl, hhost⟩ := List.eq_append_cons_of_mem hcolon
      have hback : (host ++ 58 :: port).drop (host.length + 1) = port := by
        rw [← List.drop_drop, List.drop_left]
        rfl
      rw [takeWhile_before hhost, hback]
      exact .plain hhost fun hmem => hbracket (List.mem_append_left _ hmem)
    · cases h
  · obtain ⟨before, host, rest, hsplit⟩ := connectParse_bracket hstart (by simp [h])
    rw [connectParse_split hsplit] at h
    simp only [Option.some.injEq, Prod.mk.injEq] at h
    obtain ⟨rfl, rfl, rfl⟩ := h
    have hwell : before = [] ∧ rest.head? = some 58 := by
      by_contra hno
      apply hplaced
      refine ⟨before, host, rest, hsplit.text, hsplit.first, hsplit.closed, hsplit.host, hsplit.port,
        hsplit.colon, ?_⟩
      by_contra hneither
      rw [not_or, not_not, not_not] at hneither
      exact hno hneither
    obtain ⟨rfl, hhead⟩ := hwell
    obtain ⟨port, rfl⟩ := List.head?_eq_some_iff.mp hhead
    have htext := hsplit.text
    rw [List.nil_append] at htext
    have hhost : (s.drop 1).take host.length = host := by
      rw [htext, List.cons_append, List.drop_one, List.tail_cons, List.take_left]
    have hport : s.drop (host.length + 3) = port := by
      rw [htext, List.cons_append, show host.length + 3 = 1 + (host.length + 2) by omega,
        ← List.drop_drop, ← List.drop_drop, List.drop_one, List.tail_cons, List.drop_left]
      rfl
    rw [hhost, hport]
    rw [htext]
    exact .bracketed hsplit.closed

theorem misplaced_not_form (h : MisplacedBracket s) : ¬ ConnectForm s true H P := by
  rintro hform
  obtain ⟨before, host, rest, htext, hfirst, hclosed, _, _, _, hplace⟩ := h
  cases hform with
  | bracketed hH =>
    cases before with
    | nil =>
      simp only [List.nil_append, List.cons_append, List.cons.injEq, true_and] at htext
      obtain ⟨-, hrest⟩ := field_unique hH hclosed htext
      rw [← hrest] at hplace
      simp at hplace
    | cons c before =>
      simp only [List.cons_append, List.cons.injEq] at htext
      exact hfirst (htext.1 ▸ List.mem_cons_self)

end Parse

end WolfCLU
