import WolfCLU.Client.ConnectArgs

namespace WolfCLU
open CString

structure ConnectKept (argv : Args) (parsed : Option (Bool × List Byte × List Byte))
    (s : ClientState) : Prop where
  tokens : s.argv = argv
  ended : ∀ e, s.ended = some e → ∃ ret, e = .returned ret ∧ (Fails ret ∨ HelpAsked argv)
  read : s.ret = wolfcluSuccess → ∃ ipv6 H P rest, parsed = some (ipv6, H, P) ∧
    s.clientArgv = connectArgs ipv6 H P ++ rest ∧ OtherArgs rest

namespace ConnectKept
open ClientState
variable {argv : Args} {parsed : Option (Bool × List Byte × List Byte)} {s : ClientState}

theorem whenOk {f : ClientState → ClientState} (h : ConnectKept argv parsed s)
    (hf : s.ret = wolfcluSuccess → ConnectKept argv parsed (f s)) :
    ConnectKept argv parsed (s.whenOk f) := by
  by_cases hok : s.ret = wolfcluSuccess
  · rw [whenOk_of_ok hok]
    exact hf hok
  · rw [whenOk_of_fails hok]
    exact h

theorem fail (h : ConnectKept argv parsed s) : ConnectKept argv parsed s.fail :=
  ⟨h.tokens, h.ended, fun hok => absurd hok fail_fails⟩

theorem appended {args : ClientArgs} (h : ConnectKept argv parsed s) (hok : s.ret = wolfcluSuccess)
    (hargs : OtherArgs args) :
    ConnectKept argv parsed { s with clientArgv := s.clientArgv ++ args, ret := wolfcluSuccess } := by
  refine ⟨h.tokens, h.ended, ?_⟩
  intro _
  obtain ⟨ipv6, H, P, rest, hparsed, hread, hrest⟩ := h.read hok
  refine ⟨ipv6, H, P, rest ++ args, hparsed, ?_, hrest.append hargs⟩
  rw [← List.append_assoc, ← hread]

theorem addClientArg {f : List Byte}
    (hf : f ∈ [str "--disable_stdin_check", str "-d", str "-x", str "-C"])
    (h : ConnectKept argv parsed s) : ConnectKept argv parsed (s.whenOk (addClientArg (some f))) := by
  apply h.whenOk
  intro hok
  by_cases hroom : s.clientArgv.length < maxClientArgs
  · rw [addClientArg_room hroom]
    exact h.appended hok (.flag hf .nil)
  · rw [ClientState.addClientArg, if_pos (Nat.not_lt.mp hroom)]
    exact h.fail

theorem addPair {f : List Byte} {v : Option (List Byte)}
    (hf : f ∈ [str "-M", str "-A", str "-S", str "-v"]) (h : ConnectKept argv parsed s) :
    ConnectKept argv parsed (s.whenOk (addPair f v)) := by
  apply h.whenOk
  intro hok
  by_cases hroom : s.clientArgv.length + 1 < maxClientArgs
  · rw [addPair_room hroom]
    exact h.appended hok (.valued hf .nil)
  · by_cases hfirst : s.clientArgv.length < maxClientArgs
    · have hfull : (s.clientArgv ++ [some f]).length ≥ maxClientArgs := by
        simp only [List.length_append, List.length_singleton]
        omega
      rw [ClientState.addPair, addClientArg_room hfirst, whenOk_of_ok rfl, ClientState.addClientArg,
        if_pos hfull]
      exact ⟨h.tokens, h.ended, fun hret => absurd hret fail_fails⟩
    · rw [ClientState.addPair, ClientState.addClientArg, if_pos (Nat.not_lt.mp hfirst),
        whenOk_of_fails fail_fails]
      exact h.fail

theorem tail_not_connect : ∀ o ∈ clientOptions.tail, o.val ≠ .connect := by
  simp [clientOptions]

theorem option {env : ClientEnv} {o : LongOption ClientOption} {optarg : Option (List Byte)}
    (ho : o ∈ clientOptions.tail) (hmatch : matchOption s.argv 1 o ≠ none)
    (h : ConnectKept argv parsed s) : ConnectKept argv parsed (s.option env optarg o.val) := by
  have hmem : o ∈ clientOptions := List.mem_of_mem_tail ho
  rw [h.tokens] at hmatch
  cases hval : o.val with
  | connect => exact absurd hval (tail_not_connect o ho)
  | starttls => exact h.addPair (by simp)
  | caFile => exact h.addPair (by simp)
  | verifyReturnError =>
    apply h.whenOk
    intro _
    exact ⟨h.tokens, h.ended, h.read⟩
  | disableStdinChk => exact h.addClientArg (by simp)
  | noServerName => exact ⟨h.tokens, h.ended, h.read⟩
  | help =>
    refine ⟨h.tokens, ?_, h.read⟩
    intro e he
    obtain rfl := Option.some.inj he
    exact ⟨_, rfl, .inr ⟨o, hmem, hval, hmatch⟩⟩

theorem whenOk_addPair (f : List Byte) (v : Option (List Byte)) :
    (s.whenOk (ClientState.addClientArg (some f))).whenOk (ClientState.addClientArg v) =
      s.whenOk (ClientState.addPair f v) := by
  by_cases hok : s.ret = wolfcluSuccess
  · rw [whenOk_of_ok hok, whenOk_of_ok hok, ClientState.addPair]
  · rw [whenOk_of_fails hok, whenOk_of_fails hok, whenOk_of_fails hok]

theorem finish (env : ClientEnv) (h : ConnectKept argv parsed s) :
    ∃ s', ConnectKept argv parsed s' ∧ s.finish env =
      if s'.ret = wolfcluSuccess then
        { ret := if env.clientTest s'.clientArgv ≠ 0 then wolfcluFatalError else wolfcluSuccess
          started := some s'.clientArgv }
      else { ret := s'.ret, started := none } := by
  have hname : ConnectKept argv parsed (s.whenOk (ClientState.addPair (str "-S") s.host)) :=
    h.addPair (by simp)
  refine ⟨_, ?_, rfl⟩
  apply addClientArg (by simp)
  rw [whenOk_addPair]
  apply addPair (by simp)
  apply addClientArg (by simp)
  split
  · split
    · exact hname.addClientArg (by simp)
    · exact hname
  · split
    · exact h.addClientArg (by simp)
    · exact h

end ConnectKept

section Run
variable {env : ClientEnv} {argv : Args} {parsed : Option (Bool × List Byte × List Byte)}

theorem connectKept_run {s : ClientState} (h : ConnectKept argv parsed s) :
    ConnectKept argv parsed ((clientReader env).run 1 clientOptions.tail s) := by
  apply OptReader.run_invariant
  · intro o ho opt optarg s hmatch h
    cases opt with
    | foundTwice =>
      refine ⟨h.tokens, ?_, h.read⟩
      intro e he
      obtain rfl := Option.some.inj he
      exact ⟨_, rfl, .inl fails_fatal⟩
    | found val =>
      obtain rfl := matchOption_val hmatch
      refine h.option ho ?_
      intro hnone
      exact nomatch hnone.symm.trans hmatch
  · exact h

theorem connect_first {optarg : List Byte}
    (h : matchOption argv 1 connectOption = some (.found .connect, some optarg)) :
    (clientReader env).run 1 clientOptions (clientStart argv) =
      (clientReader env).run 1 clientOptions.tail ((clientStart argv).connect env optarg) := by
  have hmatch : matchOption ((clientReader env).argv (clientStart argv)) 1 connectOption =
      some (.found .connect, some optarg) := h
  rw [show clientOptions = connectOption :: clientOptions.tail from rfl, OptReader.run,
    if_pos (show (clientReader env).running (clientStart argv) = true from rfl), hmatch]
  rfl

theorem ConnectRead.kept {optarg : List Byte} {s : ClientState} (h : ConnectRead env argv optarg s) :
    ConnectKept argv (connectParse optarg) s := by
  refine ⟨h.argv, ?_, ?_⟩
  · intro e he
    rw [h.running] at he
    cases he
  · intro hok
    obtain ⟨ipv6, H, P, hparse, _, hargs⟩ := h.read hok
    refine ⟨ipv6, H, P, [], hparse, ?_, .nil⟩
    rw [hargs, List.append_nil]

structure ClientReads (argv : Args) (parsed : Option (Bool × List Byte × List Byte))
    (run : ClientRun) : Prop where
  started : ∀ args, run.started = some args → ∃ ipv6 H P rest, parsed = some (ipv6, H, P) ∧
    args = connectArgs ipv6 H P ++ rest ∧ OtherArgs rest
  refused : run.started = none → Fails run.ret ∨ HelpAsked argv

theorem client_reads (env : ClientEnv) {optarg : List Byte}
    (h : matchOption argv 1 connectOption = some (.found .connect, some optarg)) :
    ∃ run, client env argv = some run ∧ ClientReads argv (connectParse optarg) run := by
  have hread : ConnectRead env argv optarg ((clientStart argv).connect env optarg) :=
    connect_read argv optarg
  have hkept := @connectKept_run env _ _ _ hread.kept
  simp only [client, connect_first h]
  cases hended : ((clientReader env).run 1 clientOptions.tail
      ((clientStart argv).connect env optarg)).ended with
  | some e =>
    obtain ⟨ret, rfl, hret⟩ := hkept.ended e hended
    exact ⟨_, rfl, nofun, fun _ => hret⟩
  | none =>
    obtain ⟨s', hs', hfinish⟩ := hkept.finish env
    refine ⟨_, rfl, ?_⟩
    rw [hfinish]
    by_cases hok : s'.ret = wolfcluSuccess
    · rw [if_pos hok]
      refine ⟨?_, nofun⟩
      intro args hargs
      obtain rfl := Option.some.inj hargs
      exact hs'.read hok
    · rw [if_neg hok]
      exact ⟨nofun, fun _ => .inl hok⟩

theorem connectHandled_of_placed {optarg : List Byte} (h : ¬ MisplacedBracket optarg) :
    ConnectHandled optarg := by
  intro env argv hmatch
  obtain ⟨run, hrun, hreads⟩ := client_reads env hmatch
  refine ⟨run, hrun, ?_, hreads.refused⟩
  intro args hargs
  obtain ⟨ipv6, H, P, rest, hparse, hargs, hrest⟩ := hreads.started args hargs
  exact ⟨ipv6, H, P, rest, connectParse_form hparse h, hargs, hrest⟩

end Run

section Misplaced
variable {s : List Byte}
open ClientState

def connectEnv : ClientEnv := { malloc := fun _ => true, clientTest := fun _ => 0 }

def connectLine (s : List Byte) : Args := [str "wolfssl", str "s_client", str "-connect", s]

theorem abbreviatesHelp_bracket (h0 : (0 : Byte) ∉ s) (h : (91 : Byte) ∈ s) :
    abbreviatesHelp s = false := by
  refine decide_eq_false ?_
  rintro ⟨hzero, -⟩
  rw [strncmp_eq_zero, cstr_of_nul_free h0, List.take_length,
    cstr_of_nul_free (show (0 : Byte) ∉ str "-help" by decide)] at hzero
  rw [hzero] at h
  exact absurd (List.mem_of_mem_take h) (by decide)

theorem tail_unmatched (h0 : (0 : Byte) ∉ s) (h : (91 : Byte) ∈ s) :
    ∀ o ∈ clientOptions.tail, matchOption (connectLine s) 1 o = none := by
  intro o ho
  have hname : (91 : Byte) ∉ o.name ∧ o.name ∉ [str "wolfssl", str "s_client", str "-connect"] := by
    revert o
    decide
  have hne : o.name ≠ s := by
    rintro rfl
    exact hname.1 h
  have hhelp : ¬ HelpMatched (connectLine s) o := by
    rintro ⟨-, arg, harg, habb⟩
    simp only [connectLine, List.mem_cons, List.not_mem_nil, or_false] at harg
    rcases harg with rfl | rfl | rfl | rfl
    · exact absurd habb (by decide)
    · exact absurd habb (by decide)
    · exact absurd habb (by decide)
    · rw [abbreviatesHelp_bracket h0 h] at habb
      cases habb
  have hcount : (connectLine s).count o.name = 0 := by
    apply List.count_eq_zero_of_not_mem
    intro hmem
    rw [show connectLine s = [str "wolfssl", str "s_client", str "-connect"] ++ [s] from rfl] at hmem
    rcases List.mem_append.mp hmem with hmem | hmem
    · exact hname.2 hmem
    · exact hne (List.mem_singleton.mp hmem)
  have hhead : (connectLine s).head? ≠ some o.name := by
    intro hhead
    exact hname.2 (List.mem_cons.mpr (Or.inl (Option.some.inj hhead).symm))
  rw [matchOption_answer (by decide) (by decide) hhead, optionAnswer, if_neg hhelp, hcount]
  rfl

theorem connect_matched (h : (91 : Byte) ∈ s) :
    matchOption (connectLine s) 1 connectOption = some (.found .connect, some s) := by
  have hne : s ≠ str "-connect" := by
    rintro rfl
    exact absurd h (by decide)
  have hhelp : ¬ HelpMatched (connectLine s) connectOption := by
    rintro ⟨hhelp, -⟩
    exact absurd hhelp (by decide)
  have hlast : [s].count (str "-connect") = 0 := List.count_eq_zero_of_not_mem (by simp [hne.symm])
  have hcount : (connectLine s).count (str "-connect") = 1 := by
    rw [show connectLine s = [str "wolfssl", str "s_client", str "-connect"] ++ [s] from rfl,
      List.count_append, hlast]
    decide
  have hhead : (connectLine s).head? ≠ some connectOption.name :=
    show some (str "wolfssl") ≠ some (str "-connect") by decide
  rw [matchOption_answer (by decide) (by decide) hhead, optionAnswer, if_neg hhelp,
    show connectOption.name = str "-connect" from rfl, hcount]
  rfl

structure Room (k : Nat) (s : ClientState) : Prop where
  ok : s.ret = wolfcluSuccess
  free : s.clientArgv.length + k ≤ maxClientArgs

theorem Room.weaken {s : ClientState} {k j : Nat} (h : Room k s) (hle : j ≤ k) : Room j s :=
  ⟨h.ok, by have := h.free; omega⟩

theorem Room.addClientArg {s : ClientState} {k : Nat} {arg : Option (List Byte)}
    (h : Room (k + 1) s) : Room k (s.whenOk (addClientArg arg)) := by
  have hfree := h.free
  rw [whenOk_of_ok h.ok, addClientArg_room (by omega)]
  refine ⟨rfl, ?_⟩
  simp only [List.length_append, List.length_singleton]
  omega

theorem Room.addPair {s : ClientState} {k : Nat} {flag : List Byte} {arg : Option (List Byte)}
    (h : Room (k + 2) s) : Room k (s.whenOk (addPair flag arg)) := by
  have hfirst : Room (k + 1) (s.whenOk (ClientState.addClientArg (some flag))) := h.addClientArg
  rw [← ConnectKept.whenOk_addPair]
  exact hfirst.addClientArg

theorem Room.finish {s : ClientState} (env : ClientEnv) (h : Room 7 s) :
    (s.finish env).started ≠ none := by
  have hname : Room 5 (s.whenOk (ClientState.addPair (str "-S") s.host)) := h.addPair
  have hend : ∀ {s' : ClientState}, Room 4 s' →
      ((((s'.whenOk (ClientState.addClientArg (some (str "-x")))).whenOk
        (ClientState.addClientArg (some (str "-v")))).whenOk
        (ClientState.addClientArg (some (str "d")))).whenOk
        (ClientState.addClientArg (some (str "-C")))).ret = wolfcluSuccess := by
    intro s' h
    have hx : Room 3 (s'.whenOk (ClientState.addClientArg (some (str "-x")))) := h.addClientArg
    exact (hx.addClientArg.addClientArg.addClientArg : Room 0 _).ok
  have hverify : ∀ {s' : ClientState}, Room 5 s' → Room 4 (if s'.verify = false then
      s'.whenOk (ClientState.addClientArg (some (str "-d"))) else s') := by
    intro s' h
    split
    · exact h.addClientArg
    · exact h.weaken (by omega)
  simp only [ClientState.finish]
  rw [if_pos]
  · exact Option.some_ne_none _
  · apply hend
    apply hverify
    split
    · exact hname
    · exact h.weaken (by omega)

theorem client_starts (h0 : (0 : Byte) ∉ s) (hbracket : (91 : Byte) ∈ s)
    (hparse : connectParse s ≠ none) :
    ∃ run, client connectEnv (connectLine s) = some run ∧ run.started ≠ none := by
  have hread : ConnectRead connectEnv (connectLine s) s ((clientStart (connectLine s)).connect connectEnv s) :=
    connect_read (connectLine s) s
  have hok := hread.succeeds (fun _ => rfl) hparse
  obtain ⟨ipv6, H, P, _, _, hargs⟩ := hread.read hok
  have htail : ∀ o ∈ clientOptions.tail,
      matchOption ((clientReader connectEnv).argv ((clientStart (connectLine s)).connect connectEnv s)) 1 o =
        none := by
    intro o ho
    rw [show (clientReader connectEnv).argv = ClientState.argv from rfl, hread.argv]
    exact tail_unmatched h0 hbracket o ho
  have hroom : Room 7 ((clientStart (connectLine s)).connect connectEnv s) := by
    refine ⟨hok, ?_⟩
    rw [hargs]
    cases ipv6 <;> simp [connectArgs, maxClientArgs]
  refine ⟨_, ?_, hroom.finish connectEnv⟩
  simp only [client, connect_first (connect_matched hbracket), OptReader.run_unmatched htail,
    hread.running]

theorem connectArgs_six {ipv6 : Bool} {H P H' P' : List Byte} {rest rest' : ClientArgs}
    (h : connectArgs true H P ++ rest = connectArgs ipv6 H' P' ++ rest') : ipv6 = true := by
  cases ipv6 with
  | true => rfl
  | false =>
    have hsecond : some (str "-6") = some (str "-h") := (List.cons.inj (List.cons.inj h).2).1
    exact absurd hsecond (by decide)

theorem not_handled_of_misplaced (h0 : (0 : Byte) ∉ s) (h : MisplacedBracket s) :
    ¬ ConnectHandled s := by
  intro hhandled
  obtain ⟨before, host, tail, htext, hfirst, hclosed, hhost, hport, hcolon, _⟩ := id h
  have hsplit : BracketSplit s before host tail :=
    ⟨htext, hfirst, hclosed, hhost, hport, hcolon⟩
  have hbracket : (91 : Byte) ∈ s := by
    rw [htext]
    simp
  have hparse := connectParse_split hsplit
  have hmatch := connect_matched hbracket
  obtain ⟨run, hrun, hstarted⟩ := client_starts h0 hbracket (by simp [hparse])
  obtain ⟨args, hargs⟩ := Option.ne_none_iff_exists'.mp hstarted
  obtain ⟨_, hclient, hreads⟩ := client_reads connectEnv hmatch
  obtain rfl := Option.some.inj (hrun.symm.trans hclient)
  obtain ⟨_, hclient', hexact⟩ := hhandled connectEnv (connectLine s) hmatch
  obtain rfl := Option.some.inj (hrun.symm.trans hclient')
  obtain ⟨ipv6, H, P, rest, hparsed, hread, _⟩ := hreads.started args hargs
  rw [hparse] at hparsed
  simp only [Option.some.injEq, Prod.mk.injEq] at hparsed
  obtain ⟨rfl, -⟩ := hparsed
  obtain ⟨ipv6', H', P', rest', hform, hclaimed, _⟩ := hexact.started args hargs
  obtain rfl := connectArgs_six (hread.symm.trans hclaimed)
  exact misplaced_not_form h hform

theorem connect_handled_iff (s : List Byte) (h0 : (0 : Byte) ∉ s) :
    ConnectHandled s ↔ ¬ MisplacedBracket s := by
  constructor
  · intro hhandled hmisplaced
    exact not_handled_of_misplaced h0 hmisplaced hhandled
  · exact connectHandled_of_placed

theorem connect_handled_name : ConnectHandled (str "example.com:443") := by
  apply (connect_handled_iff _ (by decide)).mpr
  rintro ⟨before, H, rest, htext, -⟩
  have hbracket : (91 : Byte) ∈ str "example.com:443" := by
    rw [htext]
    simp
  exact absurd hbracket (by decide)

theorem connect_port_shortened : ¬ ConnectHandled (str "[::1]11111") := by
  apply not_handled_of_misplaced (by decide)
  refine ⟨[], str "::1", str "11111", ?_⟩
  decide

end Misplaced

end WolfCLU
