import WolfCLU.Crypto.ExplicitKey
import WolfCLU.Tools.GetOptRuns

namespace WolfCLU
open Buffer CString

inductive LineEnd where
  | none
  | lf
  | crlf
  deriving DecidableEq, Repr

def LineEnd.bytes : LineEnd → List Byte
  | .none => []
  | .lf => [10]
  | .crlf => [13, 10]

inductive PasswordSource where
  | pwd
  | k
  | pass
  | stdin (eol : LineEnd)
  | prompt
  deriving DecidableEq, Repr

def PasswordSource.arguments (password : List Byte) :
    PasswordSource → Option (List Byte) × Option (List Byte) × Option (List Byte)
  | .pwd => (some password, none, none)
  | .k => (none, some password, none)
  | .pass => (none, none, some (str "pass:" ++ password))
  | .stdin _ => (none, none, some (str "stdin"))
  | .prompt => (none, none, none)

def IsPassword (password : List Byte) : Prop := ∀ c ∈ password, c ≠ 13 ∧ c ≠ 10 ∧ c ≠ 0

instance (password : List Byte) : Decidable (IsPassword password) :=
  inferInstanceAs (Decidable (∀ c ∈ password, _))

def renameAlgo (arg : List Byte) : List Byte := ((oldAlgoName.lookup arg).map algoName).getD arg

def typedArgument (read argv : Args) (name : List Byte) : Option (List Byte) :=
  if Given read name then argv[read.idxOf name + 1]? else none

def typedPasswords (argv : Args) :
    Option (List Byte) × Option (List Byte) × Option (List Byte) :=
  (typedArgument (oldAlgo argv) argv (str "-pwd"),
    typedArgument (loweredArgs (oldAlgo argv)) argv (str "-k"),
    typedArgument (loweredArgs (oldAlgo argv)) argv (str "-pass"))

section Sources
variable {σ H : Type}

def PasswordSource.answered (env : SetupEnv σ H) (password : List Byte) : PasswordSource → Prop
  | .stdin eol => env.stdinLine = some (password ++ eol.bytes)
  | .prompt => env.promptPassword = some password
  | _ => True

def Supplies (env : SetupEnv σ H) (argv : Args) (source : PasswordSource) (password : List Byte) :
    Prop :=
  typedPasswords argv = source.arguments password ∧ source.answered env password

def prepared (env : SetupEnv σ H) (argv : Args) (action : Action) :
    Option (Int × AlgoState × SetupState H) :=
  if 0 < checkForArg (str "-h") argv then none
  else
    let argv := oldAlgo argv
    let (block, st) := getAlgo (env.alloc .mode) argv env.uninitialised
    if block < 0 then none
    else if ¬ env.alloc .pwdKey ∨ ¬ env.alloc .iv ∨ ¬ env.alloc .key then none
    else
      let s := (setupReader env block.toNat st.size.toNat).run 1 cryptOptions
        (SetupState.initial env argv action block.toNat st.size.toNat)
      some (block, st, s.check env block.toNat st.size.toNat)

def PasswordSource.renames (password : List Byte) (source : PasswordSource) : Bool :=
  (source = .pwd || source = .k) && (oldAlgoName.lookup password).isSome

def PasswordSource.splitsCrlf (keySize : Nat) (password : List Byte) (source : PasswordSource) :
    Bool :=
  source = .stdin .crlf && password.length + 2 = keySize

def PasswordSource.limit (block keySize : Nat) : PasswordSource → Nat
  | .prompt => keySize + block - 1
  | _ => keySize - 1

def PasswordSource.left (block keySize : Nat) (password : List Byte) (source : PasswordSource) :
    List Byte :=
  if source.renames password then renameAlgo password
  else if source.splitsCrlf keySize password then password ++ [13]
  else password.take (source.limit block keySize)

def SourcesAgree (keySize : Nat) (source₁ source₂ : PasswordSource) (password : List Byte) : Prop :=
  source₁.renames password = source₂.renames password ∧
    source₁.splitsCrlf keySize password = source₂.splitsCrlf keySize password ∧
    (password.length < keySize ∨ (source₁ = .prompt ↔ source₂ = .prompt))

instance (keySize : Nat) (source₁ source₂ : PasswordSource) (password : List Byte) :
    Decidable (SourcesAgree keySize source₁ source₂ password) :=
  inferInstanceAs (Decidable (_ ∧ _ ∧ _))

structure PasswordRun (env : SetupEnv σ H) (argv : Args) (action : Action)
    (source : PasswordSource) (password : List Byte) (block : Int) (algo : AlgoState)
    (s : SetupState H) : Prop where
  prepared : prepared env argv action = some (block, algo, s)
  ok : s.ret = wolfcluSuccess
  noKey : s.keyCheck = false
  supplied : Supplies env argv source password

variable {env : SetupEnv σ H}

theorem setup_prepared {argv : Args} {action : Action} {block : Int} {algo : AlgoState}
    {s : SetupState H} (h : prepared env argv action = some (block, algo, s)) :
    setup env argv action = runCipher env algo block.toNat algo.size.toNat s := by
  simp only [prepared, setup] at h ⊢
  split_ifs at h ⊢
  simp only [Option.some.injEq, Prod.mk.injEq] at h
  obtain ⟨rfl, rfl, rfl⟩ := h
  rfl

theorem prepared_cases {argv : Args} {action : Action} {block : Int} {algo : AlgoState}
    {s : SetupState H} (h : prepared env argv action = some (block, algo, s)) :
    ValidAlgo block algo ∧ s = ((setupReader env block.toNat algo.size.toNat).run 1 cryptOptions
      (SetupState.initial env (oldAlgo argv) action block.toNat algo.size.toNat)).check env
        block.toNat algo.size.toNat := by
  simp only [prepared] at h
  split_ifs at h with hhelp hblock
  simp only [Option.some.injEq, Prod.mk.injEq] at h
  obtain ⟨rfl, rfl, rfl⟩ := h
  exact ⟨getAlgo_valid rfl (not_lt.mp hblock), rfl⟩

end Sources

section Lines
variable {password : List Byte}

theorem strstr_crlf_none {line : List Byte} (h : (10 : Byte) ∉ line) : strstr [13, 10] line = none := by
  rw [strstr_eq_none]
  intro j _ hpre
  have hmem : (10 : Byte) ∈ line.drop j := hpre.subset (by decide)
  exact h (List.mem_of_mem_drop hmem)

theorem strstr_crlf_some (line rest : List Byte) :
    (strstr [13, 10] (line ++ 13 :: 10 :: rest)).isSome := by
  rw [Option.isSome_iff_ne_none]
  intro hnone
  refine strstr_eq_none.mp hnone line.length (by simp) ?_
  rw [List.drop_left]
  exact ⟨rest, rfl⟩

theorem IsPassword.newline_free (h : IsPassword password) : (10 : Byte) ∉ password := fun hmem =>
  (h 10 hmem).2.1 rfl

theorem IsPassword.nul_free (h : IsPassword password) : (0 : Byte) ∉ password := fun hmem =>
  (h 0 hmem).2.2 rfl

theorem IsPassword.take (h : IsPassword password) (n : Nat) : IsPassword (password.take n) :=
  fun c hc => h c (List.mem_of_mem_take hc)

theorem chopLine_newline_free {line : List Byte} (h : (10 : Byte) ∉ line) : chopLine line = line := by
  rw [chopLine, strstr_crlf_none h, if_neg (by decide), List.takeWhile_eq_self_iff]
  intro c hc
  exact bne_iff_ne.mpr fun h10 => h (h10 ▸ hc)

theorem chopLine_lf (h : IsPassword password) : chopLine (password ++ [10]) = password := by
  have hnone : strstr [13, 10] (password ++ [10]) = none := by
    rw [strstr_eq_none]
    intro j _ hpre
    rcases lt_or_ge j password.length with hj | hj
    · have hhead : (password ++ [10])[j]? = some 13 := by
        obtain ⟨rest, hrest⟩ := hpre
        rw [← List.head?_drop, ← hrest]
        rfl
      rw [List.getElem?_append_left hj] at hhead
      exact (h 13 (List.mem_of_getElem? hhead)).1 rfl
    · have := hpre.length_le
      simp at this
      omega
  rw [chopLine, hnone, if_neg (by decide), List.takeWhile_append_of_pos]
  · simp
  · intro c hc
    exact bne_iff_ne.mpr (h c hc).2.1

theorem chopLine_crlf (h : IsPassword password) : chopLine (password ++ [13, 10]) = password := by
  rw [chopLine, if_pos (strstr_crlf_some password []), List.takeWhile_append_of_pos]
  · simp
  · intro c hc
    simpa using ⟨(h c hc).1, (h c hc).2.1⟩

theorem cstr_line (h : IsPassword password) (eol : LineEnd) (n : Nat) :
    cstr ((password ++ eol.bytes).take n) = (password ++ eol.bytes).take n := by
  refine cstr_of_nul_free fun hmem => ?_
  rcases List.mem_append.mp (List.mem_of_mem_take hmem) with hp | he
  · exact h.nul_free hp
  · cases eol <;> simp [LineEnd.bytes] at he

theorem stdin_left (h : IsPassword password) (eol : LineEnd) {keySize : Nat} (hsize : 2 ≤ keySize) :
    chopLine (cstr ((password ++ eol.bytes).take (keySize - 1)))
      = if eol = .crlf ∧ password.length + 2 = keySize then password ++ [13]
        else password.take (keySize - 1) := by
  rw [cstr_line h]
  rcases lt_or_ge password.length (keySize - 1) with hshort | hlong
  · have hall : password.take (keySize - 1) = password := List.take_of_length_le hshort.le
    rw [List.take_append, hall]
    obtain ⟨n, hn⟩ : ∃ n, keySize - 1 - password.length = n + 1 := ⟨keySize - 2 - password.length, by omega⟩
    rw [hn]
    cases eol with
    | none => simpa [LineEnd.bytes] using chopLine_newline_free h.newline_free
    | lf => simpa [LineEnd.bytes] using chopLine_lf h
    | crlf =>
      cases n with
      | zero =>
        rw [if_pos ⟨rfl, by omega⟩]
        refine chopLine_newline_free ?_
        simpa [LineEnd.bytes] using h.newline_free
      | succ n =>
        rw [if_neg (by omega)]
        simpa [LineEnd.bytes] using chopLine_crlf h
  · rw [List.take_append_of_le_length hlong, if_neg (by omega)]
    exact chopLine_newline_free (h.take _).newline_free

end Lines

section Buffers
variable {σ H : Type} {env : SetupEnv σ H} {block keySize : Nat}

theorem blit_zeros {xs : List Byte} {n : Nat} :
    blit (List.replicate n (0 : Byte)) 0 xs = xs ++ List.replicate (n - xs.length) 0 := by
  simp [blit]

theorem zeroed_eq : blit (List.replicate (keySize + block) (0 : Byte)) 0 (List.replicate keySize 0)
    = List.replicate (keySize + block) 0 := by
  rw [blit_zeros, List.length_replicate, List.replicate_append_replicate]
  congr 1
  omega

theorem zeros_terminated (xs : List Byte) {n : Nat} (h : xs.length < n) :
    (xs ++ [0]) ++ List.replicate (n - (xs ++ [0]).length) (0 : Byte)
      = xs ++ List.replicate (n - xs.length) 0 := by
  obtain ⟨m, hm⟩ : ∃ m, n - xs.length = m + 1 := ⟨n - xs.length - 1, by omega⟩
  rw [hm, List.replicate_succ, List.append_assoc, List.singleton_append, List.length_append,
    List.length_singleton]
  congr 3
  omega

def copyPassword (keySize : Nat) (pwdKey : List Byte × Bool) :
    Option (List Byte) → List Byte × Bool
  | none => pwdKey
  | some arg => (blit pwdKey.1 0 (arg.take (keySize - 1) ++ [0]), true)

def readPassword (env : SetupEnv σ H) (keySize : Nat) (pwdKey : List Byte × Bool) :
    Option (List Byte) → List Byte × Bool
  | none => pwdKey
  | some arg => ((getPassword env pwdKey.1 keySize arg).2, true)

def readArgument (argv : Args) (name : List Byte) : Option (List Byte) :=
  if Given argv name then argumentOf argv name else none

def SetupState.password (s : SetupState H) : List Byte × Bool := (s.pwdKey, s.pwdKeyChk)

theorem run_keeps_password {table : List (LongOption CryptOption)}
    (htable : ∀ o ∈ table, o.val ≠ .password ∧ o.val ≠ .passwordSource) (s : SetupState H) :
    ((setupReader env block keySize).run 1 table s).password = s.password := by
  refine OptReader.run_preserves (P := fun s' : SetupState H => s'.password = s.password)
    (fun opt arg s' hval hs => ?_) rfl
  cases opt with
  | foundTwice => exact hs
  | found val =>
    obtain ⟨o, ho, rfl⟩ := hval val rfl
    obtain ⟨hpwd, hpass⟩ := htable o ho
    rw [← hs]
    generalize o.val = val at hpwd hpass
    cases val with
    | password => exact absurd rfl hpwd
    | passwordSource => exact absurd rfl hpass
    | md =>
      simp only [setupReader, SetupState.option]
      split <;> rfl
    | key | iv | inkey =>
      cases arg with
      | none => rfl
      | some arg =>
        simp only [setupReader, SetupState.option]
        split_ifs <;> rfl
    | _ => rfl

theorem option_keeps_args {val : CryptOption} (hval : val ≠ .output) (arg : Option (List Byte))
    (s : SetupState H) : (s.option env block keySize val arg).argv = s.argv := by
  cases val with
  | output => exact absurd rfl hval
  | md =>
    simp only [SetupState.option]
    split <;> rfl
  | key | iv | inkey | passwordSource =>
    cases arg with
    | none => rfl
    | some arg =>
      simp only [SetupState.option]
      split_ifs <;> rfl
  | password => cases arg <;> rfl
  | _ => rfl

theorem run_keeps_args {table : List (LongOption CryptOption)} (htable : ∀ o ∈ table, o.val ≠ .output)
    (s : SetupState H) : ((setupReader env block keySize).run 1 table s).argv = s.argv := by
  refine OptReader.run_preserves (P := fun s' : SetupState H => s'.argv = s.argv)
    (fun opt arg s' hval hs => ?_) rfl
  cases opt with
  | foundTwice => exact hs
  | found val =>
    obtain ⟨o, ho, rfl⟩ := hval val rfl
    exact (option_keeps_args (htable o ho) arg s').trans hs

theorem run_output_args {s : SetupState H}
    (hok : ((setupReader env block keySize).run 1 [⟨str "-output", true, .output⟩] s).ret
      = wolfcluSuccess) :
    ((setupReader env block keySize).run 1 [⟨str "-output", true, .output⟩] s).argv
      = loweredArgs s.argv := by
  rw [loweredArgs]
  rcases (option_run (by decide) hok).2 with ⟨hnot, hsame⟩ | ⟨hgiven, hread⟩
  · rw [hsame, if_neg hnot]
  · rw [hread, if_pos hgiven]
    rfl

theorem run_password {name : List Byte} {s : SetupState H}
    (hhelp : strncmp name (str "-help") name.length ≠ 0)
    (hok : ((setupReader env block keySize).run 1 [⟨name, true, .password⟩] s).ret
      = wolfcluSuccess) :
    ((setupReader env block keySize).run 1 [⟨name, true, .password⟩] s).password
      = copyPassword keySize s.password (readArgument s.argv name) := by
  rw [readArgument]
  rcases (option_run hhelp hok).2 with ⟨hnot, hsame⟩ | ⟨hgiven, hread⟩
  · rw [hsame, if_neg hnot]
    rfl
  · rw [hread] at hok ⊢
    rw [if_pos hgiven]
    dsimp only at hok ⊢
    cases harg : argumentOf s.argv name with
    | none =>
      rw [harg] at hok
      exact absurd hok (by simp [SetupState.option, wolfcluFatalError, wolfcluSuccess])
    | some arg => rfl

theorem run_passwordSource {s : SetupState H}
    (hok : ((setupReader env block keySize).run 1 [⟨str "-pass", true, .passwordSource⟩] s).ret
      = wolfcluSuccess) :
    ((setupReader env block keySize).run 1 [⟨str "-pass", true, .passwordSource⟩] s).password
      = readPassword env keySize s.password (readArgument s.argv (str "-pass")) := by
  rw [readArgument]
  rcases (option_run (by decide) hok).2 with ⟨hnot, hsame⟩ | ⟨hgiven, hread⟩
  · rw [hsame, if_neg hnot]
    rfl
  · rw [hread] at hok ⊢
    rw [if_pos hgiven]
    dsimp only at hok ⊢
    cases harg : argumentOf s.argv (str "-pass") with
    | none =>
      rw [harg] at hok
      exact absurd hok (by simp [SetupState.option, wolfcluFatalError, wolfcluSuccess])
    | some arg =>
      rw [harg] at hok
      simp only [if_true, SetupState.option] at hok ⊢
      split_ifs at hok ⊢ with hret
      · rfl
      · exact absurd hok hret

theorem option_once {o : LongOption CryptOption} {s : SetupState H}
    (hhelp : strncmp o.name (str "-help") o.name.length ≠ 0)
    (hok : ((setupReader env block keySize).run 1 [o] s).ret = wolfcluSuccess) :
    s.argv.count o.name ≤ 1 := by
  refine matchOption_once hhelp fun htwice => ?_
  have hrun : (setupReader env block keySize).running s = true :=
    OptReader.running_of_run (decide_eq_true hok)
  have hmatch : matchOption ((setupReader env block keySize).argv s) 1 o =
    some (.foundTwice, none) := htwice
  simp only [OptReader.run, if_pos hrun, hmatch] at hok
  exact absurd hok (by simp [setupReader, wolfcluFatalError, wolfcluSuccess])

structure PasswordsOnce (argv : Args) : Prop where
  pwd : argv.count (str "-pwd") ≤ 1
  k : (loweredArgs argv).count (str "-k") ≤ 1
  pass : (loweredArgs argv).count (str "-pass") ≤ 1

theorem options_password {argv : Args} {action : Action} {s : SetupState H}
    (hs : (setupReader env block keySize).run 1 cryptOptions
      (SetupState.initial env argv action block keySize) = s) (hok : s.ret = wolfcluSuccess) :
    PasswordsOnce argv ∧ s.password = readPassword env keySize
      (copyPassword keySize
        (copyPassword keySize (List.replicate (keySize + block) 0, false)
          (readArgument argv (str "-pwd")))
        (readArgument (loweredArgs argv) (str "-k")))
      (readArgument (loweredArgs argv) (str "-pass")) := by
  have htable : cryptOptions = cryptOptions.take 7 ++ ([⟨str "-pwd", true, .password⟩] ++
      ((cryptOptions.drop 8).take 3 ++ ([⟨str "-output", true, .output⟩] ++
        ((cryptOptions.drop 12).take 4 ++ ([⟨str "-k", true, .password⟩] ++
          ((cryptOptions.drop 17).take 2 ++ [⟨str "-pass", true, .passwordSource⟩])))))) := rfl
  rw [htable] at hs
  simp only [OptReader.run_append] at hs
  subst hs
  have hencode := running_before hok
  have hk := running_before hencode
  have hflags := running_before hk
  have houtput := running_before hflags
  have hkeys := running_before houtput
  have hpwd := running_before hkeys
  obtain ⟨s₁, hs₁⟩ : ∃ s₁, (setupReader env block keySize).run 1 (cryptOptions.take 7)
    (SetupState.initial env argv action block keySize) = s₁ := ⟨_, rfl⟩
  have hargs₁ : s₁.argv = argv := hs₁ ▸ run_keeps_args (by decide) _
  have hzero : s₁.password = (List.replicate (keySize + block) 0, false) :=
    hs₁ ▸ run_keeps_password (by decide) _
  rw [hs₁] at hok hencode hk hflags houtput hkeys hpwd ⊢
  have hargs₂ := (run_output_args houtput).trans
    (congrArg loweredArgs ((run_keeps_args (by decide) _).trans
      ((run_keeps_args (by decide) _).trans hargs₁)))
  have hargs₃ := (@run_keeps_args _ _ env block keySize ((cryptOptions.drop 12).take 4) (by decide)
    _).trans hargs₂
  have hargs₄ := (@run_keeps_args _ _ env block keySize ((cryptOptions.drop 17).take 2) (by decide)
    _).trans ((@run_keeps_args _ _ env block keySize [⟨str "-k", true, .password⟩] (by decide)
      _).trans hargs₃)
  refine ⟨⟨hargs₁ ▸ option_once (by decide) hpwd, hargs₃ ▸ option_once (by decide) hk,
    hargs₄ ▸ option_once (by decide) hok⟩, ?_⟩
  rw [run_passwordSource hok, hargs₄, run_keeps_password (by decide), run_password (by decide) hk,
    hargs₃, run_keeps_password (by decide), run_keeps_password (by decide),
    run_keeps_password (by decide), run_password (by decide) hpwd, hargs₁, hzero]

end Buffers

section Arguments
variable {argv : Args} {name password : List Byte}

theorem lookup_isSome {arg : List Byte} (h : (oldAlgoName.lookup arg).isSome) :
    ∃ entry ∈ oldAlgoName, entry.1 = arg := by
  by_contra hnone
  have habsent : oldAlgoName.lookup arg = none := by
    rw [List.lookup_eq_none_iff]
    intro entry hentry
    exact bne_iff_ne.mpr fun heq => hnone ⟨entry, hentry, heq.symm⟩
  rw [habsent] at h
  exact absurd h (by decide)

theorem renameAlgo_unknown {arg : List Byte} (h : (oldAlgoName.lookup arg).isSome = false) :
    renameAlgo arg = arg := by
  rw [renameAlgo, Option.isSome_eq_false_iff.mp h |> Option.isNone_iff_eq_none.mp]
  rfl

theorem renameAlgo_known {arg : List Byte} (h : (oldAlgoName.lookup arg).isSome) :
    arg.length = 12 ∧ (renameAlgo arg).length = 12 ∧ renameAlgo arg ≠ arg ∧
      (0 : Byte) ∉ renameAlgo arg := by
  obtain ⟨entry, hentry, rfl⟩ := lookup_isSome h
  have hall : ∀ entry ∈ oldAlgoName, entry.1.length = 12 ∧ (renameAlgo entry.1).length = 12 ∧
      renameAlgo entry.1 ≠ entry.1 ∧ (0 : Byte) ∉ renameAlgo entry.1 := by decide
  exact hall entry hentry

theorem renameAlgo_undashed {arg : List Byte} (h : arg.head? ≠ some dash) : renameAlgo arg = arg := by
  refine renameAlgo_unknown (Bool.eq_false_of_not_eq_true fun hsome => ?_)
  obtain ⟨entry, hentry, rfl⟩ := lookup_isSome hsome
  have hall : ∀ entry ∈ oldAlgoName, entry.1.head? = some dash := by decide
  exact h (hall entry hentry)

theorem oldAlgo_getElem? (i : Nat) : (oldAlgo argv)[i]? = argv[i]?.map renameAlgo :=
  List.getElem?_map

theorem readArgument_typed :
    readArgument (oldAlgo argv) name = (typedArgument (oldAlgo argv) argv name).map renameAlgo := by
  rw [readArgument, typedArgument]
  split_ifs
  · exact oldAlgo_getElem? _
  · rfl

theorem lowered_getElem? {i : Nat} (hi : (loweredArgs argv)[i]? = some name)
    (hname : name ≠ str "-output") : (loweredArgs argv)[i + 1]? = argv[i + 1]? := by
  rw [loweredArgs] at hi ⊢
  split_ifs at hi ⊢ with hgiven
  · rw [lowerArgument, List.getElem?_modify] at hi ⊢
    have hidx : argv.idxOf (str "-output") ≠ i := by
      rintro rfl
      have hlt : argv.idxOf (str "-output") < argv.length :=
        List.idxOf_lt_length_iff.mpr (List.mem_of_mem_tail hgiven)
      simp [List.getElem?_eq_getElem hlt] at hi
      exact hname hi.symm
    simp [hidx]
  · rfl

theorem readArgument_lowered (hname : name ≠ str "-output") :
    readArgument (loweredArgs (oldAlgo argv)) name
      = (typedArgument (loweredArgs (oldAlgo argv)) argv name).map renameAlgo := by
  rw [readArgument, typedArgument]
  split_ifs with hgiven
  · have hlt : (loweredArgs (oldAlgo argv)).idxOf name < (loweredArgs (oldAlgo argv)).length :=
      List.idxOf_lt_length_iff.mpr (List.mem_of_mem_tail hgiven)
    have hat : (loweredArgs (oldAlgo argv))[(loweredArgs (oldAlgo argv)).idxOf name]? = some name := by
      rw [List.getElem?_eq_getElem hlt, List.getElem_idxOf hlt]
    rw [argumentOf, lowered_getElem? hat hname]
    exact oldAlgo_getElem? _
  · rfl

end Arguments

section Left
variable {σ H : Type} {env : SetupEnv σ H} {password : List Byte} {block keySize : Nat}

theorem copyPassword_zeros (hsize : 0 < keySize) (arg : List Byte) :
    copyPassword keySize (List.replicate (keySize + block) 0, false) (some arg)
      = (arg.take (keySize - 1) ++
          List.replicate (keySize + block - (arg.take (keySize - 1)).length) 0, true) := by
  have hlen : (arg.take (keySize - 1)).length < keySize + block := by
    rw [List.length_take]
    omega
  rw [copyPassword, blit_zeros, zeros_terminated _ hlen]

theorem readPassword_pass (hsize : 0 < keySize) :
    readPassword env keySize (List.replicate (keySize + block) 0, false)
        (some (str "pass:" ++ password))
      = (password.take (keySize - 1) ++
          List.replicate (keySize + block - (password.take (keySize - 1)).length) 0, true) := by
  have hstdin : ¬ strncmp (str "pass:" ++ password) (str "stdin") 5 = 0 :=
    show ¬ (-3 : Int) = 0 by decide
  have hpass : strncmp (str "pass:" ++ password) (str "pass:") 5 = 0 := rfl
  simp only [readPassword, getPassword, if_neg hsize.ne', if_neg hstdin, if_pos hpass, zeroed_eq]
  rw [List.drop_left' (by decide), blit_zeros]

theorem readPassword_stdin (hsize : 2 ≤ keySize) (hpassword : IsPassword password) {eol : LineEnd}
    (hline : env.stdinLine = some (password ++ eol.bytes)) {left : List Byte}
    (hleft : left = if eol = .crlf ∧ password.length + 2 = keySize then password ++ [13]
      else password.take (keySize - 1)) :
    readPassword env keySize (List.replicate (keySize + block) 0, false) (some (str "stdin"))
      = (left ++ List.replicate (keySize + block - left.length) 0, true) := by
  have hstdin : strncmp (str "stdin") (str "stdin") 5 = 0 := by decide
  have hzero : ¬ keySize = 0 := by omega
  have hlen : left.length < keySize + block := by
    rw [hleft]
    split_ifs with hcr
    · rw [List.length_append, List.length_singleton]
      omega
    · rw [List.length_take]
      omega
  simp only [readPassword, getPassword, if_neg hzero, if_pos hstdin, hline, zeroed_eq]
  rw [stdin_left hpassword eol hsize, ← hleft, blit_zeros, zeros_terminated _ hlen]

theorem check_password {s : SetupState H} (hok : (s.check env block keySize).ret = wolfcluSuccess)
    (hkey : (s.check env block keySize).keyCheck = false) :
    s.ret = wolfcluSuccess ∧ (s.check env block keySize).pwdKey =
      if s.pwdKeyChk then s.pwdKey
      else blit s.pwdKey 0 ((env.promptPassword.getD []).take (keySize + block - 1) ++ [0]) := by
  obtain ⟨pwdKey, hdrop⟩ := @dropPassword_eq _ block keySize
    ((s.checkFlags.askPassword env block keySize).askInput env)
  have hcheck : s.check env block keySize
      = { (s.checkFlags.askPassword env block keySize).askInput env with pwdKey := pwdKey } := hdrop
  rw [hcheck] at hok hkey
  obtain ⟨hret, input, inCheck, hask, -⟩ := askInput_ok hok
  have hkeyAsk : (s.checkFlags.askPassword env block keySize).keyCheck = false := by
    rw [hask] at hkey
    exact hkey
  have hkeyFlags : s.checkFlags.keyCheck = false := (askPassword_keyCheck _).symm.trans hkeyAsk
  have hflags : s.checkFlags.ret = wolfcluSuccess := by
    by_contra hbad
    rw [SetupState.askPassword, if_neg fun h => hbad h.1] at hret
    exact hbad hret
  obtain ⟨hsame, hs, -⟩ := checkFlags_ok hflags
  have hkept : (s.check env block keySize).pwdKey
      = (s.checkFlags.askPassword env block keySize).pwdKey := by
    rw [SetupState.check, SetupState.dropPassword, if_neg, hask]
    rw [hask]
    exact fun h => absurd h.2.2 (by rw [hkeyAsk]; decide)
  refine ⟨hs, ?_⟩
  rw [hkept, hsame]
  rw [hsame] at hkeyFlags hret
  rw [SetupState.askPassword] at hret ⊢
  by_cases hchk : s.pwdKeyChk = true
  · rw [if_neg fun h => h.2.1 hchk, if_pos hchk]
  · have hasked : s.ret = wolfcluSuccess ∧ ¬ s.pwdKeyChk ∧ ¬ s.keyCheck :=
      ⟨hs, hchk, ne_true_of_eq_false hkeyFlags⟩
    rw [if_pos hasked] at hret ⊢
    rw [if_neg hchk]
    have hne : ¬ wolfcluFatalError = wolfcluSuccess := by decide
    split_ifs at hret ⊢ with hdec
    · exact absurd hret hne
    · cases hprompt : env.promptPassword with
      | none =>
        rw [hprompt] at hret
        exact absurd hret hne
      | some line => rfl

theorem left_copied (hsize : 56 ≤ keySize) :
    (renameAlgo password).take (keySize - 1)
      = if (oldAlgoName.lookup password).isSome then renameAlgo password
        else password.take (keySize - 1) := by
  split_ifs with hknown
  · obtain ⟨-, hlen, -⟩ := renameAlgo_known hknown
    exact List.take_of_length_le (by omega)
  · rw [renameAlgo_unknown (Bool.eq_false_of_not_eq_true hknown)]

theorem prompt_left (hsize : 0 < keySize) :
    blit (List.replicate (keySize + block) 0) 0 (password.take (keySize + block - 1) ++ [0])
      = password.take (keySize + block - 1) ++
          List.replicate (keySize + block - (password.take (keySize + block - 1)).length) 0 := by
  have hlen : (password.take (keySize + block - 1)).length < keySize + block := by
    rw [List.length_take]
    omega
  rw [blit_zeros, zeros_terminated _ hlen]

def readOptions (env : SetupEnv σ H) (block keySize : Nat)
    (typed : Option (List Byte) × Option (List Byte) × Option (List Byte)) : List Byte × Bool :=
  readPassword env keySize
    (copyPassword keySize
      (copyPassword keySize (List.replicate (keySize + block) 0, false) (typed.1.map renameAlgo))
      (typed.2.1.map renameAlgo))
    (typed.2.2.map renameAlgo)

theorem options_typed {argv : Args} {action : Action} {s : SetupState H}
    (hs : (setupReader env block keySize).run 1 cryptOptions
      (SetupState.initial env (oldAlgo argv) action block keySize) = s)
    (hok : s.ret = wolfcluSuccess) :
    s.password = readOptions env block keySize (typedPasswords argv) := by
  rw [(options_password hs hok).2, readArgument_typed, readArgument_lowered (by decide),
    readArgument_lowered (by decide)]
  rfl

theorem source_read (hsize : 56 ≤ keySize) (hpassword : IsPassword password)
    {source : PasswordSource} (hanswered : source.answered env password) (hne : source ≠ .prompt) :
    readOptions env block keySize (source.arguments password)
      = (source.left block keySize password ++
          List.replicate (keySize + block - (source.left block keySize password).length) 0, true) := by
  have hpos : 0 < keySize := by omega
  cases source with
  | pwd =>
    have hread : readOptions env block keySize (PasswordSource.arguments password .pwd)
        = copyPassword keySize (List.replicate (keySize + block) 0, false)
            (some (renameAlgo password)) := rfl
    rw [hread, copyPassword_zeros hpos, left_copied hsize]
    rfl
  | k =>
    have hread : readOptions env block keySize (PasswordSource.arguments password .k)
        = copyPassword keySize (List.replicate (keySize + block) 0, false)
            (some (renameAlgo password)) := rfl
    rw [hread, copyPassword_zeros hpos, left_copied hsize]
    rfl
  | pass =>
    have hundashed : (str "pass:" ++ password).head? ≠ some dash :=
      show some (112 : Byte) ≠ some dash by decide
    have hread : readOptions env block keySize (PasswordSource.arguments password .pass)
        = readPassword env keySize (List.replicate (keySize + block) 0, false)
            (some (renameAlgo (str "pass:" ++ password))) := rfl
    rw [hread, renameAlgo_undashed hundashed, readPassword_pass hpos]
    rfl
  | stdin eol =>
    have hread : readOptions env block keySize (PasswordSource.arguments password (.stdin eol))
        = readPassword env keySize (List.replicate (keySize + block) 0, false)
            (some (renameAlgo (str "stdin"))) := rfl
    have hleft : PasswordSource.left block keySize password (.stdin eol)
        = if eol = .crlf ∧ password.length + 2 = keySize then password ++ [13]
          else password.take (keySize - 1) := by
      simp [PasswordSource.left, PasswordSource.renames, PasswordSource.splitsCrlf,
        PasswordSource.limit]
    rw [hread, renameAlgo_undashed (by decide),
      readPassword_stdin (by omega) hpassword hanswered hleft]
  | prompt => exact absurd rfl hne

theorem PasswordRun.pwdKey_eq {argv : Args} {action : Action} {source : PasswordSource}
    {block : Int} {algo : AlgoState} {s : SetupState H}
    (h : PasswordRun env argv action source password block algo s) (hpassword : IsPassword password) :
    56 ≤ algo.size.toNat ∧ 0 < block.toNat ∧
      s.pwdKey = source.left block.toNat algo.size.toNat password ++
        List.replicate (algo.size.toNat + block.toNat
          - (source.left block.toNat algo.size.toNat password).length) 0 := by
  obtain ⟨hvalid, hs⟩ := prepared_cases h.prepared
  have hsizes : 56 ≤ algo.size.toNat ∧ 0 < block.toNat := by
    have := hvalid.sizes
    omega
  refine ⟨hsizes.1, hsizes.2, ?_⟩
  generalize algo.size.toNat = keySize at hs hsizes
  generalize block.toNat = block at hs hsizes
  obtain ⟨hsize, -⟩ := hsizes
  have hok := h.ok
  have hkey := h.noKey
  rw [hs] at hok hkey
  obtain ⟨hret, hleft⟩ := check_password hok hkey
  have hread := options_typed rfl hret
  obtain ⟨htyped, hanswered⟩ := h.supplied
  rw [htyped] at hread
  rw [hs, hleft]
  by_cases hprompt : source = .prompt
  · subst hprompt
    obtain ⟨hbuffer, hchk⟩ := Prod.mk.inj hread
    have hasked : env.promptPassword = some password := hanswered
    have hpos : 0 < keySize := by omega
    rw [if_neg (ne_true_of_eq_false hchk), hbuffer, hasked, Option.getD_some]
    exact prompt_left hpos
  · rw [source_read hsize hpassword hanswered hprompt] at hread
    obtain ⟨hbuffer, hchk⟩ := Prod.mk.inj hread
    rw [if_pos hchk, hbuffer]

theorem PasswordSource.renames_iff {source : PasswordSource} :
    source.renames password = true ↔
      (source = .pwd ∨ source = .k) ∧ (oldAlgoName.lookup password).isSome := by
  simp [PasswordSource.renames]

theorem PasswordSource.splitsCrlf_iff {source : PasswordSource} :
    source.splitsCrlf keySize password = true ↔
      source = .stdin .crlf ∧ password.length + 2 = keySize := by
  simp [PasswordSource.splitsCrlf]

theorem splitsCrlf_of_ne {source : PasswordSource} (h : password.length + 2 ≠ keySize) :
    source.splitsCrlf keySize password = false :=
  Bool.eq_false_of_not_eq_true fun hcrlf => h (PasswordSource.splitsCrlf_iff.mp hcrlf).2

theorem left_nul_free (hpassword : IsPassword password) (source : PasswordSource) :
    (0 : Byte) ∉ source.left block keySize password := by
  rw [PasswordSource.left]
  split_ifs with hrenames hcrlf
  · exact (renameAlgo_known (PasswordSource.renames_iff.mp hrenames).2).2.2.2
  · simpa using hpassword.nul_free
  · exact (hpassword.take _).nul_free

theorem PasswordSource.limit_eq (source : PasswordSource) :
    source.limit block keySize = if source = .prompt then keySize + block - 1 else keySize - 1 := by
  cases source <;> rfl

theorem left_renamed {source : PasswordSource} (h : source.renames password = true) :
    source.left block keySize password = renameAlgo password ∧ password.length = 12 ∧
      renameAlgo password ≠ password := by
  obtain ⟨hlen, -, hne, -⟩ := renameAlgo_known (PasswordSource.renames_iff.mp h).2
  exact ⟨if_pos h, hlen, hne⟩

theorem left_split {source : PasswordSource} (h : source.renames password = false)
    (hcrlf : source.splitsCrlf keySize password = true) :
    source.left block keySize password = password ++ [13] ∧ password.length + 2 = keySize := by
  rw [PasswordSource.left, if_neg (ne_true_of_eq_false h), if_pos hcrlf]
  exact ⟨rfl, (PasswordSource.splitsCrlf_iff.mp hcrlf).2⟩

theorem left_whole {source : PasswordSource} (h : source.renames password = false)
    (hcrlf : source.splitsCrlf keySize password = false) :
    source.left block keySize password = password.take (source.limit block keySize) := by
  rw [PasswordSource.left, if_neg (ne_true_of_eq_false h), if_neg (ne_true_of_eq_false hcrlf)]

theorem left_short {source : PasswordSource} (h : source.renames password = false)
    (hlen : password.length + 2 < keySize) : source.left block keySize password = password := by
  rw [left_whole h (splitsCrlf_of_ne hlen.ne), PasswordSource.limit_eq]
  refine List.take_of_length_le ?_
  split_ifs <;> omega

theorem left_eq_iff (hsize : 56 ≤ keySize) (hblock : 0 < block) (source₁ source₂ : PasswordSource) :
    source₁.left block keySize password = source₂.left block keySize password ↔
      SourcesAgree keySize source₁ source₂ password := by
  rw [SourcesAgree]
  cases hren₁ : source₁.renames password with
  | true =>
    obtain ⟨hleft₁, hlen, hne⟩ := @left_renamed _ block keySize _ hren₁
    have hsplit (source : PasswordSource) : source.splitsCrlf keySize password = false :=
      splitsCrlf_of_ne (by omega)
    cases hren₂ : source₂.renames password with
    | true =>
      rw [hleft₁, (left_renamed hren₂).1, hsplit, hsplit]
      exact iff_of_true rfl ⟨rfl, rfl, .inl (by omega)⟩
    | false =>
      rw [hleft₁, left_short hren₂ (by omega)]
      exact iff_of_false hne fun h => Bool.noConfusion h.1
  | false =>
    cases hren₂ : source₂.renames password with
    | true =>
      obtain ⟨hleft₂, hlen, hne⟩ := @left_renamed _ block keySize _ hren₂
      rw [hleft₂, left_short hren₁ (by omega)]
      exact iff_of_false hne.symm fun h => Bool.noConfusion h.1
    | false =>
      cases hcr₁ : source₁.splitsCrlf keySize password with
      | true =>
        obtain ⟨hleft₁, hlen⟩ := @left_split _ block keySize _ hren₁ hcr₁
        cases hcr₂ : source₂.splitsCrlf keySize password with
        | true =>
          rw [hleft₁, (left_split hren₂ hcr₂).1]
          exact iff_of_true rfl ⟨rfl, rfl, .inl (by omega)⟩
        | false =>
          rw [hleft₁, left_whole hren₂ hcr₂]
          refine iff_of_false (fun heq => ?_) fun h => Bool.noConfusion h.2.1
          have := congrArg List.length heq
          simp only [List.length_append, List.length_singleton, List.length_take] at this
          omega
      | false =>
        cases hcr₂ : source₂.splitsCrlf keySize password with
        | true =>
          rw [left_whole hren₁ hcr₁, (left_split hren₂ hcr₂).1]
          refine iff_of_false (fun heq => ?_) fun h => Bool.noConfusion h.2.1
          have := congrArg List.length heq
          simp only [List.length_append, List.length_singleton, List.length_take] at this
          omega
        | false =>
          rw [left_whole hren₁ hcr₁, left_whole hren₂ hcr₂, List.take_eq_take_iff,
            PasswordSource.limit_eq, PasswordSource.limit_eq]
          by_cases hprompt₁ : source₁ = .prompt <;> by_cases hprompt₂ : source₂ = .prompt <;>
            simp only [hprompt₁, hprompt₂, if_true, if_false, true_and, iff_false, iff_true, not_true,
              or_true, or_false] <;> omega

end Left

section Agreement
variable {σ₁ H₁ σ₂ H₂ : Type} {env₁ : SetupEnv σ₁ H₁} {env₂ : SetupEnv σ₂ H₂} {argv₁ argv₂ : Args}
  {action₁ action₂ : Action} {source₁ source₂ : PasswordSource} {password : List Byte} {block : Int}
  {algo : AlgoState} {s₁ : SetupState H₁} {s₂ : SetupState H₂}

theorem password_left (h : PasswordRun env₁ argv₁ action₁ source₁ password block algo s₁)
    (hpassword : IsPassword password) :
    cstr s₁.pwdKey = source₁.left block.toNat algo.size.toNat password := by
  obtain ⟨hsize, hblock, hbuffer⟩ := h.pwdKey_eq hpassword
  have hlen : (source₁.left block.toNat algo.size.toNat password).length
      < algo.size.toNat + block.toNat := by
    rw [PasswordSource.left]
    split_ifs with hren hcr
    · have := (renameAlgo_known (PasswordSource.renames_iff.mp hren).2).2.1
      omega
    · have := (PasswordSource.splitsCrlf_iff.mp hcr).2
      rw [List.length_append, List.length_singleton]
      omega
    · rw [List.length_take, PasswordSource.limit_eq]
      split_ifs <;> omega
  obtain ⟨n, hn⟩ : ∃ n, algo.size.toNat + block.toNat
      - (source₁.left block.toNat algo.size.toNat password).length = n + 1 :=
    ⟨_, (Nat.succ_pred_eq_of_pos (by omega)).symm⟩
  rw [hbuffer, hn, List.replicate_succ, cstr_append_nul]
  exact cstr_of_nul_free (left_nul_free hpassword source₁)

theorem passwords_left_iff (hpassword : IsPassword password)
    (h₁ : PasswordRun env₁ argv₁ action₁ source₁ password block algo s₁)
    (h₂ : PasswordRun env₂ argv₂ action₂ source₂ password block algo s₂) :
    (cstr s₁.pwdKey = cstr s₂.pwdKey ↔
        SourcesAgree algo.size.toNat source₁ source₂ password) ∧
      (SourcesAgree algo.size.toNat source₁ source₂ password → ∀ s : SetupState H₂,
        runCipher env₂ algo block.toNat algo.size.toNat { s with pwdKey := s₁.pwdKey }
          = runCipher env₂ algo block.toNat algo.size.toNat { s with pwdKey := s₂.pwdKey }) := by
  obtain ⟨hsize, hblock, hbuffer₁⟩ := h₁.pwdKey_eq hpassword
  obtain ⟨-, -, hbuffer₂⟩ := h₂.pwdKey_eq hpassword
  have hiff := @left_eq_iff password block.toNat algo.size.toNat hsize hblock source₁ source₂
  rw [password_left h₁ hpassword, password_left h₂ hpassword]
  refine ⟨hiff, fun hagree s => ?_⟩
  rw [hbuffer₁, hbuffer₂, hiff.mpr hagree]

end Agreement

section Runs
variable {σ H : Type} {env : SetupEnv σ H}

def preparesAs (env : SetupEnv σ H) (argv : Args) (action : Action) (block : Int)
    (algo : AlgoState) : Bool :=
  (prepared env argv action).any fun r =>
    r.1 = block && r.2.1 = algo && r.2.2.ret = wolfcluSuccess && !r.2.2.keyCheck

theorem passwordRun_iff {argv : Args} {action : Action} {source : PasswordSource}
    {password : List Byte} {block : Int} {algo : AlgoState} :
    (∃ s, PasswordRun env argv action source password block algo s) ↔
      preparesAs env argv action block algo = true ∧ Supplies env argv source password := by
  constructor
  · rintro ⟨s, h⟩
    refine ⟨?_, h.supplied⟩
    rw [preparesAs, h.prepared]
    simp [h.ok, h.noKey]
  · rintro ⟨hready, hsupplied⟩
    obtain ⟨⟨block', algo', s⟩, hprepared, heq⟩ := Option.any_eq_true _ _ |>.mp hready
    simp only [Bool.and_eq_true, decide_eq_true_eq, Bool.not_eq_true'] at heq
    obtain ⟨⟨⟨rfl, rfl⟩, hok⟩, hkey⟩ := heq
    exact ⟨s, hprepared, hok, hkey, hsupplied⟩

end Runs

def namedArgs (command : String) : Args :=
  [str "wolfssl", str command, str "aes-128-cbc", str "-in", str "msg", str "-out", str "enc"]

def aes128cbc : AlgoState := ⟨.aes128cbc, some (str "cbc"), 128⟩

def answeringEnv (line : List Byte) : SetupEnv Byte Unit :=
  { plainEnv with stdinLine := some (line ++ [10]), promptPassword := some line }

end WolfCLU
