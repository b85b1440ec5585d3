import WolfCLU.Crypto.PasswordSource

namespace WolfCLU
open Buffer CString

def evpSizes : List Nat := [128, 192, 256]

def cipherSizes : List Nat := [56, 112, 128, 168, 192, 256]

def optionNames {α : Type} (table : List (LongOption α)) : List (List Byte) := table.map (·.name)

def ScannedWord (keySize : Nat) (arg : List Byte) : Prop :=
  abbreviatesHelp arg = true ∨ arg ∈ optionNames cryptOptions ∨
    keySize ∈ evpSizes ∧ (arg ∈ optionNames cryptAlgoOptions ∨ (oldAlgoName.lookup arg).isSome)

instance (keySize : Nat) (arg : List Byte) : Decidable (ScannedWord keySize arg) :=
  inferInstanceAs (Decidable (_ ∨ _))

def PasswordSource.tokens (password : List Byte) : PasswordSource → Args
  | .pwd => [str "-pwd", password]
  | .k => [str "-k", password]
  | .pass => [str "-pass", str "pass:" ++ password]
  | .stdin _ => [str "-pass", str "stdin"]
  | .prompt => []

def PasswordSource.Delivers (keySize : Nat) (source : PasswordSource) (password : List Byte) :
    Prop :=
  match source with
  | .pwd | .k => ¬ ScannedWord keySize password
  | .stdin eol => password ++ eol.bytes ≠ []
  | _ => True

section Lines
variable {σ H : Type}

def SetupEnv.answering (env : SetupEnv σ H) (source : PasswordSource) (password : List Byte) :
    SetupEnv σ H :=
  match source with
  | .stdin eol =>
    { env with stdinLine := if password ++ eol.bytes = [] then none else some (password ++ eol.bytes) }
  | .prompt => { env with promptPassword := some password }
  | _ => env

structure PasswordLine (σ H : Type) where
  env : SetupEnv σ H
  action : Action
  front : Args
  back : Args
  named : 2 ≤ front.length

def PasswordLine.args (line : PasswordLine σ H) (source : PasswordSource) (password : List Byte) :
    Args :=
  line.front ++ source.tokens password ++ line.back

def PasswordLine.Leaves (line : PasswordLine σ H) (source : PasswordSource)
    (password : List Byte) : Int → AlgoState → SetupState H → Prop :=
  PasswordRun (line.env.answering source password) (line.args source password) line.action source
    password

def PasswordLine.Works (line : PasswordLine σ H) (source : PasswordSource) (block : Int)
    (algo : AlgoState) : Prop :=
  ∃ password s, IsPassword password ∧ source.Delivers algo.size.toNat password ∧
    line.Leaves source password block algo s

def Interchangeable (keySize : Nat) (source₁ source₂ : PasswordSource) (password : List Byte) :
    Prop :=
  ∀ {σ₁ H₁ σ₂ H₂ : Type} (line₁ : PasswordLine σ₁ H₁) (line₂ : PasswordLine σ₂ H₂) (block : Int)
    (algo : AlgoState), algo.size.toNat = keySize → line₁.Works source₁ block algo →
    line₂.Works source₂ block algo →
    ∃ s₁ s₂, line₁.Leaves source₁ password block algo s₁ ∧
      line₂.Leaves source₂ password block algo s₂ ∧ cstr s₁.pwdKey = cstr s₂.pwdKey ∧
      ∀ s : SetupState H₂,
        runCipher (line₂.env.answering source₂ password) algo block.toNat algo.size.toNat
            { s with pwdKey := s₁.pwdKey } =
          runCipher (line₂.env.answering source₂ password) algo block.toNat algo.size.toNat
            { s with pwdKey := s₂.pwdKey }

end Lines

section Alike
variable {n : Nat} {opt old new : List Byte} {argv argv' : Args}

def Alike (n : Nat) (opt old new : List Byte) (argv argv' : Args) : Prop :=
  argv' = argv ∨ Swapped n opt old new argv argv'

structure Carried (keySize : Nat) (opt arg : List Byte) : Prop where
  option : opt = str "-pwd" ∨ opt = str "-k" ∨ opt = str "-pass" ∧ ∃ password, arg = str "pass:" ++ password
  crypt : arg ∉ optionNames cryptOptions
  algo : keySize ∈ evpSizes → arg ∉ optionNames cryptAlgoOptions

theorem Carried.ne {keySize : Nat} (h : Carried keySize opt old) {name : List Byte}
    (hname : name ∈ optionNames cryptOptions) : old ≠ name :=
  fun heq => h.crypt (heq ▸ hname)

theorem Carried.lower {keySize : Nat} (h : Carried keySize opt old) :
    opt.map toLower = opt ∧ opt ≠ str "-output" := by
  rcases h.option with rfl | rfl | ⟨rfl, -⟩ <;> decide

theorem Alike.lowerArgument {keySize : Nat} (hold : Carried keySize opt old)
    (hnew : Carried keySize opt new) (h : Alike n opt old new argv argv') :
    Alike n opt old new (lowerArgument (str "-output") argv) (lowerArgument (str "-output") argv') := by
  have hname : str "-output" ∈ optionNames cryptOptions := by decide
  rcases h with rfl | h
  · exact .inl rfl
  · exact .inr (h.lowerArgument hold.lower.1 hold.lower.2 (hold.ne hname) (hnew.ne hname))

end Alike

section Options
variable {σ H : Type} {env : SetupEnv σ H} {stdinLine promptPassword : Option (List Byte)}
  {n : Nat} {opt old new : List Byte} {block keySize : Nat}

def sameAnswers (env : SetupEnv σ H) (stdinLine promptPassword : Option (List Byte)) :
    SetupEnv σ H :=
  { env with stdinLine := stdinLine, promptPassword := promptPassword }

def SameBut (s s' : SetupState H) : Prop :=
  ∃ argv pwdKey, s' = { s with argv := argv, pwdKey := pwdKey }

theorem getPassword_fst (env : SetupEnv σ H) (pwdKey : List Byte) (n : Nat) (arg : List Byte) :
    (getPassword env pwdKey n arg).1 =
      if n = 0 then wolfcluFatalError
      else if strncmp arg (str "stdin") 5 = 0 then
        if env.stdinLine.isSome then wolfcluSuccess else wolfcluFatalError
      else if strncmp arg (str "pass:") 5 = 0 then wolfcluSuccess else wolfcluFatalError := by
  unfold getPassword
  split_ifs
  · rfl
  · rename_i hsome
    obtain ⟨line, hline⟩ := Option.isSome_iff_exists.mp hsome
    simp only [hline]
  · rename_i hnone
    simp only [Option.isSome_iff_ne_none, not_not] at hnone
    simp only [hnone]
  · rfl
  · rfl

theorem getPassword_same {pwdKey pwdKey' arg arg' : List Byte}
    (hstdin : env.stdinLine.isSome = stdinLine.isSome)
    (harg : arg' = arg ∨ (∃ p, arg = str "pass:" ++ p) ∧ ∃ p, arg' = str "pass:" ++ p) :
    (getPassword (sameAnswers env stdinLine promptPassword) pwdKey' keySize arg').1 =
      (getPassword env pwdKey keySize arg).1 := by
  have hsome : (sameAnswers env stdinLine promptPassword).stdinLine.isSome = env.stdinLine.isSome :=
    hstdin.symm
  rw [getPassword_fst, getPassword_fst, hsome]
  rcases harg with rfl | ⟨⟨p, rfl⟩, p', rfl⟩
  · rfl
  · rfl

theorem loadHexKeyInto_same : loadHexKeyInto (sameAnswers env stdinLine promptPassword) =
    loadHexKeyInto env :=
  rfl

theorem loadKeyFile_same : loadKeyFile (sameAnswers env stdinLine promptPassword) =
    loadKeyFile env :=
  rfl

theorem loadIv_same : loadIv (sameAnswers env stdinLine promptPassword) = loadIv env := rfl

theorem SameBut.ite {c : Prop} [Decidable c] {s s' t t' : SetupState H} (hs : SameBut s s')
    (ht : SameBut t t') : SameBut (if c then s else t) (if c then s' else t') := by
  split_ifs
  · exact hs
  · exact ht

theorem passwordSource_same {s s' : SetupState H} {arg arg' : List Byte}
    (hstdin : env.stdinLine.isSome = stdinLine.isSome)
    (harg : arg' = arg ∨ (∃ p, arg = str "pass:" ++ p) ∧ ∃ p, arg' = str "pass:" ++ p)
    (h : SameBut s s') :
    SameBut (s.option env block keySize .passwordSource (some arg))
      (s'.option (sameAnswers env stdinLine promptPassword) block keySize .passwordSource
        (some arg')) := by
  obtain ⟨argv, pwdKey, rfl⟩ := h
  have hsame := @getPassword_same _ _ env stdinLine promptPassword keySize s.pwdKey pwdKey arg arg'
    hstdin harg
  simp only [SetupState.option, hsame]
  exact SameBut.ite ⟨argv, _, rfl⟩ ⟨argv, _, rfl⟩

theorem option_same {s s' : SetupState H} (hstdin : env.stdinLine.isSome = stdinLine.isSome)
    (val : CryptOption) {v v' : Option (List Byte)}
    (hv : v' = v ∨ val = .password ∧ v = some old ∧ v' = some new ∨ val = .passwordSource ∧
      v = some old ∧ v' = some new ∧ (∃ p, old = str "pass:" ++ p) ∧ ∃ p, new = str "pass:" ++ p)
    (h : SameBut s s') :
    SameBut (s.option env block keySize val v)
      (s'.option (sameAnswers env stdinLine promptPassword) block keySize val v') := by
  rcases hv with rfl | ⟨rfl, rfl, rfl⟩ | ⟨rfl, rfl, rfl, hold, hnew⟩
  · cases val with
    | passwordSource =>
      cases v' with
      | none =>
        obtain ⟨argv, pwdKey, rfl⟩ := h
        exact ⟨argv, pwdKey, rfl⟩
      | some arg => exact passwordSource_same hstdin (.inl rfl) h
    | password =>
      obtain ⟨argv, pwdKey, rfl⟩ := h
      cases v' with
      | none => exact ⟨argv, pwdKey, rfl⟩
      | some arg => exact ⟨argv, _, rfl⟩
    | key =>
      obtain ⟨argv, pwdKey, rfl⟩ := h
      cases v' with
      | none => exact ⟨argv, pwdKey, rfl⟩
      | some arg =>
        rcases hload : loadHexKeyInto env s.key ((keySize + 7) / 8) arg with ⟨ret, key⟩
        simp only [SetupState.option, loadHexKeyInto_same, hload]
        exact SameBut.ite ⟨argv, pwdKey, rfl⟩ ⟨argv, pwdKey, rfl⟩
    | iv =>
      obtain ⟨argv, pwdKey, rfl⟩ := h
      cases v' with
      | none => exact ⟨argv, pwdKey, rfl⟩
      | some arg =>
        rcases hload : loadIv env s.iv block arg with ⟨ret, iv⟩
        simp only [SetupState.option, loadIv_same, hload]
        exact SameBut.ite ⟨argv, pwdKey, rfl⟩ ⟨argv, pwdKey, rfl⟩
    | inkey =>
      obtain ⟨argv, pwdKey, rfl⟩ := h
      cases v' with
      | none => exact ⟨argv, pwdKey, rfl⟩
      | some arg =>
        rcases hload : loadKeyFile env s.key ((keySize + 7) / 8) arg with ⟨ret, key⟩
        simp only [SetupState.option, loadKeyFile_same, hload]
        exact SameBut.ite ⟨argv, pwdKey, rfl⟩ ⟨argv, pwdKey, rfl⟩
    | md =>
      obtain ⟨argv, pwdKey, rfl⟩ := h
      have hdigest : (sameAnswers env stdinLine promptPassword).digestByName = env.digestByName := rfl
      simp only [SetupState.option, hdigest]
      cases env.digestByName v' with
      | none => exact ⟨argv, pwdKey, rfl⟩
      | some hashType => exact ⟨argv, pwdKey, rfl⟩
    | _ =>
      obtain ⟨argv, pwdKey, rfl⟩ := h
      exact ⟨_, _, rfl⟩
  · obtain ⟨argv, pwdKey, rfl⟩ := h
    exact ⟨argv, _, rfl⟩
  · exact passwordSource_same hstdin (.inr ⟨hold, hnew⟩) h

structure AlikeState (n : Nat) (opt old new : List Byte) (s s' : SetupState H) : Prop where
  same : SameBut s s'
  args : Alike n opt old new s.argv s'.argv

theorem crypt_help : ∀ o ∈ cryptOptions, strncmp o.name (str "-help") o.name.length ≠ 0 := by
  decide

theorem crypt_password : ∀ o ∈ cryptOptions,
    ((o.name = str "-pwd" ∨ o.name = str "-k") → o.val = .password) ∧
      (o.name = str "-pass" → o.val = .passwordSource) := by
  decide

theorem special_value (hold : Carried keySize opt old) (hnew : Carried keySize opt new)
    {o : LongOption CryptOption} (ho : o ∈ cryptOptions) (hname : o.name = opt) :
    o.val = .password ∨ o.val = .passwordSource ∧ (∃ p, old = str "pass:" ++ p) ∧
      ∃ p, new = str "pass:" ++ p := by
  obtain ⟨hpassword, hsource⟩ := crypt_password o ho
  rcases hold.option with hopt | hopt | ⟨hopt, hpass⟩
  · exact .inl (hpassword (.inl (hname.trans hopt)))
  · exact .inl (hpassword (.inr (hname.trans hopt)))
  · rcases hnew.option with hopt' | hopt' | ⟨-, hpass'⟩
    · exact absurd (hopt.symm.trans hopt') (by decide)
    · exact absurd (hopt.symm.trans hopt') (by decide)
    · exact .inr ⟨hsource (hname.trans hopt), hpass, hpass'⟩

section Read
variable (hstdin : env.stdinLine.isSome = stdinLine.isSome) (hold : Carried keySize opt old)
  (hnew : Carried keySize opt new)

include hstdin hold hnew

theorem option_alike {s s' : SetupState H} (val : CryptOption) {v v' : Option (List Byte)}
    (hv : v' = v ∨ val = .password ∧ v = some old ∧ v' = some new ∨ val = .passwordSource ∧
      v = some old ∧ v' = some new ∧ (∃ p, old = str "pass:" ++ p) ∧ ∃ p, new = str "pass:" ++ p)
    (h : AlikeState n opt old new s s') :
    AlikeState n opt old new (s.option env block keySize val v)
      (s'.option (sameAnswers env stdinLine promptPassword) block keySize val v') := by
  refine ⟨option_same hstdin val hv h.same, ?_⟩
  by_cases hval : val = .output
  · subst hval
    exact h.args.lowerArgument hold hnew
  · rw [option_keeps_args hval, option_keeps_args hval]
    exact h.args

theorem handle_alike {s s' : SetupState H} (r : Opt CryptOption) {v v' : Option (List Byte)}
    (hv : v' = v ∨ ∃ o ∈ cryptOptions, o.name = opt ∧ r = .found o.val ∧ v = some old ∧ v' = some new)
    (h : AlikeState n opt old new s s') :
    AlikeState n opt old new ((setupReader env block keySize).handle r v s)
      ((setupReader (sameAnswers env stdinLine promptPassword) block keySize).handle r v' s') := by
  cases r with
  | foundTwice =>
    obtain ⟨⟨argv, pwdKey, rfl⟩, hargs⟩ := h
    exact ⟨⟨argv, pwdKey, rfl⟩, hargs⟩
  | found val =>
    refine option_alike hstdin hold hnew val ?_ h
    rcases hv with rfl | ⟨o, ho, hname, hval, rfl, rfl⟩
    · exact .inl rfl
    · obtain rfl := Opt.found.inj hval
      rcases special_value hold hnew ho hname with hval | ⟨hval, hpass, hpass'⟩
      · exact .inr (.inl ⟨hval, rfl, rfl⟩)
      · exact .inr (.inr ⟨hval, rfl, rfl, hpass, hpass'⟩)

theorem options_alike {s s' : SetupState H} (h : AlikeState n opt old new s s') :
    AlikeState n opt old new ((setupReader env block keySize).run 1 cryptOptions s)
      ((setupReader (sameAnswers env stdinLine promptPassword) block keySize).run 1 cryptOptions
        s') := by
  refine OptReader.run_simulates (fun h => ?_) (fun o ho s s' h => ?_) h
  · obtain ⟨⟨argv, pwdKey, rfl⟩, -⟩ := h
    rfl
  · have hhandle := @handle_alike _ _ env stdinLine promptPassword n opt old new block keySize hstdin
      hold hnew s s'
    have hsame (hmatch : matchOption s'.argv 1 o = matchOption s.argv 1 o) :
        (matchOption s.argv 1 o = none ∧ matchOption s'.argv 1 o = none) ∨
          ∃ r v v', matchOption s.argv 1 o = some (r, v) ∧ matchOption s'.argv 1 o = some (r, v') ∧
            AlikeState n opt old new ((setupReader env block keySize).handle r v s)
              ((setupReader (sameAnswers env stdinLine promptPassword) block keySize).handle r v'
                s') := by
      rw [hmatch]
      rcases matchOption s.argv 1 o with _ | ⟨r, v⟩
      · exact .inl ⟨rfl, rfl⟩
      · exact .inr ⟨r, v, v, rfl, rfl, hhandle r (.inl rfl) h⟩
    rcases h.args with heq | hswapped
    · exact hsame (congrArg (matchOption · 1 o) heq)
    · have hname : o.name ∈ optionNames cryptOptions := List.mem_map_of_mem ho
      rcases matchOption_swapped (crypt_help o ho) (hold.ne hname) (hnew.ne hname) hswapped with
        heq | ⟨hopt, hmatch, hmatch'⟩
      · exact hsame heq
      · exact .inr ⟨_, _, _, hmatch, hmatch',
          hhandle _ (.inr ⟨o, ho, hopt, rfl, rfl, rfl⟩) h⟩

end Read

theorem check_same {s s' : SetupState H}
    (hprompt : env.promptPassword.isSome = promptPassword.isSome) (h : SameBut s s') :
    SameBut (s.check env block keySize)
      (s'.check (sameAnswers env stdinLine promptPassword) block keySize) := by
  have hflags {s s' : SetupState H} (h : SameBut s s') : SameBut s.checkFlags s'.checkFlags := by
    obtain ⟨argv, pwdKey, rfl⟩ := h
    simp only [SetupState.checkFlags, SetupState.fail]
    split_ifs <;> exact ⟨argv, pwdKey, rfl⟩
  have hask {s s' : SetupState H} (h : SameBut s s') :
      SameBut (s.askPassword env block keySize)
        (s'.askPassword (sameAnswers env stdinLine promptPassword) block keySize) := by
    obtain ⟨argv, pwdKey, rfl⟩ := h
    have hline : (sameAnswers env stdinLine promptPassword).promptPassword = promptPassword := rfl
    simp only [SetupState.askPassword, SetupState.fail, hline]
    cases hold : env.promptPassword with
    | none =>
      rw [hold] at hprompt
      obtain rfl := Option.isSome_eq_false_iff.mp hprompt.symm |> Option.isNone_iff_eq_none.mp
      split_ifs <;> exact ⟨argv, pwdKey, rfl⟩
    | some line =>
      rw [hold] at hprompt
      obtain ⟨line', rfl⟩ := Option.isSome_iff_exists.mp hprompt.symm
      split_ifs <;> exact ⟨argv, _, rfl⟩
  have hinput {s s' : SetupState H} (h : SameBut s s') :
      SameBut (s.askInput env) (s'.askInput (sameAnswers env stdinLine promptPassword)) := by
    obtain ⟨argv, pwdKey, rfl⟩ := h
    have hname : (sameAnswers env stdinLine promptPassword).promptInput = env.promptInput := rfl
    simp only [SetupState.askInput, SetupState.fail, hname]
    cases env.promptInput <;> split_ifs <;> exact ⟨argv, pwdKey, rfl⟩
  have hdrop {s s' : SetupState H} (h : SameBut s s') :
      SameBut (s.dropPassword block keySize) (s'.dropPassword block keySize) := by
    obtain ⟨argv, pwdKey, rfl⟩ := h
    simp only [SetupState.dropPassword]
    split_ifs <;> exact ⟨argv, _, rfl⟩
  exact hdrop (hinput (hask (hflags h)))

end Options

section Names
variable {n : Nat} {opt old new : List Byte} {argv argv' : Args} {keySize : Nat}

theorem strtok_leading {delim : Byte} {front : List Byte} (hfront : ∀ c ∈ front, c = delim)
    (rest : List Byte) : TextLine.strtok delim (front ++ rest) = TextLine.strtok delim rest := by
  induction front with
  | nil => rfl
  | cons c front ih =>
    obtain ⟨rfl, hfront⟩ := List.forall_mem_cons.mp hfront
    have hsplit := TextLine.strtok_append_cons c [] (front ++ rest)
    rw [List.nil_append] at hsplit
    rw [List.cons_append, hsplit, ih hfront]
    rfl

theorem strtok_cut (name : List Byte) :
    (TextLine.strtok dash (name.takeWhile (· == dash) ++
      (TextLine.strtok dash name).headD [])).length < 3 := by
  rw [strtok_leading fun c hc => by simpa using List.mem_takeWhile_imp hc]
  rcases htokens : TextLine.strtok dash name with _ | ⟨token, rest⟩
  · decide
  · have hmem : token ∈ TextLine.strtok dash name := htokens ▸ List.mem_cons_self
    obtain ⟨hne, hdash, -⟩ := TextLine.of_mem_strtok hmem
    rw [List.headD_cons, TextLine.strtok_singleton hne hdash, List.length_singleton]
    omega

theorem parseAlgo_few {name : List Byte} (h : (TextLine.strtok dash name).length < 3)
    (modeAlloc : Bool) (st : AlgoState) : (parseAlgo modeAlloc name st).1 = wolfcluFatalError := by
  rcases htokens : TextLine.strtok dash name with _ | ⟨a, _ | ⟨b, _ | ⟨c, rest⟩⟩⟩
  · rw [parseAlgo, htokens]
  · rw [parseAlgo, htokens]
  · rw [parseAlgo, htokens]
  · rw [htokens] at h
    simp only [List.length_cons] at h
    omega

theorem parseModeAndSize_size (modeAlloc : Bool) (tmpAlg sz tmpMode : List Byte) (st : AlgoState) :
    (parseModeAndSize modeAlloc tmpAlg sz tmpMode st).2.size = atoi sz := by
  rw [parseModeAndSize]
  rcases selectAlgo tmpAlg tmpMode { st with size := atoi sz } with ⟨ret, alg⟩
  dsimp only
  split_ifs <;> rfl

theorem algoName_words (alg : Algo) : (TextLine.strtok dash (algoName alg)).length < 3 ∨
    ∃ a b c, TextLine.strtok dash (algoName alg) = [a, b, c] ∧ isDigit (b.headD 0) = true ∧
      (atoi b).toNat ∈ evpSizes := by
  have hname (a b c : List Byte) (h : TextLine.strtok dash (algoName alg) = [a, b, c] ∧
      isDigit (b.headD 0) = true ∧ (atoi b).toNat ∈ evpSizes) :
      (TextLine.strtok dash (algoName alg)).length < 3 ∨
        ∃ a b c, TextLine.strtok dash (algoName alg) = [a, b, c] ∧ isDigit (b.headD 0) = true ∧
          (atoi b).toNat ∈ evpSizes := .inr ⟨a, b, c, h⟩
  cases alg with
  | aes128ctr => exact hname (str "aes") (str "128") (str "ctr") (by decide)
  | aes192ctr => exact hname (str "aes") (str "192") (str "ctr") (by decide)
  | aes256ctr => exact hname (str "aes") (str "256") (str "ctr") (by decide)
  | aes128cbc => exact hname (str "aes") (str "128") (str "cbc") (by decide)
  | aes192cbc => exact hname (str "aes") (str "192") (str "cbc") (by decide)
  | aes256cbc => exact hname (str "aes") (str "256") (str "cbc") (by decide)
  | camellia128cbc => exact hname (str "camellia") (str "128") (str "cbc") (by decide)
  | camellia192cbc => exact hname (str "camellia") (str "192") (str "cbc") (by decide)
  | camellia256cbc => exact hname (str "camellia") (str "256") (str "cbc") (by decide)
  | descbc => exact .inl (by decide)
  | other k =>
    have hnil : (TextLine.strtok dash []).length < 3 := by decide
    exact .inl hnil

theorem parseAlgo_algoName {alg : Algo} {modeAlloc : Bool} {st : AlgoState}
    (h : 0 ≤ (parseAlgo modeAlloc (algoName alg) st).1) :
    (parseAlgo modeAlloc (algoName alg) st).2.size.toNat ∈ evpSizes := by
  have hfatal : ¬ 0 ≤ wolfcluFatalError := by decide
  rcases algoName_words alg with hfew | ⟨a, b, c, htokens, hdigit, hsize⟩
  · rw [parseAlgo_few hfew] at h
    exact absurd h hfatal
  · rw [parseAlgo, htokens] at h ⊢
    dsimp only at h ⊢
    by_cases haccepted : accepted acceptAlgs a = true
    · rw [if_pos haccepted, if_pos hdigit, parseModeAndSize_size]
      exact hsize
    · rw [if_neg haccepted] at h
      exact absurd h hfatal

structure FallbackSize (s : AlgoSearch) : Prop where
  name : (TextLine.strtok dash s.name).length < 3
  size : 0 ≤ s.ret → s.st.size.toNat ∈ evpSizes

theorem FallbackSize.handle {modeAlloc : Bool} {s : AlgoSearch} (h : FallbackSize s)
    (opt : Opt (Option Algo)) : FallbackSize (s.handle modeAlloc opt) := by
  have hfatal : ¬ 0 ≤ wolfcluFatalError := by decide
  cases opt with
  | foundTwice => exact ⟨h.name, fun hret => absurd hret hfatal⟩
  | found val =>
    have hnil : (TextLine.strtok dash []).length < 3 := by decide
    cases val with
    | none =>
      simp only [AlgoSearch.handle, Option.map_none, Option.getD_none]
      split_ifs
      · exact ⟨hnil, fun hret => absurd (parseAlgo_few h.name modeAlloc s.st ▸ hret) hfatal⟩
      · exact ⟨h.name, h.size⟩
    | some alg =>
      simp only [AlgoSearch.handle, Option.map_some, Option.getD_some]
      split_ifs with hlen
      · exact ⟨hnil, parseAlgo_algoName⟩
      · have hempty : algoName alg = [] := List.eq_nil_of_length_eq_zero (by omega)
        rw [hempty]
        exact ⟨hnil, h.size⟩

theorem algo_help : ∀ o ∈ cryptAlgoOptions, strncmp o.name (str "-help") o.name.length ≠ 0 ∧
    o.hasArg = false := by
  decide

theorem matchOption_flag {α : Type} {o : LongOption α} (hflag : o.hasArg = false) (i : Int)
    (hhelp : strncmp o.name (str "-help") o.name.length ≠ 0) (hold : old ≠ o.name)
    (hnew : new ≠ o.name) (h : Swapped n opt old new argv argv') :
    matchOption argv' i o = matchOption argv i o := by
  simp only [matchOption, hflag, Bool.false_eq_true, if_false,
    h.checkForArg (readPast_of_name hhelp hold) (readPast_of_name hhelp hnew)]

theorem fallback_swapped (hold : Carried keySize opt old) (hnew : Carried keySize opt new)
    (hevp : keySize ∈ evpSizes) (modeAlloc : Bool) (h : Swapped n opt old new argv argv')
    (s : AlgoSearch) (hs : s.argv = argv) :
    ∃ s', (algoReader modeAlloc).run 2 cryptAlgoOptions { s with argv := argv' } =
        { s' with argv := argv' } ∧
      (algoReader modeAlloc).run 2 cryptAlgoOptions s = s' := by
  have hrelated : (fun s s' : AlgoSearch => s.argv = argv ∧ s' = { s with argv := argv' })
      ((algoReader modeAlloc).run 2 cryptAlgoOptions s)
      ((algoReader modeAlloc).run 2 cryptAlgoOptions { s with argv := argv' }) := by
    refine OptReader.run_simulates (R := fun s s' : AlgoSearch => s.argv = argv ∧
      s' = { s with argv := argv' }) (fun h => ?_) (fun o ho s s' hrel => ?_) ⟨hs, rfl⟩
    · obtain ⟨-, rfl⟩ := h
      rfl
    · obtain ⟨rfl, rfl⟩ := hrel
      obtain ⟨hhelp, hflag⟩ := algo_help o ho
      have hname : o.name ∈ optionNames cryptAlgoOptions := List.mem_map_of_mem ho
      have hsame := @matchOption_flag n opt old new _ _ _ o hflag 2 hhelp
        (fun heq => hold.algo hevp (heq ▸ hname)) (fun heq => hnew.algo hevp (heq ▸ hname)) h
      have hsame' : matchOption ((algoReader modeAlloc).argv { s with argv := argv' }) 2 o =
        matchOption s.argv 2 o := hsame
      rw [hsame']
      rcases hmatch : matchOption s.argv 2 o with _ | ⟨r, v⟩
      · exact .inl ⟨hmatch, rfl⟩
      · refine .inr ⟨r, v, v, hmatch, rfl, ?_⟩
        cases r with
        | foundTwice => exact ⟨rfl, rfl⟩
        | found val =>
          simp only [algoReader, AlgoSearch.handle]
          split_ifs
          · exact ⟨rfl, rfl⟩
          · exact ⟨rfl, rfl⟩
  exact ⟨_, hrelated.2, rfl⟩

theorem getAlgo_swapped (hold : Carried keySize opt old) (hnew : Carried keySize opt new)
    (h : Swapped n opt old new argv argv') (hthird : argv'[2]? = argv[2]?) {modeAlloc : Bool}
    {alg : Algo} {block : Int} {st : AlgoState} (hget : getAlgo modeAlloc argv alg = (block, st))
    (hblock : 0 ≤ block) (hsize : st.size.toNat = keySize) :
    getAlgo modeAlloc argv' alg = (block, st) := by
  rw [getAlgo] at hget ⊢
  rw [hthird]
  rcases hname : argv[2]? with _ | name
  · rw [hname] at hget
    exact hget
  · simp only [hname] at hget ⊢
    by_cases hlong : 80 ≤ name.length
    · rw [if_pos hlong] at hget ⊢
      exact hget
    · rw [if_neg hlong] at hget ⊢
      rcases hparse : parseAlgo modeAlloc name ⟨alg, none, 0⟩ with ⟨ret, parsed⟩
      simp only [hparse] at hget ⊢
      by_cases hfail : ret < 0
      · rw [if_pos hfail] at hget ⊢
        obtain ⟨rfl, rfl⟩ := Prod.mk.inj hget
        have hfallback := @OptReader.run_preserves _ _ (algoReader modeAlloc) 2 FallbackSize
          cryptAlgoOptions (fun r _ s _ hs => hs.handle r)
          ⟨argv, ret, false, _, parsed⟩ ⟨strtok_cut name, fun hret => absurd hret (not_le.mpr hfail)⟩
        obtain ⟨s', hrun', hrun⟩ := fallback_swapped hold hnew (hsize ▸ hfallback.size hblock)
          modeAlloc h ⟨argv, ret, false, _, parsed⟩ rfl
        dsimp only at hrun'
        rw [hrun', hrun]
      · rw [if_neg hfail] at hget ⊢
        exact hget

end Names

section Typed
variable {n : Nat} {opt old new old' new' name : List Byte} {argv argv' read read' : Args}

theorem Swapped.typed (htyped : Swapped n opt old new argv argv')
    (hread : Swapped n opt old' new' read read') (hold : old' ≠ name) (hnew : new' ≠ name)
    (honce : name = opt → read.count name ≤ 1) :
    typedArgument read' argv' name = if name = opt then some new else typedArgument read argv name := by
  have hgiven := hread.given hold hnew
  obtain ⟨front, back, hfront, rfl, rfl⟩ := htyped
  obtain ⟨front', back', hfront', rfl, rfl⟩ := hread
  have hlen : front'.length = front.length := hfront'.trans hfront.symm
  have hat : (front' ++ opt :: old' :: back')[front'.length]? = some opt := by
    rw [List.getElem?_append_right le_rfl, Nat.sub_self]
    rfl
  rw [typedArgument, typedArgument, idxOf_swapped hold hnew]
  by_cases hname : name = opt
  · subst hname
    have hidx := idxOf_of_once (honce rfl) hat
    have hmem : Given (front' ++ name :: new' :: back') name := by
      obtain ⟨arg, front', rfl⟩ := List.exists_cons_of_length_eq_add_one hfront'
      simp [Given]
    rw [if_pos hmem, if_pos rfl, hidx, hlen]
    exact swapped_at front back
  · rw [if_neg hname]
    by_cases hmem : Given (front' ++ opt :: old' :: back') name
    · rw [if_pos (hgiven.mpr hmem), if_pos hmem]
      refine swapped_getElem? front back fun heq => hname ?_
      have hlt := List.idxOf_lt_length_of_mem (List.mem_of_mem_tail hmem)
      have hidx : (front' ++ opt :: old' :: back').idxOf name = front'.length := by omega
      have hget := List.getElem?_eq_getElem hlt
      rw [List.getElem_idxOf hlt, hidx, hat] at hget
      exact (Option.some.inj hget).symm
    · rw [if_neg fun h => hmem (hgiven.mp h), if_neg hmem]

theorem Swapped.renamed (h : Swapped n opt old new argv argv') (hopt : renameAlgo opt = opt) :
    Swapped n opt (renameAlgo old) (renameAlgo new) (oldAlgo argv) (oldAlgo argv') := by
  obtain ⟨front, back, hfront, rfl, rfl⟩ := h
  have hmap (arg : List Byte) : oldAlgo (front ++ opt :: arg :: back) =
      front.map renameAlgo ++ opt :: renameAlgo arg :: back.map renameAlgo := by
    have hall : oldAlgo (front ++ opt :: arg :: back) =
        (front ++ opt :: arg :: back).map renameAlgo := rfl
    rw [hall, List.map_append, List.map_cons, List.map_cons, hopt]
  exact ⟨front.map renameAlgo, back.map renameAlgo, by rw [List.length_map, hfront], hmap old, hmap new⟩

theorem Swapped.lowered {keySize : Nat} (h : Swapped n opt old new argv argv')
    (hold : Carried keySize opt old) (hnew : Carried keySize opt new) :
    Swapped n opt old new (loweredArgs argv) (loweredArgs argv') := by
  have hname : str "-output" ∈ optionNames cryptOptions := by decide
  rw [loweredArgs, loweredArgs]
  by_cases hgiven : Given argv (str "-output")
  · rw [if_pos hgiven, if_pos ((h.given (hold.ne hname) (hnew.ne hname)).mpr hgiven)]
    exact h.lowerArgument hold.lower.1 hold.lower.2 (hold.ne hname) (hnew.ne hname)
  · rw [if_neg hgiven, if_neg fun h' => hgiven ((h.given (hold.ne hname) (hnew.ne hname)).mp h')]
    exact h

end Typed

section Source
variable {keySize : Nat} {password : List Byte}

theorem not_abbreviatesHelp_pass : ¬ abbreviatesHelp (str "pass:" ++ password) = true := by
  have hne : strncmp (str "pass:" ++ password) (str "-help") (str "pass:" ++ password).length = 67 :=
    rfl
  intro h
  have hzero := (of_decide_eq_true h).1
  rw [hne] at hzero
  exact absurd hzero (by decide)

theorem readPast_help {arg : List Byte} (h : ¬ abbreviatesHelp arg = true) : ReadPast (str "-h") arg := by
  refine ⟨?_, fun hboth => h hboth.2⟩
  rintro rfl
  exact h (by decide)

theorem carried_pass (password : List Byte) :
    Carried keySize (str "-pass") (str "pass:" ++ password) := by
  have hname {names : List (List Byte)} (hnames : ∀ name ∈ names, name.head? = some dash) :
      str "pass:" ++ password ∉ names := by
    intro hmem
    have hhead : (str "pass:" ++ password).head? = some 112 := rfl
    exact absurd (hhead.symm.trans (hnames _ hmem)) (by decide)
  exact ⟨.inr (.inr ⟨rfl, password, rfl⟩), hname (by decide), fun _ => hname (by decide)⟩

theorem carried_plain {opt : List Byte} (hopt : opt = str "-pwd" ∨ opt = str "-k")
    (hplain : ¬ ScannedWord keySize password) : Carried keySize opt (renameAlgo password) := by
  simp only [ScannedWord, not_or, not_and] at hplain
  obtain ⟨-, hcrypt, halgo⟩ := hplain
  have hoption : opt = str "-pwd" ∨ opt = str "-k" ∨ opt = str "-pass" ∧
      ∃ p, renameAlgo password = str "pass:" ++ p := hopt.imp_right .inl
  by_cases hknown : (oldAlgoName.lookup password).isSome
  · obtain ⟨entry, hentry, rfl⟩ := lookup_isSome hknown
    have hall : ∀ entry ∈ oldAlgoName, renameAlgo entry.1 ∉ optionNames cryptOptions := by decide
    exact ⟨hoption, hall entry hentry, fun hevp => absurd hknown (halgo hevp).2⟩
  · rw [renameAlgo_unknown (Bool.eq_false_of_not_eq_true hknown)] at hoption ⊢
    exact ⟨hoption, hcrypt, fun hevp => (halgo hevp).1⟩

end Source

section Swap
variable {σ H : Type} {env : SetupEnv σ H} {stdinLine promptPassword : Option (List Byte)}
  {n keySize : Nat} {opt old new : List Byte} {argv argv' : Args} {action : Action} {block : Int}
  {algo : AlgoState} {s : SetupState H}

theorem prepared_alike (hstdin : env.stdinLine.isSome = stdinLine.isSome)
    (hprompt : env.promptPassword.isSome = promptPassword.isSome)
    (hold : Carried keySize opt old) (hnew : Carried keySize opt new)
    (hhelp : checkForArg (str "-h") argv' = checkForArg (str "-h") argv)
    (hargs : Alike n opt old new (oldAlgo argv) (oldAlgo argv'))
    (hthird : (oldAlgo argv')[2]? = (oldAlgo argv)[2]?) (hsize : algo.size.toNat = keySize)
    (h : prepared env argv action = some (block, algo, s)) :
    ∃ s', prepared (sameAnswers env stdinLine promptPassword) argv' action = some (block, algo, s') ∧
      SameBut s s' := by
  subst hsize
  have hinitial : AlikeState n opt old new
      (SetupState.initial env (oldAlgo argv) action block.toNat algo.size.toNat)
      (SetupState.initial (sameAnswers env stdinLine promptPassword) (oldAlgo argv') action
        block.toNat algo.size.toNat) := ⟨⟨oldAlgo argv', _, rfl⟩, hargs⟩
  have hread := @options_alike _ _ env stdinLine promptPassword n opt old new block.toNat
    algo.size.toNat hstdin hold hnew _ _ hinitial
  have hchecked := @check_same _ _ env stdinLine promptPassword block.toNat algo.size.toNat _ _ hprompt
    hread.same
  obtain ⟨-, rfl⟩ := prepared_cases h
  refine ⟨_, ?_, hchecked⟩
  have halloc : (sameAnswers env stdinLine promptPassword).alloc = env.alloc := rfl
  have halg : (sameAnswers env stdinLine promptPassword).uninitialised = env.uninitialised := rfl
  simp only [prepared] at h ⊢
  rw [hhelp, halloc, halg]
  split_ifs at h with hno hneg hmemory
  simp only [Option.some.injEq, Prod.mk.injEq] at h
  obtain ⟨hblock, halgo, -⟩ := h
  have hget : getAlgo (env.alloc .mode) (oldAlgo argv) env.uninitialised = (block, algo) :=
    Prod.ext hblock halgo
  have hget' : getAlgo (env.alloc .mode) (oldAlgo argv') env.uninitialised = (block, algo) := by
    rcases hargs with heq | hswapped
    · rw [heq]
      exact hget
    · exact getAlgo_swapped hold hnew hswapped hthird hget (by omega) rfl
  rw [hget', if_neg hno, if_neg (by omega), if_neg hmemory]

end Swap

section Run
variable {σ H : Type} {env : SetupEnv σ H} {stdinLine promptPassword : Option (List Byte)} {n : Nat}
  {opt old new : List Byte} {argv argv' : Args} {action : Action} {source : PasswordSource}
  {password password' : List Byte} {block : Int} {algo : AlgoState} {s : SetupState H}

theorem PasswordRun.once (h : PasswordRun env argv action source password block algo s) :
    PasswordsOnce (oldAlgo argv) := by
  obtain ⟨-, hs⟩ := prepared_cases h.prepared
  have hok := h.ok
  have hkey := h.noKey
  rw [hs] at hok hkey
  exact (options_password rfl (check_password hok hkey).1).1

theorem typedPasswords_swapped {keySize : Nat} (h : Swapped n opt old new argv argv')
    (hopt : renameAlgo opt = opt) (hold : Carried keySize opt (renameAlgo old))
    (hnew : Carried keySize opt (renameAlgo new)) (honce : PasswordsOnce (oldAlgo argv)) :
    typedPasswords argv' =
      (if str "-pwd" = opt then some new else (typedPasswords argv).1,
        if str "-k" = opt then some new else (typedPasswords argv).2.1,
        if str "-pass" = opt then some new else (typedPasswords argv).2.2) := by
  have hread := h.renamed hopt
  have hlowered := hread.lowered hold hnew
  have hpwd : str "-pwd" ∈ optionNames cryptOptions := by decide
  have hk : str "-k" ∈ optionNames cryptOptions := by decide
  have hpass : str "-pass" ∈ optionNames cryptOptions := by decide
  exact Prod.ext (h.typed hread (hold.ne hpwd) (hnew.ne hpwd) fun _ => honce.pwd)
    (Prod.ext (h.typed hlowered (hold.ne hk) (hnew.ne hk) fun _ => honce.k)
      (h.typed hlowered (hold.ne hpass) (hnew.ne hpass) fun _ => honce.pass))

theorem PasswordRun.alike (h : PasswordRun env argv action source password block algo s)
    (hstdin : env.stdinLine.isSome = stdinLine.isSome)
    (hprompt : env.promptPassword.isSome = promptPassword.isSome)
    (hold : Carried algo.size.toNat opt old) (hnew : Carried algo.size.toNat opt new)
    (hhelp : checkForArg (str "-h") argv' = checkForArg (str "-h") argv)
    (hargs : Alike n opt old new (oldAlgo argv) (oldAlgo argv'))
    (hthird : (oldAlgo argv')[2]? = (oldAlgo argv)[2]?)
    (hsupplied : Supplies (sameAnswers env stdinLine promptPassword) argv' source password') :
    ∃ s', PasswordRun (sameAnswers env stdinLine promptPassword) argv' action source password' block
      algo s' := by
  obtain ⟨s', hprepared, args, pwdKey, rfl⟩ :=
    prepared_alike hstdin hprompt hold hnew hhelp hargs hthird rfl h.prepared
  exact ⟨_, hprepared, h.ok, h.noKey, hsupplied⟩

theorem PasswordRun.swapped (h : PasswordRun env argv action source password block algo s)
    (hswapped : Swapped n opt old new argv argv') (hn : n ≠ 0) (hopt : renameAlgo opt = opt)
    (hhelp : ¬ abbreviatesHelp old = true) (hhelp' : ¬ abbreviatesHelp new = true)
    (hold : Carried algo.size.toNat opt (renameAlgo old))
    (hnew : Carried algo.size.toNat opt (renameAlgo new))
    (harguments : (if str "-pwd" = opt then some new else (source.arguments password).1,
        if str "-k" = opt then some new else (source.arguments password).2.1,
        if str "-pass" = opt then some new else (source.arguments password).2.2) =
      source.arguments password')
    (hanswered : source.answered env password') :
    ∃ s', PasswordRun env argv' action source password' block algo s' := by
  have hread := hswapped.renamed hopt
  have htyped := typedPasswords_swapped hswapped hopt hold hnew h.once
  rw [h.supplied.1, harguments] at htyped
  have hthird : (oldAlgo argv')[2]? = (oldAlgo argv)[2]? := by
    obtain ⟨front, back, hfront, hargs, hargs'⟩ := hread
    rw [hargs, hargs']
    exact swapped_getElem? front back (by omega)
  exact @PasswordRun.alike _ _ _ env.stdinLine env.promptPassword _ _ _ _ _ _ _ _ _ _ _ _ _ h rfl rfl
    hold hnew (hswapped.checkForArg (readPast_help hhelp) (readPast_help hhelp')) (.inr hread) hthird
    ⟨htyped, hanswered⟩

end Run

section Line
variable {σ H : Type} {line : PasswordLine σ H} {source : PasswordSource}
  {password password' : List Byte} {block : Int} {algo : AlgoState} {s : SetupState H}

theorem PasswordLine.swapped (opt value value' : List Byte) (front back : Args)
    (hfront : 2 ≤ front.length) : ∃ n, n ≠ 0 ∧ Swapped n opt value value'
      (front ++ [opt, value] ++ back) (front ++ [opt, value'] ++ back) := by
  refine ⟨front.length - 1, by omega, front, back, by omega, ?_, ?_⟩
  · rw [List.append_assoc]
    rfl
  · rw [List.append_assoc]
    rfl

theorem ScannedWord.of_help {keySize : Nat} {arg : List Byte} (h : ¬ ScannedWord keySize arg) :
    ¬ abbreviatesHelp arg = true := fun hhelp => h (.inl hhelp)

theorem PasswordLine.Leaves.other_password (h : line.Leaves source password block algo s)
    (hold : source.Delivers algo.size.toNat password)
    (hnew : source.Delivers algo.size.toNat password') :
    ∃ s', line.Leaves source password' block algo s' := by
  cases source with
  | pwd =>
    obtain ⟨n, hn, hswapped⟩ := PasswordLine.swapped (str "-pwd") password password' line.front
      line.back line.named
    exact PasswordRun.swapped h hswapped hn (by decide) (ScannedWord.of_help hold)
      (ScannedWord.of_help hnew) (carried_plain (.inl rfl) hold) (carried_plain (.inl rfl) hnew) rfl
      trivial
  | k =>
    obtain ⟨n, hn, hswapped⟩ := PasswordLine.swapped (str "-k") password password' line.front
      line.back line.named
    exact PasswordRun.swapped h hswapped hn (by decide) (ScannedWord.of_help hold)
      (ScannedWord.of_help hnew) (carried_plain (.inr rfl) hold) (carried_plain (.inr rfl) hnew) rfl
      trivial
  | pass =>
    obtain ⟨n, hn, hswapped⟩ := PasswordLine.swapped (str "-pass") (str "pass:" ++ password)
      (str "pass:" ++ password') line.front line.back line.named
    have hsame (p : List Byte) : renameAlgo (str "pass:" ++ p) = str "pass:" ++ p :=
      renameAlgo_undashed (show some (112 : Byte) ≠ some dash by decide)
    have hcarried (p : List Byte) :
        Carried algo.size.toNat (str "-pass") (renameAlgo (str "pass:" ++ p)) :=
      (hsame p).symm ▸ carried_pass p
    exact PasswordRun.swapped h hswapped hn (by decide) not_abbreviatesHelp_pass
      not_abbreviatesHelp_pass (hcarried password) (hcarried password') rfl trivial
  | stdin eol =>
    have hline : (line.env.answering (.stdin eol) password').stdinLine = some (password' ++ eol.bytes) :=
      if_neg hnew
    have hold' : (line.env.answering (.stdin eol) password).stdinLine = some (password ++ eol.bytes) :=
      if_neg hold
    have hstdin : (line.env.answering (.stdin eol) password).stdinLine.isSome =
        (line.env.answering (.stdin eol) password').stdinLine.isSome := by
      rw [hline, hold']
      rfl
    have hanswer : line.env.answering (.stdin eol) password' =
        sameAnswers (line.env.answering (.stdin eol) password)
          (line.env.answering (.stdin eol) password').stdinLine line.env.promptPassword := rfl
    rw [PasswordLine.Leaves, hanswer]
    exact @PasswordRun.alike _ _ (line.env.answering (.stdin eol) password) _ _ 0 (str "-pass") _ _ _ _ _
      _ _ _ _ _ _ h hstdin rfl (carried_pass []) (carried_pass []) rfl (.inl rfl) rfl
      ⟨h.supplied.1, hline⟩
  | prompt =>
    have hanswer : line.env.answering .prompt password' =
        sameAnswers (line.env.answering .prompt password) line.env.stdinLine (some password') := rfl
    rw [PasswordLine.Leaves, hanswer]
    exact @PasswordRun.alike _ _ (line.env.answering .prompt password) _ _ 0 (str "-pass") _ _ _ _ _
      _ _ _ _ _ _ h rfl rfl (carried_pass []) (carried_pass []) rfl (.inl rfl) rfl
      ⟨h.supplied.1, rfl⟩

end Line

section Exact
variable {keySize : Nat} {source source₁ source₂ : PasswordSource} {password : List Byte}

theorem answered_answering {σ H : Type} (env : SetupEnv σ H)
    (h : source.Delivers keySize password) : source.answered (env.answering source password) password := by
  cases source with
  | stdin eol => exact if_neg h
  | prompt => rfl
  | _ => trivial

def cipherNameOf (keySize : Nat) : List Byte :=
  if keySize = 56 then str "3des-56-cbc" else if keySize = 112 then str "3des-112-cbc"
  else if keySize = 168 then str "3des-168-cbc" else if keySize = 128 then str "aes-128-cbc"
  else if keySize = 192 then str "aes-192-cbc" else str "aes-256-cbc"

def algoOf (keySize : Nat) : AlgoState :=
  ⟨if keySize = 128 then .aes128cbc else if keySize = 192 then .aes192cbc
    else if keySize = 256 then .aes256cbc else .descbc, some (str "cbc"), keySize⟩

def blockOf (keySize : Nat) : Int := if keySize ∈ evpSizes then 16 else 24

theorem algoOf_size (keySize : Nat) : (algoOf keySize).size.toNat = keySize := Int.toNat_natCast keySize

def baseLine (keySize : Nat) : PasswordLine Byte Unit :=
  ⟨plainEnv, .encrypt, [str "wolfssl", str "encrypt", cipherNameOf keySize, str "-in", str "msg",
    str "-out", str "enc"], [], by simp⟩

def crowdedLine (keySize : Nat) : PasswordLine Byte Unit :=
  ⟨plainEnv, .encrypt, [str "wolfssl", str "encrypt", cipherNameOf keySize, str "-sha",
    str "-sha224", str "-sha256", str "-sha384", str "-sha512", str "-in", str "msg", str "-out",
    str "enc", str "-output", str "msg", str "-pbkdf2", str "-md", str "sha256", str "-d", str "-p",
    str "-base64", str "-nosalt"], [], by simp⟩

def optionLine (keySize : Nat) (front : Args) : PasswordLine Byte Unit :=
  ⟨plainEnv, .encrypt, [str "wolfssl", str "encrypt", str "-in", str "msg",
    dash :: cipherNameOf keySize] ++ front, [], by simp⟩

def PasswordLine.prepares (line : PasswordLine Byte Unit) (keySize : Nat) (source : PasswordSource)
    (password : List Byte) : Bool :=
  preparesAs (line.env.answering source password) (line.args source password) line.action
    (blockOf keySize) (algoOf keySize)

def pw : List Byte := str "pw"

def typedSources : List PasswordSource := [.pwd, .k]

def allSources : List PasswordSource :=
  [.pwd, .k, .pass, .stdin .none, .stdin .lf, .stdin .crlf, .prompt]

theorem mem_allSources (source : PasswordSource) : source ∈ allSources := by
  cases source with
  | stdin eol => cases eol <;> decide
  | _ => decide

theorem delivers_pw (hsize : keySize ∈ cipherSizes) (source : PasswordSource) :
    source.Delivers keySize pw := by
  have hplain : ∀ keySize ∈ cipherSizes, ¬ ScannedWord keySize pw := by decide
  cases source with
  | pwd => exact hplain keySize hsize
  | k => exact hplain keySize hsize
  | stdin eol => exact List.append_ne_nil_of_left_ne_nil (by decide) _
  | _ => trivial

theorem works_of_prepares {line : PasswordLine Byte Unit} (hsize : keySize ∈ cipherSizes)
    (h : line.prepares keySize source pw = true)
    (htyped : typedPasswords (line.args source pw) = source.arguments pw) :
    line.Works source (blockOf keySize) (algoOf keySize) := by
  have hdelivers := delivers_pw hsize source
  obtain ⟨s, hs⟩ := passwordRun_iff.mpr ⟨h, htyped, answered_answering line.env hdelivers⟩
  exact ⟨pw, s, by decide +kernel, (algoOf_size keySize).symm ▸ hdelivers, hs⟩

theorem never_leaves {line : PasswordLine Byte Unit}
    (h : line.prepares keySize source password = false) (s : SetupState Unit) :
    ¬ line.Leaves source password (blockOf keySize) (algoOf keySize) s := fun hleaves => by
  have hprepares := (passwordRun_iff.mp ⟨s, hleaves⟩).1
  rw [PasswordLine.prepares, hprepares] at h
  cases h

theorem baseLine_works (hsize : keySize ∈ cipherSizes) (source : PasswordSource) :
    (baseLine keySize).Works source (blockOf keySize) (algoOf keySize) := by
  have hall : ∀ keySize ∈ cipherSizes, ∀ source ∈ allSources,
      (baseLine keySize).prepares keySize source pw = true ∧
        typedPasswords ((baseLine keySize).args source pw) = source.arguments pw := by
    decide +kernel
  obtain ⟨hprepares, htyped⟩ := hall keySize hsize source (mem_allSources source)
  exact works_of_prepares hsize hprepares htyped

theorem checkForArg_help {argv : Args} {arg : List Byte} (harg : arg ∈ argv)
    (h : abbreviatesHelp arg = true) : 0 < checkForArg (str "-h") argv := by
  have hcount : (tokensBeforeHelp argv).count (str "-h") = 0 := by
    refine List.count_eq_zero.mpr fun hmem => ?_
    have hnot := List.mem_takeWhile_imp hmem
    exact absurd hnot (by decide)
  rw [checkForArg, checkForArgLoop_help (by decide) ⟨arg, harg, h⟩, hcount]
  decide

theorem help_prevents {line : PasswordLine Byte Unit} (hsource : source ∈ typedSources)
    (h : abbreviatesHelp password = true) : line.prepares keySize source password = false := by
  have hmem : password ∈ line.args source password := by
    simp only [typedSources, List.mem_cons, List.not_mem_nil, or_false] at hsource
    rcases hsource with rfl | rfl
    · simp [PasswordLine.args, PasswordSource.tokens]
    · simp [PasswordLine.args, PasswordSource.tokens]
  rw [PasswordLine.prepares, preparesAs, prepared, if_pos (checkForArg_help hmem h)]
  rfl

def Broken (line : PasswordLine Byte Unit) (keySize : Nat) (source : PasswordSource)
    (password : List Byte) : Prop :=
  line.prepares keySize source pw = true ∧
    typedPasswords (line.args source pw) = source.arguments pw ∧
    line.prepares keySize source password = false

instance (line : PasswordLine Byte Unit) (keySize : Nat) (source : PasswordSource)
    (password : List Byte) : Decidable (Broken line keySize source password) :=
  inferInstanceAs (Decidable (_ ∧ _ ∧ _))

theorem option_breaks (hsize : keySize ∈ cipherSizes) (hsource : source ∈ typedSources)
    (h : password ∈ optionNames cryptOptions) :
    Broken (crowdedLine keySize) keySize source password := by
  have hworks : ∀ keySize ∈ cipherSizes, ∀ source ∈ typedSources,
      (crowdedLine keySize).prepares keySize source pw = true ∧
        typedPasswords ((crowdedLine keySize).args source pw) = source.arguments pw := by
    decide +kernel
  have hfails : ∀ keySize ∈ cipherSizes, ∀ source ∈ typedSources,
      ∀ word ∈ optionNames cryptOptions, (crowdedLine keySize).prepares keySize source word = false := by
    decide +kernel
  obtain ⟨hprepares, htyped⟩ := hworks keySize hsize source hsource
  exact ⟨hprepares, htyped, hfails keySize hsize source hsource password h⟩

def algoWords : List (List Byte) :=
  (optionNames cryptAlgoOptions).filter (· ∉ optionNames cryptOptions) ++ oldAlgoName.map (·.1)

theorem algo_breaks (hsize : keySize ∈ evpSizes) (hsource : source ∈ typedSources)
    (h : password ∈ algoWords) :
    ∃ front, Broken (optionLine keySize front) keySize source password := by
  have hall : ∀ keySize ∈ evpSizes, ∀ source ∈ typedSources, ∀ word ∈ algoWords,
      Broken (optionLine keySize []) keySize source word ∨
        Broken (optionLine keySize [word]) keySize source word := by
    decide +kernel
  rcases hall keySize hsize source hsource password h with hbroken | hbroken
  · exact ⟨_, hbroken⟩
  · exact ⟨_, hbroken⟩

theorem scanned_breaks (hsize : keySize ∈ cipherSizes) (hsource : source ∈ typedSources)
    (h : ScannedWord keySize password) : ∃ line, Broken line keySize source password := by
  by_cases hcrypt : password ∈ optionNames cryptOptions
  · exact ⟨_, option_breaks hsize hsource hcrypt⟩
  · rcases h with hhelp | hname | ⟨hevp, halgo⟩
    · obtain ⟨hprepares, htyped, -⟩ := option_breaks hsize hsource (List.mem_cons_self ..)
      exact ⟨_, hprepares, htyped, help_prevents hsource hhelp⟩
    · exact absurd hname hcrypt
    · have hword : password ∈ algoWords := by
        refine List.mem_append.mpr (halgo.imp (fun hname => ?_) fun hold => ?_)
        · exact List.mem_filter.mpr ⟨hname, decide_eq_true hcrypt⟩
        · obtain ⟨entry, hentry, rfl⟩ := lookup_isSome hold
          exact List.mem_map_of_mem hentry
      obtain ⟨front, hbroken⟩ := algo_breaks hevp hsource hword
      exact ⟨_, hbroken⟩

theorem undelivered_breaks (hsize : keySize ∈ cipherSizes) (h : ¬ source.Delivers keySize password) :
    ∃ line, Broken line keySize source password := by
  cases source with
  | pwd => exact scanned_breaks hsize (by decide) (not_not.mp h)
  | k => exact scanned_breaks hsize (by decide) (not_not.mp h)
  | stdin eol =>
    obtain ⟨hpassword, heol⟩ := List.append_eq_nil_iff.mp (not_not.mp h)
    subst hpassword
    have hall : ∀ keySize ∈ cipherSizes, ∀ eol ∈ [LineEnd.none, .lf, .crlf], eol.bytes = [] →
        Broken (baseLine keySize) keySize (.stdin eol) [] := by
      decide +kernel
    exact ⟨_, hall keySize hsize eol (by cases eol <;> decide) heol⟩
  | pass => exact absurd trivial h
  | prompt => exact absurd trivial h

theorem Broken.works {line : PasswordLine Byte Unit} (hsize : keySize ∈ cipherSizes)
    (h : Broken line keySize source password) :
    line.Works source (blockOf keySize) (algoOf keySize) :=
  works_of_prepares hsize h.1 h.2.1

theorem delivered_of_interchangeable (hsize : keySize ∈ cipherSizes)
    (h : Interchangeable keySize source₁ source₂ password) :
    source₁.Delivers keySize password ∧ source₂.Delivers keySize password := by
  constructor
  · by_contra hnot
    obtain ⟨line, hbroken⟩ := undelivered_breaks hsize hnot
    obtain ⟨s₁, s₂, hleaves, -⟩ := h line (baseLine keySize) _ _ (algoOf_size keySize)
      (hbroken.works hsize) (baseLine_works hsize source₂)
    exact never_leaves hbroken.2.2 s₁ hleaves
  · by_contra hnot
    obtain ⟨line, hbroken⟩ := undelivered_breaks hsize hnot
    obtain ⟨s₁, s₂, -, hleaves, -⟩ := h (baseLine keySize) line _ _ (algoOf_size keySize)
      (baseLine_works hsize source₁) (hbroken.works hsize)
    exact never_leaves hbroken.2.2 s₂ hleaves

theorem interchangeable_of_agree (hpassword : IsPassword password)
    (hagree : SourcesAgree keySize source₁ source₂ password)
    (hdelivers₁ : source₁.Delivers keySize password)
    (hdelivers₂ : source₂.Delivers keySize password) :
    Interchangeable keySize source₁ source₂ password := by
  rintro σ₁ H₁ σ₂ H₂ line₁ line₂ block algo rfl ⟨p₁, t₁, -, hp₁, hworks₁⟩ ⟨p₂, t₂, -, hp₂, hworks₂⟩
  obtain ⟨s₁, hleaves₁⟩ := hworks₁.other_password hp₁ hdelivers₁
  obtain ⟨s₂, hleaves₂⟩ := hworks₂.other_password hp₂ hdelivers₂
  obtain ⟨hleft, hcipher⟩ := passwords_left_iff hpassword hleaves₁ hleaves₂
  exact ⟨s₁, s₂, hleaves₁, hleaves₂, hleft.mpr hagree, hcipher hagree⟩

theorem agree_of_interchangeable (hsize : keySize ∈ cipherSizes) (hpassword : IsPassword password)
    (h : Interchangeable keySize source₁ source₂ password) :
    SourcesAgree keySize source₁ source₂ password := by
  obtain ⟨s₁, s₂, hleaves₁, hleaves₂, hleft, -⟩ := h (baseLine keySize) (baseLine keySize) _ _
    (algoOf_size keySize) (baseLine_works hsize source₁) (baseLine_works hsize source₂)
  have hagree := (passwords_left_iff hpassword hleaves₁ hleaves₂).1.mp hleft
  rwa [algoOf_size] at hagree

end Exact

end WolfCLU
