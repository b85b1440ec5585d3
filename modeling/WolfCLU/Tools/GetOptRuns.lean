import WolfCLU.Tools.GetOpt

namespace WolfCLU
open CString

section Calls
variable {α : Type}

def getOptFrom (argv : Args) (optIndex : Int) :
    List (LongOption α) → Nat → Option (Opt α × Option (List Byte)) × Nat
  | [], optind => (none, optind)
  | o :: rest, optind =>
    match matchOption argv optIndex o with
    | some r => (some r, optind + 1)
    | none => getOptFrom argv optIndex rest (optind + 1)

-- none is END_OF_ARGS, and the table index of the next call is the optind returned here
def getOpt (argv : Args) (table : List (LongOption α)) (optIndex : Int) (optind : Nat) :
    Option (Opt α × Option (List Byte)) × Nat :=
  getOptFrom argv optIndex (table.drop optind) optind

def getOptCalls (argv : Args) (table : List (LongOption α)) (optIndex : Int) :
    Nat → Nat → List (Option (Opt α × Option (List Byte)))
  | 0, _ => []
  | k + 1, optind =>
    let (r, optind) := getOpt argv table optIndex optind
    r :: getOptCalls argv table optIndex k optind

theorem getOptFrom_spec (argv : Args) {table rest : List (LongOption α)} (optIndex : Int)
    {optind : Nat} (h : table.drop optind = rest) :
    (getOptFrom argv optIndex rest optind).1 =
        (rest.filterMap (matchOption argv optIndex)).head? ∧
      (table.drop (getOptFrom argv optIndex rest optind).2).filterMap (matchOption argv optIndex) =
        (rest.filterMap (matchOption argv optIndex)).tail := by
  induction rest generalizing optind with
  | nil =>
    rw [getOptFrom, h]
    exact ⟨rfl, rfl⟩
  | cons o rest ih =>
    have hnext : table.drop (optind + 1) = rest := by
      rw [← List.drop_drop, h, List.drop_one, List.tail_cons]
    rw [getOptFrom, List.filterMap_cons]
    cases matchOption argv optIndex o with
    | none => exact ih hnext
    | some r => exact ⟨rfl, by rw [hnext]; rfl⟩

theorem getOptCalls_eq (argv : Args) (table : List (LongOption α)) (optIndex : Int)
    (k optind : Nat) :
    getOptCalls argv table optIndex k optind =
      (((table.drop optind).filterMap (matchOption argv optIndex)).map some ++
        List.replicate k none).take k := by
  induction k generalizing optind with
  | zero => rfl
  | succ k ih =>
    obtain ⟨hhead, htail⟩ := getOptFrom_spec argv optIndex (rfl : table.drop optind = _)
    rw [getOptCalls]
    simp only [getOpt, ih, hhead, htail]
    cases (table.drop optind).filterMap (matchOption argv optIndex) with
    | nil => simp [List.replicate_succ]
    | cons r rs =>
      simp [List.replicate_succ', ← List.append_assoc, List.take_append_of_le_length]

end Calls

section Answer
variable {α : Type}

def HelpMatched (argv : Args) (o : LongOption α) : Prop :=
  helpName o.name = true ∧ ∃ arg ∈ argv, abbreviatesHelp arg = true

instance (argv : Args) (o : LongOption α) : Decidable (HelpMatched argv o) :=
  inferInstanceAs (Decidable (_ ∧ ∃ arg ∈ argv, abbreviatesHelp arg = true))

def tokensBeforeHelp (argv : Args) : Args := argv.takeWhile fun arg => !abbreviatesHelp arg

def optionAnswer (argv : Args) (o : LongOption α) : Option (Opt α × Option (List Byte)) :=
  if HelpMatched argv o then
    if 2 ≤ (tokensBeforeHelp argv).count o.name then some (.foundTwice, none)
    else some (.found o.val, if o.hasArg then argv[2]? else none)
  else
    match argv.count o.name with
    | 0 => none
    | 1 => some (.found o.val, if o.hasArg then argumentOf argv o.name else none)
    | _ => some (.foundTwice, none)

theorem checkForArgLoop_help {name : List Byte} (hname : helpName name = true) {argv : Args}
    (hhelp : ∃ arg ∈ argv, abbreviatesHelp arg = true) (i ret : Int) (argFound : Bool) :
    checkForArgLoop name name.length argv i ret argFound =
      if 2 ≤ (tokensBeforeHelp argv).count name + (if argFound then 1 else 0) then userInputError
      else 1 := by
  have hstrncmp : strncmp name (str "-help") name.length = 0 := of_decide_eq_true hname
  induction argv generalizing i ret argFound with
  | nil =>
    obtain ⟨_, h, _⟩ := hhelp
    cases h
  | cons arg rest ih =>
    cases harg : abbreviatesHelp arg with
    | true =>
      have hbefore : tokensBeforeHelp (arg :: rest) = [] := by simp [tokensBeforeHelp, harg]
      rw [checkForArgLoop, if_pos ⟨hstrncmp, harg⟩, hbefore, List.count_nil, if_neg]
      split <;> omega
    | false =>
      have hrest : ∃ arg ∈ rest, abbreviatesHelp arg = true := by
        obtain ⟨a, ha, hab⟩ := hhelp
        rcases List.mem_cons.mp ha with rfl | ha
        · rw [harg] at hab
          cases hab
        · exact ⟨a, ha, hab⟩
      have hbefore : tokensBeforeHelp (arg :: rest) = arg :: tokensBeforeHelp rest := by
        simp [tokensBeforeHelp, harg]
      rw [checkForArgLoop, if_neg fun h => by simp [harg] at h, hbefore, List.take_length]
      by_cases heq : arg = name
      · subst heq
        cases argFound with
        | true => simp
        | false =>
          simp only [and_self, if_true, Bool.false_eq_true, if_false, ih hrest, List.count_cons_self]
      · simp only [heq, and_false, if_false, ih hrest,
          List.count_cons_of_ne heq]

theorem helpFree_of_not_matched {argv : Args} {o : LongOption α} (h : ¬ HelpMatched argv o) :
    HelpFree o.name argv :=
  fun arg harg hhelp => h ⟨hhelp.1, arg, harg, hhelp.2⟩

theorem mem_drop_idxOf {argv : Args} {name : List Byte} (h : name ∈ argv) :
    name ∈ argv.drop (argv.idxOf name + 1) ↔ 2 ≤ argv.count name := by
  obtain ⟨front, rest, rfl, hfront⟩ := List.eq_append_cons_of_mem h
  have hidx : (front ++ name :: rest).idxOf name = front.length := by
    rw [List.idxOf_append_of_notMem hfront, List.idxOf_cons_self, Nat.add_zero]
  have hcount : (front ++ name :: rest).count name = rest.count name + 1 := by
    rw [List.count_append, List.count_eq_zero_of_not_mem hfront, List.count_cons_self, Nat.zero_add]
  have hdrop : (front ++ name :: rest).drop (front.length + 1) = rest := by
    rw [← List.drop_drop, List.drop_left, List.drop_one, List.tail_cons]
  rw [hidx, hdrop, hcount, ← List.one_le_count_iff]
  omega

theorem checkForArg_count {argv : Args} {name : List Byte} (hhelp : HelpFree name argv) :
    checkForArg name argv =
      if 2 ≤ argv.count name then userInputError
      else if name ∈ argv then (argv.idxOf name : Int)
      else 0 := by
  rw [checkForArg, checkForArgLoop_start hhelp]
  by_cases hmem : name ∈ argv
  · simp only [hmem, not_true_eq_false, if_false, if_true, mem_drop_idxOf hmem, Int.zero_add]
  · simp [hmem, List.count_eq_zero_of_not_mem hmem]

theorem idxOf_pos {argv : Args} {name : List Byte} (hargv : argv.head? ≠ some name)
    (hmem : name ∈ argv) : 0 < argv.idxOf name := by
  cases argv with
  | nil => cases hmem
  | cons arg rest =>
    have hne : arg ≠ name := fun h => hargv (congrArg some h)
    rw [List.idxOf_cons_ne _ hne]
    exact Nat.succ_pos _

theorem matchOption_eq {argv : Args} {optIndex : Int} (h0 : optIndex ≠ 0) (h1 : optIndex ≠ -1)
    (o : LongOption α) {index : Nat} (h : checkForArg o.name argv = index) :
    matchOption argv optIndex o =
      if index = 0 then none
      else some (.found o.val, if o.hasArg then argv[index + 1]? else none) := by
  have hne : ¬ (index : Int) = userInputError := by
    simp only [userInputError]
    omega
  have hnext : ((index : Int) + 1).toNat = index + 1 := by omega
  simp only [matchOption, h, if_neg hne, hnext]
  by_cases hzero : index = 0
  · rw [if_pos hzero, if_neg]
    omega
  · rw [if_neg hzero, if_pos]
    omega

theorem matchOption_answer {argv : Args} {optIndex : Int} (h0 : optIndex ≠ 0) (h1 : optIndex ≠ -1)
    {o : LongOption α} (hargv : argv.head? ≠ some o.name) :
    matchOption argv optIndex o = optionAnswer argv o := by
  by_cases hhelp : HelpMatched argv o
  · have hindex := checkForArgLoop_help hhelp.1 hhelp.2 0 0 false
    rw [optionAnswer, if_pos hhelp]
    by_cases htwice : 2 ≤ (tokensBeforeHelp argv).count o.name
    · have hcheck : checkForArg o.name argv = userInputError := by
        rw [checkForArg, hindex, if_pos (by simpa using htwice)]
      rw [if_pos htwice, matchOption, hcheck]
      rfl
    · have hcheck : checkForArg o.name argv = (1 : Nat) := by
        rw [checkForArg, hindex, if_neg (by simpa using htwice)]
        rfl
      rw [if_neg htwice, matchOption_eq h0 h1 o hcheck, if_neg (by decide)]
  · have hcheck := checkForArg_count (helpFree_of_not_matched hhelp)
    rw [optionAnswer, if_neg hhelp]
    rcases hcount : argv.count o.name with _ | _ | n
    · have hmem : o.name ∉ argv := List.count_eq_zero.mp hcount
      rw [hcount, if_neg (by decide), if_neg hmem] at hcheck
      have habsent : checkForArg o.name argv = (0 : Nat) := hcheck
      rw [matchOption_eq h0 h1 o habsent]
      rfl
    · have hmem : o.name ∈ argv := List.count_pos_iff.mp (by omega)
      have hpos := idxOf_pos hargv hmem
      rw [hcount, if_neg (by decide), if_pos hmem] at hcheck
      rw [matchOption_eq h0 h1 o hcheck, if_neg (by omega)]
      rfl
    · rw [if_pos (by omega)] at hcheck
      rw [matchOption, hcheck]
      rfl

end Answer

section Binding
variable {α σ : Type} {reader : OptReader α σ} {argv : Args}

def boundIndex (argv : Args) (name : List Byte) : Option Nat :=
  if 0 < checkForArg name argv then some (checkForArg name argv + 1).toNat else none

theorem matchOption_bound {o : LongOption α} (harg : o.hasArg = true)
    (h : matchOption argv 1 o ≠ some (.foundTwice, none)) :
    matchOption argv 1 o = (boundIndex argv o.name).map fun k => (.found o.val, argv[k]?) := by
  have hne : checkForArg o.name argv ≠ userInputError := by
    intro htwice
    exact h (by simp only [matchOption, htwice, if_true])
  simp only [matchOption, boundIndex, if_neg hne, harg, if_true]
  by_cases hpos : 0 < checkForArg o.name argv
  · rw [if_pos (by omega), if_pos hpos, Option.map_some]
  · rw [if_neg (by omega), if_neg hpos, Option.map_none]

theorem matchOption_once {o : LongOption α}
    (hhelp : strncmp o.name (str "-help") o.name.length ≠ 0)
    (h : matchOption argv 1 o ≠ some (.foundTwice, none)) : argv.count o.name ≤ 1 := by
  by_contra htwice
  have hcheck := checkForArg_count (helpFree_of_name hhelp argv)
  rw [if_pos (by omega)] at hcheck
  exact h (by simp only [matchOption, hcheck, if_true])

theorem idxOf_of_once {name : List Byte} {j : Nat} (honce : argv.count name ≤ 1)
    (h : argv[j]? = some name) : argv.idxOf name = j := by
  obtain ⟨hj, hget⟩ := List.getElem?_eq_some_iff.mp h
  have hsplit : argv = argv.take j ++ name :: argv.drop (j + 1) := by
    rw [← hget, List.cons_getElem_drop_succ, List.take_append_drop]
  have hfront : name ∉ argv.take j := by
    rw [hsplit, List.count_append, List.count_cons_self] at honce
    exact List.count_eq_zero.mp (by omega)
  rw [hsplit, List.idxOf_append_of_notMem hfront, List.idxOf_cons_self, List.length_take]
  omega

theorem boundIndex_iff {name : List Byte} (hhelp : strncmp name (str "-help") name.length ≠ 0)
    (honce : argv.count name ≤ 1) (k : Nat) :
    boundIndex argv name = some (k + 2) ↔ argv[k + 1]? = some name := by
  have hcheck := checkForArg_count (helpFree_of_name hhelp argv)
  rw [if_neg (by omega)] at hcheck
  constructor
  · intro h
    by_cases hmem : name ∈ argv
    · rw [if_pos hmem] at hcheck
      have hlt := List.idxOf_lt_length_of_mem hmem
      have hidx : argv.idxOf name = k + 1 := by
        simp only [boundIndex, hcheck] at h
        split_ifs at h
        have := Option.some.inj h
        omega
      rw [← hidx, List.getElem?_eq_getElem hlt, List.getElem_idxOf hlt]
    · rw [if_neg hmem] at hcheck
      simp [boundIndex, hcheck] at h
  · intro h
    have hidx := idxOf_of_once honce h
    rw [if_pos (List.mem_of_getElem? h), hidx] at hcheck
    rw [boundIndex, if_pos (by omega), hcheck]
    rfl

theorem OptReader.once_of_running {table : List (LongOption α)} {s : σ}
    (hargv : ∀ s, reader.argv s = argv)
    (hstop : ∀ optarg s, reader.running (reader.handle .foundTwice optarg s) = false)
    (h : reader.running (reader.run 1 table s) = true) :
    ∀ o ∈ table, matchOption argv 1 o ≠ some (.foundTwice, none) := by
  induction table generalizing s with
  | nil => simp
  | cons o rest ih =>
    have hrun := OptReader.running_of_run h
    simp only [OptReader.run, if_pos hrun, hargv] at h
    rw [List.forall_mem_cons]
    constructor
    · intro htwice
      rw [htwice] at h
      have hnot := OptReader.running_of_run h
      rw [hstop] at hnot
      cases hnot
    · cases hmatch : matchOption argv 1 o with
      | none =>
        rw [hmatch] at h
        exact ih h
      | some r =>
        rw [hmatch] at h
        exact ih h

end Binding

section Swapped
variable {α : Type} {n : Nat} {opt old new name : List Byte} {argv argv' : Args}

def Swapped (n : Nat) (opt old new : List Byte) (argv argv' : Args) : Prop :=
  ∃ front back, front.length = n + 1 ∧ argv = front ++ opt :: old :: back ∧
    argv' = front ++ opt :: new :: back

def ReadPast (name arg : List Byte) : Prop :=
  arg ≠ name ∧ ¬ (helpName name = true ∧ abbreviatesHelp arg = true)

theorem checkForArgLoop_past {arg : List Byte} (h : ReadPast name arg) (rest : Args) (i ret : Int)
    (argFound : Bool) :
    checkForArgLoop name name.length (arg :: rest) i ret argFound =
      checkForArgLoop name name.length rest (i + 1) ret argFound := by
  have hhelp : ¬ (strncmp name (str "-help") name.length = 0 ∧ abbreviatesHelp arg = true) :=
    fun hboth => h.2 ⟨decide_eq_true hboth.1, hboth.2⟩
  rw [checkForArgLoop, if_neg hhelp, List.take_length, if_neg fun heq => h.1 heq.2]

theorem checkForArgLoop_swap (hold : ReadPast name old) (hnew : ReadPast name new)
    (front back : Args) (i ret : Int) (argFound : Bool) :
    checkForArgLoop name name.length (front ++ new :: back) i ret argFound =
      checkForArgLoop name name.length (front ++ old :: back) i ret argFound := by
  induction front generalizing i ret argFound with
  | nil => rw [List.nil_append, List.nil_append, checkForArgLoop_past hnew, checkForArgLoop_past hold]
  | cons arg front ih => simp only [List.cons_append, checkForArgLoop, ih]

theorem Swapped.checkForArg (h : Swapped n opt old new argv argv') (hold : ReadPast name old)
    (hnew : ReadPast name new) : checkForArg name argv' = checkForArg name argv := by
  obtain ⟨front, back, -, rfl, rfl⟩ := h
  have hloop := checkForArgLoop_swap hold hnew (front ++ [opt]) back 0 0 false
  rw [List.append_assoc, List.append_assoc] at hloop
  exact hloop

theorem swapped_getElem? (front back : Args) {j : Nat} (hj : j ≠ front.length + 1) :
    (front ++ opt :: new :: back)[j]? = (front ++ opt :: old :: back)[j]? := by
  rcases lt_or_ge j front.length with hlt | hge
  · rw [List.getElem?_append_left hlt, List.getElem?_append_left hlt]
  · obtain ⟨m, rfl⟩ := Nat.exists_eq_add_of_le hge
    rw [List.getElem?_append_right hge, List.getElem?_append_right hge, Nat.add_sub_cancel_left]
    match m with
    | 0 => rfl
    | 1 => exact absurd rfl hj
    | m + 2 => rfl

theorem swapped_at (front back : Args) :
    (front ++ opt :: old :: back)[front.length + 1]? = some old := by
  rw [List.getElem?_append_right (Nat.le_succ _), Nat.succ_sub (le_refl _), Nat.sub_self]
  rfl

theorem readPast_of_name (hname : strncmp name (str "-help") name.length ≠ 0) {arg : List Byte}
    (hne : arg ≠ name) : ReadPast name arg :=
  ⟨hne, fun h => hname (of_decide_eq_true h.1)⟩

theorem matchOption_swapped {o : LongOption α}
    (hhelp : strncmp o.name (str "-help") o.name.length ≠ 0) (hold : old ≠ o.name)
    (hnew : new ≠ o.name) (h : Swapped n opt old new argv argv') :
    matchOption argv' 1 o = matchOption argv 1 o ∨
      o.name = opt ∧ matchOption argv 1 o = some (.found o.val, some old) ∧
        matchOption argv' 1 o = some (.found o.val, some new) := by
  have hcheck := h.checkForArg (readPast_of_name hhelp hold) (readPast_of_name hhelp hnew)
  obtain ⟨front, back, hfront, rfl, rfl⟩ := h
  by_cases hat : o.hasArg = true ∧
    WolfCLU.checkForArg o.name (front ++ opt :: old :: back) = front.length
  · obtain ⟨harg, hindex⟩ := hat
    have hne : ¬ (front.length : Int) = userInputError := by simp only [userInputError]; omega
    have hfound : (front.length : Int) = 1 + 1 ∨ (1 : Int) ≠ 0 ∧ (front.length : Int) > 0 :=
      .inr ⟨by decide, by omega⟩
    have hnext : ((front.length : Int) + 1).toNat = front.length + 1 := by omega
    refine .inr ⟨?_, ?_, ?_⟩
    · rcases checkForArg_cases hhelp (front ++ opt :: old :: back) with htwice | ⟨hzero, -⟩ |
        ⟨hmem, -, hidx⟩
      · exact absurd (hindex.symm.trans htwice) hne
      · omega
      · have hidx' : (front ++ opt :: old :: back).idxOf o.name = front.length := by omega
        have hlt := List.idxOf_lt_length_of_mem (List.mem_of_mem_tail hmem)
        have hget := List.getElem_idxOf hlt
        simp only [hidx', List.getElem_append_right le_rfl, Nat.sub_self,
          List.getElem_cons_zero] at hget
        exact hget.symm
    · simp only [matchOption, hindex, if_neg hne, if_pos hfound, harg, if_true, hnext, swapped_at]
    · simp only [matchOption, hcheck, hindex, if_neg hne, if_pos hfound, harg, if_true, hnext,
        swapped_at]
  · refine .inl ?_
    simp only [matchOption, hcheck]
    by_cases harg : o.hasArg = true
    · have hj : (WolfCLU.checkForArg o.name (front ++ opt :: old :: back) + 1).toNat ≠
          front.length + 1 := fun heq => hat ⟨harg, by omega⟩
      simp only [harg, if_true]
      rw [@swapped_getElem? opt old new front back _ hj]
    · simp only [harg, Bool.false_eq_true, if_false]

theorem idxOf_swapped (hold : old ≠ name) (hnew : new ≠ name) (front back : Args) :
    (front ++ opt :: new :: back).idxOf name = (front ++ opt :: old :: back).idxOf name := by
  induction front with
  | nil =>
    by_cases hopt : opt = name
    · rw [List.nil_append, List.nil_append, hopt, List.idxOf_cons_self, List.idxOf_cons_self]
    · rw [List.nil_append, List.nil_append, List.idxOf_cons_ne _ hopt, List.idxOf_cons_ne _ hopt,
        List.idxOf_cons_ne _ hold, List.idxOf_cons_ne _ hnew]
  | cons arg front ih =>
    by_cases harg : arg = name
    · rw [List.cons_append, List.cons_append, harg, List.idxOf_cons_self, List.idxOf_cons_self]
    · rw [List.cons_append, List.cons_append, List.idxOf_cons_ne _ harg, List.idxOf_cons_ne _ harg, ih]

theorem modify_swapped {f : List Byte → List Byte} (hopt : f opt = opt) (back : Args) {k : Nat}
    {front : Args} (hk : k ≠ front.length + 1) :
    ∃ front' back', front'.length = front.length ∧ ∀ arg, (front ++ opt :: arg :: back).modify k f =
      front' ++ opt :: arg :: back' := by
  induction front generalizing k with
  | nil =>
    match k with
    | 0 => exact ⟨[], back, rfl, fun arg => by simp [hopt]⟩
    | 1 => exact absurd rfl hk
    | k + 2 => exact ⟨[], back.modify k f, rfl, fun arg => by simp⟩
  | cons a front ih =>
    match k with
    | 0 => exact ⟨f a :: front, back, rfl, fun arg => by simp⟩
    | k + 1 =>
      obtain ⟨front', back', hlen, hmodify⟩ := @ih k fun heq => hk (congrArg (· + 1) heq)
      exact ⟨a :: front', back', congrArg (· + 1) hlen, fun arg => by simp [hmodify arg]⟩

theorem Swapped.lowerArgument (h : Swapped n opt old new argv argv') (hopt : opt.map toLower = opt)
    (hname : opt ≠ name) (hold : old ≠ name) (hnew : new ≠ name) :
    Swapped n opt old new (lowerArgument name argv) (lowerArgument name argv') := by
  obtain ⟨front, back, hfront, rfl, rfl⟩ := h
  have hk : (front ++ opt :: old :: back).idxOf name + 1 ≠ front.length + 1 := by
    intro heq
    have hidx : (front ++ opt :: old :: back).idxOf name = front.length := Nat.succ.inj heq
    have hlt : (front ++ opt :: old :: back).idxOf name < (front ++ opt :: old :: back).length := by
      rw [hidx, List.length_append, List.length_cons]
      omega
    have hget := List.getElem_idxOf hlt
    simp only [hidx, List.getElem_append_right le_rfl, Nat.sub_self,
      List.getElem_cons_zero] at hget
    exact hname hget
  obtain ⟨front', back', hlen, hmodify⟩ :=
    @modify_swapped opt (fun arg => arg.map toLower) hopt back _ front hk
  refine ⟨front', back', hlen.trans hfront, hmodify old, ?_⟩
  rw [WolfCLU.lowerArgument, idxOf_swapped hold hnew]
  exact hmodify new

theorem Swapped.given (h : Swapped n opt old new argv argv') (hold : old ≠ name) (hnew : new ≠ name) :
    Given argv' name ↔ Given argv name := by
  obtain ⟨front, back, hfront, rfl, rfl⟩ := h
  obtain ⟨arg, front, rfl⟩ := List.exists_cons_of_length_eq_add_one hfront
  simp only [Given, List.cons_append, List.tail_cons, List.mem_append, List.mem_cons, hold.symm,
    hnew.symm, false_or]

end Swapped

structure OptionGroup where
  name : List Byte
  value : Option (List Byte)

def OptionGroup.tokens (g : OptionGroup) : Args := g.name :: g.value.toList

def commandLine (argv0 : List Byte) (groups : List OptionGroup) : Args :=
  argv0 :: groups.flatMap OptionGroup.tokens

section Order
variable {α : Type} {table : List (LongOption α)} {argv0 : List Byte} {groups groups' : List OptionGroup}

structure WellFormed (table : List (LongOption α)) (g : OptionGroup) : Prop where
  known : ∃ o ∈ table, o.name = g.name
  takes : ∀ o ∈ table, o.name = g.name → o.hasArg = g.value.isSome
  value : ∀ v, g.value = some v → (∀ o ∈ table, o.name ≠ v) ∧ helpName v = false

theorem commandLine_perm (argv0 : List Byte) (h : groups.Perm groups') :
    (commandLine argv0 groups).Perm (commandLine argv0 groups') :=
  (h.flatMap_right _).cons _

theorem abbreviatesHelp_of_name {name : List Byte} (h : helpName name = true) (hne : name ≠ []) :
    abbreviatesHelp name = true :=
  decide_eq_true ⟨of_decide_eq_true h, List.length_pos_iff.mpr hne⟩

theorem count_tokensBeforeHelp {argv : Args} {name : List Byte} (h : helpName name = true)
    (hne : name ≠ []) : (tokensBeforeHelp argv).count name = 0 := by
  refine List.count_eq_zero_of_not_mem fun hmem => ?_
  have := List.mem_takeWhile_imp hmem
  rw [abbreviatesHelp_of_name h hne] at this
  cases this

theorem exists_group (hwf : ∀ g ∈ groups, WellFormed table g) {o : LongOption α} (ho : o ∈ table)
    (hargv0 : o.name ≠ argv0) (hmem : o.name ∈ commandLine argv0 groups) :
    ∃ g ∈ groups, g.name = o.name := by
  obtain ⟨g, hg, htoken⟩ := List.mem_flatMap.mp ((List.mem_cons.mp hmem).resolve_left hargv0)
  refine ⟨g, hg, ?_⟩
  rcases List.mem_cons.mp htoken with heq | hvalue
  · exact heq.symm
  · exact absurd rfl (((hwf g hg).value o.name (Option.mem_toList.mp hvalue)).1 o ho)

theorem argumentOf_group {g : OptionGroup} (hg : g ∈ groups) {v : List Byte} (hv : g.value = some v)
    (hcount : (commandLine argv0 groups).count g.name = 1) :
    argumentOf (commandLine argv0 groups) g.name = some v := by
  obtain ⟨front, back, rfl⟩ := List.append_of_mem hg
  have hline : commandLine argv0 (front ++ g :: back) =
      commandLine argv0 front ++ g.name :: v :: back.flatMap OptionGroup.tokens := by
    simp [commandLine, OptionGroup.tokens, hv]
  have hfront : g.name ∉ commandLine argv0 front := by
    rw [hline, List.count_append, List.count_cons_self] at hcount
    exact List.count_eq_zero.mp (by omega)
  have hidx : (commandLine argv0 (front ++ g :: back)).idxOf g.name =
      (commandLine argv0 front).length := by
    rw [hline, List.idxOf_append_of_notMem hfront, List.idxOf_cons_self, Nat.add_zero]
  rw [argumentOf, hidx, hline, List.getElem?_append_right (Nat.le_succ _)]
  simp

theorem optionAnswer_perm (hperm : groups.Perm groups') (hwf : ∀ g ∈ groups, WellFormed table g)
    {o : LongOption α} (ho : o ∈ table) (hargv0 : o.name ≠ argv0)
    (hhelp : HelpMatched (commandLine argv0 groups) o → o.hasArg = false ∧ o.name ≠ []) :
    optionAnswer (commandLine argv0 groups) o = optionAnswer (commandLine argv0 groups') o := by
  have hline := commandLine_perm argv0 hperm
  have hmatched : HelpMatched (commandLine argv0 groups) o ↔
      HelpMatched (commandLine argv0 groups') o := by
    simp only [HelpMatched, hline.mem_iff]
  rw [optionAnswer, optionAnswer]
  by_cases hm : HelpMatched (commandLine argv0 groups) o
  · obtain ⟨harg, hne⟩ := hhelp hm
    rw [if_pos hm, if_pos (hmatched.mp hm), count_tokensBeforeHelp hm.1 hne,
      count_tokensBeforeHelp hm.1 hne, harg]
    rfl
  · rw [if_neg hm, if_neg fun h => hm (hmatched.mpr h), ← hline.count_eq]
    match hcount : (commandLine argv0 groups).count o.name with
    | 0 => rfl
    | 1 =>
      by_cases harg : o.hasArg = true
      · have hmem := List.count_pos_iff.mp (show 0 < (commandLine argv0 groups).count o.name by omega)
        obtain ⟨g, hg, hname⟩ := exists_group hwf ho hargv0 hmem
        have htakes := (hwf g hg).takes o ho hname.symm
        obtain ⟨v, hv⟩ := Option.isSome_iff_exists.mp (htakes ▸ harg)
        have hcount' := hline.count_eq o.name ▸ hcount
        rw [← hname] at hcount hcount' ⊢
        rw [argumentOf_group hg hv hcount, argumentOf_group (hperm.mem_iff.mp hg) hv hcount']
      · simp [harg]
    | _ + 2 => rfl

end Order

theorem getOptCalls_table_order {α : Type} {argv : Args} {table : List (LongOption α)}
    {optIndex : Int} (h0 : optIndex ≠ 0) (h1 : optIndex ≠ -1)
    (hargv : ∀ o ∈ table, argv.head? ≠ some o.name) (k : Nat) :
    getOptCalls argv table optIndex k 0 =
      ((table.filterMap (optionAnswer argv)).map some ++ List.replicate k none).take k := by
  have hanswers : table.filterMap (matchOption argv optIndex) =
      table.filterMap (optionAnswer argv) :=
    List.filterMap_congr fun o ho => matchOption_answer h0 h1 (hargv o ho)
  rw [getOptCalls_eq, List.drop_zero, hanswers]

theorem getOpt_characterized {α : Type} {table : List (LongOption α)} {optIndex : Int}
    {argv0 : List Byte} (h0 : optIndex ≠ 0) (h1 : optIndex ≠ -1)
    (hargv0 : ∀ o ∈ table, o.name ≠ argv0) (k : Nat) :
    (∀ args : Args, getOptCalls (argv0 :: args) table optIndex k 0 =
      ((table.filterMap (optionAnswer (argv0 :: args))).map some ++ List.replicate k none).take k) ∧
    ∀ groups groups' : List OptionGroup, groups.Perm groups' →
      (∀ g ∈ groups, WellFormed table g) →
      (∀ o ∈ table, HelpMatched (commandLine argv0 groups) o → o.hasArg = false ∧ o.name ≠ []) →
      getOptCalls (commandLine argv0 groups) table optIndex k 0 =
        getOptCalls (commandLine argv0 groups') table optIndex k 0 := by
  have hhead (args : Args) : ∀ o ∈ table, (argv0 :: args).head? ≠ some o.name :=
    fun o ho h => hargv0 o ho (Option.some.inj h).symm
  refine ⟨fun args => getOptCalls_table_order h0 h1 (hhead args) k, ?_⟩
  intro groups groups' hperm hwf hhelp
  have hanswers : table.filterMap (optionAnswer (commandLine argv0 groups)) =
      table.filterMap (optionAnswer (commandLine argv0 groups')) :=
    List.filterMap_congr fun o ho => optionAnswer_perm hperm hwf ho (hargv0 o ho) (hhelp o ho)
  have hcalls (gs : List OptionGroup) := getOptCalls_table_order (k := k) h0 h1
    (show ∀ o ∈ table, (commandLine argv0 gs).head? ≠ some o.name from hhead _)
  rw [hcalls, hcalls, hanswers]

def inOutTable : List (LongOption Nat) := [⟨str "-in", true, 1⟩, ⟨str "-out", true, 2⟩]

def inOutGroups : List OptionGroup :=
  [⟨str "-out", some (str "b")⟩, ⟨str "-in", some (str "a")⟩]

theorem inOutGroups_wellFormed : ∀ g ∈ inOutGroups, WellFormed inOutTable g := by
  intro g hg
  rcases List.mem_pair.mp hg with rfl | rfl
  · refine ⟨⟨⟨str "-out", true, 2⟩, by simp [inOutTable], rfl⟩, ?_, ?_⟩
    · decide
    · rintro v ⟨⟩
      decide
  · refine ⟨⟨⟨str "-in", true, 1⟩, by simp [inOutTable], rfl⟩, ?_, ?_⟩
    · decide
    · rintro v ⟨⟩
      decide

theorem getOpt_characterized_in_out :
    getOptCalls [str "prog", str "-out", str "b", str "-in", str "a"] inOutTable 1 3 0 =
        [some (.found 1, some (str "a")), some (.found 2, some (str "b")), none] ∧
      getOptCalls (commandLine (str "prog") inOutGroups) inOutTable 1 3 0 =
        getOptCalls (commandLine (str "prog") inOutGroups.reverse) inOutTable 1 3 0 :=
  have h := @getOpt_characterized Nat inOutTable 1 (str "prog") (by decide) (by decide)
    (by decide) 3
  ⟨(h.1 _).trans (by decide),
    h.2 _ _ (List.reverse_perm _).symm inOutGroups_wellFormed (by decide)⟩

def helpTable : List (LongOption Nat) := [⟨str "-h", true, 1⟩, ⟨str "-x", true, 2⟩]

def helpGroups : List OptionGroup := [⟨str "-h", some (str "a")⟩, ⟨str "-x", some (str "b")⟩]

theorem getOpt_reports_absent_option :
    getOptCalls [str "prog"] inOutTable (-1) 1 0 = [some (.found 1, none)] ∧
      (str "-in") ∉ [str "prog"] ∧
      getOptCalls (commandLine (str "prog") helpGroups) helpTable 1 2 0 ≠
        getOptCalls (commandLine (str "prog") helpGroups.reverse) helpTable 1 2 0 := by
  decide

end WolfCLU
