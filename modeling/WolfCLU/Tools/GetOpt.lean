import WolfCLU.ErrorCodes
import WolfCLU.Foundation.CString

namespace WolfCLU
open CString

abbrev Args := List (List Byte)

structure LongOption (α : Type) where
  name : List Byte
  hasArg : Bool
  val : α

inductive Opt (α : Type) where
  | foundTwice
  | found (val : α)
  deriving DecidableEq, Repr

def abbreviatesHelp (arg : List Byte) : Bool :=
  strncmp arg (str "-help") arg.length = 0 ∧ 0 < arg.length

def checkForArgLoop (searchTerm : List Byte) (length : Nat) : Args → Int → Int → Bool → Int
  | [], _, ret, _ => ret
  | arg :: rest, i, ret, argFound =>
    if strncmp searchTerm (str "-help") length = 0 ∧ abbreviatesHelp arg then 1
    else if arg.length = length ∧ arg = searchTerm.take length then
      if argFound then userInputError else checkForArgLoop searchTerm length rest (i + 1) i true
    else checkForArgLoop searchTerm length rest (i + 1) ret argFound

def checkForArg (searchTerm : List Byte) (argv : Args) : Int :=
  checkForArgLoop searchTerm searchTerm.length argv 0 0 false

def lowerArgument (name : List Byte) (argv : Args) : Args :=
  argv.modify (argv.idxOf name + 1) fun arg => arg.map toLower

section GetOpt
variable {α σ : Type}

def matchOption (argv : Args) (optIndex : Int) (o : LongOption α) :
    Option (Opt α × Option (List Byte)) :=
  let index := checkForArg o.name argv
  if index = userInputError then some (.foundTwice, none)
  else if index = optIndex + 1 ∨ (optIndex ≠ 0 ∧ index > 0) then
    some (.found o.val, if o.hasArg then argv[(index + 1).toNat]? else none)
  else none

structure OptReader (α σ : Type) where
  argv : σ → Args
  running : σ → Bool
  handle : Opt α → Option (List Byte) → σ → σ

def OptReader.run (reader : OptReader α σ) (optIndex : Int) : List (LongOption α) → σ → σ
  | [], s => s
  | o :: rest, s =>
    if reader.running s then
      match matchOption (reader.argv s) optIndex o with
      | none => reader.run optIndex rest s
      | some (opt, optarg) => reader.run optIndex rest (reader.handle opt optarg s)
    else s

variable {reader : OptReader α σ} {optIndex : Int}

theorem OptReader.run_stopped {s : σ} (h : reader.running s = false)
    (table : List (LongOption α)) : reader.run optIndex table s = s := by
  cases table <;> simp [OptReader.run, h]

theorem OptReader.run_append (front back : List (LongOption α)) (s : σ) :
    reader.run optIndex (front ++ back) s = reader.run optIndex back (reader.run optIndex front s) := by
  induction front generalizing s with
  | nil => rfl
  | cons o front ih =>
    simp only [List.cons_append, OptReader.run]
    by_cases hrun : reader.running s = true
    · simp only [if_pos hrun]
      cases matchOption (reader.argv s) optIndex o with
      | none => exact ih s
      | some r => exact ih _
    · simp only [if_neg hrun]
      rw [OptReader.run_stopped (Bool.eq_false_of_not_eq_true hrun)]

theorem OptReader.run_invariant {P : σ → Prop} {table : List (LongOption α)}
    (hstep : ∀ o ∈ table, ∀ opt optarg s, matchOption (reader.argv s) optIndex o = some (opt, optarg) →
      P s → P (reader.handle opt optarg s)) {s : σ} (hs : P s) : P (reader.run optIndex table s) := by
  induction table generalizing s with
  | nil => exact hs
  | cons o rest ih =>
    have ih' : ∀ s, P s → P (reader.run optIndex rest s) := fun s hs =>
      ih (fun o' ho' => hstep o' (List.mem_cons_of_mem _ ho')) hs
    simp only [OptReader.run]
    split
    · split
      · exact ih' s hs
      · rename_i opt optarg hmatch
        exact ih' _ (hstep o List.mem_cons_self opt optarg s hmatch hs)
    · exact hs

theorem OptReader.run_simulates {τ : Type} {reader' : OptReader α τ} {R : σ → τ → Prop}
    {table : List (LongOption α)}
    (hrunning : ∀ {s s'}, R s s' → reader'.running s' = reader.running s)
    (hstep : ∀ o ∈ table, ∀ {s s'}, R s s' →
      (matchOption (reader.argv s) optIndex o = none ∧
        matchOption (reader'.argv s') optIndex o = none) ∨
      ∃ opt v v', matchOption (reader.argv s) optIndex o = some (opt, v) ∧
        matchOption (reader'.argv s') optIndex o = some (opt, v') ∧
        R (reader.handle opt v s) (reader'.handle opt v' s'))
    {s : σ} {s' : τ} (h : R s s') :
    R (reader.run optIndex table s) (reader'.run optIndex table s') := by
  induction table generalizing s s' with
  | nil => exact h
  | cons o rest ih =>
    have ih' : ∀ {s s'}, R s s' → R (reader.run optIndex rest s) (reader'.run optIndex rest s') :=
      fun h => ih (fun o' ho' => hstep o' (List.mem_cons_of_mem _ ho')) h
    rw [OptReader.run, OptReader.run, hrunning h]
    by_cases hrun : reader.running s = true
    · rw [if_pos hrun, if_pos hrun]
      rcases hstep o List.mem_cons_self h with ⟨hnone, hnone'⟩ | ⟨opt, v, v', hsome, hsome', hnext⟩
      · rw [hnone, hnone']
        exact ih' h
      · rw [hsome, hsome']
        exact ih' hnext
    · rw [if_neg hrun, if_neg hrun]
      exact h

theorem matchOption_val {argv : Args} {o : LongOption α} {val : α} {optarg : Option (List Byte)}
    (h : matchOption argv optIndex o = some (.found val, optarg)) : val = o.val := by
  simp only [matchOption] at h
  split at h
  · simp at h
  · split at h
    · simp only [Option.some.injEq, Prod.mk.injEq, Opt.found.injEq] at h
      exact h.1.symm
    · cases h

theorem OptReader.run_preserves {P : σ → Prop} {table : List (LongOption α)}
    (hstep : ∀ opt optarg s, (∀ val, opt = .found val → ∃ o ∈ table, o.val = val) → P s →
      P (reader.handle opt optarg s)) {s : σ} (hs : P s) : P (reader.run optIndex table s) := by
  refine OptReader.run_invariant (fun o ho opt optarg s hmatch hs => ?_) hs
  refine hstep opt optarg s (fun val hval => ⟨o, ho, ?_⟩) hs
  subst hval
  exact (matchOption_val hmatch).symm

theorem OptReader.run_unmatched {table : List (LongOption α)} {s : σ}
    (h : ∀ o ∈ table, matchOption (reader.argv s) optIndex o = none) :
    reader.run optIndex table s = s := by
  induction table with
  | nil => rfl
  | cons o rest ih =>
    simp only [OptReader.run, h o List.mem_cons_self, ih fun o' ho' => h o' (List.mem_cons_of_mem _ ho'),
      ite_self]

end GetOpt

section CheckForArg
variable {name : List Byte}

def helpName (name : List Byte) : Bool := strncmp name (str "-help") name.length = 0

def HelpFree (name : List Byte) (argv : Args) : Prop :=
  ∀ arg ∈ argv, ¬ (helpName name = true ∧ abbreviatesHelp arg = true)

theorem helpFree_of_name (hhelp : strncmp name (str "-help") name.length ≠ 0) (argv : Args) :
    HelpFree name argv := by
  intro arg _ h
  exact hhelp (of_decide_eq_true h.1)

theorem checkForArgLoop_cons {arg : List Byte} {rest : Args} (hhelp : HelpFree name (arg :: rest))
    (i ret : Int) (argFound : Bool) :
    checkForArgLoop name name.length (arg :: rest) i ret argFound =
      if arg = name then
        if argFound then userInputError else checkForArgLoop name name.length rest (i + 1) i true
      else checkForArgLoop name name.length rest (i + 1) ret argFound := by
  have hnot : ¬ (strncmp name (str "-help") name.length = 0 ∧ abbreviatesHelp arg = true) :=
    fun h => hhelp arg List.mem_cons_self ⟨decide_eq_true h.1, h.2⟩
  rw [checkForArgLoop, if_neg hnot, List.take_length]
  by_cases harg : arg = name
  · simp [harg]
  · simp [harg]

theorem checkForArgLoop_found {argv : Args} (hhelp : HelpFree name argv) (i ret : Int) :
    checkForArgLoop name name.length argv i ret true = if name ∈ argv then userInputError else ret := by
  induction argv generalizing i ret with
  | nil => simp [checkForArgLoop]
  | cons arg rest ih =>
    have hrest : HelpFree name rest := fun a ha => hhelp a (List.mem_cons_of_mem _ ha)
    rw [checkForArgLoop_cons hhelp]
    by_cases harg : arg = name
    · simp [harg]
    · simp [harg, Ne.symm harg, ih hrest]

theorem checkForArgLoop_start {argv : Args} (hhelp : HelpFree name argv) (i : Int) :
    checkForArgLoop name name.length argv i 0 false =
      if name ∉ argv then 0
      else if name ∈ argv.drop (argv.idxOf name + 1) then userInputError
      else i + argv.idxOf name := by
  induction argv generalizing i with
  | nil => simp [checkForArgLoop]
  | cons arg rest ih =>
    have hrest : HelpFree name rest := fun a ha => hhelp a (List.mem_cons_of_mem _ ha)
    rw [checkForArgLoop_cons hhelp]
    by_cases harg : arg = name
    · subst harg
      simp [checkForArgLoop_found hrest]
    · simp only [harg, if_false, ih hrest, List.mem_cons, Ne.symm harg, false_or,
        List.idxOf_cons_ne _ harg, List.drop_succ_cons]
      push_cast
      congr 2
      ring

theorem checkForArg_cases (hhelp : strncmp name (str "-help") name.length ≠ 0) (argv : Args) :
    checkForArg name argv = userInputError ∨
      (checkForArg name argv = 0 ∧ name ∉ argv.tail) ∨
      (name ∈ argv.tail ∧ 0 < argv.idxOf name ∧ checkForArg name argv = argv.idxOf name) := by
  rw [checkForArg, checkForArgLoop_start (helpFree_of_name hhelp argv)]
  by_cases hmem : name ∈ argv
  · by_cases htwice : name ∈ argv.drop (argv.idxOf name + 1)
    · simp [hmem, htwice]
    · obtain ⟨arg, rest, rfl⟩ := List.exists_cons_of_ne_nil (List.ne_nil_of_mem hmem)
      by_cases harg : arg = name
      · subst harg
        simp_all
      · have hrest : name ∈ rest := by simpa [Ne.symm harg] using hmem
        simp_all [List.idxOf_cons_ne _ harg]
  · have htail : name ∉ argv.tail := fun h => hmem (List.mem_of_mem_tail h)
    simp [hmem, htail]

def Given (argv : Args) (name : List Byte) : Prop := name ∈ argv.tail

instance (argv : Args) (name : List Byte) : Decidable (Given argv name) :=
  inferInstanceAs (Decidable (name ∈ argv.tail))

def argumentOf (argv : Args) (name : List Byte) : Option (List Byte) := argv[argv.idxOf name + 1]?

theorem matchOption_cases {α : Type} {o : LongOption α}
    (hhelp : strncmp o.name (str "-help") o.name.length ≠ 0) (argv : Args) :
    matchOption argv 1 o = some (.foundTwice, none) ∨
      (matchOption argv 1 o = none ∧ ¬ Given argv o.name) ∨
      (matchOption argv 1 o = some (.found o.val, if o.hasArg then argumentOf argv o.name else none) ∧
        Given argv o.name) := by
  rcases checkForArg_cases hhelp argv with htwice | ⟨habsent, hnot⟩ | ⟨hmem, hpos, hfound⟩
  · simp [matchOption, htwice]
  · have hne : ¬ (0 : Int) = userInputError := by decide
    simp [matchOption, habsent, hne, Given, hnot]
  · have hne : ¬ (argv.idxOf o.name : Int) = userInputError := by
      simp only [userInputError]
      omega
    have hindex : (((argv.idxOf o.name : Nat) : Int) + 1).toNat = argv.idxOf o.name + 1 := by omega
    refine .inr (.inr ⟨?_, hmem⟩)
    simp only [matchOption, hfound, if_neg hne, hindex, argumentOf]
    rw [if_pos (by omega)]

theorem OptReader.running_of_run {α σ : Type} {reader : OptReader α σ} {optIndex : Int}
    {table : List (LongOption α)} {s : σ} (h : reader.running (reader.run optIndex table s) = true) :
    reader.running s = true := by
  by_contra hstop
  rw [reader.run_stopped (Bool.eq_false_of_not_eq_true hstop)] at h
  exact hstop h

theorem OptReader.run_single {α σ : Type} {reader : OptReader α σ} {o : LongOption α} {s : σ}
    (hhelp : strncmp o.name (str "-help") o.name.length ≠ 0) (hrun : reader.running s = true) :
    reader.run 1 [o] s = reader.handle .foundTwice none s ∨
      (¬ Given (reader.argv s) o.name ∧ reader.run 1 [o] s = s) ∨
      (Given (reader.argv s) o.name ∧ reader.run 1 [o] s = reader.handle (.found o.val)
        (if o.hasArg then argumentOf (reader.argv s) o.name else none) s) := by
  simp only [OptReader.run, if_pos hrun]
  rcases matchOption_cases hhelp (reader.argv s) with htwice | ⟨hnone, hnot⟩ | ⟨hsome, hgiven⟩
  · exact .inl (by simp only [htwice])
  · exact .inr (.inl ⟨hnot, by simp only [hnone]⟩)
  · exact .inr (.inr ⟨hgiven, by simp only [hsome]⟩)

end CheckForArg

end WolfCLU
