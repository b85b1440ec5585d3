import WolfCLU.X509.Config

namespace WolfCLU
open CString TextLine

def addBuilt (lib : X509Lib) (x509 : X509Object) (ext : Extension) : X509Object :=
  match built lib ext with
  | none => x509
  | some ext => (lib.call x509 (.addExt ext)).2

inductive KeyUse where
  | digitalSignature
  | nonRepudiation
  | contentCommitment
  | keyEncipherment
  | dataEncipherment
  | keyAgreement
  | keyCertSign
  | cRLSign
  | encipherOnly
  | decipherOnly
  deriving DecidableEq, Repr

def KeyUse.name : KeyUse → List Byte
  | .digitalSignature => str "digitalSignature"
  | .nonRepudiation => str "nonRepudiation"
  | .contentCommitment => str "contentCommitment"
  | .keyEncipherment => str "keyEncipherment"
  | .dataEncipherment => str "dataEncipherment"
  | .keyAgreement => str "keyAgreement"
  | .keyCertSign => str "keyCertSign"
  | .cRLSign => str "cRLSign"
  | .encipherOnly => str "encipherOnly"
  | .decipherOnly => str "decipherOnly"

def KeyUse.place : KeyUse → Nat
  | .digitalSignature => 7
  | .nonRepudiation => 6
  | .contentCommitment => 6
  | .keyEncipherment => 5
  | .dataEncipherment => 4
  | .keyAgreement => 3
  | .keyCertSign => 2
  | .cRLSign => 1
  | .encipherOnly => 0
  | .decipherOnly => 15

inductive UsageWord where
  | critical
  | use (name : KeyUse)
  deriving DecidableEq, Repr

def UsageWord.text : UsageWord → List Byte
  | .critical => str "critical"
  | .use name => name.name

def UsageWord.bits : UsageWord → Nat
  | .critical => 0
  | .use name => 2 ^ name.place

structure UsageItem where
  before : Nat
  word : UsageWord
  after : Nat
  deriving DecidableEq, Repr

def UsageItem.text (item : UsageItem) : List Byte :=
  List.replicate item.before 32 ++ (item.word.text ++ List.replicate item.after 32)

def usageText (items : List UsageItem) : List Byte :=
  List.intercalate [44] (items.map UsageItem.text)

def usageUnion (items : List UsageItem) : Nat :=
  items.foldl (fun flags item => flags ||| item.word.bits) 0

def usageMask (s : List Byte) : Nat :=
  (strtok 44 s).foldl (fun flags word => flags ||| keyUseFlag word) 0

def NoBitLost (items : List UsageItem) : Prop :=
  ∀ item ∈ items, item.word = .critical ∨
    ∃ other ∈ items, other.after = 0 ∧ other.word.bits = item.word.bits

theorem testBit_flags {α : Type} (bits : α → Nat) (words : List α) (flags i : Nat) :
    (words.foldl (fun flags word => flags ||| bits word) flags).testBit i =
      (flags.testBit i || words.any fun word => (bits word).testBit i) := by
  induction words generalizing flags with
  | nil => simp
  | cons word words ih => simp only [List.foldl_cons, ih, Nat.testBit_or, List.any_cons, Bool.or_assoc]

section Words

theorem UsageWord.text_spec (word : UsageWord) :
    word.text ≠ [] ∧ 44 ∉ word.text ∧ 32 ∉ word.text := by
  cases word with
  | critical => decide
  | use name => cases name <;> decide

theorem keyUseFlag_text (word : UsageWord) : keyUseFlag word.text = word.bits := by
  cases word with
  | critical => decide
  | use name => cases name <;> decide

theorem keyUsages_blank_free {word : List Byte} {flag : Nat} (h : (word, flag) ∈ keyUsages) :
    32 ∉ word := by
  have hall : ∀ usage ∈ keyUsages, 32 ∉ usage.1 := by decide
  exact hall (word, flag) h

theorem lookup_blank {word : List Byte} (h : 32 ∈ word) : keyUsages.lookup word = none := by
  cases hl : keyUsages.lookup word with
  | none => rfl
  | some flag =>
    obtain ⟨front, back, hsplit, _⟩ := List.lookup_eq_some_iff.mp hl
    exact absurd h (keyUsages_blank_free (hsplit ▸ List.mem_append_right front List.mem_cons_self))

theorem keyUseFlag_item (item : UsageItem) :
    keyUseFlag item.text = if item.after = 0 then item.word.bits else 0 := by
  obtain ⟨hne, _, hblank⟩ := item.word.text_spec
  have htrim : item.text.dropWhile (· = 32) =
      item.word.text ++ List.replicate item.after 32 := by
    refine dropWhile_pad (by simp) ?_
    intro c hc
    rw [List.head?_append_of_ne_nil _ hne] at hc
    have hmem := List.mem_of_mem_head? hc
    simp only [decide_eq_false_iff_not]
    rintro rfl
    exact hblank hmem
  rw [keyUseFlag, htrim]
  by_cases hafter : item.after = 0
  · have hword := keyUseFlag_text item.word
    have hself : item.word.text.dropWhile (· = 32) = item.word.text :=
      List.dropWhile_eq_self_iff.mpr fun hlen h0 => hblank (by
        have := List.getElem_mem hlen
        simp only [decide_eq_true_eq] at h0
        rwa [h0] at this)
    rw [keyUseFlag, hself] at hword
    rw [hafter, List.replicate_zero, List.append_nil, if_pos rfl, hword]
  · rw [lookup_blank (by simp [hafter]), if_neg hafter]
    rfl

end Words

theorem strtok_usageText (items : List UsageItem) :
    strtok 44 (usageText items) = items.map UsageItem.text := by
  refine strtok_intercalate ?_
  intro text htext
  obtain ⟨item, _, rfl⟩ := List.mem_map.mp htext
  obtain ⟨hne, hcomma, _⟩ := item.word.text_spec
  refine ⟨by simp [UsageItem.text, hne], ?_⟩
  simp [UsageItem.text, hcomma]

theorem testBit_usageMask (items : List UsageItem) (i : Nat) :
    (usageMask (usageText items)).testBit i =
      items.any fun item => item.after = 0 && item.word.bits.testBit i := by
  rw [usageMask, strtok_usageText, testBit_flags, List.any_map, Nat.zero_testBit,
    Bool.false_or]
  refine congrArg (List.any items) (funext fun item => ?_)
  rw [Function.comp_apply, keyUseFlag_item]
  by_cases hafter : item.after = 0 <;> simp [hafter]

theorem testBit_usageUnion (items : List UsageItem) (i : Nat) :
    (usageUnion items).testBit i = items.any fun item => item.word.bits.testBit i := by
  rw [usageUnion, testBit_flags, Nat.zero_testBit, Bool.false_or]

theorem UsageWord.bits_eq_of_testBit {word other : UsageWord} {i : Nat}
    (h : word.bits.testBit i = true) (h' : other.bits.testBit i = true) : other.bits = word.bits := by
  cases word with
  | critical => simp [UsageWord.bits] at h
  | use name =>
    cases other with
    | critical => simp [UsageWord.bits] at h'
    | use name' =>
      simp only [UsageWord.bits, Nat.testBit_two_pow, decide_eq_true_eq] at h h' ⊢
      rw [h, h']

theorem usageMask_eq_union (items : List UsageItem) :
    usageMask (usageText items) = usageUnion items ↔ NoBitLost items := by
  constructor
  · intro h item hitem
    cases hword : item.word with
    | critical => exact Or.inl rfl
    | use name =>
      right
      have hunion : (usageUnion items).testBit name.place = true := by
        rw [testBit_usageUnion, List.any_eq_true]
        exact ⟨item, hitem, by simp [hword, UsageWord.bits]⟩
      rw [← h, testBit_usageMask, List.any_eq_true] at hunion
      obtain ⟨other, hother, hbit⟩ := hunion
      simp only [Bool.and_eq_true, decide_eq_true_eq] at hbit
      refine ⟨other, hother, hbit.1, ?_⟩
      have hname : (UsageWord.use name).bits.testBit name.place = true := by simp [UsageWord.bits]
      exact UsageWord.bits_eq_of_testBit hname hbit.2
  · intro h
    refine Nat.eq_of_testBit_eq fun i => ?_
    rw [testBit_usageMask, testBit_usageUnion, Bool.eq_iff_iff, List.any_eq_true, List.any_eq_true]
    constructor
    · rintro ⟨item, hitem, hbit⟩
      exact ⟨item, hitem, (Bool.and_eq_true_iff.mp hbit).2⟩
    · rintro ⟨item, hitem, hbit⟩
      rcases h item hitem with hword | ⟨other, hother, hafter, hbits⟩
      · simp [hword, UsageWord.bits] at hbit
      · exact ⟨other, hother, by simpa [hafter, hbits] using hbit⟩

def saysCritical (items : List UsageItem) : Bool := items.any fun item => item.word = .critical

theorem UsageWord.critical_infix (word : UsageWord) :
    str "critical" <:+: word.text ↔ word = .critical := by
  cases word with
  | critical => simp [UsageWord.text]
  | use name =>
    simp only [UsageWord.text, reduceCtorEq, iff_false]
    cases name <;> decide

theorem criticalWord_free : (44 : Byte) ∉ str "critical" ∧ (32 : Byte) ∉ str "critical" ∧
    (58 : Byte) ∉ str "critical" ∧ str "critical" ≠ [] := by
  decide

theorem critical_usageText (items : List UsageItem) :
    (strstr (str "critical") (usageText items)).isSome = saysCritical items := by
  obtain ⟨hcomma, hblank, _, hne⟩ := criticalWord_free
  rw [Bool.eq_iff_iff, isSome_strstr, usageText, infix_intercalate hcomma hne, saysCritical,
    List.any_eq_true]
  simp only [List.mem_map, exists_exists_and_eq_and, UsageItem.text,
    infix_replicate_append hblank hne, infix_append_replicate hblank hne,
    UsageWord.critical_infix, decide_eq_true_eq]

theorem keyUsage_exact (items : List UsageItem) :
    (∀ lib x509, parseExtension lib x509 (usageText items) .keyUsage =
        addBuilt lib x509 (.keyUsage (saysCritical items) (usageMask (usageText items)))) ∧
      (usageMask (usageText items) = usageUnion items ↔ NoBitLost items) := by
  refine ⟨?_, usageMask_eq_union items⟩
  intro lib x509
  rw [← critical_usageText]
  rfl

theorem keyUsage_trailing_blank :
    usageText [⟨0, .use .digitalSignature, 1⟩, ⟨0, .use .keyCertSign, 0⟩] =
        str "digitalSignature ,keyCertSign" ∧
      ¬ ∀ items : List UsageItem, usageMask (usageText items) = usageUnion items := by
  refine ⟨by decide, ?_⟩
  intro h
  exact absurd (h [⟨0, .use .digitalSignature, 1⟩, ⟨0, .use .keyCertSign, 0⟩]) (by decide)

end WolfCLU
