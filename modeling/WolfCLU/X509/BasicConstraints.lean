import WolfCLU.X509.KeyUsage

namespace WolfCLU
open CString TextLine

structure Cased (word : List Byte) where
  text : List Byte
  cased : text.map toUpper = word.map toUpper

theorem Cased.length_eq {word : List Byte} (spelled : Cased word) :
    spelled.text.length = word.length := by
  simpa using congrArg List.length spelled.cased

theorem Cased.not_mem {word : List Byte} (spelled : Cased word) {c : Byte}
    (h : toUpper c ∉ word.map toUpper) : c ∉ spelled.text := by
  intro hc
  rw [← spelled.cased] at h
  exact h (List.mem_map_of_mem hc)

theorem Cased.not_infix {word needle : List Byte} (spelled : Cased word)
    (h : word.length < needle.length) : ¬ needle <:+: spelled.text := by
  intro hin
  have hle := hin.length_le
  rw [spelled.length_eq] at hle
  omega

def flagWord (ca : Bool) : List Byte := if ca then str "TRUE" else str "FALSE"

structure Comma where
  before : Nat
  after : Nat

def Comma.text (comma : Comma) : List Byte :=
  List.replicate comma.before 32 ++ 44 :: List.replicate comma.after 32

structure PathlenItem where
  comma : Comma
  word : Cased (str "pathlen")
  digits : List Byte
  value : Nat
  numeral : IsNumeral digits value

structure ConstraintText where
  critical : Option (Cased (str "critical") × Comma)
  caWord : Cased (str "CA")
  ca : Bool
  flag : Cased (flagWord ca)
  pathlen : Option PathlenItem

def PathlenItem.text (item : PathlenItem) : List Byte :=
  item.comma.text ++ (item.word.text ++ 58 :: item.digits)

namespace ConstraintText
variable (value : ConstraintText)

def pathlenText : List Byte := (value.pathlen.map PathlenItem.text).getD []

def itemsText : List Byte := value.caWord.text ++ 58 :: (value.flag.text ++ value.pathlenText)

def text : List Byte :=
  match value.critical with
  | none => value.itemsText
  | some (word, comma) => word.text ++ (comma.text ++ value.itemsText)

def extension : Extension :=
  .basicConstraints value.critical.isSome value.ca (value.pathlen.map fun item => (item.value : Int))

end ConstraintText

theorem flagWord_free {ca : Bool} (flag : Cased (flagWord ca)) {c : Byte}
    (h : toUpper c ∉ (flagWord true ++ flagWord false).map toUpper) : c ∉ flag.text := by
  refine flag.not_mem fun hc => h ?_
  rw [List.map_append, List.mem_append]
  cases ca with
  | true => exact Or.inl hc
  | false => exact Or.inr hc

theorem flag_upper (ca : Bool) (flag : Cased (flagWord ca)) :
    flag.text.map toUpper = str "TRUE" ↔ ca = true := by
  rw [flag.cased]
  cases ca <;> decide

section Critical

theorem critical_pathlenText {value : ConstraintText} : ¬ str "critical" <:+: value.pathlenText := by
  obtain ⟨hcomma, hblank, hcolon, hne⟩ := criticalWord_free
  rw [ConstraintText.pathlenText]
  cases value.pathlen with
  | none => simp [hne]
  | some item =>
    simp only [Option.map_some, Option.getD_some, PathlenItem.text, Comma.text,
      List.append_assoc, List.cons_append]
    rw [infix_replicate_append hblank hne, ← List.nil_append (44 :: _), infix_append_cons hcomma,
      List.infix_nil, infix_replicate_append hblank hne, infix_append_cons hcolon]
    rintro (hnil | hword | hdigits)
    · exact hne hnil
    · exact item.word.not_infix (by decide) hword
    · have hc := item.numeral.digits 99 (hdigits.subset (by decide))
      exact absurd hc (by decide)

theorem critical_itemsText {value : ConstraintText} : ¬ str "critical" <:+: value.itemsText := by
  obtain ⟨hcomma, hblank, hcolon, hne⟩ := criticalWord_free
  have hflag : ¬ str "critical" <:+: value.flag.text := by
    refine value.flag.not_infix ?_
    cases value.ca <;> decide
  have hpath := @critical_pathlenText value
  rw [ConstraintText.itemsText, infix_append_cons hcolon]
  rintro (hca | hrest)
  · exact value.caWord.not_infix (by decide) hca
  · rw [ConstraintText.pathlenText] at hrest hpath
    cases hitem : value.pathlen with
    | none =>
      rw [hitem] at hrest
      exact hflag (by simpa using hrest)
    | some item =>
      rw [hitem] at hrest hpath
      simp only [Option.map_some, Option.getD_some, PathlenItem.text, Comma.text,
        List.append_assoc, List.cons_append] at hrest hpath
      rw [← List.append_assoc, infix_append_cons hcomma, infix_append_replicate hblank hne] at hrest
      rw [infix_append_cons hcomma] at hpath
      rcases hrest with hrest | hrest
      · exact hflag hrest
      · exact hpath (Or.inr hrest)

theorem critical_text (value : ConstraintText) :
    (strstr (str "critical") value.text).isSome = true ↔
      ∃ critical ∈ value.critical, critical.1.text = str "critical" := by
  obtain ⟨hcomma, hblank, _, hne⟩ := criticalWord_free
  rw [isSome_strstr, ConstraintText.text]
  cases value.critical with
  | none => simp [critical_itemsText]
  | some critical =>
    simp only [Comma.text, List.append_assoc, List.cons_append]
    rw [← List.append_assoc, infix_append_cons hcomma, infix_append_replicate hblank hne,
      infix_replicate_append hblank hne, or_iff_left critical_itemsText]
    simp only [Option.mem_def, Option.some.injEq, exists_eq_left']
    constructor
    · intro hin
      exact (hin.eq_of_length critical.1.length_eq.symm).symm
    · intro h
      rw [h]

end Critical

theorem afterCritical_comma {front rest : List Byte} (hfront : (44 : Byte) ∉ front)
    (hne : rest ≠ []) (hblank : ∀ c ∈ rest.head?, c ≠ 32) (n : Nat) :
    afterCritical (front ++ 44 :: (List.replicate n 32 ++ rest)) = some rest := by
  have hdrop : (front ++ 44 :: (List.replicate n 32 ++ rest)).dropWhile (fun c => decide (c ≠ 44)) =
      44 :: (List.replicate n 32 ++ rest) := by
    refine dropWhile_pad ?_ (by simp)
    intro c hc
    simp only [ne_eq, decide_not, Bool.not_eq_true', decide_eq_false_iff_not]
    rintro rfl
    exact hfront hc
  have htrim : (List.replicate n 32 ++ rest).dropWhile (fun c => decide (c = 32)) = rest :=
    dropWhile_pad (by simp) (by simpa using hblank)
  have hpos := List.length_pos_of_ne_nil hne
  have hlen : ¬ (44 :: (List.replicate n (32 : Byte) ++ rest)).length ≤ 1 := by
    simp only [List.length_cons, List.length_append]
    omega
  simp only [afterCritical, hdrop]
  rw [if_neg hlen, List.drop_succ_cons, List.drop_zero, htrim]

theorem basicConstraintWords_listed {ca item digits : List Byte} (obj : BasicConstraint)
    (hca : ca ≠ str "pathlen") (hitem : (44 : Byte) ∈ item) :
    basicConstraintWords [ca, item, digits] obj = obj := by
  have hupper : item.map toUpper ≠ str "TRUE" := by
    intro h
    have hmem : toUpper 44 ∈ item.map toUpper := List.mem_map_of_mem hitem
    rw [h] at hmem
    exact absurd hmem (by decide)
  have hitemCa : item ≠ str "CA" := by
    rintro rfl
    exact absurd hitem (by decide)
  have hitemPath : item ≠ str "pathlen" := by
    rintro rfl
    exact absurd hitem (by decide)
  simp [basicConstraintWords, hca, hupper, hitemCa, hitemPath]

section Items
variable (value : ConstraintText)

theorem caWord_spec : value.caWord.text ≠ [] ∧ (58 : Byte) ∉ value.caWord.text ∧
    (∀ c ∈ value.caWord.text.head?, c ≠ 32) ∧ value.caWord.text ≠ str "pathlen" := by
  have hlen := value.caWord.length_eq
  refine ⟨?_, value.caWord.not_mem (by decide), ?_, ?_⟩
  · intro h
    rw [h] at hlen
    exact absurd hlen (by decide)
  · rintro c hc rfl
    exact value.caWord.not_mem (by decide) (List.mem_of_mem_head? hc)
  · intro h
    rw [h] at hlen
    exact absurd hlen (by decide)

theorem flag_spec : value.flag.text ≠ [] ∧ (58 : Byte) ∉ value.flag.text := by
  refine ⟨?_, flagWord_free value.flag (by decide)⟩
  intro h
  have hlen := value.flag.length_eq
  rw [h] at hlen
  cases hca : value.ca <;> rw [hca] at hlen <;> exact absurd hlen (by decide)

theorem PathlenItem.digits_spec (item : PathlenItem) : (58 : Byte) ∉ item.digits := by
  intro h
  exact absurd (item.numeral.digits 58 h) (by decide)

theorem itemsText_words : basicConstraintWords (strtok 58 value.itemsText) ⟨false, none⟩ =
    ⟨decide (value.caWord.text = str "CA") && value.ca && value.pathlen.isNone, none⟩ := by
  obtain ⟨hne, hcolon, _, hpath⟩ := caWord_spec value
  obtain ⟨hflag, hflagColon⟩ := flag_spec value
  rw [ConstraintText.itemsText, strtok_append_cons, strtok_singleton hne hcolon,
    ConstraintText.pathlenText]
  cases value.pathlen with
  | none =>
    have hupper := flag_upper value.ca value.flag
    simp only [Option.map_none, Option.getD_none, List.append_nil]
    rw [strtok_singleton hflag hflagColon]
    by_cases hca : value.caWord.text = str "CA"
    · by_cases htrue : value.ca = true <;> simp [basicConstraintWords, hca, hupper, htrue]
    · simp [basicConstraintWords, hca, hpath]
  | some item =>
    have hwordColon : (58 : Byte) ∉ item.word.text := item.word.not_mem (by decide)
    have hdigits := strtok_singleton item.numeral.nonempty item.digits_spec
    have hlist : (58 : Byte) ∉ value.flag.text ++ (item.comma.text ++ item.word.text) := by
      simp [Comma.text, hflagColon, hwordColon]
    simp only [Option.map_some, Option.getD_some, PathlenItem.text]
    rw [← List.append_assoc item.comma.text, ← List.append_assoc value.flag.text,
      strtok_append_cons, hdigits, strtok_singleton (by simp [hflag]) hlist]
    rw [List.singleton_append, List.singleton_append,
      basicConstraintWords_listed _ hpath (by simp [Comma.text])]
    simp

theorem itemsText_head : value.itemsText ≠ [] ∧ ∀ c ∈ value.itemsText.head?, c ≠ 32 := by
  obtain ⟨hne, _, hhead, _⟩ := caWord_spec value
  refine ⟨by simp [ConstraintText.itemsText], ?_⟩
  rw [ConstraintText.itemsText, List.head?_append_of_ne_nil _ hne]
  exact hhead

def LowerCritical : Prop := ∀ critical ∈ value.critical, critical.1.text = str "critical"

theorem parseBasicConstraint_text (h : LowerCritical value) :
    parseBasicConstraint value.text value.critical.isSome =
      some (.basicConstraints value.critical.isSome
        (decide (value.caWord.text = str "CA") && value.ca && value.pathlen.isNone) none) := by
  obtain ⟨hne, hhead⟩ := itemsText_head value
  have hwords := itemsText_words value
  rw [LowerCritical] at h
  rw [ConstraintText.text]
  cases hcrit : value.critical with
  | none => simp [parseBasicConstraint, hwords]
  | some critical =>
    obtain ⟨word, comma⟩ := critical
    have hword : word.text = str "critical" := h (word, comma) hcrit
    have hcomma : (44 : Byte) ∉ word.text ++ List.replicate comma.before 32 := by
      rw [hword, List.mem_append, not_or]
      exact ⟨by decide, by simp⟩
    have hafter := afterCritical_comma hcomma hne hhead comma.after
    rw [List.append_assoc] at hafter
    simp only [Comma.text, List.append_assoc, List.cons_append]
    simp [parseBasicConstraint, hafter, hwords]

end Items

theorem parseExtension_basicConstraints {lib : X509Lib} {x509 : X509Object} {s : List Byte}
    {crit : Bool} {ext : Extension} (hcrit : (strstr (str "critical") s).isSome = crit)
    (h : parseBasicConstraint s crit = some ext) :
    parseExtension lib x509 s .basicConstraints = addBuilt lib x509 ext := by
  cases hbuilt : built lib ext with
  | none => simp only [parseExtension, hcrit, h, Option.bind_some, addBuilt, hbuilt]
  | some built => simp only [parseExtension, hcrit, h, Option.bind_some, addBuilt, hbuilt]

theorem basicConstraints_exact (value : ConstraintText) :
    ∃ ext, (∀ lib x509,
        parseExtension lib x509 value.text .basicConstraints = addBuilt lib x509 ext) ∧
      (ext = value.extension ↔ value.pathlen = none ∧ LowerCritical value ∧
        (value.caWord.text = str "CA" ∨ value.ca = false)) := by
  by_cases hlower : LowerCritical value
  · have hcrit : (strstr (str "critical") value.text).isSome = value.critical.isSome := by
      rw [Bool.eq_iff_iff, critical_text, Option.isSome_iff_exists]
      exact ⟨fun h => h.imp fun _ h => h.1, fun h => h.imp fun _ h => ⟨h, hlower _ h⟩⟩
    refine ⟨_, fun lib x509 =>
      parseExtension_basicConstraints hcrit (parseBasicConstraint_text value hlower), ?_⟩
    rw [ConstraintText.extension]
    cases value.pathlen with
    | some item => simp
    | none =>
      cases value.ca <;> simp [hlower]
  · have hcrit : (strstr (str "critical") value.text).isSome = false := by
      rw [Bool.eq_false_iff, ne_eq, critical_text]
      rintro ⟨critical, hmem, hword⟩
      refine hlower fun other hother => ?_
      rw [Option.mem_def] at hmem hother
      rw [hmem, Option.some.injEq] at hother
      exact hother ▸ hword
    have hgiven : value.critical.isSome = true := by
      cases hc : value.critical with
      | some critical => rfl
      | none => exact absurd (by simp [LowerCritical, hc]) hlower
    refine ⟨_, fun lib x509 => parseExtension_basicConstraints hcrit rfl, ?_⟩
    simp [ConstraintText.extension, hgiven, hlower]

def caWithPathlen : ConstraintText :=
  { critical := none, caWord := ⟨str "CA", rfl⟩, ca := true, flag := ⟨str "TRUE", rfl⟩,
    pathlen := some ⟨⟨0, 0⟩, ⟨str "pathlen", rfl⟩, decimal 3, 3, decimal_isNumeral 3⟩ }

theorem basicConstraints_pathlen :
    caWithPathlen.text = str "CA:TRUE,pathlen:3" ∧
      (∀ lib x509, parseExtension lib x509 (str "CA:TRUE,pathlen:3") .basicConstraints =
        addBuilt lib x509 (.basicConstraints false false none)) ∧
      caWithPathlen.extension = .basicConstraints false true (some 3) ∧
      caWithPathlen.extension ≠ .basicConstraints false false none := by
  have hparse : parseBasicConstraint (str "CA:TRUE,pathlen:3") false =
      some (.basicConstraints false false none) := by decide
  refine ⟨by decide +kernel, ?_, by decide +kernel, by decide +kernel⟩
  intro lib x509
  exact parseExtension_basicConstraints (by decide) hparse

end WolfCLU
