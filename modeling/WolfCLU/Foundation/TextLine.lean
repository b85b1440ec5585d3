import Mathlib.Data.List.DropRight
import WolfCLU.Foundation.CString
import WolfCLU.Foundation.Chunks

namespace TextLine
open CString

def strtok (delim : Byte) (s : List Byte) : List (List Byte) :=
  (s.splitOnP (· == delim)).filter (· ≠ [])

theorem strtok_append_cons (delim : Byte) (s t : List Byte) :
    strtok delim (s ++ delim :: t) = strtok delim s ++ strtok delim t := by
  simp only [strtok]
  rw [List.splitOnP_append_cons s t (by simp), List.filter_append]

theorem strtok_singleton {delim : Byte} {word : List Byte} (hne : word ≠ []) (h : delim ∉ word) :
    strtok delim word = [word] := by
  have hsplit : word.splitOnP (· == delim) = [word] := by
    apply List.splitOnP_eq_singleton
    intro c hc
    simp only [beq_eq_false_iff_ne]
    rintro rfl
    exact h hc
  simp only [strtok, hsplit]
  simp [hne]

theorem strtok_delimited {delim : Byte} {words : List (List Byte)}
    (h : ∀ word ∈ words, word ≠ [] ∧ delim ∉ word) :
    strtok delim (words.flatMap fun word => delim :: word) = words := by
  induction words with
  | nil => rfl
  | cons word words ih =>
    obtain ⟨hne, hfree⟩ := h word List.mem_cons_self
    have hrest := ih fun w hw => h w (List.mem_cons_of_mem _ hw)
    have hempty : strtok delim [] = [] := rfl
    rw [List.flatMap_cons, List.cons_append, ← List.nil_append (delim :: _),
      strtok_append_cons, hempty, List.nil_append]
    cases words with
    | nil =>
      rw [List.flatMap_nil, List.append_nil]
      exact strtok_singleton hne hfree
    | cons next words =>
      rw [List.flatMap_cons, List.cons_append] at hrest ⊢
      rw [← List.nil_append (delim :: _), strtok_append_cons, hempty, List.nil_append] at hrest
      rw [strtok_append_cons, hrest, strtok_singleton hne hfree, List.singleton_append]

theorem strtok_intercalate {delim : Byte} {words : List (List Byte)}
    (h : ∀ word ∈ words, word ≠ [] ∧ delim ∉ word) :
    strtok delim (List.intercalate [delim] words) = words := by
  cases words with
  | nil => rfl
  | cons word words =>
    have hsplit := List.splitOn_intercalate delim (fun w hw => (h w hw).2) (List.cons_ne_nil word words)
    rw [List.splitOn_eq_splitOnP] at hsplit
    rw [strtok, hsplit, List.filter_eq_self]
    intro w hw
    simpa using (h w hw).1

theorem of_mem_strtok {delim : Byte} {s token : List Byte} (h : token ∈ strtok delim s) :
    token ≠ [] ∧ delim ∉ token ∧ token ⊆ s := by
  induction hlen : s.length using Nat.strong_induction_on generalizing s with
  | _ len ih =>
    by_cases hmem : delim ∈ s
    · obtain ⟨front, rest, rfl, hfront⟩ := List.eq_append_cons_of_mem hmem
      rw [strtok_append_cons, List.mem_append] at h
      simp only [List.length_append, List.length_cons] at hlen
      rcases h with h | h
      · obtain ⟨hne, hfree, hsub⟩ := ih front.length (by omega) h rfl
        exact ⟨hne, hfree, List.subset_append_of_subset_left _ hsub⟩
      · obtain ⟨hne, hfree, hsub⟩ := ih rest.length (by omega) h rfl
        exact ⟨hne, hfree, fun c hc => List.mem_append_right _ (List.mem_cons_of_mem _ (hsub hc))⟩
    · cases s with
      | nil => cases h
      | cons c s =>
        rw [strtok_singleton (List.cons_ne_nil c s) hmem, List.mem_singleton] at h
        subst h
        exact ⟨List.cons_ne_nil c s, hmem, List.Subset.refl _⟩

section Trim
variable {α : Type} {p : α → Bool} {pad word : List α}

theorem dropWhile_pad (hpad : ∀ c ∈ pad, p c = true) (hword : ∀ c ∈ word.head?, p c = false) :
    (pad ++ word).dropWhile p = word := by
  rw [List.dropWhile_append_of_pos hpad]
  cases word with
  | nil => rfl
  | cons c word => simp [hword c rfl]

theorem rdropWhile_pad (hpad : ∀ c ∈ pad, p c = true) (hword : ∀ c ∈ word.getLast?, p c = false) :
    (word ++ pad).rdropWhile p = word := by
  rw [List.rdropWhile, List.reverse_append, dropWhile_pad, List.reverse_reverse]
  · intro c hc
    exact hpad c (List.mem_reverse.mp hc)
  · intro c hc
    rw [List.head?_reverse] at hc
    exact hword c hc

theorem trim_split (p : α → Bool) (s : List α) :
    ∃ before behind, (∀ c ∈ before, p c = true) ∧ (∀ c ∈ behind, p c = true) ∧
      s = before ++ (s.dropWhile p).rdropWhile p ++ behind := by
  refine ⟨s.takeWhile p, (s.dropWhile p).rtakeWhile p, ?_, ?_, ?_⟩
  · intro c hc
    exact List.mem_takeWhile_imp hc
  · intro c hc
    exact List.mem_rtakeWhile_imp hc
  · rw [List.append_assoc, List.rdropWhile_append_rtakeWhile, List.takeWhile_append_dropWhile]

theorem head_dropWhile {s : List α} : ∀ c ∈ (s.dropWhile p).head?, p c = false := by
  intro c hc
  have := List.head?_dropWhile_not p s
  rw [Option.mem_def] at hc
  rw [hc] at this
  simpa using this

theorem last_rdropWhile {s : List α} : ∀ c ∈ (s.rdropWhile p).getLast?, p c = false := by
  intro c hc
  rw [List.rdropWhile, List.getLast?_reverse] at hc
  exact head_dropWhile c hc

end Trim

def gets : Nat → List Byte → List Byte × List Byte
  | 0, text => ([], text)
  | _, [] => ([], [])
  | n + 1, c :: text =>
    if c = 10 then ([c], text)
    else
      let (line, rest) := gets n text
      (c :: line, rest)

theorem gets_line {n : Nat} {body : List Byte} (hbody : (10 : Byte) ∉ body)
    (hlen : body.length < n) (rest : List Byte) :
    gets n (body ++ 10 :: rest) = (body ++ [10], rest) := by
  induction body generalizing n with
  | nil =>
    cases n with
    | zero => cases hlen
    | succ n => simp [gets]
  | cons c body ih =>
    cases n with
    | zero => cases hlen
    | succ n =>
      have hc : c ≠ 10 := by
        rintro rfl
        exact hbody List.mem_cons_self
      have htail : (10 : Byte) ∉ body := fun h => hbody (List.mem_cons_of_mem _ h)
      rw [List.cons_append, gets, if_neg hc, ih htail (Nat.lt_of_succ_lt_succ hlen)]
      rfl

theorem gets_nil (n : Nat) : gets n [] = ([], []) := by
  cases n <;> rfl

theorem gets_newline_free {n : Nat} {body : List Byte} (h : (10 : Byte) ∉ body) :
    gets n body = (body.take n, body.drop n) := by
  induction body generalizing n with
  | nil => cases n <;> rfl
  | cons c body ih =>
    cases n with
    | zero => rfl
    | succ n =>
      have hc : c ≠ 10 := fun hc => h (hc ▸ List.mem_cons_self)
      rw [gets, if_neg hc, ih fun hmem => h (List.mem_cons_of_mem _ hmem)]
      rfl

theorem gets_terminated {n : Nat} {body : List Byte} (h : (10 : Byte) ∉ body) (rest : List Byte) :
    gets n (body ++ 10 :: rest) = ((body ++ [10]).take n, (body ++ [10]).drop n ++ rest) := by
  induction body generalizing n with
  | nil => cases n <;> simp [gets]
  | cons c body ih =>
    cases n with
    | zero => simp [gets]
    | succ n =>
      have hc : c ≠ 10 := fun hc => h (hc ▸ List.mem_cons_self)
      rw [List.cons_append, gets, if_neg hc, ih fun hmem => h (List.mem_cons_of_mem _ hmem)]
      rfl

theorem gets_append (n : Nat) (text : List Byte) : (gets n text).1 ++ (gets n text).2 = text := by
  fun_induction gets n text with
  | case1 => rfl
  | case2 => rfl
  | case3 => rfl
  | case4 n c text hc line rest hrest ih =>
    rw [hrest] at ih
    rw [List.cons_append, ih]

theorem gets_length_le (n : Nat) (text : List Byte) : (gets n text).1.length ≤ n := by
  fun_induction gets n text with
  | case1 => exact le_rfl
  | case2 => exact Nat.zero_le _
  | case3 => simp
  | case4 n c text hc line rest hrest ih =>
    rw [hrest] at ih
    simpa using ih

theorem gets_ne_nil (n : Nat) {text : List Byte} (h : text ≠ []) : (gets (n + 1) text).1 ≠ [] := by
  cases text with
  | nil => exact absurd rfl h
  | cons c text =>
    simp only [gets]
    split
    · simp
    · simp

theorem gets_rest_lt (n : Nat) {text : List Byte} (h : text ≠ []) :
    (gets (n + 1) text).2.length < text.length := by
  have hle (n : Nat) (text : List Byte) : (gets n text).2.length ≤ text.length := by
    fun_induction gets n text with
    | case1 => exact le_rfl
    | case2 => exact le_rfl
    | case3 => simp
    | case4 n c text hc line rest hrest ih =>
      simp only [hrest] at ih
      simp only [List.length_cons]
      omega
  cases text with
  | nil => exact absurd rfl h
  | cons c text =>
    simp only [gets]
    split
    · simp
    · have := hle n text
      simp only [List.length_cons]
      omega

def fgetsAll (n : Nat) (text : List Byte) : List (List Byte) :=
  if _h : text = [] ∨ n = 0 then [] else (gets n text).1 :: fgetsAll n (gets n text).2
termination_by text.length
decreasing_by
  obtain ⟨hne, hn⟩ := not_or.mp _h
  obtain ⟨m, rfl⟩ := Nat.exists_eq_succ_of_ne_zero hn
  exact gets_rest_lt m hne

theorem fgetsAll_nil (n : Nat) : fgetsAll n [] = [] := by
  rw [fgetsAll, dif_pos (Or.inl rfl)]

theorem fgetsAll_of_ne {n : Nat} (hn : 0 < n) {text : List Byte} (h : text ≠ []) :
    fgetsAll n text = (gets n text).1 :: fgetsAll n (gets n text).2 := by
  rw [fgetsAll, dif_neg (not_or.mpr ⟨h, by omega⟩)]

def physicalLines : List Byte → List (List Byte)
  | [] => []
  | c :: text =>
    if c = 10 then [10] :: physicalLines text
    else
      match physicalLines text with
      | [] => [[c]]
      | line :: lines => (c :: line) :: lines

theorem physicalLines_newline_free {body : List Byte} (h : (10 : Byte) ∉ body) (hne : body ≠ []) :
    physicalLines body = [body] := by
  induction body with
  | nil => exact absurd rfl hne
  | cons c body ih =>
    have hc : c ≠ 10 := fun hc => h (hc ▸ List.mem_cons_self)
    rw [physicalLines, if_neg hc]
    cases body with
    | nil => rfl
    | cons d body => rw [ih (fun hmem => h (List.mem_cons_of_mem _ hmem)) (List.cons_ne_nil d body)]

theorem physicalLines_terminated {body : List Byte} (h : (10 : Byte) ∉ body) (rest : List Byte) :
    physicalLines (body ++ 10 :: rest) = (body ++ [10]) :: physicalLines rest := by
  induction body with
  | nil => simp [physicalLines]
  | cons c body ih =>
    have hc : c ≠ 10 := fun hc => h (hc ▸ List.mem_cons_self)
    rw [List.cons_append, physicalLines, if_neg hc, ih fun hmem => h (List.mem_cons_of_mem _ hmem)]
    rfl

def lineContent (line : List Byte) : List Byte := line.takeWhile (· ≠ 10)

def IsLine (line : List Byte) : Prop :=
  line ≠ [] ∧ (line = lineContent line ∨ line = lineContent line ++ [10])

theorem lineContent_newline_free {body : List Byte} (h : (10 : Byte) ∉ body) :
    lineContent body = body :=
  List.takeWhile_eq_self_iff.mpr fun c hc => by
    simp only [ne_eq, decide_not, Bool.not_eq_true', decide_eq_false_iff_not]
    rintro rfl
    exact h hc

theorem lineContent_terminated {body : List Byte} (h : (10 : Byte) ∉ body) :
    lineContent (body ++ [10]) = body := by
  rw [lineContent, List.takeWhile_append, if_pos]
  · simp
  · rw [← lineContent, lineContent_newline_free h]

theorem text_cases (text : List Byte) :
    (text = [] ∧ physicalLines text = []) ∨
      (IsLine text ∧ (10 : Byte) ∉ text ∧ physicalLines text = [text]) ∨
      ∃ body rest, (10 : Byte) ∉ body ∧ text = body ++ 10 :: rest ∧ IsLine (body ++ [10]) ∧
        physicalLines text = (body ++ [10]) :: physicalLines rest := by
  by_cases hmem : (10 : Byte) ∈ text
  · obtain ⟨body, rest, hsplit, hbody⟩ := List.eq_append_cons_of_mem hmem
    refine Or.inr (Or.inr ⟨body, rest, hbody, hsplit, ⟨by simp, ?_⟩, ?_⟩)
    · rw [lineContent_terminated hbody]
      exact Or.inr rfl
    · rw [hsplit, physicalLines_terminated hbody]
  · cases text with
    | nil => exact Or.inl ⟨rfl, rfl⟩
    | cons c text =>
      refine Or.inr (Or.inl ⟨⟨List.cons_ne_nil c text, Or.inl ?_⟩, hmem, ?_⟩)
      · rw [lineContent_newline_free hmem]
      · exact physicalLines_newline_free hmem (List.cons_ne_nil c text)

theorem physicalLines_flatten (text : List Byte) : (physicalLines text).flatten = text := by
  induction text with
  | nil => rfl
  | cons c text ih =>
    rw [physicalLines]
    split_ifs with hc
    · rw [List.flatten_cons, ih, hc, List.singleton_append]
    · cases hlines : physicalLines text with
      | nil =>
        rw [hlines] at ih
        simp [← ih]
      | cons line lines =>
        rw [hlines, List.flatten_cons] at ih
        rw [List.flatten_cons, List.cons_append, ih]

theorem physicalLines_drop (text : List Byte) (n : Nat) :
    physicalLines ((physicalLines text).drop n).flatten = (physicalLines text).drop n := by
  induction n generalizing text with
  | zero => rw [List.drop_zero, physicalLines_flatten]
  | succ n ih =>
    rcases text_cases text with ⟨_, hlines⟩ | ⟨_, _, hlines⟩ | ⟨body, rest, _, _, _, hlines⟩
    · rw [hlines]
      rfl
    · rw [hlines, List.drop_succ_cons, List.drop_nil]
      rfl
    · rw [hlines, List.drop_succ_cons]
      exact ih rest

section Buffered
open Chunks

theorem fgetsAll_newline_free {n : Nat} (hn : 0 < n) {body : List Byte} (h : (10 : Byte) ∉ body) :
    fgetsAll n body = chunks n body := by
  induction body using chunks_induct hn with
  | nil => rw [fgetsAll_nil, chunks_nil]
  | more body hne ih =>
    rw [fgetsAll_of_ne hn hne, gets_newline_free h, chunks_of_ne hn hne,
      ih fun hmem => h (List.mem_of_mem_drop hmem)]

theorem fgetsAll_terminated {n : Nat} (hn : 0 < n) {body : List Byte} (h : (10 : Byte) ∉ body)
    (rest : List Byte) :
    fgetsAll n (body ++ 10 :: rest) = chunks n (body ++ [10]) ++ fgetsAll n rest := by
  induction body using chunks_induct hn with
  | nil =>
    have hone : ([10] : List Byte).take n = [10] := List.take_of_length_le hn
    have hnone : ([10] : List Byte).drop n = [] := List.drop_of_length_le hn
    rw [List.nil_append, fgetsAll_of_ne hn (by simp), chunks_of_ne hn (by simp),
      ← List.nil_append (10 :: rest), gets_terminated (by simp)]
    simp [hone, hnone, chunks_nil]
  | more body hne ih =>
    rw [fgetsAll_of_ne hn (by simp), gets_terminated h, chunks_of_ne hn (by simp)]
    by_cases hshort : body.length + 1 ≤ n
    · have hnone : (body ++ [10]).drop n = [] := List.drop_of_length_le (by simpa using hshort)
      simp [hnone, chunks_nil]
    · have hdrop : (body ++ [10]).drop n = body.drop n ++ [10] :=
        List.drop_append_of_le_length (by omega)
      simp only [hdrop, List.append_assoc, List.cons_append, List.nil_append]
      rw [ih fun hmem => h (List.mem_of_mem_drop hmem)]

theorem fgetsAll_eq {n : Nat} (hn : 0 < n) (text : List Byte) :
    fgetsAll n text = (physicalLines text).flatMap (chunks n) := by
  induction hlen : text.length using Nat.strong_induction_on generalizing text with
  | _ len ih =>
    rcases text_cases text with ⟨rfl, hlines⟩ | ⟨_, hfree, hlines⟩ |
      ⟨body, rest, hbody, rfl, _, hlines⟩
    · rw [hlines, fgetsAll_nil, List.flatMap_nil]
    · rw [hlines, fgetsAll_newline_free hn hfree]
      simp
    · rw [hlines, fgetsAll_terminated hn hbody, List.flatMap_cons,
        ih _ (by simp only [List.length_append, List.length_cons] at hlen; omega) rest rfl]

end Buffered

theorem isLine_of_mem {text line : List Byte} (h : line ∈ physicalLines text) : IsLine line := by
  induction hlen : text.length using Nat.strong_induction_on generalizing text with
  | _ len ih =>
    rcases text_cases text with ⟨rfl, hlines⟩ | ⟨hline, _, hlines⟩ |
      ⟨body, rest, _, rfl, hline, hlines⟩
    · rw [hlines] at h
      cases h
    · rw [hlines, List.mem_singleton] at h
      exact h ▸ hline
    · rw [hlines, List.mem_cons] at h
      rcases h with rfl | h
      · exact hline
      · exact ih _ (by simp only [List.length_append, List.length_cons] at hlen; omega) h rfl

def strsep (delim : Byte) (s : List Byte) : List (List Byte) := s.splitOnP (· == delim)

theorem strsep_delimited {delim : Byte} {field : List Byte} (h : delim ∉ field) (rest : List Byte) :
    strsep delim (field ++ delim :: rest) = field :: strsep delim rest := by
  have hfree : ∀ c ∈ field, (c == delim) = false := by
    intro c hc
    simp only [beq_eq_false_iff_ne]
    rintro rfl
    exact h hc
  exact List.splitOnP_append_cons_of_forall_mem (p := (· == delim)) hfree delim (by simp) rest

theorem strsep_cons {delim : Byte} {s field next : List Byte} {fields : List (List Byte)}
    (h : strsep delim s = field :: next :: fields) :
    ∃ rest, s = field ++ delim :: rest ∧ delim ∉ field ∧ strsep delim rest = next :: fields := by
  by_cases hmem : delim ∈ s
  · obtain ⟨front, rest, rfl, hfront⟩ := List.eq_append_cons_of_mem hmem
    rw [strsep_delimited hfront, List.cons.injEq] at h
    obtain ⟨rfl, hrest⟩ := h
    exact ⟨rest, rfl, hfront, hrest⟩
  · have hsingle : strsep delim s = [s] := List.splitOnP_eq_singleton fun c hc => by
      simp only [beq_eq_false_iff_ne]
      rintro rfl
      exact hmem hc
    rw [hsingle] at h
    simp at h

theorem strsep_prefix {delim : Byte} {s s' field next : List Byte} {fields : List (List Byte)}
    (h : strsep delim s = field :: next :: fields) (hpre : s <+: s') :
    ∃ rest rest', strsep delim rest = next :: fields ∧ rest <+: rest' ∧
      strsep delim s' = field :: strsep delim rest' := by
  obtain ⟨rest, rfl, hfield, hrest⟩ := strsep_cons h
  obtain ⟨more, rfl⟩ := hpre
  refine ⟨rest, rest ++ more, hrest, List.prefix_append _ _, ?_⟩
  rw [List.append_assoc, List.cons_append, strsep_delimited hfield]

theorem strsep_ne_nil (delim : Byte) (s : List Byte) : strsep delim s ≠ [] :=
  List.splitOnP_ne_nil _ s

theorem mem_strtok_of_strsep {delim : Byte} {s field : List Byte} (h : field ∈ strsep delim s)
    (hne : field ≠ []) : field ∈ strtok delim s := by
  rw [strtok, List.mem_filter]
  exact ⟨h, by simpa using hne⟩

theorem strtok_eq_strsep {delim : Byte} {s : List Byte} (h : ∀ part ∈ strsep delim s, part ≠ []) :
    strtok delim s = strsep delim s :=
  List.filter_eq_self.mpr fun part hpart => by simpa using h part hpart

def chomp (s : List Byte) : List Byte := s.rdropWhile fun c => c == 10 || c == 13

theorem chomp_newline (s : List Byte) : chomp (s ++ [10]) = chomp s :=
  List.rdropWhile_concat_pos _ _ _ rfl

theorem chomp_eq_self {s : List Byte} (h : s.getLast? ≠ some 10) (h' : s.getLast? ≠ some 13) :
    chomp s = s := by
  refine List.rdropWhile_eq_self_iff.mpr fun hne hlast => ?_
  simp only [List.getLast?_eq_some_getLast hne, ne_eq, Option.some.injEq] at h h'
  simp [h, h'] at hlast

end TextLine
