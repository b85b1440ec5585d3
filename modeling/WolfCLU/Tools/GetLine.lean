import WolfCLU.ErrorCodes
import WolfCLU.Foundation.CheckedMemory
import WolfCLU.Foundation.TextLine

namespace WolfCLU.GetLine
open CString TextLine CheckedMemory Buffer

structure Allocator where
  malloc : Nat → Option (List Byte)
  realloc : List Byte → Nat → Option (List Byte)
  malloc_length : ∀ {n area}, malloc n = some area → area.length = n
  realloc_length : ∀ {old n area}, realloc old n = some area → area.length = n
  realloc_keeps : ∀ {old n area}, realloc old n = some area → old.length ≤ n → old <+: area

structure Allocator.Succeeds (A : Allocator) : Prop where
  malloc : ∀ n, A.malloc n ≠ none
  realloc : ∀ old n, A.realloc old n ≠ none

def maxEntryName : Nat := 64

structure GetlineState where
  len : Nat
  lineptr : List Byte
  lenUsed : Nat
  fp : List Byte

structure GetlineResult where
  ret : Int
  lineptr : Option (List Byte)
  len : Nat
  fp : List Byte

def getlineFailed (fp : List Byte) : GetlineResult :=
  { ret := wolfcluFatalError, lineptr := none, len := 0, fp := fp }

def getlineGrow (A : Allocator) (s : GetlineState) (lineUsed : Nat) :
    Except GetlineResult GetlineState :=
  if s.len - s.lenUsed ≤ lineUsed then
    if (s.len : Int) > MachineInt.intMax / 2 then .error (getlineFailed s.fp)
    else
      match A.realloc s.lineptr (s.len * 2) with
      | none => .error (getlineFailed s.fp)
      | some tmp => .ok { s with len := s.len * 2, lineptr := tmp }
  else .ok s

def getlineCopy (s : GetlineState) (line : List Byte) : Option GetlineState := do
  let lineptr ← store s.lineptr s.lenUsed line
  let lineptr ← store lineptr (s.lenUsed + line.length) [0]
  some { s with lineptr := lineptr, lenUsed := s.lenUsed + line.length }

def getlineRead (A : Allocator) (s : GetlineState) :
    Option (Except GetlineResult GetlineState) := do
  let used ← scan 0 s.lineptr 0
  if s.fp = [] then
    some (.error { ret := MachineInt.toInt32 used.length, lineptr := some s.lineptr,
                   len := s.len, fp := [] })
  else
    let line := (gets (maxEntryName - 1) s.fp).1.takeWhile (· ≠ 0)
    let rest := (gets (maxEntryName - 1) s.fp).2
    match getlineGrow A { s with lenUsed := used.length, fp := rest } line.length with
    | .error r => some (.error r)
    | .ok s => (getlineCopy s line).map .ok

def getlineNewline (s : GetlineState) : Option (Option GetlineResult) :=
  if s.lenUsed > 0 then do
    let c ← s.lineptr[s.lenUsed - 1]?
    if c = 10 then
      let lineptr ← store s.lineptr (s.lenUsed - 1) [0]
      some (some { ret := MachineInt.toInt32 (s.lenUsed - 1 : Nat), lineptr := some lineptr,
                   len := s.len, fp := s.fp })
    else some none
  else some none

theorem getlineGrow_fp {A : Allocator} {s s' : GetlineState} {lineUsed : Nat}
    (h : getlineGrow A s lineUsed = .ok s') : s'.fp = s.fp ∧ s'.lenUsed = s.lenUsed := by
  unfold getlineGrow at h
  split at h
  · split at h
    · cases h
    · split at h
      · cases h
      · cases h
        exact ⟨rfl, rfl⟩
  · cases h
    exact ⟨rfl, rfl⟩

theorem getlineCopy_fp {s s' : GetlineState} {line : List Byte}
    (h : getlineCopy s line = some s') : s'.fp = s.fp ∧ s'.len = s.len := by
  simp only [getlineCopy, Option.bind_eq_bind, Option.bind_eq_some_iff] at h
  obtain ⟨_, _, _, _, h⟩ := h
  cases h
  exact ⟨rfl, rfl⟩

theorem getlineRead_ok {A : Allocator} {s s' : GetlineState}
    (h : getlineRead A s = some (.ok s')) :
    s.fp ≠ [] ∧ ∃ used grown, scan 0 s.lineptr 0 = some used ∧
      getlineGrow A { s with lenUsed := used.length, fp := (gets (maxEntryName - 1) s.fp).2 }
        ((gets (maxEntryName - 1) s.fp).1.takeWhile (· ≠ 0)).length = .ok grown ∧
      getlineCopy grown ((gets (maxEntryName - 1) s.fp).1.takeWhile (· ≠ 0)) = some s' := by
  simp only [getlineRead, Option.bind_eq_bind, Option.bind_eq_some_iff] at h
  obtain ⟨used, hused, h⟩ := h
  split at h
  · cases h
  · rename_i hne
    refine ⟨hne, used, ?_⟩
    split at h
    · cases h
    · rename_i grown hgrow
      simp only [Option.map_eq_some_iff, Except.ok.injEq] at h
      obtain ⟨_, hcopy, rfl⟩ := h
      exact ⟨grown, hused, hgrow, hcopy⟩

theorem getlineRead_fp {A : Allocator} {s s' : GetlineState}
    (h : getlineRead A s = some (.ok s')) : s'.fp = (gets (maxEntryName - 1) s.fp).2 := by
  obtain ⟨_, used, grown, _, hgrow, hcopy⟩ := getlineRead_ok h
  rw [(getlineCopy_fp hcopy).1, (getlineGrow_fp hgrow).1]

theorem getlineRead_shorter {A : Allocator} {s s' : GetlineState}
    (h : getlineRead A s = some (.ok s')) : s'.fp.length < s.fp.length := by
  rw [getlineRead_fp h]
  exact gets_rest_lt 62 (getlineRead_ok h).1

def getlineLoop (A : Allocator) (s : GetlineState) : Option GetlineResult :=
  match _h : getlineRead A s with
  | none => none
  | some (.error r) => some r
  | some (.ok s') =>
    match getlineNewline s' with
    | none => none
    | some (some r) => some r
    | some none => getlineLoop A s'
termination_by s.fp.length
decreasing_by exact getlineRead_shorter _h

def getline (A : Allocator) (fp : List Byte) : Option GetlineResult :=
  match A.malloc maxEntryName with
  | none => some (getlineFailed fp)
  | some area => do
    let lineptr ← store area 0 [0]
    getlineLoop A { len := maxEntryName, lineptr := lineptr, lenUsed := 0, fp := fp }

structure Held (text : List Byte) (s : GetlineState) : Prop where
  terminated : text ++ [0] <+: s.lineptr
  nulFree : (0 : Byte) ∉ text
  extent : s.lineptr.length = s.len
  room : maxEntryName ≤ s.len

theorem scan_terminated {text area : List Byte} (hfree : (0 : Byte) ∉ text)
    (h : text ++ [0] <+: area) : scan 0 area 0 = some text := by
  obtain ⟨rest, rfl⟩ := h
  rw [scan_of_mem (by simp), List.drop_zero, List.append_assoc, List.takeWhile_append_of_pos]
  · simp
  · intro c hc
    simp only [ne_eq, decide_not, Bool.not_eq_true', decide_eq_false_iff_not]
    rintro rfl
    exact hfree hc

section Step
variable {A : Allocator} {text line : List Byte} {s s' : GetlineState}

theorem Held.used_lt (h : Held text s) : text.length + 1 ≤ s.len := by
  have := h.terminated.length_le
  rw [List.length_append, List.length_singleton, h.extent] at this
  exact this

theorem getlineGrow_held {lineUsed : Nat} (h : Held text s) (hused : s.lenUsed = text.length)
    (hline : lineUsed < maxEntryName) (hgrow : getlineGrow A s lineUsed = .ok s') :
    Held text s' ∧ s'.lenUsed + lineUsed + 1 ≤ s'.len := by
  have hlt := h.used_lt
  have hroom := h.room
  unfold getlineGrow at hgrow
  split at hgrow
  · split at hgrow
    · cases hgrow
    · split at hgrow
      · cases hgrow
      · rename_i tmp htmp
        cases hgrow
        have hkept := A.realloc_keeps htmp (by rw [h.extent]; omega)
        refine ⟨⟨h.terminated.trans hkept, h.nulFree, A.realloc_length htmp, ?_⟩, ?_⟩
        · simp only
          omega
        · simp only
          omega
  · cases hgrow
    exact ⟨h, by omega⟩

theorem getlineGrow_succeeds {lineUsed : Nat} (hA : A.Succeeds)
    (hlimit : ((s.lenUsed + lineUsed : Nat) : Int) ≤ MachineInt.intMax / 2) :
    ∃ s', getlineGrow A s lineUsed = .ok s' := by
  unfold getlineGrow
  split
  · rw [if_neg (by omega)]
    rcases htmp : A.realloc s.lineptr (s.len * 2) with _ | tmp
    · exact absurd htmp (hA.realloc _ _)
    · exact ⟨_, rfl⟩
  · exact ⟨_, rfl⟩

theorem getlineCopy_held (h : Held text s) (hused : s.lenUsed = text.length)
    (hfree : (0 : Byte) ∉ line) (hroom : s.lenUsed + line.length + 1 ≤ s.len) :
    ∃ s', getlineCopy s line = some s' ∧ Held (text ++ line) s' ∧
      s'.lenUsed = (text ++ line).length := by
  have hlen : s.lenUsed ≤ s.lineptr.length := by rw [h.extent]; omega
  have hfirst : s.lenUsed + line.length ≤ s.lineptr.length := by rw [h.extent]; omega
  have hsecond : s.lenUsed + line.length + [(0 : Byte)].length ≤
      (blit s.lineptr s.lenUsed line).length := by
    rw [blit_length hfirst, h.extent]
    exact hroom
  have hcopy : getlineCopy s line = some { s with
      lineptr := blit (blit s.lineptr s.lenUsed line) (s.lenUsed + line.length) [0]
      lenUsed := s.lenUsed + line.length } := by
    simp only [getlineCopy, Option.bind_eq_bind, store_of_le hfirst, Option.bind_some,
      store_of_le hsecond]
  refine ⟨_, hcopy, ⟨?_, ?_, ?_, h.room⟩, by simp [hused]⟩
  · obtain ⟨rest, hrest⟩ := h.terminated
    have hfront : s.lineptr.take s.lenUsed = text := by
      rw [← hrest, hused, List.append_assoc, List.take_left]
    simp only
    rw [blit_blit hlen, blit, hfront, List.append_assoc, List.append_assoc, List.append_assoc]
    exact List.prefix_append_right_inj text |>.mpr (by simp)
  · rw [List.mem_append]
    exact not_or.mpr ⟨h.nulFree, hfree⟩
  · simp only
    rw [blit_length hsecond, blit_length hfirst, h.extent]

theorem nulFree_gets {fp : List Byte} (h : (0 : Byte) ∉ fp) (n : Nat) :
    (gets n fp).1.takeWhile (· ≠ 0) = (gets n fp).1 ∧ (0 : Byte) ∉ (gets n fp).1 ∧
      (0 : Byte) ∉ (gets n fp).2 := by
  rw [← gets_append n fp, List.mem_append, not_or] at h
  refine ⟨?_, h⟩
  rw [List.takeWhile_eq_self_iff]
  intro c hc
  simp only [ne_eq, decide_not, Bool.not_eq_true', decide_eq_false_iff_not]
  rintro rfl
  exact h.1 hc

theorem getlineRead_held (h : Held text s) (hfree : (0 : Byte) ∉ s.fp)
    (hrun : getlineRead A s = some (.ok s')) :
    Held (text ++ (gets (maxEntryName - 1) s.fp).1) s' ∧
      s'.lenUsed = (text ++ (gets (maxEntryName - 1) s.fp).1).length := by
  obtain ⟨_, used, grown, hused, hgrow, hcopy⟩ := getlineRead_ok hrun
  obtain ⟨hwhole, hline, _⟩ := nulFree_gets hfree (maxEntryName - 1)
  rw [scan_terminated h.nulFree h.terminated, Option.some.injEq] at hused
  subst hused
  rw [hwhole] at hgrow hcopy
  have hshort := gets_length_le (maxEntryName - 1) s.fp
  have hheld : Held text { s with lenUsed := text.length, fp := (gets (maxEntryName - 1) s.fp).2 } :=
    ⟨h.terminated, h.nulFree, h.extent, h.room⟩
  obtain ⟨hgrown, hroom⟩ := getlineGrow_held hheld rfl (by simp only [maxEntryName] at *; omega) hgrow
  obtain ⟨s'', hcopied, hlast⟩ :=
    getlineCopy_held hgrown (getlineGrow_fp hgrow).2 hline hroom
  rw [hcopied, Option.some.injEq] at hcopy
  subst hcopy
  exact hlast

theorem getlineRead_succeeds (hA : A.Succeeds) (h : Held text s) (hfree : (0 : Byte) ∉ s.fp)
    (hne : s.fp ≠ [])
    (hlimit : ((text ++ (gets (maxEntryName - 1) s.fp).1).length : Int) ≤ MachineInt.intMax / 2) :
    ∃ s', getlineRead A s = some (.ok s') := by
  obtain ⟨hwhole, hline, _⟩ := nulFree_gets hfree (maxEntryName - 1)
  have hshort := gets_length_le (maxEntryName - 1) s.fp
  have hheld : Held text { s with lenUsed := text.length, fp := (gets (maxEntryName - 1) s.fp).2 } :=
    ⟨h.terminated, h.nulFree, h.extent, h.room⟩
  rw [List.length_append] at hlimit
  obtain ⟨grown, hgrow⟩ := @getlineGrow_succeeds A
    { s with lenUsed := text.length, fp := (gets (maxEntryName - 1) s.fp).2 } _ hA hlimit
  obtain ⟨hgrown, hroom⟩ := getlineGrow_held hheld rfl (by simp only [maxEntryName] at *; omega) hgrow
  obtain ⟨s', hcopy, _⟩ := getlineCopy_held hgrown (getlineGrow_fp hgrow).2 hline hroom
  refine ⟨s', ?_⟩
  simp only [getlineRead, scan_terminated h.nulFree h.terminated, Option.bind_eq_bind,
    Option.bind_some, if_neg hne, hwhole, hgrow, hcopy, Option.map_some]

theorem getlineRead_end (h : Held text s) (hend : s.fp = []) :
    getlineRead A s = some (.error
      { ret := MachineInt.toInt32 text.length, lineptr := some s.lineptr, len := s.len,
        fp := [] }) := by
  simp only [getlineRead, scan_terminated h.nulFree h.terminated, Option.bind_eq_bind,
    Option.bind_some, if_pos hend]

structure Returns (line rest : List Byte) (r : GetlineResult) : Prop where
  ret : r.ret = line.length
  text : ∃ area, r.lineptr = some area ∧ area.length = r.len ∧ scan 0 area 0 = some line
  fp : r.fp = rest

theorem toInt32_length {n : Nat} (h : (n : Int) ≤ MachineInt.intMax / 2) :
    MachineInt.toInt32 n = n := by
  apply MachineInt.toInt32_of_range
  · omega
  · simp only [MachineInt.intMax] at *
    omega

theorem getlineNewline_newline (h : Held (text ++ [10]) s)
    (hused : s.lenUsed = (text ++ [10]).length) (hlimit : (text.length : Int) ≤ MachineInt.intMax / 2) :
    ∃ r, getlineNewline s = some (some r) ∧ Returns text s.fp r := by
  obtain ⟨rest, hrest⟩ := h.terminated
  rw [List.length_append, List.length_singleton] at hused
  have hlt := h.used_lt
  have hbound : s.lenUsed - 1 + [(0 : Byte)].length ≤ s.lineptr.length := by
    rw [h.extent, hused]
    simp only [List.length_append, List.length_singleton] at hlt ⊢
    omega
  have hlast : s.lineptr[s.lenUsed - 1]? = some 10 := by
    rw [← hrest, hused, Nat.add_sub_cancel]
    simp
  have hret : s.lenUsed - 1 = text.length := by omega
  have hkept : blit s.lineptr text.length [0] = text ++ 0 :: 0 :: rest := by
    rw [← hrest]
    simp [blit]
  have hrun : getlineNewline s = some (some
      { ret := MachineInt.toInt32 (s.lenUsed - 1 : Nat),
        lineptr := some (blit s.lineptr (s.lenUsed - 1) [0]), len := s.len, fp := s.fp }) := by
    simp only [getlineNewline, if_pos (show s.lenUsed > 0 by omega), hlast, Option.bind_eq_bind,
      Option.bind_some, if_pos, store_of_le hbound]
  refine ⟨_, hrun, ?_, ?_, rfl⟩
  · simp only [hret]
    exact toInt32_length hlimit
  · refine ⟨_, rfl, by rw [blit_length hbound, h.extent], ?_⟩
    rw [hret, hkept]
    apply scan_terminated
    · intro hmem
      exact h.nulFree (List.mem_append_left _ hmem)
    · exact ⟨0 :: rest, by simp⟩

theorem getlineNewline_none (h : Held text s) (hused : s.lenUsed = text.length)
    (hne : text ≠ []) (hfree : (10 : Byte) ∉ text) : getlineNewline s = some none := by
  obtain ⟨rest, hrest⟩ := h.terminated
  have hpos := List.length_pos_iff.mpr hne
  have hlast : s.lineptr[s.lenUsed - 1]? = some (text.getLast hne) := by
    rw [← hrest, hused, List.append_assoc, List.getElem?_append_left (by omega),
      List.getLast_eq_getElem, List.getElem?_eq_getElem]
  have hother : text.getLast hne ≠ 10 := by
    intro heq
    exact hfree (heq ▸ List.getLast_mem hne)
  simp only [getlineNewline, if_pos (show s.lenUsed > 0 by omega), hlast, Option.bind_eq_bind,
    Option.bind_some, if_neg hother]

theorem getlineLoop_more (hread : getlineRead A s = some (.ok s'))
    (hnewline : getlineNewline s' = some none) : getlineLoop A s = getlineLoop A s' := by
  rw [getlineLoop]
  split
  · simp_all
  · simp_all
  · rename_i s'' hread'
    rw [hread] at hread'
    cases hread'
    rw [hnewline]

theorem getlineLoop_done {r : GetlineResult} (hread : getlineRead A s = some (.ok s'))
    (hnewline : getlineNewline s' = some (some r)) : getlineLoop A s = some r := by
  rw [getlineLoop]
  split
  · simp_all
  · simp_all
  · rename_i s'' hread'
    rw [hread] at hread'
    cases hread'
    rw [hnewline]

theorem getlineLoop_end {r : GetlineResult} (hread : getlineRead A s = some (.error r)) :
    getlineLoop A s = some r := by
  rw [getlineLoop]
  split
  · simp_all
  · rename_i r' hread'
    rw [hread] at hread'
    cases hread'
    rfl
  · simp_all

theorem getlineLoop_part (hA : A.Succeeds) (h : Held text s) (hfree : (0 : Byte) ∉ s.fp)
    (htext : (10 : Byte) ∉ text) (hline : (10 : Byte) ∉ (gets (maxEntryName - 1) s.fp).1)
    (hne : s.fp ≠ [])
    (hlimit : ((text ++ (gets (maxEntryName - 1) s.fp).1).length : Int) ≤ MachineInt.intMax / 2) :
    ∃ s', getlineLoop A s = getlineLoop A s' ∧ Held (text ++ (gets (maxEntryName - 1) s.fp).1) s' ∧
      s'.fp = (gets (maxEntryName - 1) s.fp).2 := by
  obtain ⟨s', hread⟩ := getlineRead_succeeds hA h hfree hne hlimit
  obtain ⟨hheld, hused⟩ := getlineRead_held h hfree hread
  have hlong : text ++ (gets (maxEntryName - 1) s.fp).1 ≠ [] :=
    List.append_ne_nil_of_right_ne_nil _ (gets_ne_nil 62 hne)
  have hnewline : (10 : Byte) ∉ text ++ (gets (maxEntryName - 1) s.fp).1 := by
    rw [List.mem_append]
    exact not_or.mpr ⟨htext, hline⟩
  exact ⟨s', getlineLoop_more hread (getlineNewline_none hheld hused hlong hnewline), hheld,
    getlineRead_fp hread⟩

theorem drop_shorter {body : List Byte} (h : body ≠ []) :
    (body.drop (maxEntryName - 1)).length < body.length := by
  have := List.length_pos_iff.mpr h
  simp only [maxEntryName, List.length_drop]
  omega

theorem getlineLoop_terminated (hA : A.Succeeds) {body rest : List Byte} (h : Held text s)
    (hfp : s.fp = body ++ 10 :: rest) (hfree : (0 : Byte) ∉ s.fp)
    (hnewline : (10 : Byte) ∉ text ++ body)
    (hlimit : ((text ++ body).length : Int) < MachineInt.intMax / 2) :
    ∃ r, getlineLoop A s = some r ∧ Returns (text ++ body) rest r := by
  have hne : s.fp ≠ [] := by simp [hfp]
  induction hlen : body.length using Nat.strong_induction_on generalizing text s body with
  | _ len ih =>
    rw [List.mem_append, not_or] at hnewline
    have hgets := gets_terminated (n := maxEntryName - 1) hnewline.2 rest
    rw [← hfp] at hgets
    by_cases hshort : body.length + 1 ≤ maxEntryName - 1
    · have hall : (body ++ [10]).take (maxEntryName - 1) = body ++ [10] :=
        List.take_of_length_le (by simpa using hshort)
      have hnone : (body ++ [10]).drop (maxEntryName - 1) = [] :=
        List.drop_of_length_le (by simpa using hshort)
      rw [hall, hnone, List.nil_append] at hgets
      have hsize : ((text ++ (gets (maxEntryName - 1) s.fp).1).length : Int) ≤
          MachineInt.intMax / 2 := by
        rw [hgets]
        simp only [List.length_append, List.length_singleton] at hlimit ⊢
        omega
      obtain ⟨s', hread⟩ := getlineRead_succeeds hA h hfree hne hsize
      obtain ⟨hheld, hused⟩ := getlineRead_held h hfree hread
      rw [hgets, ← List.append_assoc] at hheld hused
      obtain ⟨r, hdone, hret⟩ := getlineNewline_newline hheld hused hlimit.le
      rw [getlineRead_fp hread, hgets] at hret
      exact ⟨r, getlineLoop_done hread hdone, hret⟩
    · have hfirst : (body ++ [10]).take (maxEntryName - 1) = body.take (maxEntryName - 1) :=
        List.take_append_of_le_length (by omega)
      have hafter : (body ++ [10]).drop (maxEntryName - 1) ++ rest =
          body.drop (maxEntryName - 1) ++ 10 :: rest := by
        rw [List.drop_append_of_le_length (by omega), List.append_assoc, List.singleton_append]
      have hsplit := List.take_append_drop (maxEntryName - 1) body
      have hbody : body ≠ [] := by
        rintro rfl
        exact hshort (by decide)
      rw [hfirst, hafter] at hgets
      have hsize : ((text ++ (gets (maxEntryName - 1) s.fp).1).length : Int) ≤
          MachineInt.intMax / 2 := by
        rw [hgets]
        simp only [List.length_append, List.length_take] at hlimit ⊢
        omega
      obtain ⟨s', hrun, hheld, hfp'⟩ := getlineLoop_part hA h hfree hnewline.1
        (by rw [hgets]; exact fun hmem => hnewline.2 (List.mem_of_mem_take hmem)) hne hsize
      have hfree' := (nulFree_gets hfree (maxEntryName - 1)).2.2
      rw [hgets] at hheld
      rw [← hfp', hfp', hgets] at hfree'
      rw [hgets] at hfp'
      have hwhole : text ++ body.take (maxEntryName - 1) ++ body.drop (maxEntryName - 1) =
          text ++ body := by rw [List.append_assoc, hsplit]
      have hnext := ih (body.drop (maxEntryName - 1)).length
        (by rw [← hlen]; exact drop_shorter hbody) hheld hfp'
        (by rw [hfp']; exact hfree') (by rw [hwhole, List.mem_append, not_or]; exact hnewline)
        (by rw [hwhole]; exact hlimit) (by simp [hfp']) rfl
      rwa [← hrun, hwhole] at hnext

theorem getlineLoop_unterminated (hA : A.Succeeds) (h : Held text s) (hfree : (0 : Byte) ∉ s.fp)
    (hnewline : (10 : Byte) ∉ text ++ s.fp)
    (hlimit : ((text ++ s.fp).length : Int) < MachineInt.intMax / 2) :
    ∃ r, getlineLoop A s = some r ∧ Returns (text ++ s.fp) [] r := by
  induction hlen : s.fp.length using Nat.strong_induction_on generalizing text s with
  | _ len ih =>
    by_cases hne : s.fp = []
    · refine ⟨_, getlineLoop_end (getlineRead_end h hne), ?_, ?_, rfl⟩
      · rw [hne, List.append_nil] at hlimit ⊢
        simp only [toInt32_length hlimit.le]
      · rw [hne, List.append_nil]
        exact ⟨_, rfl, h.extent, scan_terminated h.nulFree h.terminated⟩
    · rw [List.mem_append, not_or] at hnewline
      have hgets := gets_newline_free (n := maxEntryName - 1) hnewline.2
      have hsplit := List.take_append_drop (maxEntryName - 1) s.fp
      have hsize : ((text ++ (gets (maxEntryName - 1) s.fp).1).length : Int) ≤
          MachineInt.intMax / 2 := by
        rw [hgets]
        simp only [List.length_append, List.length_take] at hlimit ⊢
        omega
      obtain ⟨s', hrun, hheld, hfp⟩ := getlineLoop_part hA h hfree hnewline.1
        (by rw [hgets]; exact fun hmem => hnewline.2 (List.mem_of_mem_take hmem)) hne hsize
      rw [hgets] at hheld hfp
      have hwhole : text ++ s.fp.take (maxEntryName - 1) ++ s'.fp = text ++ s.fp := by
        rw [hfp, List.append_assoc, hsplit]
      have hnext := ih s'.fp.length
        (by rw [hfp, ← hlen]; exact drop_shorter hne) hheld (by rw [hfp]; exact fun hmem => hfree (List.mem_of_mem_drop hmem))
        (by rw [hwhole, List.mem_append, not_or]; exact hnewline)
        (by rw [hwhole]; exact hlimit) rfl
      rwa [← hrun, hwhole] at hnext

end Step

def GetlineStart (A : Allocator) (fp : List Byte) (s : GetlineState) : Prop :=
  ∃ area lineptr, A.malloc maxEntryName = some area ∧ store area 0 [0] = some lineptr ∧
    s = { len := maxEntryName, lineptr := lineptr, lenUsed := 0, fp := fp }

def GetlineGoesOn (A : Allocator) (s s' : GetlineState) : Prop :=
  getlineNewline s = some none ∧ getlineRead A s = some (.ok s')

def GetlineReaches (A : Allocator) (fp : List Byte) (s : GetlineState) : Prop :=
  ∃ start, GetlineStart A fp start ∧ Relation.ReflTransGen (GetlineGoesOn A) start s

structure GetlineInv (fp text : List Byte) (s : GetlineState) : Prop where
  held : Held text s
  used : s.lenUsed = text.length
  position : text ++ s.fp = fp

section Calls
variable {A : Allocator} {fp : List Byte} {s s' : GetlineState}

theorem malloc_start {area : List Byte} (h : A.malloc maxEntryName = some area) :
    ∃ lineptr, store area 0 [0] = some lineptr ∧ GetlineInv fp []
      { len := maxEntryName, lineptr := lineptr, lenUsed := 0, fp := fp } := by
  have hlen := A.malloc_length h
  have hbound : 0 + [(0 : Byte)].length ≤ area.length := by
    rw [hlen]
    decide
  refine ⟨_, store_of_le hbound, ⟨?_, List.not_mem_nil, ?_, le_rfl⟩, rfl, rfl⟩
  · simp only [blit, List.take_zero, List.nil_append]
    exact List.prefix_append _ _
  · rw [blit_length hbound, hlen]

theorem GetlineStart.inv (h : GetlineStart A fp s) : GetlineInv fp [] s := by
  obtain ⟨area, lineptr, hmalloc, hstore, rfl⟩ := h
  obtain ⟨lineptr', hstore', hinv⟩ := @malloc_start _ fp _ hmalloc
  rw [hstore, Option.some.injEq] at hstore'
  rw [hstore']
  exact hinv

theorem GetlineGoesOn.inv {text : List Byte} (hfree : (0 : Byte) ∉ fp)
    (h : GetlineGoesOn A s s') (hinv : GetlineInv fp text s) :
    GetlineInv fp (text ++ (gets (maxEntryName - 1) s.fp).1) s' := by
  have hrest : (0 : Byte) ∉ s.fp := by
    rw [← hinv.position, List.mem_append, not_or] at hfree
    exact hfree.2
  obtain ⟨hheld, hused⟩ := getlineRead_held hinv.held hrest h.2
  refine ⟨hheld, hused, ?_⟩
  rw [getlineRead_fp h.2, List.append_assoc, gets_append, hinv.position]

theorem GetlineReaches.inv (hfree : (0 : Byte) ∉ fp) (h : GetlineReaches A fp s) :
    ∃ text, GetlineInv fp text s := by
  obtain ⟨start, hstart, hrun⟩ := h
  induction hrun with
  | refl => exact ⟨[], hstart.inv⟩
  | tail _ hstep ih =>
    obtain ⟨text, hinv⟩ := ih
    exact ⟨_, hstep.inv hfree hinv⟩

theorem getline_line {line : List Byte} {more : List (List Byte)} (hA : A.Succeeds)
    (hfree : (0 : Byte) ∉ fp) (hlines : physicalLines fp = line :: more)
    (hlimit : ((lineContent line).length : Int) < MachineInt.intMax / 2) :
    ∃ r, getline A fp = some r ∧ Returns (lineContent line) more.flatten r := by
  rcases hmalloc : A.malloc maxEntryName with _ | area
  · exact absurd hmalloc (hA.malloc _)
  · obtain ⟨lineptr, hstore, hinv⟩ := @malloc_start _ fp _ hmalloc
    have hcall : getline A fp = getlineLoop A
        { len := maxEntryName, lineptr := lineptr, lenUsed := 0, fp := fp } := by
      simp only [getline, hmalloc, hstore, Option.bind_eq_bind, Option.bind_some]
    rw [hcall]
    rcases text_cases fp with ⟨_, hnone⟩ | ⟨_, hnewline, hlast⟩ |
      ⟨body, rest, hbody, hfp, _, hfirst⟩
    · rw [hlines] at hnone
      cases hnone
    · rw [hlines] at hlast
      cases hlast
      rw [lineContent_newline_free hnewline] at hlimit ⊢
      have hrun := getlineLoop_unterminated hA hinv.held hfree
        (by rwa [List.nil_append]) (by rwa [List.nil_append])
      rwa [List.nil_append] at hrun
    · rw [hlines] at hfirst
      cases hfirst
      rw [lineContent_terminated hbody] at hlimit ⊢
      have hrun := getlineLoop_terminated hA hinv.held hfp hfree (by rwa [List.nil_append])
        (by rwa [List.nil_append])
      rw [List.nil_append] at hrun
      rwa [physicalLines_flatten]

end Calls

def getlineStream (A : Nat → Allocator) (fp : List Byte) : Nat → Option (List Byte)
  | 0 => some fp
  | n + 1 => do
    let fp ← getlineStream A fp n
    let r ← getline (A n) fp
    some r.fp

theorem nulFree_lines {text : List Byte} (hfree : (0 : Byte) ∉ text) (n : Nat) :
    (0 : Byte) ∉ ((physicalLines text).drop n).flatten := by
  intro hmem
  obtain ⟨line, hline, hzero⟩ := List.mem_flatten.mp hmem
  apply hfree
  rw [← physicalLines_flatten text]
  exact List.mem_flatten.mpr ⟨line, List.mem_of_mem_drop hline, hzero⟩

theorem getlineStream_lines {A : Nat → Allocator} (hA : ∀ n, (A n).Succeeds) {text : List Byte}
    (hfree : (0 : Byte) ∉ text)
    (hlimit : ∀ line ∈ physicalLines text,
      ((lineContent line).length : Int) < MachineInt.intMax / 2) {n : Nat}
    (hn : n ≤ (physicalLines text).length) :
    getlineStream A text n = some ((physicalLines text).drop n).flatten := by
  induction n with
  | zero => rw [getlineStream, List.drop_zero, physicalLines_flatten]
  | succ n ih =>
    have hcut := List.drop_eq_getElem_cons (show n < (physicalLines text).length by omega)
    obtain ⟨r, hrun, hret⟩ := getline_line (hA n) (nulFree_lines hfree n)
      ((physicalLines_drop text n).trans hcut) (hlimit _ (List.getElem_mem _))
    simp only [getlineStream, ih (by omega), Option.bind_eq_bind, Option.bind_some, hrun, hret.fp]

theorem getline_nth_line (A : Nat → Allocator) (hA : ∀ n, (A n).Succeeds) (text : List Byte)
    (hfree : (0 : Byte) ∉ text)
    (hlimit : ∀ line ∈ physicalLines text,
      ((lineContent line).length : Int) < MachineInt.intMax / 2)
    (n : Nat) (line : List Byte) (hline : (physicalLines text)[n]? = some line) :
    ∃ fp r, getlineStream A text n = some fp ∧ getline (A n) fp = some r ∧
      text = ((physicalLines text).take n).flatten ++ fp ∧ fp = line ++ r.fp ∧
      r.ret = (lineContent line).length ∧
      (∃ area, r.lineptr = some area ∧ area.length = r.len ∧
        scan 0 area 0 = some (lineContent line)) ∧
      ∀ s, GetlineReaches (A n) fp s →
        s.lenUsed + 1 ≤ s.len ∧ s.lineptr.length = s.len ∧
          ∃ used, scan 0 s.lineptr 0 = some used ∧ used.length = s.lenUsed := by
  obtain ⟨hn, hget⟩ := List.getElem?_eq_some_iff.mp hline
  have hcut := List.drop_eq_getElem_cons hn
  rw [hget] at hcut
  have hstream := getlineStream_lines hA hfree hlimit hn.le
  obtain ⟨r, hrun, hret⟩ := getline_line (hA n) (nulFree_lines hfree n)
    ((physicalLines_drop text n).trans hcut) (hlimit line (List.mem_of_getElem? hline))
  refine ⟨_, r, hstream, hrun, ?_, ?_, hret.ret, hret.text, ?_⟩
  · rw [← List.flatten_append, List.take_append_drop, physicalLines_flatten]
  · rw [hcut, List.flatten_cons, hret.fp]
  · intro s hs
    obtain ⟨used, hinv⟩ := hs.inv (nulFree_lines hfree n)
    refine ⟨?_, hinv.held.extent, used, ?_, hinv.used.symm⟩
    · rw [hinv.used]
      exact hinv.held.used_lt
    · exact scan_terminated hinv.held.nulFree hinv.held.terminated

def zeroedAllocator : Allocator where
  malloc n := some (List.replicate n 0)
  realloc old n := some (old.take n ++ List.replicate (n - old.length) 0)
  malloc_length := by
    intro n area h
    cases h
    exact List.length_replicate
  realloc_length := by
    intro old n area h
    cases h
    simp only [List.length_append, List.length_take, List.length_replicate]
    omega
  realloc_keeps := by
    intro old n area h hle
    cases h
    rw [List.take_of_length_le hle]
    exact List.prefix_append _ _

theorem zeroedAllocator_succeeds : zeroedAllocator.Succeeds := ⟨nofun, nofun⟩

def threeLines : List Byte := [97, 10] ++ (List.replicate 70 98 ++ 10 :: [99])

theorem getline_nth_line_second :
    ∃ fp r, getlineStream (fun _ => zeroedAllocator) threeLines 1 = some fp ∧
      getline zeroedAllocator fp = some r ∧ r.ret = 70 ∧ r.fp = [99] ∧
      ∃ area, r.lineptr = some area ∧ area.length = r.len ∧
        scan 0 area 0 = some (List.replicate 70 98) := by
  obtain ⟨fp, r, hstream, hrun, htext, hfp, hret, harea, -⟩ :=
    getline_nth_line (fun _ => zeroedAllocator) (fun _ => zeroedAllocator_succeeds) threeLines
      (by decide +kernel) (by decide +kernel) 1 (List.replicate 70 98 ++ [10]) (by decide +kernel)
  have hfp' : List.replicate 70 98 ++ 10 :: [99] = fp :=
    List.append_cancel_left (show [97, 10] ++ _ = [97, 10] ++ fp from htext)
  have hrest : [99] = r.fp := by
    rw [← hfp'] at hfp
    exact List.append_cancel_left (show (List.replicate 70 98 ++ [10]) ++ [99] = _ from hfp)
  exact ⟨fp, r, hstream, hrun, hret, hrest.symm, harea⟩

end WolfCLU.GetLine
