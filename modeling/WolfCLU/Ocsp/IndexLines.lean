import WolfCLU.Ocsp.IndexFile

namespace WolfCLU.Ocsp
open CString TextLine Chunks

def located : Nat → List (List Byte) → List (Nat × List Byte)
  | _, [] => []
  | off, text :: texts => (off, text) :: located (off + text.length) texts

theorem located_append (off : Nat) (xs ys : List (List Byte)) :
    located off (xs ++ ys) = located off xs ++ located (off + xs.flatten.length) ys := by
  induction xs generalizing off with
  | nil => simp [located]
  | cons x xs ih => simp [located, ih, Nat.add_assoc]

theorem located_snd (off : Nat) (texts : List (List Byte)) :
    (located off texts).map Prod.snd = texts := by
  induction texts generalizing off with
  | nil => rfl
  | cons text texts ih => simp [located, ih]

theorem located_bounds {off : Nat} {texts : List (List Byte)} {p : Nat × List Byte}
    (h : p ∈ located off texts) : off ≤ p.1 ∧ p.1 + p.2.length ≤ off + texts.flatten.length := by
  induction texts generalizing off with
  | nil => cases h
  | cons text texts ih =>
    simp only [located, List.mem_cons, List.flatten_cons, List.length_append] at h ⊢
    rcases h with rfl | h
    · simp
    · have := ih h
      omega

theorem located_flatMap (split : List Byte → List (List Byte))
    (hsplit : ∀ text, (split text).flatten = text) (off : Nat) (texts : List (List Byte)) :
    located off (texts.flatMap split) =
      (located off texts).flatMap fun p => located p.1 (split p.2) := by
  induction texts generalizing off with
  | nil => rfl
  | cons text texts ih =>
    rw [List.flatMap_cons, located_append, hsplit, ih]
    rfl

theorem located_flatMap_eq_iff {β : Type} {f g : Nat × List Byte → List (Nat × β)} {off : Nat}
    {texts : List (List Byte)}
    (hf : ∀ p ∈ located off texts, ∀ x ∈ f p, p.1 ≤ x.1 ∧ x.1 < p.1 + p.2.length)
    (hg : ∀ p ∈ located off texts, ∀ x ∈ g p, p.1 ≤ x.1 ∧ x.1 < p.1 + p.2.length) :
    (located off texts).flatMap f = (located off texts).flatMap g ↔
      ∀ p ∈ located off texts, f p = g p := by
  induction texts generalizing off with
  | nil => simp [located]
  | cons text texts ih =>
    simp only [located, List.flatMap_cons, List.forall_mem_cons] at hf hg ⊢
    have hlater {h : Nat × List Byte → List (Nat × β)}
        (hh : ∀ p ∈ located (off + text.length) texts, ∀ x ∈ h p,
          p.1 ≤ x.1 ∧ x.1 < p.1 + p.2.length) :
        ∀ x ∈ (located (off + text.length) texts).flatMap h, ¬ x.1 < off + text.length := by
      intro x hx
      obtain ⟨p, hp, hxp⟩ := List.mem_flatMap.mp hx
      have := (located_bounds hp).1
      have := (hh p hp x hxp).1
      omega
    have hcut {h : Nat × List Byte → List (Nat × β)}
        (hhere : ∀ x ∈ h (off, text), off ≤ x.1 ∧ x.1 < off + text.length)
        (hh : ∀ p ∈ located (off + text.length) texts, ∀ x ∈ h p,
          p.1 ≤ x.1 ∧ x.1 < p.1 + p.2.length) :
        (h (off, text) ++ (located (off + text.length) texts).flatMap h).filter
          (fun x => decide (x.1 < off + text.length)) = h (off, text) := by
      rw [List.filter_append, List.filter_eq_self.mpr fun x hx => by simpa using (hhere x hx).2,
        List.filter_eq_nil_iff.mpr fun x hx => by simpa using hlater hh x hx, List.append_nil]
    rw [← ih hf.2 hg.2]
    constructor
    · intro heq
      have hhead := congrArg (List.filter fun x => decide (x.1 < off + text.length)) heq
      rw [hcut hf.1 hf.2, hcut hg.1 hg.2] at hhead
      rw [hhead] at heq
      exact ⟨hhead, List.append_cancel_left heq⟩
    · rintro ⟨hhead, htail⟩
      rw [hhead, htail]

section Entries
variable (mktime : Tm → Int)

def lineFields (line : List Byte) : List (List Byte) := strsep 9 (cstr line)

def ownFields (line : List Byte) : List (List Byte) := strsep 9 line

def revocationTime (field : List Byte) : Int :=
  if field.headD 0 ≠ 0 ∧ field.length ≥ 12 then mktime (fieldTime field) else 0

def recordOf : List (List Byte) → Option IndexEntry
  | status :: _ :: revocation :: serial :: _ =>
    if serial = [] ∨ serialCapacity < serial.length then none
    else if status.headD 0 = 82 ∧ revocationTime mktime revocation = -1 then none
    else some ⟨status.headD 0, revocationTime mktime revocation, serial⟩
  | _ => none

def Blank (line : List Byte) : Prop := line.headD 0 = 10 ∨ line.headD 0 = 13 ∨ line.headD 0 = 0

instance (line : List Byte) : Decidable (Blank line) :=
  inferInstanceAs (Decidable (_ ∨ _ ∨ _))

theorem fieldLoop_rest (fields : List (List Byte)) (fieldNum : Nat) (entry : IndexEntry)
    (h : 4 ≤ fieldNum) :
    4 ≤ (fieldLoop mktime fields fieldNum entry).1 ∧
      (fieldLoop mktime fields fieldNum entry).2 = entry := by
  induction fields generalizing fieldNum with
  | nil => exact ⟨h, rfl⟩
  | cons field fields ih =>
    obtain ⟨k, rfl⟩ := Nat.exists_eq_add_of_le' h
    simp only [fieldLoop, assignField]
    split
    · exact ih _ (by omega)
    · exact ⟨h, rfl⟩

theorem fieldLoop_record (fields : List (List Byte)) :
    (let (fieldNum, entry) := fieldLoop mktime fields 0 ⟨0, 0, []⟩
      if fieldNum < 4 ∨ entry.serial = [] then none
      else if entry.status = 82 ∧ entry.revocationTime = -1 then none
      else some entry) = recordOf mktime fields := by
  match fields with
  | [] => simp [fieldLoop, recordOf]
  | [_] => simp [fieldLoop, recordOf]
  | [_, _] => simp [fieldLoop, recordOf]
  | [_, _, _] => simp [fieldLoop, recordOf]
  | status :: expiration :: revocation :: serial :: more =>
    obtain ⟨hnum, hentry⟩ := fieldLoop_rest mktime more 4
      (assignField mktime 3 serial (assignField mktime 2 revocation
        (assignField mktime 1 expiration (assignField mktime 0 status ⟨0, 0, []⟩)))) le_rfl
    simp only [fieldLoop, Nat.reduceLT, if_true, Nat.reduceAdd, Nat.zero_add, recordOf]
    generalize fieldLoop mktime more 4 _ = out at *
    obtain ⟨num, entry⟩ := out
    simp only at hnum hentry
    subst hentry
    have hnum4 : ¬ num < 4 := by omega
    have hunread : assignField mktime 2 revocation (assignField mktime 1 expiration
        (assignField mktime 0 status ⟨0, 0, []⟩)) =
          ⟨status.headD 0, revocationTime mktime revocation, []⟩ := by
      simp only [assignField, revocationTime]
      split <;> rfl
    simp only [hunread, hnum4, false_or]
    by_cases hlong : serial.length > serialCapacity
    · simp [assignField, hlong]
    · simp [assignField, hlong]

theorem parseLine_eq (line : List Byte) :
    parseLine mktime line = if Blank line then none else recordOf mktime (lineFields line) :=
  congrArg (fun entry => if Blank line then none else entry)
    (fieldLoop_record mktime (lineFields line))

theorem parseLines_eq (lines : List (List Byte)) (entries : List IndexEntry) :
    parseLines mktime lines entries = entries ++ lines.filterMap (parseLine mktime) := by
  induction lines generalizing entries with
  | nil => simp [parseLines]
  | cons line lines ih =>
    rw [parseLines]
    cases hline : parseLine mktime line with
    | none => simp [ih, hline]
    | some entry => simp [ih, hline]

def readEntries (text : List Byte) : List (Nat × IndexEntry) :=
  (located 0 (fgetsAll (lineBufferSz - 1) text)).filterMap fun p =>
    (parseLine mktime p.2).map (p.1, ·)

theorem readEntries_snd (text : List Byte) :
    (readEntries mktime text).map Prod.snd = parseIndexFile mktime (some text) := by
  have hmap : (readEntries mktime text).map Prod.snd =
      ((located 0 (fgetsAll (lineBufferSz - 1) text)).map Prod.snd).filterMap (parseLine mktime) := by
    simp [readEntries, List.map_filterMap, List.filterMap_map, Function.comp_def, Option.map_map]
  rw [hmap, located_snd, parseIndexFile, parseLines_eq, List.nil_append]

def lineEntries (text : List Byte) : List (Nat × IndexEntry) :=
  (located 0 (physicalLines text)).filterMap fun p =>
    (recordOf mktime (ownFields (lineContent p.2))).map (p.1, ·)

def FormRecord (fields : List (List Byte)) : Prop :=
  match fields with
  | status :: _ :: revocation :: serial :: _ =>
    serial ≠ [] ∧ serial.length ≤ serialCapacity ∧
      (status.headD 0 = 82 → revocationTime mktime revocation ≠ -1)
  | _ => False

def IsRecord (text : List Byte) : Prop := FormRecord mktime (lineFields text)

def OwnRecord (text : List Byte) : Prop := FormRecord mktime (ownFields text)

structure ReadWhole (line : List Byte) : Prop where
  head : ¬ Blank line ∧ IsRecord mktime (line.take (lineBufferSz - 1)) ↔
    OwnRecord mktime (lineContent line)
  serial : OwnRecord mktime (lineContent line) →
    (lineFields (line.take (lineBufferSz - 1)))[3]? = (ownFields (lineContent line))[3]?
  rest : ∀ piece ∈ chunks (lineBufferSz - 1) (line.drop (lineBufferSz - 1)),
    Blank piece ∨ ¬ IsRecord mktime piece

variable {mktime}

theorem recordOf_eq_none {fields : List (List Byte)} :
    recordOf mktime fields = none ↔ ¬ FormRecord mktime fields := by
  simp only [FormRecord, recordOf]
  split
  · rename_i status _ revocation serial _
    by_cases hserial : serial = [] ∨ serialCapacity < serial.length
    · rw [if_pos hserial]
      refine iff_of_true rfl ?_
      rintro ⟨hne, hlen, _⟩
      exact hserial.elim hne (by omega)
    · obtain ⟨hne, hlen⟩ := not_or.mp hserial
      rw [if_neg hserial]
      by_cases hinvalid : status.headD 0 = 82 ∧ revocationTime mktime revocation = -1
      · rw [if_pos hinvalid]
        exact iff_of_true rfl fun h => h.2.2 hinvalid.1 hinvalid.2
      · rw [if_neg hinvalid]
        refine iff_of_false (by simp) (not_not.mpr ⟨hne, by omega, fun hr ht => hinvalid ⟨hr, ht⟩⟩)
  · exact iff_of_true rfl not_false

theorem record_fields {fields : List (List Byte)} (h : FormRecord mktime fields) :
    ∃ status expiration revocation serial more,
      fields = status :: expiration :: revocation :: serial :: more ∧
      recordOf mktime fields = some ⟨status.headD 0, revocationTime mktime revocation, serial⟩ := by
  simp only [FormRecord] at h
  split at h
  · rename_i status expiration revocation serial more
    obtain ⟨hne, hlen, hvalid⟩ := h
    refine ⟨status, expiration, revocation, serial, more, rfl, ?_⟩
    have hserial : ¬ (serial = [] ∨ serialCapacity < serial.length) := by
      rw [not_or]
      exact ⟨hne, by omega⟩
    rw [recordOf, if_neg hserial, if_neg fun hr => hvalid hr.1 hr.2]
  · cases h

theorem record_prefix {s t : List Byte} (hpre : s <+: t)
    {status expiration revocation serial : List Byte} {more : List (List Byte)}
    (h : ownFields s = status :: expiration :: revocation :: serial :: more) :
    ∃ serial' more', ownFields t = status :: expiration :: revocation :: serial' :: more' := by
  obtain ⟨s1, t1, h1, hpre1, ht⟩ := strsep_prefix h hpre
  obtain ⟨s2, t2, h2, hpre2, ht1⟩ := strsep_prefix h1 hpre1
  obtain ⟨s3, t3, _, _, ht2⟩ := strsep_prefix h2 hpre2
  obtain ⟨serial', more', ht3⟩ := List.exists_cons_of_ne_nil (strsep_ne_nil 9 t3)
  refine ⟨serial', more', ?_⟩
  rw [ownFields, ht, ht1, ht2, ht3]

theorem record_agrees {s t : List Byte} (hpre : s <+: t ∨ t <+: s) (hs : OwnRecord mktime s)
    (ht : OwnRecord mktime t) :
    recordOf mktime (ownFields s) = recordOf mktime (ownFields t) ↔
      (ownFields s)[3]? = (ownFields t)[3]? := by
  obtain ⟨status, expiration, revocation, serial, more, hfs, hrs⟩ := record_fields hs
  obtain ⟨status', expiration', revocation', serial', more', hft, hrt⟩ := record_fields ht
  have hagree : status = status' ∧ revocation = revocation' := by
    rcases hpre with hpre | hpre
    · obtain ⟨_, _, hft'⟩ := record_prefix hpre hfs
      rw [hft] at hft'
      simp only [List.cons.injEq] at hft'
      exact ⟨hft'.1.symm, hft'.2.2.1.symm⟩
    · obtain ⟨_, _, hfs'⟩ := record_prefix hpre hft
      rw [hfs] at hfs'
      simp only [List.cons.injEq] at hfs'
      exact ⟨hfs'.1, hfs'.2.2.1⟩
  obtain ⟨rfl, rfl⟩ := hagree
  rw [hrs, hrt, hfs, hft]
  simp

theorem prefix_lineContent (line : List Byte) : lineContent line <+: line :=
  List.takeWhile_prefix _

theorem blank_take {line : List Byte} {n : Nat} (hn : 0 < n) :
    Blank (line.take n) ↔ Blank line := by
  obtain ⟨m, rfl⟩ := Nat.exists_eq_succ_of_ne_zero (Nat.pos_iff_ne_zero.mp hn)
  cases line with
  | nil => rfl
  | cons c line => rfl

theorem parseLine_eq_none {line : List Byte} :
    parseLine mktime line = none ↔ Blank line ∨ ¬ IsRecord mktime line := by
  rw [parseLine_eq]
  by_cases hblank : Blank line
  · rw [if_pos hblank]
    exact iff_of_true rfl (.inl hblank)
  · rw [if_neg hblank, recordOf_eq_none, or_iff_right hblank, IsRecord]

theorem parse_head_iff (line : List Byte) :
    parseLine mktime (line.take (lineBufferSz - 1)) =
        recordOf mktime (ownFields (lineContent line)) ↔
      (¬ Blank line ∧ IsRecord mktime (line.take (lineBufferSz - 1)) ↔
        OwnRecord mktime (lineContent line)) ∧
      (OwnRecord mktime (lineContent line) →
        (lineFields (line.take (lineBufferSz - 1)))[3]? = (ownFields (lineContent line))[3]?) := by
  have hpre : cstr (line.take (lineBufferSz - 1)) <+: lineContent line ∨
      lineContent line <+: cstr (line.take (lineBufferSz - 1)) :=
    List.prefix_or_prefix_of_prefix ((List.takeWhile_prefix _).trans (List.take_prefix _ _))
      (prefix_lineContent line)
  by_cases hwhole : OwnRecord mktime (lineContent line)
  · simp only [hwhole, iff_true, forall_const]
    by_cases hhead : ¬ Blank line ∧ IsRecord mktime (line.take (lineBufferSz - 1))
    · rw [parseLine_eq, if_neg fun h => hhead.1 ((blank_take (by decide)).mp h)]
      simp only [hhead.1, hhead.2, not_false_eq_true, and_self, true_and]
      exact record_agrees hpre hhead.2 hwhole
    · have hnone : parseLine mktime (line.take (lineBufferSz - 1)) = none := by
        rw [parseLine_eq_none, blank_take (by decide)]
        tauto
      obtain ⟨_, _, _, _, _, _, hsome⟩ := record_fields hwhole
      rw [hnone, hsome]
      simp [hhead]
  · rw [recordOf_eq_none.mpr hwhole, parseLine_eq_none, blank_take (by decide)]
    simp only [hwhole, iff_false, false_implies, and_true]
    tauto

theorem strsep_unended {s field next : List Byte} {fields : List (List Byte)}
    (h : strsep 9 (s ++ [10]) = field :: next :: fields) :
    ∃ rest, strsep 9 s = field :: strsep 9 rest ∧ strsep 9 (rest ++ [10]) = next :: fields := by
  obtain ⟨rest, hsplit, hfield, hrest⟩ := strsep_cons h
  rcases List.eq_nil_or_concat rest with rfl | ⟨rest', c, rfl⟩
  · have hlast := congrArg List.getLast? hsplit
    simp at hlast
  · rw [List.concat_eq_append] at hsplit hrest
    have hsplit' : s ++ [10] = (field ++ 9 :: rest') ++ [c] := by simpa using hsplit
    obtain ⟨rfl, hc⟩ := List.append_inj' hsplit' rfl
    obtain rfl : (10 : Byte) = c := by simpa using hc
    exact ⟨rest', strsep_delimited hfield rest', hrest⟩

theorem ownFields_unended {line : List Byte} (h : IsLine line)
    {a b c d e : List Byte} {more : List (List Byte)}
    (hfields : ownFields line = a :: b :: c :: d :: e :: more) :
    ∃ e' more', ownFields (lineContent line) = a :: b :: c :: d :: e' :: more' := by
  rcases h.2 with hline | hline
  · exact ⟨e, more, by rw [← hline, hfields]⟩
  · generalize lineContent line = content at hline ⊢
    subst hline
    rw [ownFields] at hfields ⊢
    obtain ⟨r1, h1, hfields⟩ := strsep_unended hfields
    obtain ⟨r2, h2, hfields⟩ := strsep_unended hfields
    obtain ⟨r3, h3, hfields⟩ := strsep_unended hfields
    obtain ⟨r4, h4, _⟩ := strsep_unended hfields
    obtain ⟨e', more', h5⟩ := List.exists_cons_of_ne_nil (strsep_ne_nil 9 r4)
    exact ⟨e', more', by rw [h1, h2, h3, h4, h5]⟩

theorem readWhole_of_fits {line : List Byte} (h : IsLine line)
    (hlen : line.length ≤ lineBufferSz - 1) (hblank : ¬ Blank line) (hnul : (0 : Byte) ∉ line)
    (hfields : 5 ≤ (ownFields line).length) : ReadWhole mktime line := by
  have htake : line.take (lineBufferSz - 1) = line := List.take_of_length_le hlen
  have hdrop : line.drop (lineBufferSz - 1) = [] := List.drop_of_length_le hlen
  have hread : lineFields line = ownFields line := by
    rw [lineFields, cstr_of_nul_free hnul, ownFields]
  match hsplit : ownFields line with
  | a :: b :: c :: d :: e :: more =>
    obtain ⟨e', more', hcontent⟩ := ownFields_unended h hsplit
    refine ⟨?_, ?_, ?_⟩
    · rw [htake, IsRecord, OwnRecord, hread, hsplit, hcontent]
      exact and_iff_right hblank
    · intro _
      rw [htake, hread, hsplit, hcontent]
      rfl
    · rw [hdrop, chunks_nil]
      simp
  | [] | [_] | [_, _] | [_, _, _] | [_, _, _, _] =>
    rw [hsplit] at hfields
    simp at hfields

def bufferedEntries (mktime : Tm → Int) (p : Nat × List Byte) : List (Nat × IndexEntry) :=
  (located p.1 (chunks (lineBufferSz - 1) p.2)).filterMap fun q =>
    (parseLine mktime q.2).map (q.1, ·)

def wholeEntry (mktime : Tm → Int) (p : Nat × List Byte) : List (Nat × IndexEntry) :=
  ((recordOf mktime (ownFields (lineContent p.2))).map (p.1, ·)).toList

theorem chunk_ne_nil {n : Nat} {xs piece : List Byte} (h : piece ∈ chunks n xs) : piece ≠ [] := by
  rcases Nat.eq_zero_or_pos n with rfl | hn
  · rw [chunks, if_pos (Or.inl rfl)] at h
    cases h
  · induction xs using chunks_induct hn with
    | nil =>
      rw [chunks_nil] at h
      cases h
    | more xs hne ih =>
      rw [chunks_of_ne hn hne, List.mem_cons] at h
      rcases h with rfl | h
      · have := List.length_pos_iff.mpr hne
        rw [← List.length_pos_iff, List.length_take]
        omega
      · exact ih h

theorem bufferedEntries_bounds (p : Nat × List Byte) :
    ∀ x ∈ bufferedEntries mktime p, p.1 ≤ x.1 ∧ x.1 < p.1 + p.2.length := by
  intro x hx
  obtain ⟨q, hq, hparse⟩ := List.mem_filterMap.mp hx
  obtain ⟨entry, _, rfl⟩ := Option.map_eq_some_iff.mp hparse
  obtain ⟨hlow, hhigh⟩ := located_bounds hq
  rw [flatten_chunks (by decide)] at hhigh
  have hpiece : q.2 ∈ chunks (lineBufferSz - 1) p.2 := by
    rw [← located_snd p.1 (chunks _ _)]
    exact List.mem_map_of_mem hq
  have := List.length_pos_iff.mpr (chunk_ne_nil hpiece)
  dsimp only
  omega

theorem wholeEntry_bounds {p : Nat × List Byte} (h : p.2 ≠ []) :
    ∀ x ∈ wholeEntry mktime p, p.1 ≤ x.1 ∧ x.1 < p.1 + p.2.length := by
  intro x hx
  obtain ⟨entry, _, rfl⟩ := Option.map_eq_some_iff.mp (Option.mem_toList.mp hx)
  have := List.length_pos_iff.mpr h
  dsimp only
  omega

theorem bufferedEntries_cons {off : Nat} {line : List Byte} (h : line ≠ []) :
    bufferedEntries mktime (off, line) =
      ((parseLine mktime (line.take (lineBufferSz - 1))).map (off, ·)).toList ++
        (located (off + (line.take (lineBufferSz - 1)).length)
          (chunks (lineBufferSz - 1) (line.drop (lineBufferSz - 1)))).filterMap fun q =>
            (parseLine mktime q.2).map (q.1, ·) := by
  simp only [bufferedEntries]
  rw [chunks_of_ne (by decide) h]
  simp only [located, List.filterMap_cons]
  cases parseLine mktime (line.take (lineBufferSz - 1)) with
  | none => rfl
  | some entry => rfl

theorem pieces_unread (off : Nat) {pieces : List (List Byte)} :
    ((located off pieces).filterMap fun q => (parseLine mktime q.2).map (q.1, ·)) = [] ↔
      ∀ piece ∈ pieces, Blank piece ∨ ¬ IsRecord mktime piece := by
  induction pieces generalizing off with
  | nil => simp [located]
  | cons piece pieces ih =>
    rw [List.forall_mem_cons, ← ih (off + piece.length), ← parseLine_eq_none, located,
      List.filterMap_cons]
    cases parseLine mktime piece with
    | none => simp only [Option.map_none, true_and]
    | some entry => simp

theorem line_iff {off : Nat} {line : List Byte} (h : line ≠ []) :
    bufferedEntries mktime (off, line) = wholeEntry mktime (off, line) ↔
      ReadWhole mktime line := by
  have hpos : 0 < (line.take (lineBufferSz - 1)).length := by
    have := List.length_pos_iff.mpr h
    rw [List.length_take, lineBufferSz]
    omega
  have hlabel {x y : Option IndexEntry} :
      (x.map (off, ·)).toList = (y.map (off, ·)).toList ↔ x = y := by
    cases x <;> cases y <;> simp
  have hread : ReadWhole mktime line ↔
      parseLine mktime (line.take (lineBufferSz - 1)) =
          recordOf mktime (ownFields (lineContent line)) ∧
        ∀ piece ∈ chunks (lineBufferSz - 1) (line.drop (lineBufferSz - 1)),
          Blank piece ∨ ¬ IsRecord mktime piece := by
    rw [parse_head_iff]
    exact ⟨fun h => ⟨⟨h.head, h.serial⟩, h.rest⟩, fun h => ⟨h.1.1, h.1.2, h.2⟩⟩
  rw [hread, bufferedEntries_cons h, wholeEntry,
    ← pieces_unread (off + (line.take (lineBufferSz - 1)).length), ← hlabel]
  constructor
  · intro heq
    have hnone : ∀ q ∈ (located (off + (line.take (lineBufferSz - 1)).length)
        (chunks (lineBufferSz - 1) (line.drop (lineBufferSz - 1)))).filterMap
          (fun q => (parseLine mktime q.2).map (q.1, ·)), False := by
      intro q hq
      have hmem := heq ▸ List.mem_append_right _ hq
      obtain ⟨_, _, hwhole⟩ := Option.map_eq_some_iff.mp (Option.mem_toList.mp hmem)
      obtain ⟨r, hr, hparse⟩ := List.mem_filterMap.mp hq
      obtain ⟨_, _, rfl⟩ := Option.map_eq_some_iff.mp hparse
      have := (located_bounds hr).1
      simp only [Prod.mk.injEq] at hwhole
      omega
    have hnil := List.eq_nil_iff_forall_not_mem.mpr hnone
    rw [hnil, List.append_nil] at heq
    exact ⟨heq, hnil⟩
  · rintro ⟨hhead, hrest⟩
    rw [hhead, hrest, List.append_nil]

end Entries

theorem parseIndexFile_reads_lines_iff (mktime : Tm → Int) (text : List Byte) :
    (readEntries mktime text).map Prod.snd = parseIndexFile mktime (some text) ∧
      (readEntries mktime text = lineEntries mktime text ↔
        ∀ line ∈ physicalLines text, ReadWhole mktime line) := by
  refine ⟨readEntries_snd mktime text, ?_⟩
  have hne {off : Nat} : ∀ p ∈ located off (physicalLines text), p.2 ≠ [] := by
    intro p hp
    have hmem := List.mem_map_of_mem (f := Prod.snd) hp
    rw [located_snd] at hmem
    exact (isLine_of_mem hmem).1
  have hread : readEntries mktime text =
      (located 0 (physicalLines text)).flatMap (bufferedEntries mktime) := by
    rw [readEntries, fgetsAll_eq (by decide), located_flatMap _ (flatten_chunks (by decide)),
      List.filterMap_flatMap]
    rfl
  have hwhole : lineEntries mktime text =
      (located 0 (physicalLines text)).flatMap (wholeEntry mktime) := by
    rw [lineEntries, List.filterMap_eq_flatMap_toList]
    rfl
  rw [hread, hwhole, located_flatMap_eq_iff (fun p _ => bufferedEntries_bounds p)
    (fun p hp => wholeEntry_bounds (hne p hp))]
  constructor
  · intro h line hline
    rw [← located_snd 0 (physicalLines text)] at hline
    obtain ⟨⟨off, _⟩, hp, rfl⟩ := List.mem_map.mp hline
    exact (line_iff (hne _ hp)).mp (h _ hp)
  · rintro h ⟨off, line⟩ hp
    have hmem := List.mem_map_of_mem (f := Prod.snd) hp
    rw [located_snd] at hmem
    exact (line_iff (hne _ hp)).mpr (h _ hmem)

def overlongIndex : List Byte :=
  str "V\t\t\t01\t" ++ List.replicate 1016 65 ++ str "V\t\t\t02\tunknown\t/CN=a\n"

theorem overlong_line_read_twice :
    (physicalLines overlongIndex).length = 1 ∧
      parseIndexFile (fun _ => 0) (some overlongIndex) = [⟨86, 0, str "01"⟩, ⟨86, 0, str "02"⟩] ∧
      readEntries (fun _ => 0) overlongIndex ≠ lineEntries (fun _ => 0) overlongIndex := by
  decide +kernel

end WolfCLU.Ocsp
