import WolfCLU.X509.SubjectDatabase

namespace WolfCLU
open CString TextLine

structure EncodedEntry where
  nid : Nid
  value : List Byte
  encoding : StringEncoding
  deriving DecidableEq, Repr

abbrev EncodedName := List EncodedEntry

abbrev EncodedNameLib := NameBuilder EncodedName

def x509NameNew (granted : Bool) : Option EncodedName := if granted then some [] else none

def componentValue (word : List Byte) : List Byte :=
  chomp (word.drop ((componentTag word).length + 1))

def Added (word : List Byte) : Prop := componentValue word ≠ [] ∧ componentValue word ≠ str "."

instance (word : List Byte) : Decidable (Added word) := inferInstanceAs (Decidable (_ ∧ _))

def Tagged (nSz : Int) (word : List Byte) : Prop :=
  0 < (componentTag word).length ∧ (componentTag word).length < word.length ∧
    (componentTag word).length < tagSize ∧ ((componentTag word).length : Int) < nSz

section Components
variable (lib : EncodedNameLib)

def IsCountry (word : List Byte) : Prop := lib.tagNid (componentTag word) = some .countryName

def tagEncoding (tag : List Byte) : StringEncoding :=
  if lib.tagNid tag = some .countryName then .printable else .utf8

def entryWith (encoding : StringEncoding) (word : List Byte) : Option EncodedEntry :=
  if componentValue word = [] ∨ componentValue word = str "." then none
  else (lib.tagNid (componentTag word)).map fun nid => ⟨nid, componentValue word, encoding⟩

def componentEntry (word : List Byte) : Option EncodedEntry :=
  entryWith lib (tagEncoding lib (componentTag word)) word

def loopEntries : StringEncoding → List (List Byte) → List EncodedEntry
  | _, [] => []
  | encoding, word :: words =>
    let encoding := NameBuilder.encodingAfter (lib.tagNid (componentTag word)) encoding
    (entryWith lib encoding word).toList ++ loopEntries encoding words

def AddsEntries (capacity : Nat) : Prop :=
  ∀ name nid type value, lib.addEntry name (some nid) type value =
    if name.length < capacity then name ++ [⟨nid, value, type⟩] else name

def NameStringClaim (n : List Byte) (nSz : Int) : Prop :=
  ∀ nameNew name, lib.parseX509NameString (x509NameNew nameNew) n nSz = some name →
    (∀ word ∈ strsep 47 n, word ≠ [] → (lib.tagNid (componentTag word)).isSome = true) ∧
      name = (strsep 47 n).filterMap (componentEntry lib)

end Components

section Loop
variable {lib : EncodedNameLib} {nSz : Int} {capacity : Nat}

theorem addNameEntry_component (hadds : AddsEntries lib capacity) {word : List Byte}
    (hknown : (lib.tagNid (componentTag word)).isSome = true) {name : EncodedName}
    (hroom : name.length ≤ capacity) (type : StringEncoding) :
    lib.addNameEntry name type (lib.tagNid (componentTag word))
        (word.drop ((componentTag word).length + 1)) =
      (name ++ (entryWith lib type word).toList).take capacity := by
  obtain ⟨nid, hnid⟩ := Option.isSome_iff_exists.mp hknown
  simp only [NameBuilder.addNameEntry, entryWith, componentValue, hnid]
  split
  · simp [List.take_of_length_le hroom]
  · rw [hadds]
    by_cases hfull : name.length < capacity
    · rw [if_pos hfull, List.take_of_length_le (by simp; omega)]
      rfl
    · rw [if_neg hfull, List.take_append_of_le_length (by omega),
        List.take_of_length_le (by omega)]

theorem parseX509NameWords_cons (word : List Byte) (words : List (List Byte))
    (encoding : StringEncoding) (name : EncodedName) :
    (Tagged nSz word → lib.parseX509NameWords nSz (word :: words) encoding name =
        lib.parseX509NameWords nSz words
          (NameBuilder.encodingAfter (lib.tagNid (componentTag word)) encoding)
          (lib.addNameEntry name
            (NameBuilder.encodingAfter (lib.tagNid (componentTag word)) encoding)
            (lib.tagNid (componentTag word)) (word.drop ((componentTag word).length + 1)))) ∧
      (¬ Tagged nSz word → lib.parseX509NameWords nSz (word :: words) encoding name = none) := by
  have hle : (componentTag word).length ≤ word.length := (List.takeWhile_prefix _).length_le
  simp only [NameBuilder.parseX509NameWords, Tagged]
  constructor
  · rintro ⟨hpos, hlt, hsize, hsz⟩
    rw [if_neg (by omega), if_neg (by omega), if_neg (by omega)]
  · intro h
    split_ifs
    · rfl
    · rfl
    · rfl
    · exact absurd ⟨by omega, by omega, by omega, by omega⟩ h

theorem parseX509NameWords_tagged {words : List (List Byte)} {encoding : StringEncoding}
    {name name' : EncodedName}
    (h : lib.parseX509NameWords nSz words encoding name = some name') :
    ∀ word ∈ words, Tagged nSz word := by
  induction words generalizing encoding name with
  | nil => simp
  | cons word words ih =>
    obtain ⟨hstep, hstop⟩ := @parseX509NameWords_cons lib nSz word words encoding name
    by_cases htagged : Tagged nSz word
    · rw [hstep htagged] at h
      exact List.forall_mem_cons.mpr ⟨htagged, ih h⟩
    · rw [hstop htagged] at h
      cases h

theorem parseX509NameWords_isSome {words : List (List Byte)}
    (h : ∀ word ∈ words, Tagged nSz word) (encoding : StringEncoding) (name : EncodedName) :
    (lib.parseX509NameWords nSz words encoding name).isSome = true := by
  induction words generalizing encoding name with
  | nil => rfl
  | cons word words ih =>
    obtain ⟨htagged, hrest⟩ := List.forall_mem_cons.mp h
    rw [(parseX509NameWords_cons word words encoding name).1 htagged]
    exact ih hrest _ _

theorem parseX509NameWords_entries (hadds : AddsEntries lib capacity) {words : List (List Byte)}
    (h : ∀ word ∈ words, Tagged nSz word)
    (hknown : ∀ word ∈ words, (lib.tagNid (componentTag word)).isSome = true)
    (encoding : StringEncoding) {name : EncodedName} (hroom : name.length ≤ capacity) :
    lib.parseX509NameWords nSz words encoding name =
      some ((name ++ loopEntries lib encoding words).take capacity) := by
  induction words generalizing encoding name with
  | nil => simp [NameBuilder.parseX509NameWords, loopEntries, List.take_of_length_le hroom]
  | cons word words ih =>
    obtain ⟨htagged, hrest⟩ := List.forall_mem_cons.mp h
    obtain ⟨hnid, hnids⟩ := List.forall_mem_cons.mp hknown
    rw [(parseX509NameWords_cons word words encoding name).1 htagged,
      addNameEntry_component hadds hnid hroom,
      ih hrest hnids _ (List.length_take_le _ _), loopEntries, ← List.append_assoc]
    generalize name ++ (entryWith lib _ word).toList = front
    by_cases hfull : front.length ≤ capacity
    · rw [List.take_of_length_le hfull]
    · rw [List.take_append_of_le_length (by simp; omega), List.take_take, Nat.min_self,
        List.take_append_of_le_length (by omega)]

theorem filterMap_component (word : List Byte) (words : List (List Byte)) :
    (word :: words).filterMap (componentEntry lib) =
      (componentEntry lib word).toList ++ words.filterMap (componentEntry lib) := by
  rw [List.filterMap_cons]
  cases componentEntry lib word <;> rfl

theorem entryWith_length {word : List Byte}
    (hknown : (lib.tagNid (componentTag word)).isSome = true) (encoding : StringEncoding) :
    (entryWith lib encoding word).toList.length = if Added word then 1 else 0 := by
  obtain ⟨nid, hnid⟩ := Option.isSome_iff_exists.mp hknown
  by_cases hadded : Added word
  · have hvalue : ¬ (componentValue word = [] ∨ componentValue word = str ".") := not_or.mpr hadded
    simp [entryWith, hvalue, hnid, hadded]
  · have hvalue : componentValue word = [] ∨ componentValue word = str "." := by
      by_contra hcon
      exact hadded (not_or.mp hcon)
    simp [entryWith, hvalue, hadded]

theorem loopEntries_length {words : List (List Byte)}
    (hknown : ∀ word ∈ words, (lib.tagNid (componentTag word)).isSome = true)
    (encoding : StringEncoding) :
    (loopEntries lib encoding words).length = words.countP fun word => decide (Added word) := by
  induction words generalizing encoding with
  | nil => rfl
  | cons word words ih =>
    obtain ⟨hnid, hnids⟩ := List.forall_mem_cons.mp hknown
    rw [loopEntries, List.length_append, ih hnids, List.countP_cons, entryWith_length hnid,
      Nat.add_comm]
    simp only [decide_eq_true_eq]

theorem componentEntries_length {words : List (List Byte)}
    (hknown : ∀ word ∈ words, (lib.tagNid (componentTag word)).isSome = true) :
    (words.filterMap (componentEntry lib)).length =
      words.countP fun word => decide (Added word) := by
  induction words with
  | nil => rfl
  | cons word words ih =>
    obtain ⟨hnid, hnids⟩ := List.forall_mem_cons.mp hknown
    rw [filterMap_component, List.length_append, ih hnids, List.countP_cons, componentEntry,
      entryWith_length hnid, Nat.add_comm]
    simp only [decide_eq_true_eq]

theorem take_entries_iff {words : List (List Byte)}
    (hknown : ∀ word ∈ words, (lib.tagNid (componentTag word)).isSome = true)
    (encoding : StringEncoding) :
    (loopEntries lib encoding words).take capacity = words.filterMap (componentEntry lib) ↔
      loopEntries lib encoding words = words.filterMap (componentEntry lib) ∧
        (words.countP fun word => decide (Added word)) ≤ capacity := by
  have hloop := loopEntries_length hknown encoding
  have hown := componentEntries_length hknown
  constructor
  · intro h
    have hlen := congrArg List.length h
    rw [List.length_take, hown, hloop] at hlen
    rw [List.take_of_length_le (by omega)] at h
    exact ⟨h, by omega⟩
  · rintro ⟨h, hle⟩
    rw [List.take_of_length_le (by omega), h]

theorem entryWith_inj {word : List Byte} (hknown : (lib.tagNid (componentTag word)).isSome = true)
    {encoding encoding' : StringEncoding} :
    entryWith lib encoding word = entryWith lib encoding' word ↔
      (Added word → encoding = encoding') := by
  obtain ⟨nid, hnid⟩ := Option.isSome_iff_exists.mp hknown
  by_cases hadded : Added word
  · have hvalue : ¬ (componentValue word = [] ∨ componentValue word = str ".") := not_or.mpr hadded
    simp [entryWith, hvalue, hnid, hadded]
  · have hvalue : componentValue word = [] ∨ componentValue word = str "." := by
      by_contra hcon
      exact hadded (not_or.mp hcon)
    simp [entryWith, hvalue, hadded]

theorem entryWith_isSome (word : List Byte) (encoding encoding' : StringEncoding) :
    (entryWith lib encoding word).isSome = (entryWith lib encoding' word).isSome := by
  simp only [entryWith]
  split <;> simp

theorem toList_append_inj {α : Type} {a b : Option α} {l m : List α} (h : a.isSome = b.isSome) :
    a.toList ++ l = b.toList ++ m ↔ a = b ∧ l = m := by
  cases a with
  | none =>
    cases b with
    | none => simp
    | some b => cases h
  | some a =>
    cases b with
    | none => cases h
    | some b => simp

theorem loopEntries_cons {word : List Byte}
    (hknown : (lib.tagNid (componentTag word)).isSome = true) (words : List (List Byte))
    (encoding : StringEncoding) :
    loopEntries lib encoding (word :: words) = (word :: words).filterMap (componentEntry lib) ↔
      (Added word → NameBuilder.encodingAfter (lib.tagNid (componentTag word)) encoding =
        tagEncoding lib (componentTag word)) ∧
      loopEntries lib (NameBuilder.encodingAfter (lib.tagNid (componentTag word)) encoding) words =
        words.filterMap (componentEntry lib) := by
  have hown : componentEntry lib word = entryWith lib (tagEncoding lib (componentTag word)) word := rfl
  rw [filterMap_component, loopEntries, hown, toList_append_inj (entryWith_isSome word _ _),
      entryWith_inj hknown]

theorem loopEntries_printable {words : List (List Byte)}
    (hknown : ∀ word ∈ words, (lib.tagNid (componentTag word)).isSome = true) :
    loopEntries lib .printable words = words.filterMap (componentEntry lib) ↔
      ∀ word ∈ words, Added word → IsCountry lib word := by
  induction words with
  | nil => simp [loopEntries]
  | cons word words ih =>
    obtain ⟨hnid, hnids⟩ := List.forall_mem_cons.mp hknown
    have hstay : NameBuilder.encodingAfter (lib.tagNid (componentTag word)) .printable =
        .printable := ite_self _
    rw [loopEntries_cons hnid, hstay, ih hnids, List.forall_mem_cons]
    refine and_congr_left fun _ => forall_congr' fun _ => ?_
    by_cases hcountry : IsCountry lib word
    · simp [tagEncoding, hcountry, show lib.tagNid (componentTag word) = some .countryName from hcountry]
    · simp [tagEncoding, hcountry, show ¬ lib.tagNid (componentTag word) = some .countryName from hcountry]

theorem loopEntries_utf8 {words : List (List Byte)}
    (hknown : ∀ word ∈ words, (lib.tagNid (componentTag word)).isSome = true) :
    loopEntries lib .utf8 words = words.filterMap (componentEntry lib) ↔
      words.Pairwise fun word later => IsCountry lib word → Added later → IsCountry lib later := by
  induction words with
  | nil => simp [loopEntries]
  | cons word words ih =>
    obtain ⟨hnid, hnids⟩ := List.forall_mem_cons.mp hknown
    have hown : NameBuilder.encodingAfter (lib.tagNid (componentTag word)) .utf8 =
        tagEncoding lib (componentTag word) := rfl
    rw [loopEntries_cons hnid, hown, List.pairwise_cons]
    by_cases hcountry : IsCountry lib word
    · have hprintable : tagEncoding lib (componentTag word) = .printable := if_pos hcountry
      rw [hprintable, loopEntries_printable hnids]
      constructor
      · rintro ⟨_, hall⟩
        exact ⟨fun later hlater _ => hall later hlater,
          List.pairwise_of_forall_mem_list fun _ _ later hlater _ => hall later hlater⟩
      · rintro ⟨hall, _⟩
        exact ⟨fun _ => rfl, fun later hlater => hall later hlater hcountry⟩
    · have hutf8 : tagEncoding lib (componentTag word) = .utf8 := if_neg hcountry
      rw [hutf8, ih hnids]
      constructor
      · rintro ⟨_, hrest⟩
        exact ⟨fun _ _ h => absurd h hcountry, hrest⟩
      · rintro ⟨_, hrest⟩
        exact ⟨fun _ => rfl, hrest⟩

theorem parseX509NameString_accepts {nameNew : Bool} {n : List Byte} {name : EncodedName} :
    lib.parseX509NameString (x509NameNew nameNew) n nSz = some name ↔
      0 < nSz ∧ nameNew = true ∧
        lib.parseX509NameWords nSz (strtok 47 n) .utf8 [] = some name := by
  unfold NameBuilder.parseX509NameString
  by_cases hsz : nSz ≤ 0
  · rw [if_pos hsz]
    refine iff_of_false (by simp) ?_
    rintro ⟨hpos, _⟩
    omega
  · cases nameNew <;> simp [x509NameNew, hsz, not_le.mp hsz]

theorem filterMap_strtok (n : List Byte) :
    (strsep 47 n).filterMap (componentEntry lib) = (strtok 47 n).filterMap (componentEntry lib) := by
  rw [strtok, List.filterMap_filter, strsep]
  refine List.filterMap_congr fun word _ => ?_
  by_cases hword : word = []
  · subst hword
    rfl
  · simp [hword]

theorem parseX509NameString_exact (hadds : AddsEntries lib capacity) (n : List Byte) (nSz : Int) :
    NameStringClaim lib n nSz ↔ (0 < nSz → (∀ word ∈ strtok 47 n, Tagged nSz word) →
      (∀ word ∈ strtok 47 n, (lib.tagNid (componentTag word)).isSome = true) ∧
        ((strtok 47 n).countP fun word => decide (Added word)) ≤ capacity ∧
        (strtok 47 n).Pairwise fun word later =>
          IsCountry lib word → Added later → IsCountry lib later) := by
  have hpieces : (∀ word ∈ strsep 47 n, word ≠ [] → (lib.tagNid (componentTag word)).isSome = true) ↔
      ∀ word ∈ strtok 47 n, (lib.tagNid (componentTag word)).isSome = true := by
    simp [strtok, strsep]
  have hentries (htagged : ∀ word ∈ strtok 47 n, Tagged nSz word)
      (hknown : ∀ word ∈ strtok 47 n, (lib.tagNid (componentTag word)).isSome = true) :=
    @parseX509NameWords_entries _ _ _ hadds _ htagged hknown .utf8 [] (Nat.zero_le capacity)
  rw [NameStringClaim, hpieces, filterMap_strtok]
  constructor
  · intro h hsz htagged
    obtain ⟨name, hname⟩ := Option.isSome_iff_exists.mp
      (@parseX509NameWords_isSome lib nSz _ htagged .utf8 [])
    obtain ⟨hknown, hown⟩ := h true name (parseX509NameString_accepts.mpr ⟨hsz, rfl, hname⟩)
    rw [hentries htagged hknown, Option.some.injEq, List.nil_append] at hname
    obtain ⟨hloop, hroom⟩ := (take_entries_iff hknown .utf8).mp (hname.trans hown)
    exact ⟨hknown, hroom, (loopEntries_utf8 hknown).mp hloop⟩
  · rintro h nameNew name hparse
    obtain ⟨hsz, -, hwords⟩ := parseX509NameString_accepts.mp hparse
    have htagged := parseX509NameWords_tagged hwords
    obtain ⟨hknown, hroom, hpair⟩ := h hsz htagged
    rw [hentries htagged hknown, Option.some.injEq, List.nil_append] at hwords
    exact ⟨hknown, hwords ▸
      (take_entries_iff hknown .utf8).mpr ⟨(loopEntries_utf8 hknown).mpr hpair, hroom⟩⟩

end Loop

def standardEncoded : EncodedNameLib where
  sn2nid := standardNames.sn2nid
  addEntry name nid type value :=
    match nid with
    | none => name
    | some nid => if name.length < 13 then name ++ [⟨nid, value, type⟩] else name

theorem standardEncoded_adds : AddsEntries standardEncoded 13 := by
  intro name nid type value
  rfl

theorem parseX509NameString_country_last :
    NameStringClaim standardEncoded (str "/CN=a/C=US") 10 := by
  refine (parseX509NameString_exact standardEncoded_adds _ _).mpr fun _ _ => ?_
  have hwords : strtok 47 (str "/CN=a/C=US") = [str "CN=a", str "C=US"] := by decide
  have hname : ¬ IsCountry standardEncoded (str "CN=a") := by
    unfold IsCountry
    decide
  refine ⟨by decide, by decide, ?_⟩
  rw [hwords]
  refine .cons ?_ (List.pairwise_singleton _ _)
  intro later _ h
  exact absurd h hname

theorem parseX509NameString_carries :
    standardEncoded.parseX509NameString (x509NameNew true) (str "/C=US/CN=x") 10 =
        some [⟨.countryName, str "US", .printable⟩, ⟨.commonName, str "x", .printable⟩] ∧
      ¬ NameStringClaim standardEncoded (str "/C=US/CN=x") 10 ∧
      standardEncoded.parseX509NameString (x509NameNew true) (str "/CN=a/XX=y") 10 =
        some [⟨.commonName, str "a", .utf8⟩] ∧
      ¬ NameStringClaim standardEncoded (str "/CN=a/XX=y") 10 := by
  have hcarried : standardEncoded.parseX509NameString (x509NameNew true) (str "/C=US/CN=x") 10 =
      some [⟨.countryName, str "US", .printable⟩, ⟨.commonName, str "x", .printable⟩] := by
    decide
  have hdropped : standardEncoded.parseX509NameString (x509NameNew true) (str "/CN=a/XX=y") 10 =
      some [⟨.commonName, str "a", .utf8⟩] := by decide
  refine ⟨hcarried, ?_, hdropped, ?_⟩
  · intro h
    exact absurd (h true _ hcarried).2 (by decide)
  · intro h
    have hknown := (h true _ hdropped).1 (str "XX=y") (by decide) (by decide)
    exact absurd hknown (by decide)

end WolfCLU
