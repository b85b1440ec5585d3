import WolfCLU.Foundation.TextLine
import WolfCLU.X509.Name
import WolfCLU.X509.Parse

namespace WolfCLU
open CString TextLine

structure NameLib where
  shortName : Nid → List Byte
  sn2nid : List Byte → Option Nid
  oneline : X509Name → List Byte
  addEntry : X509Name → Option Nid → List Byte → X509Name
  cmp : X509Name → X509Name → Int
  oneline_eq : ∀ name : X509Name,
    oneline name = name.flatMap fun e => 47 :: (shortName e.nid ++ 61 :: e.value)
  addEntry_eq : ∀ (name : X509Name) (nid : Nid) (value : List Byte),
    addEntry name (some nid) value = name ++ [⟨nid, value⟩]
  cmp_eq_zero : ∀ a b : X509Name, cmp a b = 0 ↔ a = b

def standardName : Nid → List Byte
  | .countryName => str "C"
  | .stateOrProvinceName => str "ST"
  | .localityName => str "L"
  | .organizationName => str "O"
  | .organizationalUnitName => str "OU"
  | .commonName => str "CN"
  | .emailAddress => str "emailAddress"
  | .other _ => str "other"

def standardNids : List Nid :=
  [.countryName, .stateOrProvinceName, .localityName, .organizationName, .organizationalUnitName,
    .commonName, .emailAddress]

def standardNames : NameLib where
  shortName := standardName
  sn2nid tag := standardNids.find? fun nid => standardName nid = tag
  oneline name := name.flatMap fun e => 47 :: (standardName e.nid ++ 61 :: e.value)
  addEntry name nid value :=
    match nid with
    | none => name
    | some nid => name ++ [⟨nid, value⟩]
  cmp a b := if a = b then 0 else 1
  oneline_eq _ := rfl
  addEntry_eq _ _ _ := rfl
  cmp_eq_zero a b := by
    split_ifs with h
    · simp [h]
    · simp [h]

def tagSize : Nat := 5

inductive StringEncoding where
  | utf8
  | printable
  deriving DecidableEq, Repr

structure NameBuilder (ν : Type) where
  sn2nid : List Byte → Option Nid
  addEntry : ν → Option Nid → StringEncoding → List Byte → ν

def componentTag (word : List Byte) : List Byte := word.takeWhile (· != 61)

namespace NameBuilder
variable {ν : Type} (lib : NameBuilder ν)

def tagNid (tag : List Byte) : Option Nid :=
  (lib.sn2nid tag).or (lib.sn2nid (str "/" ++ tag ++ str "="))

def addNameEntry (name : ν) (type : StringEncoding) (nid : Option Nid) (s : List Byte) : ν :=
  let s := chomp s
  if s = [] ∨ s = str "." then name else lib.addEntry name nid type s

def encodingAfter (nid : Option Nid) (encoding : StringEncoding) : StringEncoding :=
  if nid = some .countryName then .printable else encoding

def parseX509NameWords (nSz : Int) : List (List Byte) → StringEncoding → ν → Option ν
  | [], _, name => some name
  | word :: words, encoding, name =>
    let tag := componentTag word
    if tag.length = 0 ∨ tag.length = word.length then none
    else if tag.length + 1 > tagSize then none
    else if (tag.length : Int) + 1 > nSz then none
    else
      let nid := lib.tagNid tag
      let encoding := encodingAfter nid encoding
      parseX509NameWords nSz words encoding
        (lib.addNameEntry name encoding nid (word.drop (tag.length + 1)))

def parseX509NameString (nameNew : Option ν) (n : List Byte) (nSz : Int) : Option ν :=
  if nSz ≤ 0 then none
  else
    match nameNew with
    | none => none
    | some name => lib.parseX509NameWords nSz (strtok 47 n) .utf8 name

end NameBuilder

section Parse
variable (lib : NameLib)

def NameLib.builder : NameBuilder X509Name := ⟨lib.sn2nid, fun name nid _ s => lib.addEntry name nid s⟩

def addNameEntry (name : X509Name) (nid : Option Nid) (s : List Byte) : X509Name :=
  lib.builder.addNameEntry name .utf8 nid s

def parseX509NameString (n : List Byte) : Option X509Name :=
  lib.builder.parseX509NameString (some []) n n.length

def checkUniqueLine (subject : X509Name) (line : List Byte) : Int :=
  match (strtok 9 (cstr line))[1]? with
  | none => wolfcluFatalError
  | some subj =>
    match parseX509NameString lib subj with
    | none => wolfcluFatalError
    | some current => if lib.cmp subject current = 0 then wolfcluFatalError else wolfcluSuccess

def checkUniqueLoop (subject : X509Name) : Nat → List Byte → Int
  | 0, _ => wolfcluSuccess
  | fuel + 1, database =>
    let (line, rest) := gets (maxTermWidth - 1) database
    if line.length = 0 then wolfcluSuccess
    else
      let ret := checkUniqueLine lib subject line
      if ret = wolfcluSuccess then checkUniqueLoop subject fuel rest else ret

def checkUnique (subject : X509Name) (database : List Byte) : Int :=
  checkUniqueLoop lib subject database.length database

end Parse

structure ReadableEntry (lib : NameLib) (e : NameEntry) : Prop where
  tag_ne_nil : lib.shortName e.nid ≠ []
  tag_length : (lib.shortName e.nid).length < tagSize
  tag_plain : ∀ c ∈ lib.shortName e.nid, c ∉ ([0, 9, 10, 47, 61] : List Byte)
  tag_known : lib.sn2nid (lib.shortName e.nid) = some e.nid
  value_plain : ∀ c ∈ e.value, c ∉ ([0, 9, 10, 47] : List Byte)
  value_ne_nil : e.value ≠ []
  value_ne_dot : e.value ≠ str "."
  value_last : e.value.getLast? ≠ some 13

def word (lib : NameLib) (e : NameEntry) (raw : List Byte) : List Byte :=
  lib.shortName e.nid ++ 61 :: raw

section Readable
variable {lib : NameLib} {e : NameEntry}

theorem ReadableEntry.chomp_value (h : ReadableEntry lib e) : chomp e.value = e.value :=
  chomp_eq_self (fun hlast => h.value_plain 10 (List.mem_of_getLast? hlast) (by decide)) h.value_last

theorem ReadableEntry.word_tag (h : ReadableEntry lib e) (raw : List Byte) :
    componentTag (word lib e raw) = lib.shortName e.nid := by
  rw [componentTag, word, List.takeWhile_append_of_pos]
  · simp
  · intro c hc
    have := h.tag_plain c hc
    simp_all

theorem ReadableEntry.parse_word (h : ReadableEntry lib e) {raw : List Byte}
    (hraw : chomp raw = e.value) {nSz : Int} (hsz : (word lib e raw).length ≤ nSz)
    (words : List (List Byte)) (encoding : StringEncoding) (name : X509Name) :
    lib.builder.parseX509NameWords nSz (word lib e raw :: words) encoding name =
      lib.builder.parseX509NameWords nSz words
        (NameBuilder.encodingAfter (some e.nid) encoding) (name ++ [e]) := by
  have hpos := List.length_pos_iff.mpr h.tag_ne_nil
  have htag := h.tag_length
  have hlen : (word lib e raw).length = (lib.shortName e.nid).length + (raw.length + 1) := by
    simp [word]
  have hdrop : (word lib e raw).drop ((lib.shortName e.nid).length + 1) = raw := by
    simp [word, List.drop_append]
  have hnid : lib.builder.tagNid (lib.shortName e.nid) = some e.nid := by
    simp only [NameBuilder.tagNid, NameLib.builder, h.tag_known, Option.some_or]
  have hadd (type : StringEncoding) :
      lib.builder.addNameEntry name type (some e.nid) raw = name ++ [e] := by
    simp only [NameBuilder.addNameEntry, NameLib.builder, hraw, h.value_ne_nil, h.value_ne_dot,
      or_self, if_false, lib.addEntry_eq]
  simp only [NameBuilder.parseX509NameWords, h.word_tag, hnid, hdrop, hadd]
  rw [if_neg (by omega), if_neg (by omega), if_neg (by omega)]

theorem parse_words {pairs : List (NameEntry × List Byte)}
    (h : ∀ p ∈ pairs, ReadableEntry lib p.1 ∧ chomp p.2 = p.1.value) {nSz : Int}
    (hsz : ∀ p ∈ pairs, (word lib p.1 p.2).length ≤ nSz) (encoding : StringEncoding)
    (name : X509Name) :
    lib.builder.parseX509NameWords nSz (pairs.map fun p => word lib p.1 p.2) encoding name =
      some (name ++ pairs.map Prod.fst) := by
  induction pairs generalizing encoding name with
  | nil => simp [NameBuilder.parseX509NameWords]
  | cons p pairs ih =>
    obtain ⟨hread, hraw⟩ := h p List.mem_cons_self
    rw [List.map_cons, hread.parse_word hraw (hsz p List.mem_cons_self),
      ih (fun q hq => h q (List.mem_cons_of_mem _ hq))
        (fun q hq => hsz q (List.mem_cons_of_mem _ hq))]
    simp

theorem ReadableEntry.word_plain (h : ReadableEntry lib e) :
    ∀ c ∈ word lib e e.value, c ∉ ([0, 9, 10, 47] : List Byte) := by
  intro c hc
  simp only [word, List.mem_append, List.mem_cons] at hc
  rcases hc with hc | rfl | hc
  · have := h.tag_plain c hc
    simp_all
  · decide
  · exact h.value_plain c hc

theorem oneline_words (lib : NameLib) (name : X509Name) :
    lib.oneline name = (name.map fun e => word lib e e.value).flatMap fun w => 47 :: w := by
  rw [lib.oneline_eq, List.flatMap_map]
  rfl

theorem oneline_plain {name : X509Name} (h : ∀ e ∈ name, ReadableEntry lib e) :
    ∀ c ∈ lib.oneline name, c ∉ ([0, 9, 10] : List Byte) := by
  intro c hc
  rw [oneline_words] at hc
  obtain ⟨w, hw, hcw⟩ := List.mem_flatMap.mp hc
  obtain ⟨e, he, rfl⟩ := List.mem_map.mp hw
  rcases List.mem_cons.mp hcw with rfl | hcw
  · decide
  · have := (h e he).word_plain c hcw
    simp_all

theorem parse_oneline {name : X509Name} (hne : name ≠ []) (h : ∀ e ∈ name, ReadableEntry lib e) :
    parseX509NameString lib (lib.oneline name ++ [10]) = some name := by
  obtain ⟨front, e, rfl⟩ : ∃ front e, name = front ++ [e] :=
    ⟨name.dropLast, name.getLast hne, (List.dropLast_concat_getLast hne).symm⟩
  let pairs := front.map (fun e => (e, e.value)) ++ [(e, e.value ++ [10])]
  have hnames : pairs.map Prod.fst = front ++ [e] := by
    simp [pairs, Function.comp_def]
  have htext : lib.oneline (front ++ [e]) ++ [10] =
      (pairs.map fun p => word lib p.1 p.2).flatMap fun w => 47 :: w := by
    simp [pairs, oneline_words, word, List.flatMap_append, Function.comp_def]
  have hread : ∀ p ∈ pairs, ReadableEntry lib p.1 ∧ chomp p.2 = p.1.value := by
    intro p hp
    simp only [pairs, List.mem_append, List.mem_map, List.mem_singleton] at hp
    rcases hp with ⟨f, hf, rfl⟩ | rfl
    · have hf := h f (List.mem_append_left _ hf)
      exact ⟨hf, hf.chomp_value⟩
    · have he := h e (List.mem_append_right _ List.mem_cons_self)
      exact ⟨he, by rw [chomp_newline, he.chomp_value]⟩
  have hdelim : ∀ w ∈ pairs.map fun p => word lib p.1 p.2, w ≠ [] ∧ (47 : Byte) ∉ w := by
    intro w hw
    obtain ⟨p, hp, rfl⟩ := List.mem_map.mp hw
    refine ⟨by simp [word], fun h47 => ?_⟩
    simp only [pairs, List.mem_append, List.mem_map, List.mem_singleton] at hp
    rcases hp with ⟨f, hf, rfl⟩ | rfl
    · exact (h f (List.mem_append_left _ hf)).word_plain 47 h47 (by decide)
    · have he := h e (List.mem_append_right _ List.mem_cons_self)
      have h47 : (47 : Byte) ∈ word lib e e.value := by simpa [word] using h47
      exact he.word_plain 47 h47 (by decide)
  have hsz : ∀ p ∈ pairs, ((word lib p.1 p.2).length : Int) ≤
      ((lib.oneline (front ++ [e]) ++ [10]).length : Int) := by
    intro p hp
    rw [Int.ofNat_le, htext, List.length_flatMap]
    have hmem : (word lib p.1 p.2).length + 1 ∈
        (pairs.map fun p => word lib p.1 p.2).map fun w => (47 :: w).length :=
      List.mem_map.mpr ⟨_, List.mem_map_of_mem hp, rfl⟩
    have := List.single_le_sum (fun _ _ => Nat.zero_le _) _ hmem
    omega
  have hwords : strtok 47 (lib.oneline (front ++ [e]) ++ [10]) =
      pairs.map fun p => word lib p.1 p.2 := by
    rw [htext, strtok_delimited hdelim]
  rw [parseX509NameString, NameBuilder.parseX509NameString, if_neg (by simp)]
  simp only [hwords]
  rw [parse_words hread hsz, List.nil_append, hnames]

end Readable

def record (lib : NameLib) (date : List Byte) (name : X509Name) : List Byte :=
  date ++ 9 :: (lib.oneline name ++ [10])

structure ReadableRecord (lib : NameLib) (date : List Byte) (name : X509Name) : Prop where
  date_ne_nil : date ≠ []
  date_plain : ∀ c ∈ date, c ∉ ([0, 9, 10] : List Byte)
  name_ne_nil : name ≠ []
  entries : ∀ e ∈ name, ReadableEntry lib e
  length : (record lib date name).length < maxTermWidth

section Record
variable {lib : NameLib} {date : List Byte} {name : X509Name}

theorem ReadableRecord.gets_record (h : ReadableRecord lib date name) (rest : List Byte) :
    gets (maxTermWidth - 1) (record lib date name ++ rest) = (record lib date name, rest) := by
  have hbody : (10 : Byte) ∉ date ++ 9 :: lib.oneline name := by
    intro hmem
    simp only [List.mem_append, List.mem_cons] at hmem
    rcases hmem with hmem | hmem | hmem
    · exact h.date_plain 10 hmem (by decide)
    · exact absurd hmem (by decide)
    · exact oneline_plain h.entries 10 hmem (by decide)
  have hlen : (date ++ 9 :: lib.oneline name).length < maxTermWidth - 1 := by
    have := h.length
    simp only [record, List.length_append, List.length_cons, List.length_nil] at this ⊢
    omega
  have hline := gets_line hbody hlen rest
  simpa [record] using hline

theorem ReadableRecord.checkUniqueLine_record (h : ReadableRecord lib date name)
    (subject : X509Name) : checkUniqueLine lib subject (record lib date name) =
      if subject = name then wolfcluFatalError else wolfcluSuccess := by
  have hzero : (0 : Byte) ∉ record lib date name := by
    intro hmem
    simp only [record, List.mem_append, List.mem_cons, List.not_mem_nil, or_false] at hmem
    rcases hmem with hmem | hmem | hmem | hmem
    · exact h.date_plain 0 hmem (by decide)
    · exact absurd hmem (by decide)
    · exact oneline_plain h.entries 0 hmem (by decide)
    · exact absurd hmem (by decide)
  have hdate : (9 : Byte) ∉ date := fun hmem => h.date_plain 9 hmem (by decide)
  have hname : (9 : Byte) ∉ lib.oneline name ++ [10] := by
    intro hmem
    rcases List.mem_append.mp hmem with hmem | hmem
    · exact oneline_plain h.entries 9 hmem (by decide)
    · exact absurd hmem (by decide)
  have hwords : strtok 9 (record lib date name) = [date, lib.oneline name ++ [10]] := by
    rw [record, strtok_append_cons, strtok_singleton h.date_ne_nil hdate,
      strtok_singleton (by simp) hname, List.singleton_append]
  simp only [checkUniqueLine, cstr_of_nul_free hzero, hwords, List.getElem?_cons_succ,
    List.getElem?_cons_zero, parse_oneline h.name_ne_nil h.entries, lib.cmp_eq_zero]

theorem checkUniqueLoop_records {records : List (List Byte × X509Name)}
    (h : ∀ r ∈ records, ReadableRecord lib r.1 r.2) (subject : X509Name) {fuel : Nat}
    (hfuel : (records.flatMap fun r => record lib r.1 r.2).length ≤ fuel) :
    checkUniqueLoop lib subject fuel (records.flatMap fun r => record lib r.1 r.2) =
      if subject ∈ records.map Prod.snd then wolfcluFatalError else wolfcluSuccess := by
  induction records generalizing fuel with
  | nil =>
    cases fuel with
    | zero => simp [checkUniqueLoop]
    | succ fuel => simp [checkUniqueLoop, gets_nil]
  | cons r records ih =>
    have hr := h r List.mem_cons_self
    have hpos : 0 < (record lib r.1 r.2).length := by simp [record]
    simp only [List.flatMap_cons, List.length_append] at hfuel
    cases fuel with
    | zero => omega
    | succ fuel =>
      have hfuel : (records.flatMap fun r => record lib r.1 r.2).length ≤ fuel := by omega
      have hrest := ih (fun q hq => h q (List.mem_cons_of_mem _ hq)) hfuel
      have hne : ¬ (record lib r.1 r.2).length = 0 := by omega
      have hfail : ¬ wolfcluFatalError = wolfcluSuccess := by decide
      simp only [List.flatMap_cons, checkUniqueLoop, hr.gets_record, if_neg hne,
        hr.checkUniqueLine_record, hrest, List.map_cons, List.mem_cons]
      by_cases hsame : subject = r.2
      · simp [hsame, hfail]
      · by_cases hmem : subject ∈ records.map Prod.snd
        · rw [if_neg hsame, if_pos rfl, if_pos hmem, if_pos (Or.inr hmem)]
        · rw [if_neg hsame, if_pos rfl, if_neg hmem, if_neg (not_or.mpr ⟨hsame, hmem⟩)]

theorem checkUnique_records {records : List (List Byte × X509Name)}
    (h : ∀ r ∈ records, ReadableRecord lib r.1 r.2) (subject : X509Name) :
    checkUnique lib subject (records.flatMap fun r => record lib r.1 r.2) =
      if subject ∈ records.map Prod.snd then wolfcluFatalError else wolfcluSuccess :=
  checkUniqueLoop_records h subject le_rfl

end Record

end WolfCLU
