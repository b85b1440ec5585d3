import WolfCLU.X509.Config

namespace WolfCLU
open CString TextLine

inductive AltKind where
  | ip
  | dns
  | uri
  | rid
  | email
  deriving DecidableEq, Repr

def AltKind.name : AltKind → List Byte
  | .ip => str "IP"
  | .dns => str "DNS"
  | .uri => str "URI"
  | .rid => str "RID"
  | .email => str "email"

structure AltName where
  kind : AltKind
  value : List Byte
  value_ne_nil : value ≠ []
  comma_free : (44 : Byte) ∉ value
  nul_free : (0 : Byte) ∉ value
  head_trimmed : ∀ c ∈ value.head?, isTrimmed c = false
  last_trimmed : ∀ c ∈ value.getLast?, isTrimmed c = false

def AltName.pair (altName : AltName) : List Byte × List Byte := (altName.kind.name, altName.value)

def Blank (pad : List Byte) : Prop := ∀ c ∈ pad, isTrimmed c = true

instance (pad : List Byte) : Decidable (Blank pad) :=
  inferInstanceAs (Decidable (∀ c ∈ pad, isTrimmed c = true))

def SpelledInline (altName : AltName) (token : List Byte) : Prop :=
  ∃ before between behind, Blank before ∧ Blank between ∧ Blank behind ∧
    token = before ++ (altName.kind.name ++ 58 :: (between ++ altName.value) ++ behind)

def SpelledNumbered (altName : AltName) (pair : List Byte × List Byte) : Prop :=
  ∃ k, pair = (altName.kind.name ++ 46 :: decimal k, altName.value)

def inlineText (tokens : List (List Byte)) : List Byte := List.intercalate [44] tokens

def addExtText (tokens : List (List Byte)) : List Byte :=
  str "subjectAltName" ++ 61 :: inlineText tokens

section Kinds
variable {lib : X509Lib} {env : CopyEnv}

theorem AltKind.name_length (kind : AltKind) : 2 ≤ kind.name.length := by
  cases kind <;> decide

theorem AltKind.name_plain (kind : AltKind) :
    ∀ c ∈ kind.name, c ≠ 0 ∧ c ≠ 44 ∧ c ≠ 58 ∧ c ≠ 64 ∧ isTrimmed c = false := by
  cases kind <;> decide +kernel

theorem strncmp_kind {kind : AltKind} {rest word : List Byte} {n : Nat}
    (hn : n ≤ kind.name.length) :
    strncmp (kind.name ++ rest) word n = strncmp kind.name word n := strncmp_append hn

def AltKind.data (lib : X509Lib) (env : CopyEnv) (kind : AltKind) (value : List Byte) :
    Except Int (List Byte × Int × AltNameType) :=
  match kind with
  | .ip =>
    match lib.a2iIpAddress value with
    | none => .error wolfcluFatalError
    | some address => .ok (address, address.length, .ip)
  | .dns => .ok (value, MachineInt.toInt32 value.length, .dns)
  | .uri => .ok (value, MachineInt.toInt32 value.length, .uri)
  | .rid => do
    let oid ← ridData lib env value
    .ok (oid, oid.length, .rid)
  | .email => .ok (value, MachineInt.toInt32 value.length, .rfc822)

theorem altNameData_kind (kind : AltKind) (rest value : List Byte) :
    altNameData lib env (kind.name ++ rest) value = kind.data lib env value := by
  have hip : strncmp (kind.name ++ rest) (str "IP") 2 = 0 ↔ kind = .ip := by
    rw [strncmp_kind kind.name_length]
    cases kind <;> decide
  have hthree (word : List Byte) (hne : kind ≠ .ip) :
      strncmp (kind.name ++ rest) word 3 = strncmp kind.name word 3 := by
    apply strncmp_kind
    cases kind <;> first | decide | exact absurd rfl hne
  have hfive (hemail : kind = .email) :
      strncmp (kind.name ++ rest) (str "email") 5 = strncmp kind.name (str "email") 5 := by
    apply strncmp_kind
    rw [hemail]
    decide
  cases kind with
  | ip =>
    simp only [altNameData, hip, if_true]
    rfl
  | dns =>
    simp only [altNameData, hip, hthree _ (AltKind.noConfusion : AltKind.dns ≠ .ip)]
    rfl
  | uri =>
    simp only [altNameData, hip, hthree _ (AltKind.noConfusion : AltKind.uri ≠ .ip)]
    rfl
  | rid =>
    simp only [altNameData, hip, hthree _ (AltKind.noConfusion : AltKind.rid ≠ .ip)]
    rfl
  | email =>
    simp only [altNameData, hip, hthree _ (AltKind.noConfusion : AltKind.email ≠ .ip), hfive]
    rfl

theorem addAltName_kind (kind : AltKind) (rest value : List Byte) (x509 : X509Object) :
    addAltName lib env x509 (kind.name ++ rest) value = addAltName lib env x509 kind.name value := by
  have hplain : altNameData lib env kind.name value = kind.data lib env value := by
    rw [← altNameData_kind kind [] value, List.append_nil]
  simp only [addAltName, altNameData_kind, hplain]

end Kinds

section Spelled
variable {altName : AltName} {token : List Byte}

theorem strstr_after {needle : Byte} {front back : List Byte} (h : needle ∉ front) :
    strstr [needle] (front ++ needle :: back) = some front.length := by
  refine strstr_eq_some.mpr ⟨by simp, by simp, ?_⟩
  intro j hj hpre
  obtain ⟨x, hx, hget⟩ := getElem_of_prefix_drop hpre le_rfl (by simp)
  rw [List.getElem?_append_left hj] at hget
  rw [List.mem_singleton.mp hx] at hget
  exact h (List.mem_of_getElem? hget)

theorem AltKind.name_head (kind : AltKind) (rest : List Byte) :
    ∀ c ∈ (kind.name ++ rest).head?, isTrimmed c = false := by
  intro c hc
  have hne : kind.name ≠ [] := List.ne_nil_of_length_pos (by have := kind.name_length; omega)
  rw [List.head?_append_of_ne_nil _ hne] at hc
  exact (kind.name_plain c (List.mem_of_mem_head? hc)).2.2.2.2

theorem inlineEntry_spelled (h : SpelledInline altName token) :
    inlineEntry token = some altName.pair := by
  obtain ⟨before, between, behind, hbefore, hbetween, hbehind, rfl⟩ := h
  have hhead := altName.kind.name_head (58 :: (between ++ altName.value) ++ behind)
  rw [← List.append_assoc] at hhead
  have hlast : ∀ c ∈ (altName.kind.name ++ 58 :: (between ++ altName.value)).getLast?,
      isTrimmed c = false := by
    intro c hc
    rw [← List.cons_append, ← List.append_assoc,
      List.getLast?_append_of_ne_nil _ altName.value_ne_nil] at hc
    exact altName.last_trimmed c hc
  have htrim : ((before ++ (altName.kind.name ++ 58 :: (between ++ altName.value) ++
      behind)).dropWhile isTrimmed).rdropWhile isTrimmed =
        altName.kind.name ++ 58 :: (between ++ altName.value) := by
    rw [dropWhile_pad hbefore hhead, rdropWhile_pad hbehind hlast]
  have hcolon : strstr [58] (altName.kind.name ++ 58 :: (between ++ altName.value)) =
      some altName.kind.name.length :=
    strstr_after fun hmem => (altName.kind.name_plain _ hmem).2.2.1 rfl
  have hvalue : ((altName.kind.name ++ 58 :: (between ++ altName.value)).drop
      (altName.kind.name.length + 1)).dropWhile isTrimmed = altName.value := by
    rw [← List.drop_drop, List.drop_left, List.drop_one, List.tail_cons,
      dropWhile_pad hbetween altName.head_trimmed]
  have hkind : altName.kind.name.length ≠ 0 := by
    have := altName.kind.name_length
    omega
  have hne : altName.value.length ≠ 0 := by simpa using altName.value_ne_nil
  simp only [inlineEntry, htrim, hcolon, hvalue, List.take_left, if_neg hkind, if_neg hne]
  rfl

theorem SpelledInline.ne_nil (h : SpelledInline altName token) : token ≠ [] := by
  obtain ⟨before, between, behind, -, -, -, rfl⟩ := h
  simp

theorem SpelledInline.mem (h : SpelledInline altName token) {c : Byte} (hc : c ∈ token) :
    isTrimmed c = true ∨ c ∈ altName.kind.name ∨ c = 58 ∨ c ∈ altName.value := by
  obtain ⟨before, between, behind, hbefore, hbetween, hbehind, rfl⟩ := h
  simp only [List.mem_append, List.mem_cons] at hc
  rcases hc with hc | (hc | rfl | hc | hc) | hc
  · exact .inl (hbefore c hc)
  · exact .inr (.inl hc)
  · exact .inr (.inr (.inl rfl))
  · exact .inl (hbetween c hc)
  · exact .inr (.inr (.inr hc))
  · exact .inl (hbehind c hc)

theorem SpelledInline.comma_free (h : SpelledInline altName token) : (44 : Byte) ∉ token := by
  intro hc
  rcases h.mem hc with hblank | hname | hcolon | hvalue
  · exact absurd hblank (by decide)
  · exact (altName.kind.name_plain _ hname).2.1 rfl
  · exact absurd hcolon (by decide)
  · exact altName.comma_free hvalue

theorem SpelledInline.nul_free (h : SpelledInline altName token) : (0 : Byte) ∉ token := by
  intro hc
  rcases h.mem hc with hblank | hname | hcolon | hvalue
  · exact absurd hblank (by decide)
  · exact (altName.kind.name_plain _ hname).1 rfl
  · exact absurd hcolon (by decide)
  · exact altName.nul_free hvalue

end Spelled

section Lists
variable {lib : X509Lib} {env : CopyEnv} {altNames : List AltName}

theorem inlineLoop_spelled {tokens : List (List Byte)}
    (h : List.Forall₂ SpelledInline altNames tokens) (x509 : X509Object) :
    inlineLoop lib env x509 tokens = altNamesLoop lib env x509 (altNames.map AltName.pair) := by
  induction h generalizing x509 with
  | nil => rfl
  | cons hspelled _ ih =>
    simp only [inlineLoop, inlineEntry_spelled hspelled, List.map_cons, altNamesLoop, AltName.pair]
    split
    · exact ih _
    · rfl

theorem altNamesLoop_numbered {pairs : List (List Byte × List Byte)}
    (h : List.Forall₂ SpelledNumbered altNames pairs) (x509 : X509Object) :
    altNamesLoop lib env x509 pairs = altNamesLoop lib env x509 (altNames.map AltName.pair) := by
  induction h generalizing x509 with
  | nil => rfl
  | cons hspelled _ ih =>
    obtain ⟨k, rfl⟩ := hspelled
    simp only [altNamesLoop, List.map_cons, AltName.pair, addAltName_kind]
    split
    · exact ih _
    · rfl

theorem spelled_mem {tokens : List (List Byte)} (h : List.Forall₂ SpelledInline altNames tokens) :
    ∀ token ∈ tokens, ∃ altName, SpelledInline altName token := by
  induction h with
  | nil => simp
  | cons hspelled _ ih =>
    intro token htoken
    rcases List.mem_cons.mp htoken with rfl | htoken
    · exact ⟨_, hspelled⟩
    · exact ih token htoken

theorem inlineText_cons (token : List Byte) (tokens : List (List Byte)) :
    inlineText (token :: tokens) =
      token ++ if tokens = [] then [] else 44 :: inlineText tokens := by
  cases tokens with
  | nil => simp [inlineText]
  | cons next tokens => simp [inlineText, List.intercalate_cons_cons]

theorem mem_inlineText {tokens : List (List Byte)} {c : Byte} (hc : c ∈ inlineText tokens) :
    c = 44 ∨ ∃ token ∈ tokens, c ∈ token := by
  induction tokens with
  | nil => cases hc
  | cons token tokens ih =>
    rw [inlineText_cons, List.mem_append] at hc
    rcases hc with hc | hc
    · exact .inr ⟨token, List.mem_cons_self, hc⟩
    · split_ifs at hc
      · cases hc
      · rcases List.mem_cons.mp hc with rfl | hc
        · exact .inl rfl
        · rcases ih hc with rfl | ⟨other, hother, hmem⟩
          · exact .inl rfl
          · exact .inr ⟨other, List.mem_cons_of_mem _ hother, hmem⟩

theorem inlineText_nul_free {tokens : List (List Byte)}
    (h : List.Forall₂ SpelledInline altNames tokens) : (0 : Byte) ∉ inlineText tokens := by
  intro hc
  rcases mem_inlineText hc with hcomma | ⟨token, htoken, hmem⟩
  · cases hcomma
  · obtain ⟨altName, hspelled⟩ := spelled_mem h token htoken
    exact hspelled.nul_free hmem

theorem inlineText_head {tokens : List (List Byte)}
    (h : List.Forall₂ SpelledInline altNames tokens) : (inlineText tokens).headD 0 ≠ 64 := by
  cases h with
  | nil => decide
  | cons hspelled _ =>
    rw [inlineText_cons]
    obtain ⟨before, between, behind, hbefore, -, -, rfl⟩ := hspelled
    cases before with
    | cons c before =>
      intro hc
      have hblank : isTrimmed 64 = true := hc ▸ hbefore c List.mem_cons_self
      cases hblank
    | nil =>
      rename_i altName _ _ _
      cases hname : altName.kind.name with
      | nil =>
        have hlength := altName.kind.name_length
        simp [hname] at hlength
      | cons c rest =>
        intro hc
        exact (altName.kind.name_plain c (by simp [hname])).2.2.2.1 hc

theorem setInlineAltNames_spelled {tokens : List (List Byte)}
    (h : List.Forall₂ SpelledInline altNames tokens) (x509 : X509Object) :
    setInlineAltNames lib env x509 (inlineText tokens) =
      altNamesLoop lib env x509 (altNames.map AltName.pair) := by
  have htokens : strtok 44 (inlineText tokens) = tokens := by
    apply strtok_intercalate
    intro token htoken
    obtain ⟨altName, hspelled⟩ := spelled_mem h token htoken
    exact ⟨hspelled.ne_nil, hspelled.comma_free⟩
  rw [setInlineAltNames, htokens, inlineLoop_spelled h]

end Lists

section Sources
variable {lib : X509Lib} {env : CopyEnv} {altNames : List AltName} {conf : ConfFile}
  {sect : List Byte} {x509 : X509Object}

theorem setSubjectAltName_inline {tokens : List (List Byte)}
    (h : List.Forall₂ SpelledInline altNames tokens)
    (hconf : conf.string (some sect) (str "subjectAltName") = some (inlineText tokens))
    (hcopies : env.Copies .subjectAltName (inlineText tokens)) :
    setSubjectAltName lib env x509 conf sect =
      altNamesLoop lib env x509 (altNames.map AltName.pair) := by
  simp only [setSubjectAltName, hconf, if_neg (inlineText_head h),
    hcopies.copy (inlineText_nul_free h)]
  exact setInlineAltNames_spelled h x509

theorem setSubjectAltName_section {name : List Byte} {pairs : List (List Byte × List Byte)}
    (h : List.Forall₂ SpelledNumbered altNames pairs)
    (hconf : conf.string (some sect) (str "subjectAltName") = some (64 :: name))
    (hpairs : (conf.pairs name).getD [] = pairs) :
    setSubjectAltName lib env x509 conf sect =
      altNamesLoop lib env x509 (altNames.map AltName.pair) := by
  simp only [setSubjectAltName, hconf, List.headD_cons, if_true, List.drop_one, List.tail_cons,
    setAltNames]
  rw [← altNamesLoop_numbered h, ← hpairs]
  cases conf.pairs name with
  | none => rfl
  | some pairs => rfl

theorem parseAddExt_spelled {tokens : List (List Byte)}
    (h : List.Forall₂ SpelledInline altNames tokens)
    (hcopies : env.Copies .addExt (addExtText tokens)) :
    parseAddExt lib env x509 (addExtText tokens) =
      altNamesLoop lib env x509 (altNames.map AltName.pair) := by
  have hnul : (0 : Byte) ∉ addExtText tokens := by
    intro hc
    rcases List.mem_append.mp hc with hname | hrest
    · exact absurd hname (by decide)
    · rcases List.mem_cons.mp hrest with heq | htext
      · cases heq
      · exact inlineText_nul_free h htext
  have hsplit : strstr [61] (addExtText tokens) = some (str "subjectAltName").length :=
    strstr_after (by decide)
  have hname : (addExtText tokens).take (str "subjectAltName").length = str "subjectAltName" :=
    List.take_left
  have hval : (addExtText tokens).drop ((str "subjectAltName").length + 1) = inlineText tokens := by
    rw [← List.drop_drop, addExtText, List.drop_left, List.drop_one, List.tail_cons]
  simp only [parseAddExt, hcopies.copy hnul, hsplit, hname, hval, if_true]
  exact setInlineAltNames_spelled h x509

theorem altName_sources_agree {confInline confSection : ConfFile}
    {inline added : List (List Byte)} {name : List Byte} {pairs : List (List Byte × List Byte)}
    (hinline : List.Forall₂ SpelledInline altNames inline)
    (hadded : List.Forall₂ SpelledInline altNames added)
    (hnumbered : List.Forall₂ SpelledNumbered altNames pairs)
    (hconfInline : confInline.string (some sect) (str "subjectAltName") = some (inlineText inline))
    (hconfSection : confSection.string (some sect) (str "subjectAltName") = some (64 :: name))
    (hpairs : (confSection.pairs name).getD [] = pairs)
    (hother : ∀ nid : ExtensionKey,
      confInline.string (some sect) nid.name = confSection.string (some sect) nid.name)
    (hcopyInline : env.Copies .subjectAltName (inlineText inline))
    (hcopyAdded : env.Copies .addExt (addExtText added)) :
    setExtensions lib env x509 confInline (some sect) =
        setExtensions lib env x509 confSection (some sect) ∧
      setExtensions lib env x509 confInline (some sect) =
        parseAddExt lib env (setParsedExtensions lib confInline sect x509) (addExtText added) := by
  have hparsed : setParsedExtensions lib confInline sect x509 =
      setParsedExtensions lib confSection sect x509 := by
    simp only [setParsedExtensions, List.foldl, setExtension, hother]
  constructor
  · simp only [setExtensions, setSubjectAltName_inline hinline hconfInline hcopyInline,
      setSubjectAltName_section hnumbered hconfSection hpairs, hparsed]
  · simp only [setExtensions, setSubjectAltName_inline hinline hconfInline hcopyInline,
      parseAddExt_spelled hadded hcopyAdded]

end Sources

def subjectAltNameConf (value : List Byte) (pairs : List (List Byte × List Byte)) : ConfFile where
  string _ key := if key = str "subjectAltName" then some value else none
  number _ _ := none
  pairs _ := some pairs

def copyEnv (alloc : TextCopy → Bool) : CopyEnv := ⟨fun site _ => alloc site, fun _ => []⟩

theorem isTrimmed_a : isTrimmed 97 = false := by decide

def hostName (n : Nat) : AltName where
  kind := .dns
  value := List.replicate (n + 1) 97
  value_ne_nil := List.cons_ne_nil _ _
  comma_free hmem := absurd (List.eq_of_mem_replicate hmem) (by decide)
  nul_free hmem := absurd (List.eq_of_mem_replicate hmem) (by decide)
  head_trimmed c hc := by
    rw [List.eq_of_mem_replicate (List.mem_of_mem_head? hc)]
    exact isTrimmed_a
  last_trimmed c hc := by
    rw [List.eq_of_mem_replicate (List.mem_of_mem_getLast? hc)]
    exact isTrimmed_a

def hostToken (n : Nat) : List Byte := str "DNS" ++ 58 :: (hostName n).value

def hostPair (n : Nat) : List Byte × List Byte := (str "DNS" ++ 46 :: decimal 1, (hostName n).value)

theorem host_spelled (n : Nat) : SpelledInline (hostName n) (hostToken n) := by
  refine ⟨[], [], [], ?_, ?_, ?_, ?_⟩
  · simp [Blank]
  · simp [Blank]
  · simp [Blank]
  · simp [hostToken, hostName, AltKind.name]

theorem host_numbered (n : Nat) : SpelledNumbered (hostName n) (hostPair n) := ⟨1, rfl⟩

def mailName : AltName where
  kind := .email
  value := str "m@a"
  value_ne_nil := by decide +kernel
  comma_free := by decide +kernel
  nul_free := by decide +kernel
  head_trimmed := by decide +kernel
  last_trimmed := by decide +kernel

def uriName : AltName where
  kind := .uri
  value := str "u:a b"
  value_ne_nil := by decide +kernel
  comma_free := by decide +kernel
  nul_free := by decide +kernel
  head_trimmed := by decide +kernel
  last_trimmed := by decide +kernel

def addressName : AltName where
  kind := .ip
  value := str "192.0.2.1"
  value_ne_nil := by decide +kernel
  comma_free := by decide +kernel
  nul_free := by decide +kernel
  head_trimmed := by decide +kernel
  last_trimmed := by decide +kernel

def mixedNames : List AltName := [hostName 0, mailName, uriName, addressName]

def mixedInline : List (List Byte) :=
  [str "DNS:a", str " email: m@a", str "URI:u:a b ", str "  IP:192.0.2.1"]

def mixedAdded : List (List Byte) :=
  [str "DNS: a ", str "email:m@a", str " URI:  u:a b", str "IP:192.0.2.1"]

def mixedPairs : List (List Byte × List Byte) :=
  [hostPair 0, (str "email" ++ 46 :: decimal 1, str "m@a"),
    (str "URI" ++ 46 :: decimal 7, str "u:a b"), (str "IP" ++ 46 :: decimal 1, str "192.0.2.1")]

theorem mixedInline_spelled : List.Forall₂ SpelledInline mixedNames mixedInline := by
  refine .cons ⟨[], [], [], ?_⟩ (.cons ⟨[32], [32], [], ?_⟩ (.cons ⟨[], [], [32], ?_⟩
    (.cons ⟨[32, 32], [], [], ?_⟩ .nil)))
  all_goals decide +kernel

theorem mixedAdded_spelled : List.Forall₂ SpelledInline mixedNames mixedAdded := by
  refine .cons ⟨[], [32], [32], ?_⟩ (.cons ⟨[], [], [], ?_⟩ (.cons ⟨[32], [32, 32], [], ?_⟩
    (.cons ⟨[], [], [], ?_⟩ .nil)))
  all_goals decide +kernel

theorem mixedPairs_numbered : List.Forall₂ SpelledNumbered mixedNames mixedPairs := by
  refine .cons ⟨1, ?_⟩ (.cons ⟨1, ?_⟩ (.cons ⟨7, ?_⟩ (.cons ⟨1, ?_⟩ .nil)))
  all_goals rfl

def addressLib : X509Lib := { plainLib with a2iIpAddress := fun _ => some [192, 0, 2, 1] }

theorem altName_sources_agree_host :
    setExtensions addressLib (copyEnv fun _ => true) []
        (subjectAltNameConf (inlineText mixedInline) []) (some (str "ext")) =
        setExtensions addressLib (copyEnv fun _ => true) []
          (subjectAltNameConf (str "@alt") mixedPairs) (some (str "ext")) ∧
      setExtensions addressLib (copyEnv fun _ => true) []
        (subjectAltNameConf (inlineText mixedInline) []) (some (str "ext")) =
        parseAddExt addressLib (copyEnv fun _ => true) [] (addExtText mixedAdded) :=
  altName_sources_agree mixedInline_spelled mixedAdded_spelled mixedPairs_numbered rfl rfl rfl
    (fun nid => by cases nid <;> decide +kernel) ⟨by decide +kernel, rfl⟩ ⟨by decide +kernel, rfl⟩

theorem host_section (alloc : TextCopy → Bool) (n : Nat) :
    setExtensions plainLib (copyEnv alloc) [] (subjectAltNameConf (str "@alt") [hostPair n])
        (some (str "ext")) =
      (wolfcluSuccess, [.addAltName (hostName n).value
        (MachineInt.toInt32 (hostName n).value.length) .dns]) := by
  have hnumbered : List.Forall₂ SpelledNumbered [hostName n] [hostPair n] :=
    .cons (host_numbered n) .nil
  have hconf : (subjectAltNameConf (str "@alt") [hostPair n]).string (some (str "ext"))
      (str "subjectAltName") = some (64 :: str "alt") := rfl
  have hnone : setParsedExtensions plainLib (subjectAltNameConf (str "@alt") [hostPair n])
      (str "ext") [] = [] := rfl
  simp only [setExtensions, hnone, setSubjectAltName_section hnumbered hconf rfl]
  rfl

theorem long_host_copy {n : Nat} (hn : n = 4294967291) :
    (copyEnv fun _ => true).copy .subjectAltName (inlineText [hostToken n]) = some [68] := by
  have hlength : (inlineText [hostToken n]).length = 4294967296 := by
    have hname : (str "DNS").length = 3 := rfl
    simp only [inlineText_cons, if_true, List.append_nil, hostToken, hostName, List.length_append,
      List.length_cons, List.length_replicate, hname]
    omega
  have hsize : MachineInt.sizeT (MachineInt.toInt32
      (MachineInt.toInt32 ((4294967296 : Nat) : Int) + 1)) = 1 := by
    decide
  simp only [CopyEnv.copy, hlength, hsize]
  rfl

theorem long_host_refused {n : Nat} (hn : n = 4294967291) :
    setExtensions plainLib (copyEnv fun _ => true) []
      (subjectAltNameConf (inlineText [hostToken n]) []) (some (str "ext")) =
        (wolfcluFatalError, []) := by
  have hconf : (subjectAltNameConf (inlineText [hostToken n]) []).string (some (str "ext"))
      (str "subjectAltName") = some (inlineText [hostToken n]) := rfl
  have hnone : setParsedExtensions plainLib (subjectAltNameConf (inlineText [hostToken n]) [])
      (str "ext") [] = [] := rfl
  have hhead : (inlineText [hostToken n]).headD 0 ≠ 64 :=
    inlineText_head (.cons (host_spelled n) .nil)
  simp only [setExtensions, hnone, setSubjectAltName, hconf, if_neg hhead, long_host_copy hn]
  decide

theorem altName_sources_differ :
    (∃ n, (setExtensions plainLib (copyEnv fun _ => false) []
        (subjectAltNameConf (inlineText [hostToken n]) []) (some (str "ext"))).1 ≠ wolfcluSuccess ∧
      (setExtensions plainLib (copyEnv fun _ => false) []
        (subjectAltNameConf (str "@alt") [hostPair n]) (some (str "ext"))).1 = wolfcluSuccess) ∧
    ∃ n, (setExtensions plainLib (copyEnv fun _ => true) []
        (subjectAltNameConf (inlineText [hostToken n]) []) (some (str "ext"))).1 ≠ wolfcluSuccess ∧
      (setExtensions plainLib (copyEnv fun _ => true) []
        (subjectAltNameConf (str "@alt") [hostPair n]) (some (str "ext"))).1 = wolfcluSuccess := by
  refine ⟨⟨0, by decide, by rw [host_section]⟩, 4294967291, ?_, by rw [host_section]⟩
  rw [long_host_refused rfl]
  decide

end WolfCLU
