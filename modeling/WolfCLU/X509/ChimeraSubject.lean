import WolfCLU.X509.ChimeraPreTbs
import WolfCLU.X509.SignedOutput

namespace WolfCLU.Chimera
open CString TextLine

section Fields
variable {ctcNameSize : Nat} {name name' : CertName} {nid nid' : Nid} {key value token : List Byte}

theorem get_set_standard (hnid : nid ∈ standardNids) :
    (name.set ctcNameSize (standardName nid) value).get nid' =
      if nid' = nid then strlcpy ctcNameSize value else name.get nid' := by
  cases nid with
  | other n => simp [standardNids] at hnid
  | countryName => cases nid' <;> rfl
  | stateOrProvinceName => cases nid' <;> rfl
  | localityName => cases nid' <;> rfl
  | organizationName => cases nid' <;> rfl
  | organizationalUnitName => cases nid' <;> rfl
  | commonName => cases nid' <;> rfl
  | emailAddress => cases nid' <;> rfl

theorem get_set (name : CertName) (key value : List Byte) (nid : Nid) :
    (name.set ctcNameSize key value).get nid = name.get nid ∨
      (name.set ctcNameSize key value).get nid = strlcpy ctcNameSize value := by
  simp only [CertName.set]
  split_ifs <;> cases nid <;> simp [CertName.get]

theorem mem_entries {e : NameEntry} :
    e ∈ name.entries ↔ e.nid ∈ standardNids ∧ e.value = name.get e.nid ∧ e.value ≠ [] := by
  simp only [CertName.entries, List.mem_filter, List.mem_map, decide_eq_true_eq]
  constructor
  · rintro ⟨⟨nid, hnid, rfl⟩, hne⟩
    exact ⟨hnid, rfl, hne⟩
  · rintro ⟨hnid, hvalue, hne⟩
    refine ⟨⟨e.nid, hnid, ?_⟩, hne⟩
    rw [← hvalue]

theorem entries_distinct (name : CertName) : (name.entries.map NameEntry.nid).Nodup := by
  have hall : (standardNids.map fun nid => (⟨nid, name.get nid⟩ : NameEntry)).map NameEntry.nid =
      standardNids := rfl
  have hnodup : standardNids.Nodup := by decide
  exact (hall ▸ hnodup).sublist (List.filter_sublist.map NameEntry.nid)

end Fields

structure Carried (ctcNameSize : Nat) (subject : X509Name) : Prop where
  standard : ∀ e ∈ subject, e.nid ∈ standardNids
  value_ne_nil : ∀ e ∈ subject, e.value ≠ []
  value_fits : ∀ e ∈ subject, e.value.length < ctcNameSize
  value_plain : ∀ e ∈ subject, ∀ c ∈ e.value, c ∉ ([0, 47, 61] : List Byte)
  distinct : (subject.map NameEntry.nid).Nodup

theorem Carried.perm {ctcNameSize : Nat} {a b : X509Name} (h : Carried ctcNameSize a)
    (hab : a.Perm b) : Carried ctcNameSize b where
  standard e he := h.standard e (hab.mem_iff.mpr he)
  value_ne_nil e he := h.value_ne_nil e (hab.mem_iff.mpr he)
  value_fits e he := h.value_fits e (hab.mem_iff.mpr he)
  value_plain e he := h.value_plain e (hab.mem_iff.mpr he)
  distinct := (hab.map NameEntry.nid).nodup_iff.mp h.distinct

structure Filled (ctcNameSize : Nat) (value : List Byte) : Prop where
  length : value.length ≤ ctcNameSize - 1
  plain : ∀ c ∈ value, c ∉ ([0, 47, 61] : List Byte)

section Parse
variable {ctcNameSize : Nat} {name name' : CertName} {token : List Byte} {tokens : List (List Byte)}

theorem parseComponent_eq_none :
    parseComponent ctcNameSize name token = none ↔ (strtok 61 token).length < 2 := by
  simp only [parseComponent]
  split
  · next key value rest hsplit => simp [hsplit]
  · next hshort =>
    simp only [true_iff]
    match hsplit : strtok 61 token with
    | [] => simp
    | [key] => simp
    | key :: value :: rest => exact absurd hsplit (hshort key value rest)

theorem foldlM_parseComponent_eq_none :
    tokens.foldlM (parseComponent ctcNameSize) name = none ↔
      ∃ token ∈ tokens, (strtok 61 token).length < 2 := by
  induction tokens generalizing name with
  | nil => simp
  | cons token tokens ih =>
    rw [List.foldlM_cons]
    cases hstep : parseComponent ctcNameSize name token with
    | none =>
      have hshort := parseComponent_eq_none.mp hstep
      simp only [Option.bind_eq_bind, Option.bind_none, List.exists_mem_cons_iff, hshort, true_or]
    | some next =>
      have hlong : ¬ (strtok 61 token).length < 2 := by
        rw [← @parseComponent_eq_none ctcNameSize name, hstep]
        simp
      simp only [Option.bind_eq_bind, Option.bind_some, ih, List.exists_mem_cons_iff, hlong, false_or]

theorem parseComponent_filled (hname : ∀ nid, Filled ctcNameSize (name.get nid))
    (htoken : (0 : Byte) ∉ token ∧ (47 : Byte) ∉ token)
    (h : parseComponent ctcNameSize name token = some name') (nid : Nid) :
    Filled ctcNameSize (name'.get nid) := by
  simp only [parseComponent] at h
  split at h
  · next key value rest hsplit =>
    obtain rfl := Option.some.inj h
    rcases get_set name key value nid with hget | hget
    · rw [hget]
      exact hname nid
    · obtain ⟨_, hfree, hsub⟩ := @of_mem_strtok 61 token value (by simp [hsplit])
      rw [hget]
      refine ⟨by simp [strlcpy], fun c hc => ?_⟩
      have hc : c ∈ value := List.mem_of_mem_take hc
      simp only [List.mem_cons, List.not_mem_nil, or_false, not_or]
      exact ⟨fun h0 => htoken.1 (h0 ▸ hsub hc), fun h47 => htoken.2 (h47 ▸ hsub hc),
        fun h61 => hfree (h61 ▸ hc)⟩
  · cases h

theorem foldlM_parseComponent_filled (hname : ∀ nid, Filled ctcNameSize (name.get nid))
    (htokens : ∀ token ∈ tokens, (0 : Byte) ∉ token ∧ (47 : Byte) ∉ token)
    (h : tokens.foldlM (parseComponent ctcNameSize) name = some name') (nid : Nid) :
    Filled ctcNameSize (name'.get nid) := by
  induction tokens generalizing name with
  | nil =>
    obtain rfl : name = name' := by simpa using h
    exact hname nid
  | cons token tokens ih =>
    rw [List.foldlM_cons, Option.bind_eq_bind, Option.bind_eq_some_iff] at h
    obtain ⟨next, hstep, hrest⟩ := h
    exact ih (parseComponent_filled hname (htokens token List.mem_cons_self) hstep)
      (fun t ht => htokens t (List.mem_cons_of_mem _ ht)) hrest

theorem parseSubject_carried {text : List Byte} (h : parseSubject ctcNameSize (cstr text) = some name) :
    Carried ctcNameSize name.entries := by
  have hempty : ∀ nid, Filled ctcNameSize (CertName.empty.get nid) := by
    intro nid
    cases nid <;> exact ⟨Nat.zero_le _, by simp [CertName.get, CertName.empty]⟩
  have htokens : ∀ token ∈ strtok 47 (cstr text), (0 : Byte) ∉ token ∧ (47 : Byte) ∉ token := by
    intro token ht
    obtain ⟨_, hfree, hsub⟩ := of_mem_strtok ht
    exact ⟨fun h0 => nul_not_mem_cstr text (hsub h0), hfree⟩
  have hfilled := foldlM_parseComponent_filled hempty htokens h
  have hmem : ∀ e ∈ name.entries, e.nid ∈ standardNids ∧ e.value ≠ [] ∧ Filled ctcNameSize e.value := by
    intro e he
    obtain ⟨hnid, hvalue, hne⟩ := mem_entries.mp he
    exact ⟨hnid, hne, hvalue ▸ hfilled e.nid⟩
  refine ⟨fun e he => (hmem e he).1, fun e he => (hmem e he).2.1, fun e he => ?_,
    fun e he => (hmem e he).2.2.plain, entries_distinct name⟩
  have hpos := List.length_pos_iff.mpr (hmem e he).2.1
  have := (hmem e he).2.2.length
  omega

end Parse

theorem standardName_plain : ∀ nid ∈ standardNids,
    standardName nid ≠ [] ∧ ∀ c ∈ standardName nid, c ∉ ([0, 47, 61] : List Byte) := by
  decide +kernel

section Oneline
variable {names : NameLib} {ctcNameSize : Nat} {subject : X509Name}
  (hnames : ∀ nid ∈ standardNids, names.shortName nid = standardName nid)
include hnames

theorem Carried.word_plain (h : Carried ctcNameSize subject) {e : NameEntry} (he : e ∈ subject) :
    ∀ c ∈ word names e e.value, c ∉ ([0, 47] : List Byte) := by
  intro c hc
  simp only [word, hnames e.nid (h.standard e he), List.mem_append, List.mem_cons] at hc
  rcases hc with hc | rfl | hc
  · have := (standardName_plain e.nid (h.standard e he)).2 c hc
    simp_all
  · decide
  · have := h.value_plain e he c hc
    simp_all

theorem Carried.parseComponent_word (h : Carried ctcNameSize subject) {e : NameEntry}
    (he : e ∈ subject) (name : CertName) :
    parseComponent ctcNameSize name (word names e e.value) =
      some (name.set ctcNameSize (standardName e.nid) e.value) := by
  have htag := standardName_plain e.nid (h.standard e he)
  have htag61 : (61 : Byte) ∉ standardName e.nid := fun h61 => htag.2 61 h61 (by decide)
  have hvalue61 : (61 : Byte) ∉ e.value := fun h61 => h.value_plain e he 61 h61 (by decide)
  have hsplit : strtok 61 (word names e e.value) = [standardName e.nid, e.value] := by
    rw [word, hnames e.nid (h.standard e he), strtok_append_cons, strtok_singleton htag.1 htag61,
      strtok_singleton (h.value_ne_nil e he) hvalue61, List.singleton_append]
  rw [parseComponent, hsplit]

theorem Carried.foldlM_words (h : Carried ctcNameSize subject) {es : List NameEntry}
    (hes : ∀ e ∈ es, e ∈ subject) (name : CertName) :
    ∃ name', (es.map fun e => word names e e.value).foldlM (parseComponent ctcNameSize) name =
        some name' ∧
      ∀ nid, (∃ e ∈ es, e.nid = nid ∧ name'.get nid = e.value) ∨
        ((∀ e ∈ es, e.nid ≠ nid) ∧ name'.get nid = name.get nid) := by
  induction es generalizing name with
  | nil => exact ⟨name, rfl, fun nid => Or.inr ⟨by simp, rfl⟩⟩
  | cons e es ih =>
    have he := hes e List.mem_cons_self
    have hwhole : strlcpy ctcNameSize e.value = e.value := by
      have := h.value_fits e he
      exact List.take_of_length_le (by omega)
    obtain ⟨name', hfold, hget⟩ := ih (fun f hf => hes f (List.mem_cons_of_mem _ hf))
      (name.set ctcNameSize (standardName e.nid) e.value)
    refine ⟨name', ?_, fun nid => ?_⟩
    · rw [List.map_cons, List.foldlM_cons, h.parseComponent_word hnames he]
      exact hfold
    · rcases hget nid with ⟨f, hf, hnid, hvalue⟩ | ⟨hnone, hsame⟩
      · exact Or.inl ⟨f, List.mem_cons_of_mem _ hf, hnid, hvalue⟩
      · rw [get_set_standard (h.standard e he), hwhole] at hsame
        by_cases hnid : nid = e.nid
        · exact Or.inl ⟨e, List.mem_cons_self, hnid.symm, by rw [hsame, if_pos hnid]⟩
        · rw [if_neg hnid] at hsame
          refine Or.inr ⟨fun f hf => ?_, hsame⟩
          rcases List.mem_cons.mp hf with rfl | hf
          · exact fun heq => hnid heq.symm
          · exact hnone f hf

theorem Carried.parseSubject_oneline (h : Carried ctcNameSize subject) :
    ∃ name, parseSubject ctcNameSize (cstr (names.oneline subject)) = some name ∧
      name.entries.Perm subject := by
  have hplain : (0 : Byte) ∉ names.oneline subject := by
    intro h0
    rw [oneline_words] at h0
    obtain ⟨w, hw, h0⟩ := List.mem_flatMap.mp h0
    obtain ⟨e, he, rfl⟩ := List.mem_map.mp hw
    rcases List.mem_cons.mp h0 with h0 | h0
    · cases h0
    · exact h.word_plain hnames he 0 h0 (by decide)
  have htokens : strtok 47 (names.oneline subject) = subject.map fun e => word names e e.value := by
    rw [oneline_words]
    refine strtok_delimited fun w hw => ?_
    obtain ⟨e, he, rfl⟩ := List.mem_map.mp hw
    exact ⟨by simp [word], fun h47 => h.word_plain hnames he 47 h47 (by decide)⟩
  obtain ⟨name, hfold, hget⟩ := h.foldlM_words hnames (fun e he => he) CertName.empty
  refine ⟨name, ?_, ?_⟩
  · rw [parseSubject, cstr_of_nul_free hplain, htokens]
    exact hfold
  · refine (List.perm_ext_iff_of_nodup (entries_distinct name).of_map h.distinct.of_map).mpr ?_
    intro e
    rw [mem_entries]
    constructor
    · rintro ⟨_, hvalue, hne⟩
      rcases hget e.nid with ⟨f, hf, hnid, hfvalue⟩ | ⟨_, hblank⟩
      · have hef : e = f := by
          cases e
          cases f
          simp_all
        exact hef ▸ hf
      · have hblank : e.value = [] := by
          rw [hvalue, hblank]
          cases e.nid <;> rfl
        exact absurd hblank hne
    · intro he
      refine ⟨h.standard e he, ?_, h.value_ne_nil e he⟩
      rcases hget e.nid with ⟨f, hf, hnid, hfvalue⟩ | ⟨hnone, _⟩
      · rw [hfvalue, List.inj_on_of_nodup_map h.distinct hf he hnid]
      · exact absurd rfl (hnone e he)

end Oneline

section Issue
variable {acceptsName : CertName → Bool} {lib : CertLib acceptsName} {rng : Nat → List Byte}
  {clock : Nat → Nat} {ctcNameSize : Nat} {args : Args} {issued : Issued}

theorem inputs_subject {inp : Inputs} (h : args.inputs = .ok inp) : args.subject = some inp.subject := by
  simp only [Args.inputs] at h
  split at h
  · next hsubject _ =>
    rw [hsubject]
    split at h
    · cases h
      rfl
    · cases h
      rfl
    · cases h
  · cases h

theorem genChimeraCertSign_subject {subject : List Byte} (hsubject : args.subject = some subject)
    (h : genChimeraCertSign lib rng clock ctcNameSize args = .ok issued) :
    ∃ name, parseSubject ctcNameSize subject = some name ∧ acceptsName name = true ∧
      issued.body.subject = name.entries := by
  obtain ⟨inp, keys, name, hinp, hparse, hsign⟩ := genChimeraCertSign_ok h
  obtain ⟨_, _, _, _, hname, haccepts⟩ := dualSign_bodies hsign
  rw [inputs_subject hinp] at hsubject
  obtain rfl := Option.some.inj hsubject
  exact ⟨name, hparse, haccepts, hname⟩

theorem altSign_subject {names : NameLib} {env : CaEnv} {s : CaState} {subjKey : Option (List Byte)}
    {outForm : Form} (h : altSign lib rng clock ctcNameSize names env s subjKey outForm = some issued) :
    ∃ x509 name, s.reqIn.bind env.certificatePem = some x509 ∧
      parseSubject ctcNameSize (cstr (names.oneline x509.subject)) = some name ∧
      acceptsName name = true ∧ issued.body.subject = name.entries := by
  simp only [altSign] at h
  rw [ite_eq_iff] at h
  rcases h with ⟨_, h⟩ | ⟨_, h⟩
  · cases h
  simp only [Option.bind_eq_bind, Option.bind_eq_some_iff] at h
  obtain ⟨signer, _, _, _, x509, hx509, h⟩ := h
  split_ifs at h
  have hrun := ok_of_toOption h
  obtain ⟨name, hparse, haccepts, hname⟩ := genChimeraCertSign_subject rfl hrun
  exact ⟨x509, name, Option.bind_eq_some_iff.mpr hx509, hparse, haccepts, hname⟩

end Issue

def requestEnv (subject : X509Name) : CaEnv :=
  { sampleCaEnv with
    dualAlg := true
    certificatePem := fun _ => some { sampleCert with subject := subject } }

def altSignState : CaState :=
  { CaState.initial [] with
    reqIn := some (str "request.pem")
    keyIn := some (str "ca-key")
    altKey := some (str "ca-mldsa-key")
    altKeyPub := some (str "ca-mldsa-pub")
    out := some (str "ca.pem")
    altSign := true }

theorem altSign_issues {acceptsName : CertName → Bool} {ctcNameSize : Nat} {names : NameLib}
    {subject : X509Name} {name : CertName} (rng : Nat → List Byte) (clock : Nat → Nat)
    (hparse : parseSubject ctcNameSize (cstr (names.oneline subject)) = some name)
    (hname : acceptsName name = true) :
    ∃ issued, altSign (plainCertLib acceptsName) rng clock ctcNameSize names (requestEnv subject)
      altSignState none .pem = some issued := by
  obtain ⟨issued, hrun⟩ : ∃ issued, genChimeraCertSign (plainCertLib acceptsName) rng clock
      ctcNameSize (caArgs (cstr (names.oneline subject))) = .ok issued :=
    plain_genChimeraCertSign hparse hname
  refine ⟨issued, ?_⟩
  have hcall : altSign (plainCertLib acceptsName) rng clock ctcNameSize names (requestEnv subject)
      altSignState none .pem = (genChimeraCertSign (plainCertLib acceptsName) rng clock
        ctcNameSize (caArgs (cstr (names.oneline subject)))).toOption := rfl
  rw [hcall, hrun]
  rfl

section Claim
variable (names : NameLib) (acceptsName : CertName → Bool) (ctcNameSize : Nat) (subject : X509Name)

def KeepsSubject : Prop :=
  ∀ (lib : CertLib acceptsName) (rng : Nat → List Byte) (clock : Nat → Nat) (env : CaEnv) (s : CaState)
    (subjKey : Option (List Byte)) (outForm : Form) (x509 : X509) (issued : Issued),
    s.reqIn.bind env.certificatePem = some x509 → x509.subject = subject →
    altSign lib rng clock ctcNameSize names env s subjKey outForm = some issued →
    issued.body.subject.Perm subject

def Refused : Prop :=
  (∃ token ∈ strtok 47 (cstr (names.oneline subject)), (strtok 61 token).length < 2) ∨
    ∃ name, parseSubject ctcNameSize (cstr (names.oneline subject)) = some name ∧
      acceptsName name = false

end Claim

theorem keepsSubject_iff {names : NameLib}
    (hnames : ∀ nid ∈ standardNids, names.shortName nid = standardName nid)
    (acceptsName : CertName → Bool) (ctcNameSize : Nat) (subject : X509Name) :
    KeepsSubject names acceptsName ctcNameSize subject ↔
      Refused names acceptsName ctcNameSize subject ∨ Carried ctcNameSize subject := by
  constructor
  · intro hkeeps
    cases hparse : parseSubject ctcNameSize (cstr (names.oneline subject)) with
    | none => exact Or.inl (Or.inl (foldlM_parseComponent_eq_none.mp hparse))
    | some name =>
      cases hname : acceptsName name with
      | false => exact Or.inl (Or.inr ⟨name, hparse, hname⟩)
      | true =>
        obtain ⟨issued, hissued⟩ := altSign_issues (fun _ => [1]) (fun _ => 0) hparse hname
        obtain ⟨x509, name', hx509, hparse', _, hsubject⟩ := altSign_subject hissued
        have hperm := hkeeps _ _ _ _ _ _ _ _ issued rfl rfl hissued
        obtain rfl := Option.some.inj hx509
        exact Or.inr ((parseSubject_carried hparse').perm (hsubject ▸ hperm))
  · rintro hcond lib rng clock env s subjKey outForm x509 issued hx509 rfl hissued
    obtain ⟨x509', name, hx509', hparse, haccepts, hsubject⟩ := altSign_subject hissued
    rw [hx509] at hx509'
    obtain rfl := Option.some.inj hx509'
    rcases hcond with (hshort | ⟨name', hparse', hrefused⟩) | hcarried
    · rw [parseSubject, foldlM_parseComponent_eq_none.mpr hshort] at hparse
      cases hparse
    · rw [hparse] at hparse'
      obtain rfl := Option.some.inj hparse'
      rw [haccepts] at hrefused
      cases hrefused
    · obtain ⟨name', hparse', hperm⟩ := hcarried.parseSubject_oneline hnames
      rw [hparse] at hparse'
      obtain rfl := Option.some.inj hparse'
      rw [hsubject]
      exact hperm

def twoLetterCountry (name : CertName) : Bool := name.country.length == 0 || name.country.length == 2

def plainSubject : X509Name :=
  [⟨.commonName, str "server"⟩, ⟨.countryName, str "US"⟩, ⟨.organizationName, str "Acme"⟩]

theorem keepsSubject_plain : KeepsSubject standardNames twoLetterCountry 64 plainSubject := by
  have hcarried : Carried 64 plainSubject :=
    ⟨by decide, by decide, by decide, by decide +kernel, by decide⟩
  exact (keepsSubject_iff (fun _ _ => rfl) twoLetterCountry 64 plainSubject).mpr (Or.inr hcarried)

def slashedSubject : X509Name :=
  [⟨.commonName, str "server"⟩, ⟨.organizationName, str "Acme/CN=admin"⟩]

theorem slash_renames_subject :
    ¬ ∀ subject : X509Name, KeepsSubject standardNames twoLetterCountry 64 subject := by
  intro hclaim
  let renamed : CertName := { CertName.empty with org := str "Acme", commonName := str "admin" }
  have hparse : parseSubject 64 (cstr (standardNames.oneline slashedSubject)) = some renamed := by
    decide
  have haccepts : twoLetterCountry renamed = true := rfl
  obtain ⟨issued, hissued⟩ := altSign_issues (fun _ => [1]) (fun _ => 1700000000) hparse haccepts
  obtain ⟨x509, name, hx509, hname, _, hsubject⟩ := altSign_subject hissued
  obtain rfl := Option.some.inj hx509
  have hperm := hclaim slashedSubject _ _ _ _ _ _ _ _ issued rfl rfl hissued
  rw [hparse] at hname
  obtain rfl := Option.some.inj hname
  rw [hsubject] at hperm
  exact absurd hperm (by decide)

end WolfCLU.Chimera
