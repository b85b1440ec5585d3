import WolfCLU.X509.AltNameSources

namespace WolfCLU
open CString TextLine

theorem inlineEntry_split {entry name value : List Byte}
    (h : inlineEntry entry = some (name, value)) :
    ∃ before between behind, Blank before ∧ Blank between ∧ Blank behind ∧ value ≠ [] ∧
      (∀ c ∈ value.head?, isTrimmed c = false) ∧ (∀ c ∈ value.getLast?, isTrimmed c = false) ∧
      entry = before ++ (name ++ 58 :: (between ++ value) ++ behind) := by
  obtain ⟨before, behind, hbefore, hbehind, hentry⟩ := trim_split isTrimmed entry
  have hlast := @last_rdropWhile _ isTrimmed (entry.dropWhile isTrimmed)
  rw [inlineEntry] at h
  generalize (entry.dropWhile isTrimmed).rdropWhile isTrimmed = trimmed at h hentry hlast
  cases hcolon : strstr [58] trimmed with
  | none => simp [hcolon] at h
  | some colon =>
    obtain ⟨_, hsplit⟩ := strstr_singleton hcolon
    simp only [hcolon] at h
    split_ifs at h with hname hvalue
    simp only [Option.some.injEq, Prod.mk.injEq] at h
    obtain ⟨rfl, hval⟩ := h
    have hrest := @List.takeWhile_append_dropWhile _ isTrimmed (trimmed.drop (colon + 1))
    have hne : (trimmed.drop (colon + 1)).dropWhile isTrimmed ≠ [] := by
      intro hnil
      exact hvalue (by rw [hnil]; rfl)
    refine ⟨before, (trimmed.drop (colon + 1)).takeWhile isTrimmed, behind, hbefore, ?_, hbehind,
      hval ▸ hne, hval ▸ head_dropWhile, ?_, ?_⟩
    · intro c hc
      exact List.mem_takeWhile_imp hc
    · rw [← hval]
      intro c hc
      refine hlast c ?_
      rw [hsplit, ← hrest, ← List.cons_append, ← List.append_assoc,
        List.getLast?_append_of_ne_nil _ hne]
      exact hc
    · rw [← hval, hrest, ← hsplit, ← List.append_assoc]
      exact hentry

theorem inlineEntry_kind {kind : AltKind} {entry value : List Byte} (hnul : (0 : Byte) ∉ entry)
    (hcomma : (44 : Byte) ∉ entry) (h : inlineEntry entry = some (kind.name, value)) :
    ∃ altName : AltName, altName.pair = (kind.name, value) ∧ SpelledInline altName entry := by
  obtain ⟨before, between, behind, hbefore, hbetween, hbehind, hne, hhead, hlast, rfl⟩ :=
    inlineEntry_split h
  simp only [List.mem_append, List.mem_cons, not_or] at hnul hcomma
  refine ⟨⟨kind, value, hne, ?_, ?_, hhead, hlast⟩, rfl, before, between, behind, hbefore, hbetween,
    hbehind, ?_⟩
  · tauto
  · tauto
  · simp

section Calls
variable (lib : X509Lib) (env : CopyEnv)

def AddsOne (entry : List Byte) (call : X509Call) : Prop :=
  ∃ altName s sSz type, SpelledInline altName entry ∧
    altName.kind.data lib env altName.value = .ok (s, sSz, type) ∧ call = .addAltName s sSz type

def entryCall (entry : List Byte) : Option X509Call := do
  let (name, value) ← inlineEntry entry
  let (s, sSz, type) ← (altNameData lib env name value).toOption
  some (.addAltName s sSz type)

def UnsupportedType (entry : List Byte) : Prop :=
  ∃ name value, inlineEntry entry = some (name, value) ∧ ∀ kind : AltKind, name ≠ kind.name

def Refused (entry : List Byte) : Prop := entryCall lib env entry = none

def InlineClaim (x509 : X509Object) (val : List Byte) : Prop :=
  ((setInlineAltNames lib env x509 val).1 = wolfcluSuccess ↔
      ∀ entry ∈ strsep 44 val, ∃ call, AddsOne lib env entry call) ∧
    ((setInlineAltNames lib env x509 val).1 = wolfcluSuccess →
      ∃ calls, List.Forall₂ (AddsOne lib env) (strsep 44 val) calls ∧
        (setInlineAltNames lib env x509 val).2 = x509 ++ calls)

def AddsAltNames : Prop :=
  ∀ x509 s sSz type, lib.answer x509 (.addAltName s sSz type) = wolfcluSuccess

end Calls

section Loop
variable {lib : X509Lib} {env : CopyEnv}

theorem entryCall_eq_some {entry : List Byte} {call : X509Call} :
    entryCall lib env entry = some call ↔ ∃ name value s sSz type,
      inlineEntry entry = some (name, value) ∧ altNameData lib env name value = .ok (s, sSz, type) ∧
      call = .addAltName s sSz type := by
  constructor
  · intro h
    obtain ⟨⟨name, value⟩, hentry, h⟩ := Option.bind_eq_some_iff.mp h
    obtain ⟨⟨s, sSz, type⟩, hdata, h⟩ := Option.bind_eq_some_iff.mp h
    exact ⟨name, value, s, sSz, type, hentry, ok_of_toOption hdata, (Option.some.inj h).symm⟩
  · rintro ⟨name, value, s, sSz, type, hentry, hdata, rfl⟩
    simp [entryCall, hentry, hdata, Except.toOption]

theorem inlineLoop_call (hadds : AddsAltNames lib) {token : List Byte} {call : X509Call}
    (h : entryCall lib env token = some call) (tokens : List (List Byte)) (x509 : X509Object) :
    inlineLoop lib env x509 (token :: tokens) = inlineLoop lib env (x509 ++ [call]) tokens := by
  obtain ⟨name, value, s, sSz, type, hentry, hdata, rfl⟩ := entryCall_eq_some.mp h
  simp only [inlineLoop, hentry, addAltName, hdata, X509Lib.call, hadds x509, if_true]

theorem inlineLoop_stop {token : List Byte} (h : entryCall lib env token = none)
    (tokens : List (List Byte)) (x509 : X509Object) :
    (inlineLoop lib env x509 (token :: tokens)).1 ≠ wolfcluSuccess := by
  cases hentry : inlineEntry token with
  | none =>
    simp only [inlineLoop, hentry]
    exact fails_fatal
  | some pair =>
    obtain ⟨name, value⟩ := pair
    cases hdata : altNameData lib env name value with
    | ok data =>
      rw [entryCall_eq_some.mpr ⟨name, value, data.1, data.2.1, data.2.2, hentry, hdata, rfl⟩] at h
      cases h
    | error ret =>
      have hret : ret ≠ wolfcluSuccess := altNameData_fails name value ret hdata
      simp only [inlineLoop, hentry, addAltName, hdata, if_neg hret]
      exact hret

theorem inlineLoop_refused (hadds : AddsAltNames lib) {tokens : List (List Byte)}
    (h : ∃ token ∈ tokens, entryCall lib env token = none) (x509 : X509Object) :
    (inlineLoop lib env x509 tokens).1 ≠ wolfcluSuccess := by
  induction tokens generalizing x509 with
  | nil => simp at h
  | cons token tokens ih =>
    cases hcall : entryCall lib env token with
    | none => exact inlineLoop_stop hcall tokens x509
    | some call =>
      rw [inlineLoop_call hadds hcall]
      refine ih ?_ _
      obtain ⟨other, hother, hnone⟩ := h
      rcases List.mem_cons.mp hother with rfl | hother
      · rw [hcall] at hnone
        cases hnone
      · exact ⟨other, hother, hnone⟩

theorem inlineLoop_calls (hadds : AddsAltNames lib) {tokens : List (List Byte)}
    {calls : List X509Call}
    (h : List.Forall₂ (fun token call => entryCall lib env token = some call) tokens calls)
    (x509 : X509Object) : inlineLoop lib env x509 tokens = (wolfcluSuccess, x509 ++ calls) := by
  induction h generalizing x509 with
  | nil => simp [inlineLoop]
  | cons hcall _ ih => rw [inlineLoop_call hadds hcall, ih, List.append_assoc, List.singleton_append]

theorem exists_calls {tokens : List (List Byte)}
    (h : ∀ token ∈ tokens, entryCall lib env token ≠ none) :
    ∃ calls, List.Forall₂ (fun token call => entryCall lib env token = some call) tokens calls := by
  induction tokens with
  | nil => exact ⟨[], .nil⟩
  | cons token tokens ih =>
    obtain ⟨calls, hcalls⟩ := ih fun other hother => h other (List.mem_cons_of_mem _ hother)
    obtain ⟨call, hcall⟩ := Option.ne_none_iff_exists'.mp (h token List.mem_cons_self)
    exact ⟨call :: calls, .cons hcall hcalls⟩

theorem addsOne_iff {entry : List Byte} (hnul : (0 : Byte) ∉ entry) (hcomma : (44 : Byte) ∉ entry)
    (call : X509Call) :
    AddsOne lib env entry call ↔ entryCall lib env entry = some call ∧ ¬ UnsupportedType entry := by
  rw [entryCall_eq_some]
  constructor
  · rintro ⟨altName, s, sSz, type, hspelled, hdata, rfl⟩
    have hentry := inlineEntry_spelled hspelled
    have hkind := @altNameData_kind lib env altName.kind [] altName.value
    rw [List.append_nil, hdata] at hkind
    refine ⟨⟨_, _, s, sSz, type, hentry, hkind, rfl⟩, ?_⟩
    rintro ⟨name, value, hother, hname⟩
    rw [hentry, Option.some.injEq] at hother
    exact hname altName.kind (congrArg Prod.fst hother).symm
  · rintro ⟨⟨name, value, s, sSz, type, hentry, hread, rfl⟩, hsupported⟩
    have hkind : ∃ kind : AltKind, name = kind.name := by
      by_contra hno
      exact hsupported ⟨name, value, hentry, fun kind h => hno ⟨kind, h⟩⟩
    obtain ⟨kind, rfl⟩ := hkind
    obtain ⟨altName, hpair, hspelled⟩ := inlineEntry_kind hnul hcomma hentry
    simp only [AltName.pair, Prod.mk.injEq] at hpair
    have hdata := @altNameData_kind lib env altName.kind [] altName.value
    rw [List.append_nil, hpair.1, hpair.2, hread] at hdata
    exact ⟨altName, s, sSz, type, hspelled, by rw [hpair.2, ← hdata], rfl⟩

theorem AddsOne.ne_nil {entry : List Byte} {call : X509Call} (h : AddsOne lib env entry call) :
    entry ≠ [] := by
  obtain ⟨_, _, _, _, hspelled, _, _⟩ := h
  exact hspelled.ne_nil

theorem addsOne_listed {val entry : List Byte} (hval : (0 : Byte) ∉ val)
    (hentry : entry ∈ strsep 44 val) (hne : entry ≠ []) (call : X509Call) :
    AddsOne lib env entry call ↔ entryCall lib env entry = some call ∧ ¬ UnsupportedType entry := by
  obtain ⟨_, hcomma, hsub⟩ := of_mem_strtok (mem_strtok_of_strsep hentry hne)
  exact addsOne_iff (fun h => hval (hsub h)) hcomma call

theorem inlineClaim_refused (hadds : AddsAltNames lib) {x509 : X509Object} {val entry : List Byte}
    (hval : (0 : Byte) ∉ val) (hentry : entry ∈ strsep 44 val) (hne : entry ≠ [])
    (hnone : Refused lib env entry) : InlineClaim lib env x509 val := by
  have hfails : (inlineLoop lib env x509 (strtok 44 val)).1 ≠ wolfcluSuccess :=
    inlineLoop_refused hadds ⟨entry, mem_strtok_of_strsep hentry hne, hnone⟩ x509
  refine ⟨iff_of_false hfails fun hall => ?_, fun h => absurd h hfails⟩
  obtain ⟨call, hcall⟩ := hall entry hentry
  rw [addsOne_listed hval hentry hne, show entryCall lib env entry = none from hnone] at hcall
  cases hcall.1

theorem inlineClaim_accepted (hadds : AddsAltNames lib) {x509 : X509Object} {val : List Byte}
    (hval : (0 : Byte) ∉ val)
    (haccepted : ∀ entry ∈ strsep 44 val, entry ≠ [] → entryCall lib env entry ≠ none) :
    InlineClaim lib env x509 val ↔ ∀ entry ∈ strsep 44 val, entry ≠ [] ∧ ¬ UnsupportedType entry := by
  obtain ⟨calls, hcalls⟩ : ∃ calls, List.Forall₂
      (fun token call => entryCall lib env token = some call) (strtok 44 val) calls := by
    refine exists_calls fun token htoken => ?_
    rw [strtok, List.mem_filter] at htoken
    exact haccepted token htoken.1 (by simpa using htoken.2)
  have hrun := inlineLoop_calls hadds hcalls x509
  rw [InlineClaim, setInlineAltNames, hrun]
  constructor
  · rintro ⟨hiff, _⟩ entry hentry
    obtain ⟨call, hcall⟩ := hiff.mp rfl entry hentry
    exact ⟨hcall.ne_nil, ((addsOne_listed hval hentry hcall.ne_nil call).mp hcall).2⟩
  · intro hall
    have htokens : strtok 44 val = strsep 44 val :=
      strtok_eq_strsep fun entry hentry => (hall entry hentry).1
    rw [htokens] at hcalls
    have hadded : List.Forall₂ (AddsOne lib env) (strsep 44 val) calls := by
      obtain ⟨hlen, hget⟩ := List.forall₂_iff_get.mp hcalls
      refine List.forall₂_iff_get.mpr ⟨hlen, fun i hi hi' => ?_⟩
      have hmem := List.get_mem (strsep 44 val) ⟨i, hi⟩
      exact (addsOne_listed hval hmem (hall _ hmem).1 _).mpr ⟨hget i hi hi', (hall _ hmem).2⟩
    refine ⟨iff_of_true rfl fun entry hentry => ?_, fun _ => ⟨calls, hadded, rfl⟩⟩
    obtain ⟨hne, hsupported⟩ := hall entry hentry
    obtain ⟨call, hcall⟩ := Option.ne_none_iff_exists'.mp (haccepted entry hentry hne)
    exact ⟨call, (addsOne_listed hval hentry hne call).mpr ⟨hcall, hsupported⟩⟩

theorem setInlineAltNames_exact (hadds : AddsAltNames lib) {x509 : X509Object} {val : List Byte}
    (hval : (0 : Byte) ∉ val) :
    InlineClaim lib env x509 val ↔
      (∃ entry ∈ strsep 44 val, entry ≠ [] ∧ Refused lib env entry) ∨
        ∀ entry ∈ strsep 44 val, entry ≠ [] ∧ ¬ UnsupportedType entry := by
  by_cases hrefused : ∃ entry ∈ strsep 44 val, entry ≠ [] ∧ Refused lib env entry
  · obtain ⟨entry, hentry, hne, hnone⟩ := hrefused
    exact iff_of_true (inlineClaim_refused hadds hval hentry hne hnone)
      (Or.inl ⟨entry, hentry, hne, hnone⟩)
  · rw [or_iff_right hrefused]
    exact inlineClaim_accepted hadds hval fun entry hentry hne h => hrefused ⟨entry, hentry, hne, h⟩

end Loop

def plainCopies : CopyEnv := ⟨fun _ _ => true, fun _ => []⟩

theorem plainLib_adds : AddsAltNames plainLib := by
  intro x509 s sSz type
  rfl

theorem setInlineAltNames_two_names :
    InlineClaim plainLib plainCopies [] (str "DNS:a.example, URI:http://b") := by
  refine (setInlineAltNames_exact plainLib_adds (by decide)).mpr (Or.inr ?_)
  have hentries : strsep 44 (str "DNS:a.example, URI:http://b") =
      [str "DNS:a.example", str " URI:http://b"] := by decide
  have hdns : inlineEntry (str "DNS:a.example") = some (AltKind.dns.name, str "a.example") := by
    decide
  have huri : inlineEntry (str " URI:http://b") = some (AltKind.uri.name, str "http://b") := by
    decide
  rw [hentries]
  intro entry hentry
  simp only [List.mem_cons, List.not_mem_nil, or_false] at hentry
  rcases hentry with rfl | rfl
  · refine ⟨by decide, ?_⟩
    rintro ⟨name, value, hread, hname⟩
    rw [hdns, Option.some.injEq] at hread
    exact hname .dns (congrArg Prod.fst hread).symm
  · refine ⟨by decide, ?_⟩
    rintro ⟨name, value, hread, hname⟩
    rw [huri, Option.some.injEq] at hread
    exact hname .uri (congrArg Prod.fst hread).symm

theorem setInlineAltNames_empty_entry :
    (setInlineAltNames plainLib plainCopies [] (str "DNS:a.example,,DNS:b.example")).1 =
        wolfcluSuccess ∧
      (setInlineAltNames plainLib plainCopies [] []).1 = wolfcluSuccess ∧
      ¬ InlineClaim plainLib plainCopies [] (str "DNS:a.example,,DNS:b.example") ∧
      ¬ InlineClaim plainLib plainCopies [] [] := by
  have hone : (setInlineAltNames plainLib plainCopies [] (str "DNS:a.example,,DNS:b.example")).1 =
      wolfcluSuccess := by decide
  have hnone : (setInlineAltNames plainLib plainCopies [] []).1 = wolfcluSuccess := by
    decide
  refine ⟨hone, hnone, ?_, ?_⟩
  · rintro ⟨hiff, _⟩
    obtain ⟨call, hcall⟩ := hiff.mp hone [] (by decide)
    exact hcall.ne_nil rfl
  · rintro ⟨hiff, _⟩
    obtain ⟨call, hcall⟩ := hiff.mp hnone [] (by decide)
    exact hcall.ne_nil rfl

end WolfCLU
