import WolfCLU.Ocsp.IndexLines
import WolfCLU.X509.CertSignSpec

namespace TextLine
open CString Chunks

def EndsLine (text : List Byte) : Prop := text = [] ∨ text.getLast? = some 10

theorem endsLine_terminated (text line : List Byte) : EndsLine (text ++ (line ++ [10])) := by
  refine .inr ?_
  rw [← List.append_assoc, List.getLast?_concat]

theorem physicalLines_append {text : List Byte} (h : EndsLine text) (rest : List Byte) :
    physicalLines (text ++ rest) = physicalLines text ++ physicalLines rest := by
  induction hlen : text.length using Nat.strong_induction_on generalizing text with
  | _ len ih =>
    rcases text_cases text with ⟨rfl, hlines⟩ | ⟨hline, hfree, -⟩ |
      ⟨body, more, hbody, rfl, -, hlines⟩
    · rw [hlines, List.nil_append, List.nil_append]
    · have hlast := h.resolve_left hline.1
      exact absurd (List.mem_of_getLast? hlast) hfree
    · have hmore : EndsLine more := by
        rcases more.eq_nil_or_concat with rfl | ⟨front, c, rfl⟩
        · exact .inl rfl
        · have hlast := h.resolve_left (by simp)
          rw [List.concat_eq_append, ← List.cons_append, ← List.append_assoc,
            List.getLast?_concat] at hlast
          exact .inr (by rw [List.concat_eq_append, List.getLast?_concat, hlast])
      have hnext := ih more.length (by
        simp only [List.length_append, List.length_cons] at hlen
        omega) hmore rfl
      rw [hlines, List.append_assoc, List.cons_append, physicalLines_terminated hbody, hnext,
        List.cons_append]

theorem fgetsAll_append {n : Nat} (hn : 0 < n) {text : List Byte} (h : EndsLine text)
    (rest : List Byte) : fgetsAll n (text ++ rest) = fgetsAll n text ++ fgetsAll n rest := by
  rw [fgetsAll_eq hn, fgetsAll_eq hn, fgetsAll_eq hn, physicalLines_append h, List.flatMap_append]

theorem fgetsAll_flatten {n : Nat} (hn : 0 < n) (text : List Byte) :
    (fgetsAll n text).flatten = text := by
  fun_induction fgetsAll n text with
  | case1 text hstop => exact (hstop.resolve_right (by omega)).symm
  | case2 text hmore ih => rw [List.flatten_cons, ih, gets_append]

theorem strsep_length (delim : Byte) (s : List Byte) :
    (strsep delim s).length = s.count delim + 1 := by
  induction s with
  | nil => rfl
  | cons c s ih =>
    rw [strsep, List.splitOnP_cons_eq_if_modifyHead]
    by_cases hc : c = delim
    · subst hc
      simp only [beq_self_eq_true, if_true, List.length_cons, List.count_cons_self]
      exact congrArg (· + 1) ih
    · rw [if_neg (by simpa using hc), List.length_modifyHead, List.count_cons_of_ne hc]
      exact ih

end TextLine

namespace WolfCLU.Ocsp
open CString TextLine Run

section Records
variable {mktime : Tm → Int}

theorem recordOf_short {fields : List (List Byte)} (h : fields.length ≤ 3) :
    recordOf mktime fields = none := by
  match fields with
  | [] => rfl
  | [_] => rfl
  | [_, _] => rfl
  | [_, _, _] => rfl
  | _ :: _ :: _ :: _ :: _ =>
    simp only [List.length_cons] at h
    omega

theorem parseLine_few_tabs {line : List Byte} (h : line.count 9 ≤ 2) :
    parseLine mktime line = none := by
  have hshort : (lineFields line).length ≤ 3 := by
    rw [lineFields, strsep_length]
    have hcut : (cstr line).count 9 ≤ line.count 9 := (List.takeWhile_sublist _).count_le 9
    omega
  rw [parseLine_eq, recordOf_short hshort, ite_self]

theorem parseIndexFile_append {text : List Byte} (h : EndsLine text) (rest : List Byte) :
    parseIndexFile mktime (some (text ++ rest)) =
      parseIndexFile mktime (some text) ++ parseIndexFile mktime (some rest) := by
  simp only [parseIndexFile, parseLines_eq, List.nil_append]
  rw [fgetsAll_append (by decide) h, List.filterMap_append]

theorem parseIndexFile_few_tabs {text : List Byte} (h : text.count 9 ≤ 2) :
    parseIndexFile mktime (some text) = [] := by
  simp only [parseIndexFile, parseLines_eq, List.nil_append]
  refine List.filterMap_eq_nil_iff.mpr fun line hline => parseLine_few_tabs ?_
  have hsub := (List.sublist_flatten_of_mem hline).count_le 9
  rw [fgetsAll_flatten (by decide)] at hsub
  omega

end Records

structure LoggedWhole (lib : SignLib) (input : SignInput) : Prop where
  oneline : input.env.fault .oneline = false
  writeSubject : input.env.fault .writeSubject = false
  writeNewline : input.env.fault .writeNewline = false
  named : input.x509.subject ≠ []
  tabs : ∀ dated, certSetDate input.env input.x509 input.csign.days = .ok dated →
    (cstr dated.notAfter).count 9 + (lib.names.oneline input.x509.subject).count 9 ≤ 1

section Step
variable {mktime : Tm → Int} {lib : SignLib} {input : SignInput} {files : SignFiles}

theorem certSignLog_line {y : X509} (h : LoggedWhole lib input)
    (hsubject : y.subject = input.x509.subject) (database : List Byte) :
    ∃ date tab, date.Sublist (cstr y.notAfter) ∧ tab.Sublist [9] ∧
      (certSignLog lib input.env y database).2 =
        database ++ ((date ++ tab ++ lib.names.oneline y.subject) ++ [10]) := by
  have hne : lib.names.oneline y.subject ≠ [] := by
    obtain ⟨e, es, hname⟩ := List.exists_cons_of_ne_nil h.named
    rw [lib.names.oneline_eq, hsubject, hname]
    simp
  have hgood : ¬ (input.env.fault .writeSubject = true ∨ lib.names.oneline y.subject = []) := by
    simp [h.writeSubject, hne]
  refine ⟨if input.env.fault .writeDate then [] else cstr y.notAfter,
    if input.env.fault .writeTab then [] else [9], ?_, ?_, ?_⟩
  · split_ifs
    · exact List.nil_sublist _
    · exact List.Sublist.refl _
  · split_ifs
    · exact List.nil_sublist _
    · exact List.Sublist.refl _
  · simp only [certSignLog, h.oneline, h.writeNewline, Bool.false_eq_true, if_false, if_neg hgood,
      List.append_assoc]

theorem signStep_database (h : LoggedWhole lib input) :
    (signStep lib input files).1.database = files.database ∨
      ∃ line, line.count 9 ≤ 2 ∧
        (signStep lib input files).1.database = files.database ++ (line ++ [10]) := by
  by_cases hreach : ReachesOutput lib input files
  · obtain ⟨hout, y, hok⟩ := hreach
    obtain ⟨ca, hadmitted⟩ := certSignAdmit_ok hok
    obtain ⟨dated, hdated, hdate⟩ := hadmitted.dated
    have hfiles := congrArg SignFiles.database (certSign_files hok hout)
    by_cases hlogs : (advanceSerial lib input.env input.csign files.serial).1 = wolfcluSuccess ∧
        input.csign.dataBase = true
    · obtain ⟨date, tab, hdates, htab, hlog⟩ :=
        certSignLog_line h hadmitted.subject_eq files.database
      refine .inr ⟨date ++ tab ++ lib.names.oneline y.subject, ?_, ?_⟩
      · have hcount := h.tabs dated hdated
        have hdates := hdates.count_le 9
        have htab : tab.count 9 ≤ 1 := htab.count_le 9
        rw [hdate] at hdates
        rw [hadmitted.subject_eq, List.count_append, List.count_append]
        omega
      · rw [← hlog]
        simp only [signStep, hfiles, certSignRecord, if_pos hlogs]
    · refine .inl ?_
      simp only [signStep, hfiles, certSignRecord, if_neg hlogs]
  · exact .inl (congrArg SignFiles.database (certSign_stopped hreach).1)

theorem signStep_index (h : LoggedWhole lib input) (hends : EndsLine files.database) :
    EndsLine (signStep lib input files).1.database ∧
      parseIndexFile mktime (some (signStep lib input files).1.database) =
        parseIndexFile mktime (some files.database) := by
  rcases signStep_database h with hsame | ⟨line, htabs, hlogged⟩
  · rw [hsame]
    exact ⟨hends, rfl⟩
  · rw [hlogged]
    have hnone : parseIndexFile mktime (some (line ++ [10])) = [] := by
      refine parseIndexFile_few_tabs ?_
      rw [List.count_append]
      exact htabs
    refine ⟨endsLine_terminated files.database line, ?_⟩
    rw [parseIndexFile_append hends, hnone, List.append_nil]

theorem certSign_runs_index (lib : SignLib) (inputs : List SignInput) (files : SignFiles)
    (hends : EndsLine files.database) (h : ∀ input ∈ inputs, LoggedWhole lib input) :
    parseIndexFile mktime (some (final (signStep lib) inputs files).database) =
      parseIndexFile mktime (some files.database) := by
  induction inputs generalizing files with
  | nil => rfl
  | cons input inputs ih =>
    obtain ⟨hnext, hindex⟩ := signStep_index (h input List.mem_cons_self) hends
    rw [final, ih _ hnext fun later hlater => h later (List.mem_cons_of_mem input hlater), hindex]

end Step

def issuingInput : SignInput := ⟨willingEnv, { sampleSigner with dataBase := true }, sampleRequest⟩

def knownIndex : List Byte := str "V\t271231235959Z\t\t0a\tunknown\t/CN=a\n"

theorem issuing_logged : LoggedWhole standardLib issuingInput := by
  refine ⟨rfl, rfl, rfl, by decide, fun dated hdated => ?_⟩
  have hdate : certSetDate willingEnv sampleRequest 365 =
      .ok { sampleRequest with notAfter := str "300101000000Z" } := rfl
  cases hdate.symm.trans hdated
  decide

theorem certSign_runs_index_known :
    (final (signStep standardLib) [issuingInput, issuingInput] ⟨[], knownIndex⟩).database =
        knownIndex ++ str "300101000000Z\t/CN=server\n" ++ str "300101000000Z\t/CN=server\n" ∧
      parseIndexFile (fun tm => tm.year)
          (some (final (signStep standardLib) [issuingInput, issuingInput] ⟨[], knownIndex⟩).database) =
        parseIndexFile (fun tm => tm.year) (some knownIndex) := by
  refine ⟨by decide, certSign_runs_index standardLib _ ⟨[], knownIndex⟩ (.inr (by decide)) ?_⟩
  intro input hinput
  simp only [List.mem_cons, List.not_mem_nil, or_false, or_self] at hinput
  rw [hinput]
  exact issuing_logged

end WolfCLU.Ocsp
