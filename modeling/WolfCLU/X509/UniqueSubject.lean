import WolfCLU.X509.CertSignSpec

namespace WolfCLU
open Buffer CString Run

def SignEvent.loggedSubject : SignEvent → Option X509Name
  | .logged x509 => some x509.subject
  | _ => none

def loggedSubjects (steps : List SignStep) : List X509Name :=
  steps.flatMap fun s => s.run.events.filterMap SignEvent.loggedSubject

def ReachesLog (lib : SignLib) (input : SignInput) (files : SignFiles) : Prop :=
  ReachesOutput lib input files ∧
    (advanceSerial lib input.env input.csign files.serial).1 = wolfcluSuccess

structure Recordable (lib : SignLib) (input : SignInput) : Prop where
  writeDate : input.env.fault .writeDate = false
  writeTab : input.env.fault .writeTab = false
  oneline : input.env.fault .oneline = false
  writeSubject : input.env.fault .writeSubject = false
  writeNewline : input.env.fault .writeNewline = false
  readable : ∀ dated, certSetDate input.env input.x509 input.csign.days = .ok dated →
    ReadableRecord lib.names dated.notAfter input.x509.subject

def UniqueServiceable (lib : SignLib) (input : SignInput) (files : SignFiles) : Prop :=
  input.csign.dataBase = true ∧ (ReachesLog lib input files → Recordable lib input)

section Step
variable {lib : SignLib} {env : SignEnv} {csign : CertSign} {x509 y : X509} {files : SignFiles}

theorem certSignLog_record (h : Recordable lib ⟨env, csign, x509⟩)
    (hread : ReadableRecord lib.names y.notAfter y.subject)
    (database : List Byte) : certSignLog lib env y database =
      (wolfcluSuccess, database ++ record lib.names y.notAfter y.subject) := by
  have hdate : cstr y.notAfter = y.notAfter :=
    cstr_of_nul_free fun hmem => hread.date_plain 0 hmem (by decide)
  have hsubject : lib.names.oneline y.subject ≠ [] := by
    obtain ⟨e, es, hname⟩ := List.exists_cons_of_ne_nil hread.name_ne_nil
    rw [lib.names.oneline_eq, hname]
    simp
  have hgood : ¬ (env.fault .writeSubject = true ∨ lib.names.oneline y.subject = []) := by
    simp [show env.fault .writeSubject = false from h.writeSubject, hsubject]
  have hfaults : env.fault .writeDate = false ∧ env.fault .writeTab = false ∧
      env.fault .oneline = false ∧ env.fault .writeNewline = false :=
    ⟨h.writeDate, h.writeTab, h.oneline, h.writeNewline⟩
  simp only [certSignLog, hfaults.1, hfaults.2.1, hfaults.2.2.1, hfaults.2.2.2,
    Bool.false_eq_true, if_false, if_neg hgood, hdate, record]
  simp

theorem certSignRecord_logs (hdb : csign.dataBase = true)
    (hadvance : (advanceSerial lib env csign files.serial).1 = wolfcluSuccess)
    (hrec : Recordable lib ⟨env, csign, x509⟩)
    (hread : ReadableRecord lib.names y.notAfter y.subject) :
    (certSignRecord lib env csign y files).2.1.database =
        files.database ++ record lib.names y.notAfter y.subject ∧
      (certSignRecord lib env csign y files).2.2 = [.logged y] := by
  have hlog := certSignLog_record hrec hread files.database
  simp only [certSignRecord, if_pos (And.intro hadvance hdb), hlog, if_true]
  exact ⟨trivial, trivial⟩

theorem certSignRecord_silent
    (hadvance : (advanceSerial lib env csign files.serial).1 ≠ wolfcluSuccess) :
    (certSignRecord lib env csign y files).2.1.database = files.database ∧
      (certSignRecord lib env csign y files).2.2 = [] := by
  have hstop : ¬ ((advanceSerial lib env csign files.serial).1 = wolfcluSuccess ∧
      csign.dataBase = true) := fun h => hadvance h.1
  simp only [certSignRecord, if_neg hstop]
  exact ⟨trivial, trivial⟩

theorem SignEvent.BeforeOutput.loggedSubject_none {event : SignEvent} (h : event.BeforeOutput) :
    event.loggedSubject = none := by
  cases event with
  | keyMatched ca key => rfl
  | signed x509 key => rfl
  | written x509 => rfl
  | logged x509 => exact absurd h id

theorem certSignAdmit_logs_none : (certSignAdmit lib env csign x509 files).events.filterMap
    SignEvent.loggedSubject = [] :=
  List.filterMap_eq_nil_iff.mpr fun event hevent =>
    (certSignAdmit_events event hevent).loggedSubject_none

theorem certSign_logged_of_written (hok : (certSignAdmit lib env csign x509 files).result = .ok y)
    (hout : outputWritten env csign = true) :
    (certSign lib env csign x509 files).events.filterMap SignEvent.loggedSubject =
      (certSignRecord lib env csign y files).2.2.filterMap SignEvent.loggedSubject := by
  simp only [certSign, hok, if_pos hout, List.filterMap_append, certSignAdmit_logs_none,
    List.nil_append, List.filterMap_cons, SignEvent.loggedSubject]

theorem certSign_logs (hdb : csign.dataBase = true)
    (hreach : ReachesLog lib ⟨env, csign, x509⟩ files) (hrec : Recordable lib ⟨env, csign, x509⟩) :
    ∃ date, ReadableRecord lib.names date x509.subject ∧
      (certSign lib env csign x509 files).files.database =
        files.database ++ record lib.names date x509.subject ∧
      (certSign lib env csign x509 files).events.filterMap SignEvent.loggedSubject =
        [x509.subject] := by
  obtain ⟨⟨hout, y, hok⟩, hadvance⟩ := hreach
  obtain ⟨ca, hadmitted⟩ := certSignAdmit_ok hok
  obtain ⟨dated, hdated, hdate⟩ := hadmitted.dated
  have hread : ReadableRecord lib.names y.notAfter y.subject := by
    rw [hdate, hadmitted.subject_eq]
    exact hrec.readable dated hdated
  obtain ⟨hfile, hevents⟩ := certSignRecord_logs hdb hadvance hrec hread
  rw [hadmitted.subject_eq] at hread hfile
  refine ⟨y.notAfter, hread, ?_, ?_⟩
  · rw [certSign_files hok hout, hfile]
  · rw [certSign_logged_of_written hok hout, hevents]
    simp only [List.filterMap_cons, SignEvent.loggedSubject, hadmitted.subject_eq,
      List.filterMap_nil]

theorem certSign_logs_nothing (h : ¬ ReachesLog lib ⟨env, csign, x509⟩ files) :
    (certSign lib env csign x509 files).files.database = files.database ∧
      (certSign lib env csign x509 files).events.filterMap SignEvent.loggedSubject = [] := by
  by_cases hreach : ReachesOutput lib ⟨env, csign, x509⟩ files
  · have hadvance : (advanceSerial lib env csign files.serial).1 ≠ wolfcluSuccess :=
      fun hadvance => h ⟨hreach, hadvance⟩
    obtain ⟨hout, y, hok⟩ := hreach
    have hfile : (certSignRecord lib env csign y files).2.1.database = files.database :=
      (certSignRecord_silent hadvance).1
    have hevents : (certSignRecord lib env csign y files).2.2 = [] :=
      (certSignRecord_silent hadvance).2
    rw [certSign_files hok hout, certSign_logged_of_written hok hout, hfile, hevents]
    exact ⟨rfl, rfl⟩
  · obtain ⟨hfiles, hevents, -⟩ := certSign_stopped hreach
    rw [hfiles, hevents]
    exact ⟨rfl, certSignAdmit_logs_none⟩

end Step

def RecordsLogged (lib : SignLib) (steps : List SignStep) (files : SignFiles) : Prop :=
  ∃ records : List (List Byte × X509Name),
    (∀ r ∈ records, ReadableRecord lib.names r.1 r.2) ∧
      files.database = (records.flatMap fun r => record lib.names r.1 r.2) ∧
        records.map Prod.snd = loggedSubjects steps

theorem loggedSubjects_concat (steps : List SignStep) (s : SignStep) :
    loggedSubjects (steps ++ [s]) =
      loggedSubjects steps ++ s.run.events.filterMap SignEvent.loggedSubject := by
  simp [loggedSubjects]

theorem RecordsLogged.step {lib : SignLib} {past : List SignStep} {input : SignInput}
    {files : SignFiles} (h : RecordsLogged lib past files)
    (hadm : UniqueServiceable lib input files) :
    RecordsLogged lib (past ++ [(signStep lib input files).2]) (signStep lib input files).1 := by
  obtain ⟨records, hread, hfile, hnames⟩ := h
  obtain ⟨hdb, hrec⟩ := hadm
  by_cases hreach : ReachesLog lib input files
  · obtain ⟨date, hrecord, hdatabase, hevents⟩ := certSign_logs hdb hreach (hrec hreach)
    refine ⟨records ++ [(date, input.x509.subject)], ?_, ?_, ?_⟩
    · intro r hr
      rcases List.mem_append.mp hr with hr | hr
      · exact hread r hr
      · rw [List.mem_singleton.mp hr]
        exact hrecord
    · simp only [signStep, hdatabase, hfile, List.flatMap_append, List.flatMap_cons,
        List.flatMap_nil, List.append_nil]
    · simp only [loggedSubjects_concat, List.map_append, hnames, signStep, hevents, List.map_cons,
        List.map_nil]
  · obtain ⟨hdatabase, hevents⟩ := certSign_logs_nothing hreach
    refine ⟨records, hread, ?_, ?_⟩
    · simp only [signStep, hdatabase, hfile]
    · simp only [loggedSubjects_concat, hnames, signStep, hevents, List.append_nil]

theorem certSign_unique_eq (lib : SignLib) (env : SignEnv) (csign : CertSign) (x509 : X509)
    (files : SignFiles) : (certSign lib env csign x509 files).unique =
      (certSignAdmit lib env csign x509 files).unique := by
  simp only [certSign]
  split
  · rfl
  · split_ifs
    · rfl
    · rfl

def subjectInput (subject : X509Name) : SignInput :=
  ⟨willingEnv, { sampleSigner with dataBase := true, unique := true },
    { sampleRequest with subject := subject }⟩

def emailSubject : X509Name := [⟨.commonName, str "alice"⟩, ⟨.emailAddress, str "a@b.c"⟩]

theorem certSign_unique_iff (lib : SignLib) (front : List SignInput) (serial : List Byte)
    (h : Admissible (signStep lib) (UniqueServiceable lib) front ⟨serial, []⟩) (input : SignInput)
    (hdb : input.csign.dataBase = true) {u : Int}
    (hu : (signStep lib input (final (signStep lib) front ⟨serial, []⟩)).2.run.unique = some u) :
    u ≠ wolfcluSuccess ↔
      input.x509.subject ∈ loggedSubjects (outputs (signStep lib) front ⟨serial, []⟩) := by
  obtain ⟨records, hread, hfile, hnames⟩ :
      RecordsLogged lib (outputs (signStep lib) front ⟨serial, []⟩)
        (final (signStep lib) front ⟨serial, []⟩) :=
    history_invariant (fun _ _ _ hpast hadm => hpast.step hadm) ⟨[], by simp, rfl, rfl⟩ h
  simp only [signStep, certSign_unique_eq] at hu
  have hfail : wolfcluFatalError ≠ wolfcluSuccess := by decide
  rw [(certSignAdmit_unique hu).2, if_pos hdb, hfile, checkUnique_records hread, ← hnames]
  by_cases hmem : input.x509.subject ∈ records.map Prod.snd
  · rw [if_pos hmem]
    exact iff_of_true hfail hmem
  · rw [if_neg hmem]
    exact iff_of_false (fun hne => hne rfl) hmem

theorem readableEntry_server : ReadableEntry standardNames ⟨.commonName, str "server"⟩ := by
  refine ⟨?_, ?_, ?_, ?_, ?_, ?_, ?_, ?_⟩ <;> decide +kernel

theorem recordable_server : Recordable standardLib (subjectInput sampleRequest.subject) := by
  refine ⟨rfl, rfl, rfl, rfl, rfl, fun dated hdated => ?_⟩
  have hdate : certSetDate willingEnv sampleRequest 365 =
      .ok { sampleRequest with notAfter := str "300101000000Z" } := rfl
  cases hdate.symm.trans hdated
  refine ⟨by decide +kernel, by decide +kernel, by decide +kernel, ?_, by decide +kernel⟩
  intro e he
  rw [List.mem_singleton.mp he]
  exact readableEntry_server

theorem certSign_unique_server :
    wolfcluFatalError ≠ wolfcluSuccess ↔ sampleRequest.subject ∈
      loggedSubjects (outputs (signStep standardLib) [subjectInput sampleRequest.subject] ⟨[], []⟩) :=
  certSign_unique_iff standardLib [subjectInput sampleRequest.subject] []
    ⟨⟨rfl, fun _ => recordable_server⟩, trivial⟩ (subjectInput sampleRequest.subject) rfl (by decide)

theorem email_subject_blocks_others :
    ¬ ∀ (front : List SignInput) (serial : List Byte) (input : SignInput) (u : Int),
      (∀ i ∈ input :: front, i.csign.unique = true ∧ i.csign.dataBase = true) →
      (signStep standardLib input (final (signStep standardLib) front ⟨serial, []⟩)).2.run.unique =
        some u →
      (u ≠ wolfcluSuccess ↔ input.x509.subject ∈
        loggedSubjects (outputs (signStep standardLib) front ⟨serial, []⟩)) := by
  intro h
  have hrejected := h [subjectInput emailSubject] [] (subjectInput [⟨.commonName, str "bob"⟩])
    wolfcluFatalError (by simp [subjectInput]) (by decide)
  have hlogged := hrejected.mp (by decide)
  revert hlogged
  decide

end WolfCLU
