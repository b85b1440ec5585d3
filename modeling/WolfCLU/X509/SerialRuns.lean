import WolfCLU.X509.CertSignSpec

namespace WolfCLU
open Buffer CString MachineInt Run

def SignEvent.serial : SignEvent → Option (Option Nat)
  | .written x509 => some x509.serial
  | _ => none

def writtenSerials (steps : List SignStep) : List (Option Nat) :=
  steps.flatMap fun s => s.run.events.filterMap SignEvent.serial

structure Advanced (lib : SignLib) (s : SignStep) : Prop where
  serial : s.run.ret = wolfcluSuccess → ∃ v, lib.serials.a2i s.before.serial = some v ∧
    lib.serials.a2i s.run.files.serial = some (v + 1)

structure Advanceable (lib : SignLib) (env : SignEnv) (text : List Byte) : Prop where
  reread : env.fault .rereadSerial = false
  set : env.fault .setInteger = false
  write : env.fault .writeSerial = false
  successor : ∀ v, lib.serials.a2i text = some v →
    (v : Int) < longMax ∧ LeavesNoTail lib.serials text v

def SerialServiceable (lib : SignLib) (input : SignInput) (files : SignFiles) : Prop :=
  input.csign.serialFile = true ∧
    (ReachesOutput lib input files → Advanceable lib input.env files.serial)

section Step
variable {lib : SignLib} {env : SignEnv} {csign : CertSign} {x509 y : X509} {files : SignFiles}

theorem bumpSerial_advances {text : List Byte} {v : Nat} (h : Advanceable lib env text)
    (hv : lib.serials.a2i text = some v) : (bumpSerial lib env text).1 = wolfcluSuccess ∧
      lib.serials.a2i (bumpSerial lib env text).2 = some (v + 1) := by
  obtain ⟨hmax, htail⟩ := h.successor v hv
  have hget : lib.serials.integerGet v = v := lib.serials.integerGet_of_le (le_of_lt hmax)
  have hlong : toLong ((v : Int) + 1) = v + 1 :=
    toLong_of_range (by simp only [longMin]; omega) (by omega)
  have hcur : ¬ ((v : Int) < 0 ∨ env.fault .setInteger = true ∨ env.fault .writeSerial = true) := by
    simp [h.set, h.write]
  have hbump : bumpSerial lib env text =
      (wolfcluSuccess, blit text 0 (lib.serials.i2a ((v : Int) + 1))) := by
    simp only [bumpSerial, h.reread, hv, hget, hlong, Bool.false_eq_true, if_false]
    rw [if_neg hcur]
  rw [hbump]
  exact ⟨rfl, lib.serials.a2i_rewrite hmax htail⟩

theorem certSignRecord_serial (hserial : csign.serialFile = true) :
    (certSignRecord lib env csign y files).2.1.serial = (bumpSerial lib env files.serial).2 := by
  simp only [certSignRecord, advanceSerial, hserial, if_true]
  split_ifs <;> rfl

theorem SignEvent.BeforeOutput.serial_none {event : SignEvent} (h : event.BeforeOutput) :
    event.serial = none := by
  cases event with
  | keyMatched ca key => rfl
  | signed x509 key => rfl
  | written x509 => exact absurd h id
  | logged x509 => rfl

theorem certSign_writes (hok : (certSignAdmit lib env csign x509 files).result = .ok y)
    (hout : outputWritten env csign = true) :
    (certSign lib env csign x509 files).events.filterMap SignEvent.serial = [y.serial] := by
  have hbefore : (certSignAdmit lib env csign x509 files).events.filterMap SignEvent.serial = [] :=
    List.filterMap_eq_nil_iff.mpr fun event hevent => (certSignAdmit_events event hevent).serial_none
  have hlogged : (certSignRecord lib env csign y files).2.2.filterMap SignEvent.serial = [] := by
    refine List.filterMap_eq_nil_iff.mpr fun event hevent => ?_
    rw [certSignRecord_events event hevent]
    rfl
  simp only [certSign, hok, if_pos hout, List.filterMap_append, hbefore, List.nil_append,
    List.filterMap_cons, SignEvent.serial, hlogged]

end Step

structure SerialHistory (lib : SignLib) (steps : List SignStep) (files : SignFiles) : Prop where
  nodup : (writtenSerials steps).Nodup
  below : ∀ w ∈ writtenSerials steps, ∃ n, w = some n ∧
    ∀ v, lib.serials.a2i files.serial = some v → n < v
  advanced : ∀ s ∈ steps, Advanced lib s

theorem writtenSerials_concat (steps : List SignStep) (s : SignStep) :
    writtenSerials (steps ++ [s]) =
      writtenSerials steps ++ s.run.events.filterMap SignEvent.serial := by
  simp [writtenSerials]

theorem serialHistory_nil (lib : SignLib) (files : SignFiles) : SerialHistory lib [] files := by
  refine ⟨List.nodup_nil, ?_, ?_⟩
  · intro w hw
    cases hw
  · intro s hs
    cases hs

theorem SerialHistory.step {lib : SignLib} {past : List SignStep} {input : SignInput}
    {files : SignFiles} (h : SerialHistory lib past files)
    (hadm : SerialServiceable lib input files) :
    SerialHistory lib (past ++ [(signStep lib input files).2]) (signStep lib input files).1 := by
  obtain ⟨hserial, hadvance⟩ := hadm
  by_cases hreach : ReachesOutput lib input files
  · obtain ⟨hout, y, hok⟩ := hreach
    obtain ⟨ca, hadmitted⟩ := certSignAdmit_ok hok
    obtain ⟨v, hread, hy⟩ := hadmitted.numbered
    have hv : lib.serials.a2i files.serial = some v := by
      simp only [serialNumber, hserial, if_true] at hread
      split_ifs at hread
      exact hread
    obtain ⟨hbump, hnext⟩ := bumpSerial_advances (hadvance ⟨hout, y, hok⟩) hv
    have hfiles : lib.serials.a2i (signStep lib input files).1.serial = some (v + 1) := by
      simp only [signStep, certSign_files hok hout, certSignRecord_serial hserial]
      exact hnext
    have hevents : (signStep lib input files).2.run.events.filterMap SignEvent.serial = [some v] := by
      simp only [signStep, certSign_writes hok hout, hy]
    refine ⟨?_, ?_, ?_⟩
    · rw [writtenSerials_concat, hevents]
      refine List.nodup_append.mpr ⟨h.nodup, List.nodup_singleton _, ?_⟩
      intro w hw w' hw' heq
      obtain ⟨n, rfl, hlt⟩ := h.below w hw
      rw [List.mem_singleton.mp hw', Option.some.injEq] at heq
      exact absurd (hlt v hv) (by omega)
    · intro w hw
      rw [writtenSerials_concat, hevents, List.mem_append, List.mem_singleton] at hw
      rcases hw with hw | rfl
      · obtain ⟨n, rfl, hlt⟩ := h.below w hw
        refine ⟨n, rfl, fun v' hv' => ?_⟩
        rw [hfiles, Option.some.injEq] at hv'
        have := hlt v hv
        omega
      · refine ⟨v, rfl, fun v' hv' => ?_⟩
        rw [hfiles, Option.some.injEq] at hv'
        omega
    · intro s hs
      rcases List.mem_append.mp hs with hs | hs
      · exact h.advanced s hs
      · rw [List.mem_singleton.mp hs]
        exact ⟨fun _ => ⟨v, hv, hfiles⟩⟩
  · obtain ⟨hfiles, hevents, hret⟩ := certSign_stopped hreach
    have hsilent : (signStep lib input files).2.run.events.filterMap SignEvent.serial = [] := by
      simp only [signStep, hevents]
      exact List.filterMap_eq_nil_iff.mpr fun event hevent =>
        (certSignAdmit_events event hevent).serial_none
    have hsame : writtenSerials (past ++ [(signStep lib input files).2]) = writtenSerials past := by
      rw [writtenSerials_concat, hsilent, List.append_nil]
    refine ⟨hsame ▸ h.nodup, ?_, ?_⟩
    · intro w hw
      rw [hsame] at hw
      simp only [signStep, hfiles]
      exact h.below w hw
    · intro s hs
      rcases List.mem_append.mp hs with hs | hs
      · exact h.advanced s hs
      · rw [List.mem_singleton.mp hs]
        exact ⟨fun hsuccess => absurd hsuccess hret⟩

theorem certSign_serials (lib : SignLib) (inputs : List SignInput) (files : SignFiles)
    (h : Admissible (signStep lib) (SerialServiceable lib) inputs files) :
    (writtenSerials (outputs (signStep lib) inputs files)).Nodup ∧
      ∀ s ∈ outputs (signStep lib) inputs files, Advanced lib s := by
  have hhistory : SerialHistory lib (outputs (signStep lib) inputs files)
      (final (signStep lib) inputs files) :=
    history_invariant (fun _ _ _ hpast hadm => hpast.step hadm) (serialHistory_nil lib files) h
  exact ⟨hhistory.nodup, hhistory.advanced⟩

theorem advanceable_willing {text : List Byte} {v : Nat} (hv : standardLib.serials.a2i text = some v)
    (hmax : (v : Int) < longMax) (htail : LeavesNoTail standardLib.serials text v) :
    Advanceable standardLib willingEnv text := by
  refine ⟨rfl, rfl, rfl, fun v' hv' => ?_⟩
  rw [hv, Option.some.injEq] at hv'
  subst hv'
  exact ⟨hmax, htail⟩

def serialInput : SignInput :=
  ⟨willingEnv, { sampleSigner with serialFile := true }, sampleRequest⟩

theorem certSign_serials_two :
    (writtenSerials (outputs (signStep standardLib) [serialInput, serialInput] ⟨str "01\n", []⟩)).Nodup ∧
      ∀ s ∈ outputs (signStep standardLib) [serialInput, serialInput] ⟨str "01\n", []⟩,
        Advanced standardLib s := by
  have hone : Advanceable standardLib willingEnv (str "01\n") :=
    @advanceable_willing _ 1 (by decide) (by decide) (by unfold LeavesNoTail; decide +kernel)
  have htwo : Advanceable standardLib willingEnv (str "02\n") :=
    @advanceable_willing _ 2 (by decide) (by decide) (by unfold LeavesNoTail; decide +kernel)
  have hfiles : (signStep standardLib serialInput ⟨str "01\n", []⟩).1.serial = str "02\n" := by
    decide
  exact certSign_serials standardLib [serialInput, serialInput] ⟨str "01\n", []⟩
    ⟨⟨rfl, fun _ => hone⟩, ⟨rfl, fun _ => hfiles ▸ htwo⟩, trivial⟩

theorem leading_zeros_misread :
    ¬ ∀ (inputs : List SignInput) (files : SignFiles),
      (∀ input ∈ inputs, input.csign.serialFile = true) →
      (writtenSerials (outputs (signStep standardLib) inputs files)).Nodup ∧
        ∀ s ∈ outputs (signStep standardLib) inputs files, Advanced standardLib s := by
  intro h
  obtain ⟨v, hbefore, hafter⟩ := ((h [serialInput] ⟨str "000F\n", []⟩ (by simp [serialInput])).2 _
    List.mem_cons_self).serial (by decide)
  have hread : standardLib.serials.a2i (str "000F\n") = some 15 := by decide
  have hrewritten : standardLib.serials.a2i (signStep standardLib serialInput
      ⟨str "000F\n", []⟩).2.run.files.serial = some 4111 := by decide
  rw [hrewritten, Option.some.injEq] at hafter
  have hv : v = 15 := Option.some.inj (hbefore.symm.trans hread)
  omega

end WolfCLU
