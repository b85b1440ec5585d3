import WolfCLU.Foundation.Buffer
import WolfCLU.Foundation.CString
import WolfCLU.Foundation.Run

namespace WolfCLU
open Buffer CString

inductive XmssRc where
  | badArg
  | writeFail
  | savedToNvMemory
  | readFail
  | readToMemory
  deriving DecidableEq, Repr

-- how each file operation of one write ends: stored bytes of the state have reached the file
-- when it is closed, and fread delivers at most readable of them
structure WriteFaults where
  opensUpdate : Bool
  creates : Bool
  written : Nat
  stored : Nat
  closes : Bool
  reopens : Bool
  alloc : Bool
  readable : Nat
  recloses : Bool

structure ReadFaults where
  opens : Bool
  readable : Nat

section Callbacks

def openKeyFile (f : WriteFaults) (file : Option (List Byte)) : Option (List Byte) :=
  match file.filter fun _ => f.opensUpdate with
  | some contents => some contents
  | none => if f.creates then some [] else none

def verifyWritten (f : WriteFaults) (priv contents : List Byte) : XmssRc :=
  if ¬ f.reopens then .writeFail
  else if ¬ f.alloc then .writeFail
  else
    let buff := (contents.take priv.length).take f.readable
    if buff.length ≠ priv.length then .writeFail
    else if buff ≠ priv then .writeFail
    else if ¬ f.recloses then .writeFail
    else .savedToNvMemory

def xmssKeyWriteCb (f : WriteFaults) (priv : Option (List Byte)) (context : Bool)
    (file : Option (List Byte)) : XmssRc × Option (List Byte) :=
  match priv with
  | none => (.badArg, file)
  | some priv =>
    if ¬ context ∨ priv.length = 0 then (.badArg, file)
    else
      match openKeyFile f file with
      | none => (.writeFail, file)
      | some contents =>
        let contents := blit contents 0 (priv.take f.stored)
        if f.written ≠ priv.length then (.writeFail, some contents)
        else if ¬ f.closes then (.writeFail, some contents)
        else (verifyWritten f priv contents, some contents)

def xmssKeyReadCb (f : ReadFaults) (privSz : Nat) (context : Bool) (file : Option (List Byte)) :
    XmssRc × List Byte :=
  if privSz = 0 ∨ ¬ context then (.badArg, [])
  else
    match file.filter fun _ => f.opens with
    | none => (.readFail, [])
    | some contents =>
      let priv := (contents.take privSz).take f.readable
      if priv.length ≠ privSz then (.readFail, priv) else (.readToMemory, priv)

end Callbacks

def Holds (file : Option (List Byte)) (priv : List Byte) : Prop :=
  xmssKeyReadCb ⟨true, priv.length⟩ priv.length true file = (.readToMemory, priv)

def WriteKeepsState (f : WriteFaults) (priv : List Byte) (file : Option (List Byte)) : Prop :=
  let run := xmssKeyWriteCb f (some priv) true file
  if run.1 = .savedToNvMemory then Holds run.2 priv
  else ∀ reading data, xmssKeyReadCb reading priv.length true run.2 = (.readToMemory, data) →
    data = priv ∨ Holds file data

def LeavesMixture (f : WriteFaults) (priv : List Byte) (file : Option (List Byte)) : Prop :=
  f.opensUpdate = true ∧ ∃ previous, previous.length = priv.length ∧ Holds file previous ∧
    priv.take f.stored ≠ previous.take f.stored ∧ priv.drop f.stored ≠ previous.drop f.stored

section Reading
variable {priv data : List Byte} {file : Option (List Byte)}

theorem read_ok_iff {reading : ReadFaults} {privSz : Nat} :
    xmssKeyReadCb reading privSz true file = (.readToMemory, data) ↔
      0 < privSz ∧ reading.opens = true ∧ privSz ≤ reading.readable ∧
        ∃ contents, file = some contents ∧ privSz ≤ contents.length ∧
          data = contents.take privSz := by
  simp only [xmssKeyReadCb, not_true_eq_false, or_false]
  split_ifs with hsize
  · simp [hsize]
  · cases file with
    | none => simp
    | some contents =>
      cases hopens : reading.opens with
      | false => simp
      | true =>
        simp only [Option.filter_some_pos, List.take_take, List.length_take]
        split_ifs with hshort
        · simp only [Prod.mk.injEq, reduceCtorEq, false_and, false_iff]
          rintro ⟨-, -, hreadable, c, hc, hlength, -⟩
          cases hc
          omega
        · have hmin : min reading.readable privSz = privSz := by omega
          simp only [hmin, Prod.mk.injEq, true_and]
          constructor
          · rintro rfl
            exact ⟨by omega, by omega, contents, rfl, by omega, rfl⟩
          · rintro ⟨-, -, c, hc, -, rfl⟩
            cases hc
            rfl

theorem holds_iff :
    Holds file priv ↔ 0 < priv.length ∧
      ∃ contents, file = some contents ∧ priv.length ≤ contents.length ∧
        priv = contents.take priv.length := by
  simp [Holds, read_ok_iff]

theorem holds_of_read {reading : ReadFaults} {privSz : Nat}
    (h : xmssKeyReadCb reading privSz true file = (.readToMemory, data)) :
    data.length = privSz ∧ Holds file data := by
  obtain ⟨hpos, -, -, contents, rfl, hlength, rfl⟩ := read_ok_iff.mp h
  have hdata : (contents.take privSz).length = privSz := List.length_take_of_le hlength
  exact ⟨hdata, holds_iff.mpr ⟨by omega, contents, rfl, by omega, by rw [hdata]⟩⟩

end Reading

section Overwriting
variable {k : Nat} {priv previous contents : List Byte}

theorem overwritten_length :
    (blit contents 0 (priv.take k)).length = max (min k priv.length) contents.length := by
  simp only [blit, List.take_zero, List.nil_append, Nat.zero_add, List.length_append,
    List.length_take, List.length_drop]
  omega

theorem overwritten_take :
    (blit contents 0 (priv.take k)).take priv.length =
      priv.take k ++ (contents.take priv.length).drop k := by
  have hle : (priv.take k).length ≤ priv.length := List.length_take_le' k priv
  simp only [blit, List.take_zero, List.nil_append, Nat.zero_add]
  rw [List.take_append, List.take_of_length_le hle, List.drop_take]
  rcases le_total k priv.length with hk | hk
  · rw [List.length_take_of_le hk]
  · simp [List.length_take, hk]

theorem spliced_eq_new : priv.take k ++ previous.drop k = priv ↔ priv.drop k = previous.drop k := by
  conv_lhs => rhs; rw [← List.take_append_drop k priv]
  rw [List.append_cancel_left_eq]
  exact eq_comm

theorem spliced_eq_old :
    priv.take k ++ previous.drop k = previous ↔ priv.take k = previous.take k := by
  conv_lhs => rhs; rw [← List.take_append_drop k previous]
  rw [List.append_cancel_right_eq]

end Overwriting

section Writing
variable {f : WriteFaults} {priv contents : List Byte} {file : Option (List Byte)}

theorem verifyWritten_saved (h : verifyWritten f priv contents = .savedToNvMemory) :
    contents.take priv.length = priv := by
  simp only [verifyWritten] at h
  split_ifs at h with _ _ hlength hequal _
  have hbuff := not_not.mp hlength
  rw [List.length_take, List.length_take] at hbuff
  have hwhole : (contents.take priv.length).take f.readable = contents.take priv.length :=
    List.take_of_length_le (by rw [List.length_take]; omega)
  rw [← hwhole]
  exact not_not.mp hequal

theorem write_of_open (hpos : 0 < priv.length) (hopen : openKeyFile f file = some contents) :
    (xmssKeyWriteCb f (some priv) true file).2 = some (blit contents 0 (priv.take f.stored)) ∧
      ((xmssKeyWriteCb f (some priv) true file).1 = .savedToNvMemory →
        (blit contents 0 (priv.take f.stored)).take priv.length = priv) := by
  simp only [xmssKeyWriteCb, not_true_eq_false, false_or, if_neg hpos.ne', hopen]
  split
  · exact ⟨rfl, XmssRc.noConfusion⟩
  · split
    · exact ⟨rfl, XmssRc.noConfusion⟩
    · exact ⟨rfl, verifyWritten_saved⟩

theorem write_of_closed (hopen : openKeyFile f file = none) :
    (xmssKeyWriteCb f (some priv) true file).1 ≠ .savedToNvMemory ∧
      (xmssKeyWriteCb f (some priv) true file).2 = file := by
  simp only [xmssKeyWriteCb, hopen]
  split <;> exact ⟨XmssRc.noConfusion, rfl⟩

theorem openKeyFile_held (hopen : openKeyFile f file = some contents) (hne : contents ≠ []) :
    f.opensUpdate = true ∧ file = some contents := by
  simp only [openKeyFile] at hopen
  split at hopen
  · rename_i held hheld
    cases hopen
    obtain ⟨hfile, hopens⟩ := Option.filter_eq_some_iff.mp hheld
    exact ⟨hopens, hfile⟩
  · split_ifs at hopen
    cases hopen
    exact absurd rfl hne

theorem openKeyFile_of_update (hopens : f.opensUpdate = true) (hfile : file = some contents) :
    openKeyFile f file = some contents := by
  simp only [openKeyFile, hfile, Option.filter, hopens, if_true]

end Writing

section Mixture
variable {f : WriteFaults} {priv contents : List Byte} {file : Option (List Byte)}

theorem not_holds_nil : ¬ Holds file [] := by
  intro h
  exact absurd (holds_iff.mp h).1 (by decide)

theorem not_mixture_of_saved (hpos : 0 < priv.length)
    (hsaved : (xmssKeyWriteCb f (some priv) true file).1 = .savedToNvMemory) :
    ¬ LeavesMixture f priv file := by
  rintro ⟨hopens, previous, hlength, hholds, -, hafter⟩
  obtain ⟨-, held, rfl, -, hprevious⟩ := holds_iff.mp hholds
  have hnew := (write_of_open hpos (openKeyFile_of_update hopens rfl)).2 hsaved
  rw [overwritten_take, ← hlength, ← hprevious] at hnew
  exact hafter (spliced_eq_new.mp hnew)

theorem keeps_of_saved (hpos : 0 < priv.length)
    (hsaved : (xmssKeyWriteCb f (some priv) true file).1 = .savedToNvMemory) :
    Holds (xmssKeyWriteCb f (some priv) true file).2 priv := by
  cases hopen : openKeyFile f file with
  | none => exact absurd hsaved (write_of_closed hopen).1
  | some contents =>
    obtain ⟨hfile, hverified⟩ := write_of_open hpos hopen
    have hnew := hverified hsaved
    rw [hfile]
    refine holds_iff.mpr ⟨hpos, _, rfl, ?_, hnew.symm⟩
    have hlength := congrArg List.length hnew
    rw [List.length_take] at hlength
    omega

theorem read_after_write (hpos : 0 < priv.length) (hopen : openKeyFile f file = some contents)
    (hmixture : ¬ LeavesMixture f priv file) {reading : ReadFaults} {data : List Byte}
    (hread : xmssKeyReadCb reading priv.length true (xmssKeyWriteCb f (some priv) true file).2 =
      (.readToMemory, data)) : data = priv ∨ Holds file data := by
  rw [(write_of_open hpos hopen).1] at hread
  obtain ⟨-, -, -, held, hheld, hlength, rfl⟩ := read_ok_iff.mp hread
  cases hheld
  rw [overwritten_length] at hlength
  rw [overwritten_take]
  rcases le_or_gt priv.length contents.length with hlong | hshort
  · have hne : contents ≠ [] := List.ne_nil_of_length_pos (by omega)
    obtain ⟨hopens, rfl⟩ := openKeyFile_held hopen hne
    have hprevious : (contents.take priv.length).length = priv.length :=
      List.length_take_of_le hlong
    have hholds : Holds (some contents) (contents.take priv.length) :=
      holds_iff.mpr ⟨by omega, contents, rfl, by omega, by rw [hprevious]⟩
    by_cases hbefore : priv.take f.stored = (contents.take priv.length).take f.stored
    · rw [spliced_eq_old.mpr hbefore]
      exact .inr hholds
    · by_cases hafter : priv.drop f.stored = (contents.take priv.length).drop f.stored
      · exact .inl (spliced_eq_new.mpr hafter)
      · exact absurd ⟨hopens, _, hprevious, hholds, hbefore, hafter⟩ hmixture
  · have hstored : priv.length ≤ f.stored := by omega
    rw [List.take_of_length_le hstored, List.drop_of_length_le (by simp; omega), List.append_nil]
    exact .inl rfl

theorem mixture_read (hpos : 0 < priv.length) (h : LeavesMixture f priv file) :
    ∃ data, xmssKeyReadCb ⟨true, priv.length⟩ priv.length true
        (xmssKeyWriteCb f (some priv) true file).2 = (.readToMemory, data) ∧
      ¬ (data = priv ∨ Holds file data) := by
  obtain ⟨hopens, previous, hlength, hholds, hbefore, hafter⟩ := h
  obtain ⟨-, held, rfl, hheld, hprevious⟩ := holds_iff.mp hholds
  rw [hlength] at hheld hprevious
  refine ⟨priv.take f.stored ++ previous.drop f.stored, ?_, ?_⟩
  · rw [(write_of_open hpos (openKeyFile_of_update hopens rfl)).1]
    refine read_ok_iff.mpr ⟨hpos, rfl, le_rfl, _, rfl, ?_, ?_⟩
    · rw [overwritten_length]
      omega
    · rw [overwritten_take, ← hprevious]
  · rintro (hnew | hold)
    · exact hafter (spliced_eq_new.mp hnew)
    · obtain ⟨-, other, hother, -, hdata⟩ := holds_iff.mp hold
      cases hother
      have hsize : (priv.take f.stored ++ previous.drop f.stored).length = priv.length := by
        simp only [List.length_append, List.length_take, List.length_drop]
        omega
      rw [hsize, ← hprevious] at hdata
      exact hbefore (spliced_eq_old.mp hdata)

end Mixture

theorem write_keeps_state_iff (f : WriteFaults) (priv : List Byte) (file : Option (List Byte)) :
    WriteKeepsState f priv file ↔ ¬ LeavesMixture f priv file := by
  rcases Nat.eq_zero_or_pos priv.length with hnil | hpos
  · cases List.eq_nil_of_length_eq_zero hnil
    refine iff_of_true ?_ fun ⟨_, previous, hlength, hholds, _⟩ => ?_
    · intro reading data hread
      exact absurd (read_ok_iff.mp hread).1 (by decide)
    · cases List.eq_nil_of_length_eq_zero hlength
      exact not_holds_nil hholds
  · by_cases hsaved : (xmssKeyWriteCb f (some priv) true file).1 = .savedToNvMemory
    · refine iff_of_true ?_ (not_mixture_of_saved hpos hsaved)
      simp only [WriteKeepsState, if_pos hsaved]
      exact keeps_of_saved hpos hsaved
    · simp only [WriteKeepsState, if_neg hsaved]
      constructor
      · intro hkeeps hmixture
        obtain ⟨data, hread, hneither⟩ := mixture_read hpos hmixture
        exact hneither (hkeeps _ data hread)
      · intro hmixture reading data hread
        cases hopen : openKeyFile f file with
        | none =>
          rw [(write_of_closed hopen).2] at hread
          exact .inr (holds_of_read hread).2
        | some contents => exact read_after_write hpos hopen hmixture hread

def shortWrite : WriteFaults where
  opensUpdate := true
  creates := true
  written := 2
  stored := 2
  closes := true
  reopens := true
  alloc := true
  readable := 4
  recloses := true

theorem short_write_mixes :
    xmssKeyWriteCb shortWrite (some [2, 2, 2, 2]) true (some [1, 1, 1, 1]) =
        (.writeFail, some [2, 2, 1, 1]) ∧
      xmssKeyReadCb ⟨true, 4⟩ 4 true (some [2, 2, 1, 1]) = (.readToMemory, [2, 2, 1, 1]) ∧
      ¬ WriteKeepsState shortWrite [2, 2, 2, 2] (some [1, 1, 1, 1]) := by
  refine ⟨by decide, by decide, fun hkeeps => ?_⟩
  rcases hkeeps ⟨true, 4⟩ [2, 2, 1, 1] (by decide) with hnew | hold
  · exact absurd hnew (by decide)
  · exact absurd hold (by unfold Holds; decide)

section History
variable {privSz : Nat}

def writeStep (write : WriteFaults × List Byte) (file : Option (List Byte)) :
    Option (List Byte) × List Byte :=
  ((xmssKeyWriteCb write.1 (some write.2) true file).2, write.2)

def Unmixed (privSz : Nat) (write : WriteFaults × List Byte) (file : Option (List Byte)) : Prop :=
  write.2.length = privSz ∧ ¬ LeavesMixture write.1 write.2 file

theorem holds_after_write {write : WriteFaults × List Byte} {file : Option (List Byte)}
    (h : Unmixed privSz write file) {data : List Byte} (hsize : data.length = privSz)
    (hholds : Holds (writeStep write file).1 data) : data = write.2 ∨ Holds file data := by
  obtain ⟨hlength, hmixture⟩ := h
  have hpos : 0 < write.2.length := by
    have := (holds_iff.mp hholds).1
    omega
  rw [Holds, hsize, ← hlength] at hholds
  cases hopen : openKeyFile write.1 file with
  | none =>
    rw [writeStep, (write_of_closed hopen).2] at hholds
    exact .inr (holds_of_read hholds).2
  | some contents => exact read_after_write hpos hopen hmixture hholds

theorem writes_hold (writes : List (WriteFaults × List Byte)) (file : Option (List Byte))
    (h : Run.Admissible writeStep (Unmixed privSz) writes file) {data : List Byte}
    (hsize : data.length = privSz) (hholds : Holds (Run.final writeStep writes file) data) :
    Holds file data ∨ data ∈ Run.outputs writeStep writes file := by
  have hhistory : ∀ data : List Byte, data.length = privSz →
      Holds (Run.final writeStep writes file) data →
        Holds file data ∨ data ∈ Run.outputs writeStep writes file := by
    refine Run.history_invariant (P := fun past now => ∀ data : List Byte, data.length = privSz →
      Holds now data → Holds file data ∨ data ∈ past) ?_ (fun _ _ h => .inl h) h
    intro past write now hpast hwrite data hsize hholds
    rcases holds_after_write hwrite hsize hholds with rfl | hheld
    · exact .inr (List.mem_append_right past List.mem_cons_self)
    · rcases hpast data hsize hheld with hfile | hmem
      · exact .inl hfile
      · exact .inr (List.mem_append_left _ hmem)
  exact hhistory data hsize hholds

end History

end WolfCLU
