import WolfCLU.Foundation.BigEndian
import WolfCLU.GenKey.XmssKeyFile
import WolfCLU.SignVerify.SignRoundTrip

namespace WolfCLU
open Buffer CString

-- advance is the key state that signing hands to the write callback, if it gets that far, and
-- answer what signing returns once the callback has answered
structure XmssSigner where
  privSz : Nat
  reload : Option (List Byte) → Int
  advance : List Byte → List Byte → Nat → Option (List Byte)
  exhausted : Int
  answer : List Byte → List Byte → Nat → XmssRc → Int × List Byte

structure XmssUse (κ : Type) where
  lib : SignatureLib κ
  env : SignatureEnv
  data : List Byte
  reading : ReadFaults
  writing : WriteFaults

structure XmssUseRun where
  run : SignatureRun
  released : Option (List Byte)
  deriving DecidableEq, Repr

section Step
variable {κ : Type} (lib : SignatureLib κ) (env : SignatureEnv)

def xmssParamKey (alg : SigAlg) (name : Option (List Byte)) : Except Int (κ × Nat) := do
  allocated env.keyAlloc
  let param ← xmssFamilyParam lib alg name
  allocated env.paramAlloc
  let key ← succeeds (lib.xmssSetParam param)
  let outBufSz ← succeeds (lib.xmssSigLen key)
  allocated env.outputAlloc
  succeeds (lib.xmssSetContext, ())
  .ok (key, outBufSz)

theorem xmssFamilySigningKey_eq (alg : SigAlg) (name : Option (List Byte)) (privKey : VerifyFile) :
    xmssFamilySigningKey lib env alg name privKey =
      xmssParamKey lib env alg name >>= fun (key, outBufSz) =>
        succeeds (lib.xmssReload key
          (if privKey.opens ∧ privKey.reads then some privKey.contents else none)) >>= fun key =>
            .ok (key, outBufSz) := by
  simp only [xmssFamilySigningKey, xmssParamKey, bind_assoc]
  rfl

def xmssKeyReload (signer : XmssSigner) (f : ReadFaults) (file : Option (List Byte)) :
    Int × List Byte :=
  let (rc, priv) := xmssKeyReadCb f signer.privSz true file
  if rc = .readToMemory then (signer.reload (some priv), priv) else (signer.reload none, [])

def xmssKeySign (signer : XmssSigner) (f : WriteFaults) (priv data : List Byte) (outBufSz : Nat)
    (file : Option (List Byte)) : (Int × List Byte) × Option (List Byte) :=
  match signer.advance priv data outBufSz with
  | none => ((signer.exhausted, []), file)
  | some next =>
    let (rc, file) := xmssKeyWriteCb f (some next) true file
    (signer.answer priv data outBufSz rc, file)

def xmssSignStep (signer : κ → XmssSigner) (alg : SigAlg) (name : Option (List Byte))
    (use : XmssUse κ) (file : Option (List Byte)) : Option (List Byte) × XmssUseRun :=
  match xmssParamKey use.lib use.env alg name with
  | .error ret => (file, ⟨⟨finishZero ret, none⟩, none⟩)
  | .ok (key, outBufSz) =>
    let (ret, priv) := xmssKeyReload (signer key) use.reading file
    if ret ≠ 0 then (file, ⟨⟨finishZero ret, none⟩, none⟩)
    else
      let ((ret, outBuf), file) := xmssKeySign (signer key) use.writing priv use.data outBufSz file
      if ret = 0 then
        let (ret, out) := writeSignature use.env outputFileError ret outBuf
        (file, ⟨⟨finishZero ret, out⟩, some outBuf⟩)
      else (file, ⟨⟨finishZero ret, none⟩, none⟩)

end Step

section Documented

def xmssIndex (idxLen : Nat) (bytes : List Byte) : Nat := BigEndian.value (bytes.take idxLen)

structure XmssSigner.Documented (privSz idxLen : Nat) (signer : XmssSigner) : Prop where
  size : signer.privSz = privSz
  unread : signer.reload none ≠ 0
  exhausted : signer.exhausted ≠ 0
  length : ∀ priv data n next, signer.advance priv data n = some next → next.length = privSz
  advanced : ∀ priv data n next, signer.advance priv data n = some next →
    xmssIndex idxLen next = xmssIndex idxLen priv + 1
  saved : ∀ priv data n rc, (signer.answer priv data n rc).1 = 0 → rc = .savedToNvMemory
  signed : ∀ priv data n rc, (signer.answer priv data n rc).1 = 0 →
    xmssIndex idxLen (signer.answer priv data n rc).2 = xmssIndex idxLen priv

end Documented

section Splice
variable {idxLen k : Nat} {priv next : List Byte}

theorem spliced_take (hlength : priv.length = next.length) :
    (next.take k ++ priv.drop k).take idxLen =
      (next.take idxLen).take k ++ (priv.take idxLen).drop k := by
  rw [List.take_append, List.take_take, List.take_take, List.drop_take, List.length_take,
    Nat.min_comm idxLen k]
  rcases le_total k next.length with hk | hk
  · rw [Nat.min_eq_left hk]
  · rw [Nat.min_eq_right hk, List.drop_of_length_le (by omega)]
    simp

theorem xmssIndex_spliced (hlength : priv.length = next.length)
    (hle : xmssIndex idxLen priv ≤ xmssIndex idxLen next) :
    xmssIndex idxLen priv ≤ xmssIndex idxLen (next.take k ++ priv.drop k) := by
  rw [xmssIndex, xmssIndex, spliced_take hlength]
  refine BigEndian.value_le_spliced ?_ hle k
  rw [List.length_take, List.length_take, hlength]

end Splice

section Write
variable {privSz idxLen : Nat} {f : WriteFaults} {priv next data : List Byte}
  {file : Option (List Byte)}

theorem index_after_write (hpriv : priv.length = privSz)
    (hnext : next.length = privSz) (hheld : Holds file priv)
    (hle : xmssIndex idxLen priv ≤ xmssIndex idxLen next) (hdata : data.length = privSz)
    (h : Holds (xmssKeyWriteCb f (some next) true file).2 data) :
    xmssIndex idxLen priv ≤ xmssIndex idxLen data := by
  obtain ⟨hpos, held, rfl, hlong, hprefix⟩ := holds_iff.mp hheld
  cases hopen : openKeyFile f (some held) with
  | none =>
    rw [(write_of_closed hopen).2] at h
    obtain ⟨-, other, hother, -, hread⟩ := holds_iff.mp h
    cases hother
    rw [hread, hdata, ← hpriv, ← hprefix]
  | some contents =>
    rw [(write_of_open (by omega) hopen).1] at h
    obtain ⟨-, written, hwritten, hlength, hread⟩ := holds_iff.mp h
    cases hwritten
    rw [hdata, ← hnext, overwritten_take] at hread
    rcases List.eq_nil_or_concat contents with hnil | hcons
    · rw [hnil, overwritten_length, List.length_nil] at hlength
      rw [hread, List.take_of_length_le (by omega), hnil]
      simpa using hle
    · have hne : contents ≠ [] := by
        obtain ⟨front, last, rfl⟩ := hcons
        simp
      obtain ⟨-, hsame⟩ := openKeyFile_held hopen hne
      cases hsame
      rw [hread, hnext, ← hpriv, ← hprefix]
      exact xmssIndex_spliced (by rw [hpriv, hnext]) hle

end Write

section Run
variable {κ : Type} {signer : κ → XmssSigner} {alg : SigAlg} {name : Option (List Byte)}
  {privSz idxLen : Nat} {use : XmssUse κ} {file : Option (List Byte)}

inductive XmssOutcome (privSz idxLen : Nat) (file : Option (List Byte)) :
    Option (List Byte) × XmssUseRun → Prop
  | kept (run : SignatureRun) : XmssOutcome privSz idxLen file (file, ⟨run, none⟩)
  | lost (f : WriteFaults) (priv next : List Byte) (run : SignatureRun) :
      priv.length = privSz → next.length = privSz → Holds file priv →
      xmssIndex idxLen next = xmssIndex idxLen priv + 1 →
      XmssOutcome privSz idxLen file
        ((xmssKeyWriteCb f (some next) true file).2, ⟨run, none⟩)
  | released (after : Option (List Byte)) (priv next sig : List Byte) (run : SignatureRun) :
      priv.length = privSz → next.length = privSz → Holds file priv → Holds after next →
      xmssIndex idxLen next = xmssIndex idxLen priv + 1 →
      xmssIndex idxLen sig = xmssIndex idxLen priv →
      XmssOutcome privSz idxLen file (after, ⟨run, some sig⟩)

theorem xmssKeyReload_ok {signer : XmssSigner} (hdoc : XmssSigner.Documented privSz idxLen signer)
    {reading : ReadFaults} (h : (xmssKeyReload signer reading file).1 = 0) :
    (xmssKeyReload signer reading file).2.length = privSz ∧
      Holds file (xmssKeyReload signer reading file).2 := by
  cases hread : xmssKeyReadCb reading signer.privSz true file with
  | mk rc priv =>
    simp only [xmssKeyReload, hread] at h ⊢
    split_ifs at h ⊢ with hrc
    · subst hrc
      obtain ⟨hlength, hholds⟩ := holds_of_read hread
      exact ⟨hlength.trans hdoc.size, hholds⟩
    · exact absurd h hdoc.unread

theorem xmssSignStep_outcome (hdoc : ∀ key n, xmssParamKey use.lib use.env alg name = .ok (key, n) →
      XmssSigner.Documented privSz idxLen (signer key)) :
    XmssOutcome privSz idxLen file (xmssSignStep signer alg name use file) := by
  simp only [xmssSignStep]
  cases hparam : xmssParamKey use.lib use.env alg name with
  | error ret => exact .kept _
  | ok ready =>
    obtain ⟨key, outBufSz⟩ := ready
    have hkey := hdoc key outBufSz hparam
    dsimp only
    split
    · exact .kept _
    · rename_i hret
      obtain ⟨hlength, hholds⟩ := xmssKeyReload_ok hkey (not_not.mp hret)
      generalize (xmssKeyReload (signer key) use.reading file).2 = priv at hlength hholds ⊢
      cases hnext : (signer key).advance priv use.data outBufSz with
      | none =>
        simp only [xmssKeySign, hnext, if_neg hkey.exhausted]
        exact .kept _
      | some next =>
        have hsize := hkey.length _ _ _ _ hnext
        have hstep := hkey.advanced _ _ _ _ hnext
        have hpos : 0 < next.length := by
          have hprivPos := (holds_iff.mp hholds).1
          omega
        simp only [xmssKeySign, hnext]
        split
        · rename_i hanswer
          refine .released _ priv next _ _ hlength hsize hholds ?_ hstep
            (hkey.signed _ _ _ _ hanswer)
          exact keeps_of_saved hpos (hkey.saved _ _ _ _ hanswer)
        · exact .lost use.writing priv next _ hlength hsize hholds hstep

end Run

def releasedIndexes (idxLen : Nat) (runs : List XmssUseRun) : List Nat :=
  (runs.filterMap XmssUseRun.released).map (xmssIndex idxLen)

section History
variable {κ : Type} {signer : κ → XmssSigner} {alg : SigAlg} {name : Option (List Byte)}
  {privSz idxLen : Nat} {past : List XmssUseRun} {file : Option (List Byte)}

structure Spent (privSz idxLen : Nat) (past : List XmssUseRun) (file : Option (List Byte)) :
    Prop where
  increasing : (releasedIndexes idxLen past).Pairwise (· < ·)
  below : ∀ i ∈ releasedIndexes idxLen past, ∀ priv, priv.length = privSz → Holds file priv →
    i < xmssIndex idxLen priv

theorem releasedIndexes_none (past : List XmssUseRun) (run : SignatureRun) :
    releasedIndexes idxLen (past ++ [⟨run, none⟩]) = releasedIndexes idxLen past := by
  simp [releasedIndexes]

theorem releasedIndexes_some (past : List XmssUseRun) (run : SignatureRun) (sig : List Byte) :
    releasedIndexes idxLen (past ++ [⟨run, some sig⟩]) =
      releasedIndexes idxLen past ++ [xmssIndex idxLen sig] := by
  simp [releasedIndexes]

theorem holds_unique {priv other : List Byte} (hlength : priv.length = other.length)
    (h : Holds file priv) (h' : Holds file other) : priv = other := by
  obtain ⟨-, held, rfl, -, hpriv⟩ := holds_iff.mp h
  obtain ⟨-, held', hheld, -, hother⟩ := holds_iff.mp h'
  cases hheld
  rw [hpriv, hother, hlength]

theorem Spent.step {outcome : Option (List Byte) × XmssUseRun} (h : Spent privSz idxLen past file)
    (hout : XmssOutcome privSz idxLen file outcome) :
    Spent privSz idxLen (past ++ [outcome.2]) outcome.1 := by
  cases hout with
  | kept run =>
    refine ⟨?_, ?_⟩
    · rw [releasedIndexes_none]
      exact h.increasing
    · rw [releasedIndexes_none]
      exact h.below
  | lost f priv next run hpriv hnext hheld hstep =>
    refine ⟨?_, ?_⟩
    · rw [releasedIndexes_none]
      exact h.increasing
    · rw [releasedIndexes_none]
      intro i hi data hdata hholds
      have hspent := h.below i hi priv hpriv hheld
      have hkept := index_after_write hpriv hnext hheld (by rw [hstep]; omega) hdata hholds
      omega
  | released after priv next sig run hpriv hnext hheld hafter hstep hsig =>
    refine ⟨?_, ?_⟩
    · rw [releasedIndexes_some, List.pairwise_append]
      refine ⟨h.increasing, List.pairwise_singleton _ _, ?_⟩
      intro i hi j hj
      rw [List.mem_singleton] at hj
      rw [hj, hsig]
      exact h.below i hi priv hpriv hheld
    · rw [releasedIndexes_some]
      intro i hi data hdata hholds
      rw [holds_unique (hdata.trans hnext.symm) hholds hafter, hstep]
      rcases List.mem_append.mp hi with hold | hnew
      · have hspent := h.below i hold priv hpriv hheld
        omega
      · rw [List.mem_singleton] at hnew
        omega

theorem xmss_indexes_increase (uses : List (XmssUse κ)) (file : Option (List Byte))
    (hdoc : ∀ use ∈ uses, ∀ key n, xmssParamKey use.lib use.env alg name = .ok (key, n) →
      XmssSigner.Documented privSz idxLen (signer key)) :
    (releasedIndexes idxLen (Run.outputs (xmssSignStep signer alg name) uses file)).Pairwise
      (· < ·) := by
  have hspent : Spent privSz idxLen (Run.outputs (xmssSignStep signer alg name) uses file)
      (Run.final (xmssSignStep signer alg name) uses file) := by
    have hadmissible : Run.Admissible (xmssSignStep signer alg name)
        (fun use _ => ∀ key n, xmssParamKey use.lib use.env alg name = .ok (key, n) →
          XmssSigner.Documented privSz idxLen (signer key)) uses file :=
      Run.admissible_of_forall (fun use huse _ => hdoc use huse) file
    refine Run.history_invariant ?_ ⟨List.Pairwise.nil, ?_⟩ hadmissible
    · intro past use now hpast hadm
      exact hpast.step (xmssSignStep_outcome hadm)
    · intro i hi
      cases hi
  exact hspent.increasing

end History

def counterSigner (_ : List Byte) : XmssSigner where
  privSz := 4
  reload priv := if priv.isSome then 0 else -1
  advance priv _ _ :=
    let next := BigEndian.value (priv.take 2) + 1
    if next < 65536 then some [UInt8.ofNat (next / 256), UInt8.ofNat next, 7, 7] else none
  exhausted := -2
  answer priv _ _ rc := if rc = .savedToNvMemory then (0, priv) else (-3, [])

theorem counterSigner_documented (key : List Byte) : XmssSigner.Documented 4 2 (counterSigner key) where
  size := rfl
  unread := by simp [counterSigner]
  exhausted := by simp [counterSigner]
  length priv data n next h := by
    simp only [counterSigner] at h
    split_ifs at h
    cases h
    rfl
  advanced priv data n next h := by
    simp only [counterSigner] at h
    split_ifs at h with hlt
    cases h
    simp only [xmssIndex, BigEndian.value, List.take, List.foldl, UInt8.toNat_ofNat'] at hlt ⊢
    omega
  saved priv data n rc h := by
    by_contra hrc
    simp [counterSigner, hrc] at h
  signed priv data n rc h := by
    simp only [counterSigner] at h ⊢
    split_ifs at h ⊢
    · rfl
    · exact absurd h (by decide)

def goodWrite : WriteFaults := { shortWrite with written := 4, stored := 4 }

def xmssUse (writing : WriteFaults) : XmssUse (List Byte) :=
  ⟨echoLib, echoEnv, str "msg", ⟨true, 4⟩, writing⟩

theorem xmss_indexes_increase_short_write :
    releasedIndexes 2 (Run.outputs
        (xmssSignStep counterSigner .xmss (xmssName (str "XMSS-SHA2_10_256.priv")))
        [xmssUse { shortWrite with stored := 1 }, xmssUse goodWrite, xmssUse goodWrite]
        (some [0, 255, 7, 7])) = [511, 512] ∧
      (releasedIndexes 2 (Run.outputs
        (xmssSignStep counterSigner .xmss (xmssName (str "XMSS-SHA2_10_256.priv")))
        [xmssUse { shortWrite with stored := 1 }, xmssUse goodWrite, xmssUse goodWrite]
        (some [0, 255, 7, 7]))).Pairwise (· < ·) :=
  ⟨by decide, xmss_indexes_increase _ _ fun _ _ key _ _ => counterSigner_documented key⟩

end WolfCLU
