import WolfCLU.Foundation.Chunks
import WolfCLU.X509.Parse

namespace WolfCLU
open CString Chunks

def maxWidth : Nat := 80

def tmpSize : Nat := 100

structure PrintEnv where
  sigAlg : List Byte
  malloc : Nat → Bool
  getSignature : Bool
  bioWrite : Nat → Bool

structure PrintEnv.Works (env : PrintEnv) : Prop where
  malloc : ∀ n, env.malloc n = true
  getSignature : env.getSignature = true
  bioWrite : ∀ n, env.bioWrite n = true

structure PrintState where
  out : List Byte
  writes : Nat

def strncat (size n : Nat) (dest text : List Byte) : Option (List Byte) :=
  if dest.length + (text.take n).length + 1 ≤ size then some (dest ++ text.take n) else none

section Print
variable (env : PrintEnv)

def bioPrint (text : List Byte) (s : PrintState) : Option PrintState :=
  if env.bioWrite s.writes then some { out := s.out ++ text, writes := s.writes + 1 } else none

def rowLead : List Byte := str "        "
def rowBreak : List Byte := str ":\n        "

structure DumpState where
  tmp : List Byte
  bio : PrintState

def dumpByte (i : Nat) (b : Byte) (s : DumpState) : Option (Except PrintState DumpState) :=
  if i = 0 then
    (strncat tmpSize 5 s.tmp (snprintf 4 (Hex.lowerByte b))).map fun tmp => .ok { s with tmp := tmp }
  else if i % 18 = 0 then
    match bioPrint env s.tmp s.bio with
    | none => some (.error s.bio)
    | some bio =>
      (strncat tmpSize 5 (snprintf (tmpSize - 1) rowBreak) (snprintf 4 (Hex.lowerByte b))).map
        fun tmp => .ok { tmp := tmp, bio := bio }
  else
    (strncat tmpSize 5 s.tmp (snprintf 4 (58 :: Hex.lowerByte b))).map
      fun tmp => .ok { s with tmp := tmp }

def dumpLoop (i : Nat) : List Byte → DumpState → Option (Except PrintState DumpState)
  | [], s => some (.ok s)
  | b :: bs, s =>
    match dumpByte env i b s with
    | none => none
    | some (.error bio) => some (.error bio)
    | some (.ok s) => dumpLoop (i + 1) bs s

def signatureHeader (indent : Nat) : List Byte :=
  snprintf maxWidth (List.replicate indent 32 ++ str "Signature Algorithm: ")

def signatureAlgorithm : List Byte := snprintf (tmpSize - 1) (env.sigAlg ++ [10])

def signaturePrint (indent : Nat) (sig : List Byte) : Option (Int × List Byte) :=
  if sig.length > 0 then
    match bioPrint env (signatureHeader indent) { out := [], writes := 0 } with
    | none => some (wolfsslFailure, [])
    | some bio =>
      match bioPrint env (signatureAlgorithm env) bio with
      | none => some (wolfsslFailure, bio.out)
      | some bio =>
        if env.malloc sig.length ∧ env.getSignature then
          match dumpLoop env 0 sig { tmp := snprintf (tmpSize - 1) rowLead, bio := bio } with
          | none => none
          | some (.error bio) => some (wolfsslFailure, bio.out)
          | some (.ok s) =>
            if sig.length > 0 ∧ (sig.length - 1) % 18 ≠ 0 then
              match bioPrint env s.tmp s.bio with
              | none => some (wolfsslFailure, s.bio.out)
              | some bio => some (wolfsslSuccess, bio.out)
            else some (wolfsslSuccess, s.bio.out)
        else some (wolfsslFailure, bio.out)
  else some (wolfsslSuccess, [])

end Print

def rowText (row : List Byte) : List Byte := List.intercalate [58] (row.map Hex.lowerByte)

def hexRows (sig : List Byte) : List Byte :=
  List.intercalate rowBreak ((chunks 18 sig).map rowText)

def DumpsEveryByte (sig : List Byte) : Prop :=
  ∀ env : PrintEnv, env.Works → ∀ indent,
    signaturePrint env indent sig = some (wolfsslSuccess,
      signatureHeader indent ++ signatureAlgorithm env ++ rowLead ++ hexRows sig)

def dumpText (i : Nat) : List Byte → List Byte
  | [] => []
  | b :: bs =>
    (if i = 0 then [] else if i % 18 = 0 then rowBreak else [58]) ++ Hex.lowerByte b ++
      dumpText (i + 1) bs

section Rows

theorem dumpText_append (i : Nat) (xs ys : List Byte) :
    dumpText i (xs ++ ys) = dumpText i xs ++ dumpText (i + xs.length) ys := by
  induction xs generalizing i with
  | nil => rfl
  | cons x xs ih =>
    rw [List.cons_append, dumpText, dumpText, ih, List.length_cons, Nat.add_right_comm,
      Nat.add_assoc i xs.length 1]
    simp only [List.append_assoc]

theorem intercalate_cons {sep x : List Byte} (xs : List (List Byte)) :
    List.intercalate sep (x :: xs) = x ++ xs.flatMap fun y => sep ++ y := by
  induction xs generalizing x with
  | nil => simp
  | cons y xs ih =>
    rw [List.intercalate_cons_cons, ih, List.flatMap_cons]
    simp

theorem dumpText_inside {i : Nat} {bs : List Byte} (hpos : i % 18 ≠ 0)
    (hrow : i % 18 + bs.length ≤ 18) :
    dumpText i bs = (bs.map Hex.lowerByte).flatMap fun text => [58] ++ text := by
  induction bs generalizing i with
  | nil => rfl
  | cons b bs ih =>
    have hi : i ≠ 0 := by
      rintro rfl
      exact hpos rfl
    rw [List.length_cons] at hrow
    rw [dumpText, if_neg hi, if_neg hpos, List.map_cons, List.flatMap_cons]
    cases bs with
    | nil => simp [dumpText]
    | cons c bs =>
      rw [List.length_cons] at hrow
      rw [ih (by omega) (by rw [List.length_cons]; omega)]

theorem dumpText_row {i : Nat} {row : List Byte} (hi : i % 18 = 0) (hne : row ≠ [])
    (hrow : row.length ≤ 18) :
    dumpText i row = (if i = 0 then [] else rowBreak) ++ rowText row := by
  cases row with
  | nil => exact absurd rfl hne
  | cons b row =>
    rw [List.length_cons] at hrow
    rw [dumpText, if_pos hi, rowText, List.map_cons, intercalate_cons, List.append_assoc]
    cases row with
    | nil => rfl
    | cons c row => rw [dumpText_inside (by omega) (by omega)]

theorem hexRows_step {bs : List Byte} (hne : bs ≠ []) :
    hexRows bs = rowText (bs.take 18) ++
      if bs.drop 18 = [] then [] else rowBreak ++ hexRows (bs.drop 18) := by
  rw [hexRows, chunks_of_ne (by decide) hne, List.map_cons]
  by_cases hlast : bs.drop 18 = []
  · rw [hlast, chunks_nil, List.map_nil, List.intercalate_singleton, if_pos rfl, List.append_nil]
  · rw [if_neg hlast, hexRows, chunks_of_ne (by decide) hlast, List.map_cons,
      List.intercalate_cons_cons, List.append_assoc]

theorem dumpText_rows {i : Nat} (hi : i % 18 = 0) {bs : List Byte} (hne : bs ≠ []) :
    dumpText i bs = (if i = 0 then [] else rowBreak) ++ hexRows bs := by
  induction bs using chunks_induct (show 0 < 18 by decide) generalizing i with
  | nil => exact absurd rfl hne
  | more bs _ ih =>
    have hfirst : bs.take 18 ≠ [] := by
      rw [Ne, List.take_eq_nil_iff]
      exact not_or.mpr ⟨by decide, hne⟩
    have htail : dumpText (i + (bs.take 18).length) (bs.drop 18) =
        if bs.drop 18 = [] then [] else rowBreak ++ hexRows (bs.drop 18) := by
      by_cases hlast : bs.drop 18 = []
      · rw [hlast, if_pos rfl]
        rfl
      · have hlong : (bs.take 18).length = 18 := by
          rw [List.drop_eq_nil_iff] at hlast
          rw [List.length_take]
          omega
        rw [if_neg hlast, hlong, ih (by omega) hlast, if_neg (by omega)]
    calc
      dumpText i bs = dumpText i (bs.take 18 ++ bs.drop 18) := by rw [List.take_append_drop]
      _ = (if i = 0 then [] else rowBreak) ++ rowText (bs.take 18) ++
          dumpText (i + (bs.take 18).length) (bs.drop 18) := by
        rw [dumpText_append, dumpText_row hi hfirst (List.length_take_le 18 bs)]
      _ = (if i = 0 then [] else rowBreak) ++ hexRows bs := by
        rw [htail, hexRows_step hne, List.append_assoc]

end Rows

section Dump
variable {env : PrintEnv} {s : DumpState} {before : List Byte}

structure DumpInv (before : List Byte) (i : Nat) (s : DumpState) : Prop where
  text : s.bio.out ++ s.tmp = before
  pending : s.tmp ≠ []
  room : s.tmp.length ≤ if i = 0 then 8 else 12 + 3 * ((i - 1) % 18)

theorem bioPrint_works (hworks : env.Works) (text : List Byte) (bio : PrintState) :
    bioPrint env text bio = some { out := bio.out ++ text, writes := bio.writes + 1 } := by
  rw [bioPrint, if_pos (hworks.bioWrite _)]

theorem strncat_of_le {size n : Nat} {dest text : List Byte} (hn : text.length ≤ n)
    (hroom : dest.length + text.length + 1 ≤ size) :
    strncat size n dest text = some (dest ++ text) := by
  rw [strncat, List.take_of_length_le hn, if_pos hroom]

theorem snprintf_of_lt {size : Nat} {text : List Byte} (h : text.length < size) :
    snprintf size text = text :=
  List.take_of_length_le (by omega)

theorem dumpByte_inv (hworks : env.Works) {i : Nat} (h : DumpInv before i s) (b : Byte) :
    ∃ s', dumpByte env i b s = some (.ok s') ∧
      DumpInv (before ++ (if i = 0 then [] else if i % 18 = 0 then rowBreak else [58]) ++
        Hex.lowerByte b) (i + 1) s' := by
  have hbyte := Hex.lowerByte_length b
  have hroom := h.room
  have hval : snprintf 4 (Hex.lowerByte b) = Hex.lowerByte b := snprintf_of_lt (by omega)
  have hsep : snprintf 4 (58 :: Hex.lowerByte b) = 58 :: Hex.lowerByte b :=
    snprintf_of_lt (by rw [List.length_cons]; omega)
  have hbreak : snprintf (tmpSize - 1) rowBreak = rowBreak := snprintf_of_lt (by decide)
  have hlead : rowBreak.length = 10 := by decide
  simp only [dumpByte, hval, hsep, hbreak]
  by_cases hfirst : i = 0
  · subst hfirst
    rw [if_pos rfl] at hroom
    rw [if_pos rfl, strncat_of_le (by omega) (by simp only [tmpSize]; omega), if_pos rfl]
    exact ⟨_, rfl, by rw [← h.text]; simp, by simp [h.pending], by simp; omega⟩
  · rw [if_neg hfirst] at hroom
    rw [if_neg hfirst, if_neg hfirst]
    by_cases hrow : i % 18 = 0
    · rw [if_pos hrow, if_pos hrow, bioPrint_works hworks]
      simp only
      rw [strncat_of_le (by omega) (by simp only [tmpSize]; omega)]
      exact ⟨_, rfl, by rw [← h.text]; simp, by simp [rowBreak, str], by simp; omega⟩
    · rw [if_neg hrow, if_neg hrow, strncat_of_le (by rw [List.length_cons]; omega)
        (by simp only [tmpSize, List.length_cons]; omega)]
      exact ⟨_, rfl, by rw [← h.text]; simp, by simp [h.pending], by simp; omega⟩

theorem dumpLoop_inv (hworks : env.Works) {i : Nat} (h : DumpInv before i s) (bs : List Byte) :
    ∃ s', dumpLoop env i bs s = some (.ok s') ∧
      DumpInv (before ++ dumpText i bs) (i + bs.length) s' := by
  induction bs generalizing i s before with
  | nil => exact ⟨s, rfl, by simpa [dumpText] using h⟩
  | cons b bs ih =>
    obtain ⟨t, hbyte, hinv⟩ := dumpByte_inv hworks h b
    obtain ⟨s', hrest, hlast⟩ := ih hinv
    refine ⟨s', ?_, ?_⟩
    · rw [dumpLoop, hbyte]
      exact hrest
    · rw [dumpText, List.length_cons, Nat.add_comm bs.length, ← Nat.add_assoc]
      simpa only [List.append_assoc] using hlast

theorem signaturePrint_works (hworks : env.Works) (indent : Nat) {sig : List Byte}
    (hne : sig ≠ []) :
    ∃ out tmp, tmp ≠ [] ∧
      out ++ tmp = signatureHeader indent ++ signatureAlgorithm env ++ rowLead ++ hexRows sig ∧
      signaturePrint env indent sig =
        some (wolfsslSuccess, if (sig.length - 1) % 18 ≠ 0 then out ++ tmp else out) := by
  have hpos := List.length_pos_iff.mpr hne
  have hlead : snprintf (tmpSize - 1) rowLead = rowLead := snprintf_of_lt (by decide)
  have hstart : DumpInv (signatureHeader indent ++ signatureAlgorithm env ++ rowLead) 0
      { tmp := rowLead, bio := { out := [] ++ signatureHeader indent ++ signatureAlgorithm env,
                                 writes := 0 + 1 + 1 } } :=
    ⟨by simp, show rowLead ≠ [] by decide, show rowLead.length ≤ 8 by decide⟩
  obtain ⟨s, hloop, hinv⟩ := dumpLoop_inv hworks hstart sig
  rw [dumpText_rows rfl hne, if_pos rfl, List.nil_append] at hinv
  refine ⟨s.bio.out, s.tmp, hinv.pending, hinv.text, ?_⟩
  simp only [signaturePrint, if_pos hpos, bioPrint_works hworks, hworks.malloc,
    hworks.getSignature, and_self, if_true, hlead, hloop]
  by_cases hrow : (sig.length - 1) % 18 ≠ 0
  · rw [if_pos ⟨hpos, hrow⟩, if_pos hrow]
  · rw [if_neg (fun h => hrow h.2), if_neg hrow]

end Dump

theorem dump_incomplete {env : PrintEnv} (hworks : env.Works) (indent : Nat) {sig : List Byte}
    (hlen : sig.length % 18 = 1) :
    signaturePrint env indent sig ≠ some (wolfsslSuccess,
      signatureHeader indent ++ signatureAlgorithm env ++ rowLead ++ hexRows sig) := by
  have hne : sig ≠ [] := by
    rintro rfl
    cases hlen
  obtain ⟨out, tmp, htmp, htext, hrun⟩ := signaturePrint_works hworks indent hne
  rw [hrun, if_neg (by omega), ← htext]
  intro h
  simp only [Option.some.injEq, Prod.mk.injEq, true_and, List.self_eq_append_right] at h
  exact htmp h

def plainPrintEnv : PrintEnv where
  sigAlg := str "ML-DSA-87"
  malloc _ := true
  getSignature := true
  bioWrite _ := true

theorem plainPrintEnv_works : plainPrintEnv.Works := ⟨fun _ => rfl, rfl, fun _ => rfl⟩

theorem dumps_every_byte_iff (sig : List Byte) (hne : 1 ≤ sig.length) :
    DumpsEveryByte sig ↔ sig.length % 18 ≠ 1 := by
  constructor
  · intro h hlen
    exact dump_incomplete plainPrintEnv_works 4 hlen (h plainPrintEnv plainPrintEnv_works 4)
  · intro hlen env hworks indent
    obtain ⟨out, tmp, _, htext, hrun⟩ :=
      signaturePrint_works hworks indent (List.length_pos_iff.mp hne)
    rw [hrun, if_pos (by omega), htext]

theorem dumps_every_byte_iff_rsa : DumpsEveryByte (List.replicate 256 0) :=
  (dumps_every_byte_iff (List.replicate 256 0) (by rw [List.length_replicate]; decide)).mpr
    (by rw [List.length_replicate]; decide)

theorem dump_drops_last_byte : ¬ DumpsEveryByte (List.replicate 4627 0) := by
  intro h
  exact dump_incomplete plainPrintEnv_works 4 (by rw [List.length_replicate])
    (h plainPrintEnv plainPrintEnv_works 4)

end WolfCLU
