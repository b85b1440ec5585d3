import WolfCLU.Ocsp.IndexLines

namespace WolfCLU.Ocsp
open CString TextLine

section Calendar

def isLeapYear (year : Nat) : Bool := year % 4 = 0 && (year % 100 ≠ 0 || year % 400 = 0)

def daysInMonth (year month : Nat) : Nat :=
  match month with
  | 2 => if isLeapYear year then 29 else 28
  | 4 | 6 | 9 | 11 => 30
  | _ => 31

def daysBeforeMonth (year month : Nat) : Nat :=
  ((List.range' 1 (month - 1)).map (daysInMonth year)).sum

def daysBeforeYear (year : Nat) : Nat :=
  365 * (year - 1) + (year - 1) / 4 - (year - 1) / 100 + (year - 1) / 400

structure UtcTime where
  yy : Nat
  month : Nat
  day : Nat
  hour : Nat
  minute : Nat
  second : Nat
  deriving DecidableEq, Repr

namespace UtcTime

def year (t : UtcTime) : Nat := if t.yy < 50 then 2000 + t.yy else 1900 + t.yy

structure Valid (t : UtcTime) : Prop where
  yy : t.yy < 100
  month : 1 ≤ t.month ∧ t.month ≤ 12
  day : 1 ≤ t.day ∧ t.day ≤ daysInMonth t.year t.month
  hour : t.hour < 24
  minute : t.minute < 60
  second : t.second < 60

def days (t : UtcTime) : Int :=
  (daysBeforeYear t.year : Int) - daysBeforeYear 1970 + daysBeforeMonth t.year t.month + t.day - 1

def seconds (t : UtcTime) : Int := ((t.days * 24 + t.hour) * 60 + t.minute) * 60 + t.second

def text (t : UtcTime) : List Byte :=
  [t.yy, t.month, t.day, t.hour, t.minute, t.second].flatMap fun n => [digit (n / 10), digit (n % 10)]

def tm (t : UtcTime) : Tm where
  year := t.year - 1900
  mon := t.month - 1
  mday := t.day
  hour := t.hour
  min := t.minute
  sec := t.second

end UtcTime

example : (⟨24, 2, 29, 12, 0, 0⟩ : UtcTime).seconds = 1709208000 := by decide

example : (⟨69, 12, 31, 23, 59, 59⟩ : UtcTime).seconds = -1 := by decide

end Calendar

def Denotes (field : List Byte) (t : UtcTime) : Prop := t.Valid ∧ t.text <+: field

theorem charValue_digit {d : Nat} (h : d < 10) : charValue (digit d) = 48 + d := by
  have hnat := digit_toNat h
  have hlt : digit d < 128 := by
    simp only [UInt8.lt_iff_toNat_lt, hnat, UInt8.reduceToNat]
    omega
  rw [charValue, if_pos hlt, hnat]
  push_cast
  ring

theorem UtcTime.Valid.bounds {t : UtcTime} (h : t.Valid) :
    ∀ n ∈ [t.yy, t.month, t.day, t.hour, t.minute, t.second], n < 100 := by
  have hday : daysInMonth t.year t.month ≤ 31 := by
    unfold daysInMonth
    split
    · split_ifs <;> omega
    all_goals omega
  have hmonth := h.month
  have hd := h.day
  have hhour := h.hour
  have hminute := h.minute
  have hsecond := h.second
  have hyy := h.yy
  simp only [List.mem_cons, List.not_mem_nil, or_false, forall_eq_or_imp, forall_eq]
  omega

theorem twoDigits_text {pairs : List Nat} (h : ∀ n ∈ pairs, n < 100) (rest : List Byte) {i : Nat}
    (hi : i < pairs.length) :
    twoDigits ((pairs.flatMap fun n => [digit (n / 10), digit (n % 10)]) ++ rest) (2 * i) = pairs[i] := by
  induction pairs generalizing i with
  | nil => cases hi
  | cons n pairs ih =>
    cases i with
    | zero =>
      have hn := h n List.mem_cons_self
      simp only [twoDigits, List.flatMap_cons, List.cons_append, List.nil_append,
        Nat.mul_zero, List.getD_cons_zero, List.getD_cons_succ, Nat.zero_add, List.getElem_cons_zero]
      rw [charValue_digit (by omega), charValue_digit (by omega)]
      omega
    | succ i =>
      have hlt : i < pairs.length := by simpa using hi
      have hrec := ih (fun m hm => h m (List.mem_cons_of_mem _ hm)) hlt
      rw [List.getElem_cons_succ, ← hrec]
      simp only [twoDigits, List.flatMap_cons, List.cons_append, List.nil_append,
        Nat.mul_add, Nat.mul_one, List.getD_cons_succ]

theorem fieldTime_text {t : UtcTime} (h : t.Valid) (rest : List Byte) :
    fieldTime (t.text ++ rest) = t.tm := by
  have hpairs := @twoDigits_text _ h.bounds rest
  have hyear := @hpairs 0 (by simp)
  have hmon := @hpairs 1 (by simp)
  have hday := @hpairs 2 (by simp)
  have hhour := @hpairs 3 (by simp)
  have hmin := @hpairs 4 (by simp)
  have hsec := @hpairs 5 (by simp)
  rw [← UtcTime.text] at hyear hmon hday hhour hmin hsec
  simp only [Nat.mul_zero, Nat.mul_one, Nat.reduceMul, List.getElem_cons_zero,
    List.getElem_cons_succ] at hyear hmon hday hhour hmin hsec
  rw [fieldTime, hyear, hmon, hday, hhour, hmin, hsec, UtcTime.tm, UtcTime.year]
  by_cases hfifty : t.yy < 50
  · have hcast : (t.yy : Int) < 50 := by omega
    simp only [if_pos hfifty, if_pos hcast, Tm.mk.injEq, and_true]
    push_cast
    ring
  · have hcast : ¬ (t.yy : Int) < 50 := by omega
    simp only [if_neg hfifty, if_neg hcast, Tm.mk.injEq, and_true]
    push_cast
    ring

theorem Denotes.tm_eq {field : List Byte} {t : UtcTime} (h : Denotes field t) :
    t.tm = fieldTime field := by
  obtain ⟨hvalid, rest, rfl⟩ := h
  exact (fieldTime_text hvalid rest).symm

theorem UtcTime.seconds_of_tm {t t' : UtcTime} (h : t.tm = t'.tm) : t.seconds = t'.seconds := by
  simp only [UtcTime.tm, Tm.mk.injEq, Nat.cast_inj] at h
  obtain ⟨hyear, hmonth, hday, hhour, hminute, hsecond⟩ := h
  have hyear' : t.year = t'.year := by omega
  have hmonth' : t.month = t'.month := by omega
  simp only [UtcTime.seconds, UtcTime.days, hyear', hmonth', hday, hhour, hminute, hsecond]

theorem Denotes.seconds_unique {field : List Byte} {t t' : UtcTime} (h : Denotes field t)
    (h' : Denotes field t') : t.seconds = t'.seconds :=
  UtcTime.seconds_of_tm (h.tm_eq.trans h'.tm_eq.symm)

theorem revocationTime_denoted (mktime : Tm → Int) {field : List Byte} {t : UtcTime}
    (h : Denotes field t) : revocationTime mktime field = mktime t.tm := by
  obtain ⟨hvalid, rest, rfl⟩ := h
  have hlen : (t.text ++ rest).length ≥ 12 := by
    simp [UtcTime.text]
  have hhead : (t.text ++ rest).headD 0 ≠ 0 := by
    have hyy := hvalid.yy
    intro hzero
    have hnat := congrArg UInt8.toNat hzero
    simp only [UtcTime.text, List.flatMap_cons, List.cons_append, List.headD_cons] at hnat
    rw [digit_toNat (by omega)] at hnat
    simp at hnat
  rw [revocationTime, if_pos ⟨hhead, hlen⟩, fieldTime_text hvalid]

section Kept
variable (mktime : Tm → Int)

def keptLines (text : List Byte) : List (List Byte × IndexEntry) :=
  (fgetsAll (lineBufferSz - 1) text).filterMap fun line => (parseLine mktime line).map (line, ·)

theorem keptLines_snd (text : List Byte) :
    (keptLines mktime text).map Prod.snd = parseIndexFile mktime (some text) := by
  simp [keptLines, parseIndexFile, parseLines_eq, List.map_filterMap, Option.map_map,
    Function.comp_def]

def revocationField (line : List Byte) : List Byte := (lineFields line).getD 2 []

def statusField (line : List Byte) : Byte := ((lineFields line).getD 0 []).headD 0

def KeptRevoked (line : List Byte) : Prop :=
  ¬ Blank line ∧ IsRecord mktime line ∧ statusField line = 82

def RevocationClaim (text : List Byte) : Prop :=
  ∀ p ∈ keptLines mktime text, p.2.status = 82 →
    ∃ t, Denotes (revocationField p.1) t ∧ p.2.revocationTime = t.seconds

variable {mktime}

theorem mem_keptLines {text line : List Byte} {entry : IndexEntry} :
    (line, entry) ∈ keptLines mktime text ↔ line ∈ fgetsAll (lineBufferSz - 1) text ∧
      ¬ Blank line ∧ recordOf mktime (lineFields line) = some entry := by
  simp only [keptLines, List.mem_filterMap, Option.map_eq_some_iff, Prod.mk.injEq, parseLine_eq]
  constructor
  · rintro ⟨line', hmem, entry', hparse, rfl, rfl⟩
    split_ifs at hparse with hblank
    exact ⟨hmem, hblank, hparse⟩
  · rintro ⟨hmem, hblank, hrecord⟩
    exact ⟨line, hmem, entry, by rw [if_neg hblank, hrecord], rfl, rfl⟩

theorem recordOf_fields {line : List Byte} (h : IsRecord mktime line) :
    ∃ serial, recordOf mktime (lineFields line) =
      some ⟨statusField line, revocationTime mktime (revocationField line), serial⟩ := by
  obtain ⟨status, expiration, revocation, serial, more, hfields, hrecord⟩ := record_fields h
  refine ⟨serial, ?_⟩
  rw [hrecord, statusField, revocationField, hfields]
  rfl

theorem revocationTime_exact (text : List Byte) :
    RevocationClaim mktime text ↔
      ∀ line ∈ fgetsAll (lineBufferSz - 1) text, KeptRevoked mktime line →
        ∃ t, Denotes (revocationField line) t ∧ mktime t.tm = t.seconds := by
  constructor
  · rintro h line hline ⟨hblank, hrecord, hstatus⟩
    obtain ⟨serial, hentry⟩ := recordOf_fields hrecord
    obtain ⟨t, hdenotes, htime⟩ := h _ (mem_keptLines.mpr ⟨hline, hblank, hentry⟩) hstatus
    rw [revocationTime_denoted mktime hdenotes] at htime
    exact ⟨t, hdenotes, htime⟩
  · rintro h ⟨line, entry⟩ hkept hstatus
    obtain ⟨hline, hblank, hparse⟩ := mem_keptLines.mp hkept
    have hrecord : IsRecord mktime line := by
      by_contra hno
      rw [recordOf_eq_none.mpr hno] at hparse
      cases hparse
    obtain ⟨serial, hentry⟩ := recordOf_fields hrecord
    rw [hentry, Option.some.injEq] at hparse
    subst hparse
    obtain ⟨t, hdenotes, htime⟩ := h line hline ⟨hblank, hrecord, hstatus⟩
    exact ⟨t, hdenotes, (revocationTime_denoted mktime hdenotes).trans htime⟩

theorem mem_fgetsAll_line {body : List Byte} (hbody : (10 : Byte) ∉ body)
    (hlen : body.length < lineBufferSz - 1) :
    body ++ [10] ∈ fgetsAll (lineBufferSz - 1) (body ++ [10]) := by
  rw [fgetsAll_of_ne (by decide) (by simp), gets_line hbody hlen]
  exact List.mem_cons_self

end Kept

def zoneTime (ahead : Int) (tm : Tm) : Int :=
  (⟨(tm.year % 100).toNat, (tm.mon + 1).toNat, tm.mday.toNat, tm.hour.toNat, tm.min.toNat,
    tm.sec.toNat⟩ : UtcTime).seconds - ahead

def undatedLine : List Byte := str "R\t271231235959Z\t\t01\tunknown\t/CN=a"

def letteredLine : List Byte := str "R\t271231235959Z\tnot-a-date-Z\t01\tunknown\t/CN=a"

def datedLine : List Byte := str "R\t271231235959Z\t240101120000Z\t01\tunknown\t/CN=a"

theorem not_claimed {mktime : Tm → Int} {body : List Byte} {entry : IndexEntry}
    (hbody : (10 : Byte) ∉ body) (hlen : body.length < lineBufferSz - 1)
    (hblank : ¬ Blank (body ++ [10]))
    (hentry : recordOf mktime (lineFields (body ++ [10])) = some entry) (hstatus : entry.status = 82)
    (hno : ∀ t, Denotes (revocationField (body ++ [10])) t → entry.revocationTime ≠ t.seconds) :
    ¬ RevocationClaim mktime (body ++ [10]) := by
  intro h
  obtain ⟨t, hdenotes, htime⟩ :=
    h _ (mem_keptLines.mpr ⟨mem_fgetsAll_line hbody hlen, hblank, hentry⟩) hstatus
  exact hno t hdenotes htime

theorem Denotes.first_digit {field : List Byte} {t : UtcTime} (h : Denotes field t) :
    isDigit (field.headD 0) = true := by
  obtain ⟨hvalid, rest, rfl⟩ := h
  have hyy := hvalid.yy
  simp only [UtcTime.text, List.flatMap_cons, List.cons_append, List.headD_cons]
  exact isDigit_digit (by omega)

theorem revocationTime_unchecked :
    ¬ RevocationClaim (zoneTime 0) (undatedLine ++ [10]) ∧
      ¬ RevocationClaim (zoneTime 0) (letteredLine ++ [10]) ∧
      ¬ RevocationClaim (zoneTime 3600) (datedLine ++ [10]) := by
  refine ⟨?_, ?_, ?_⟩
  · refine @not_claimed _ _ ⟨82, 0, str "01"⟩ (by decide) (by decide)
      (by decide) (by decide) rfl fun t h _ => ?_
    exact absurd h.first_digit (by decide)
  · refine @not_claimed _ _ ((recordOf (zoneTime 0) (lineFields (letteredLine ++ [10]))).getD ⟨82, 0, []⟩)
      (by decide +kernel) (by decide +kernel) (by decide +kernel) (by decide +kernel)
      (by decide +kernel) fun t h _ => ?_
    exact absurd h.first_digit (by decide)
  · refine @not_claimed _ _ ⟨82, 1704106800, str "01"⟩ (by decide) (by decide)
      (by decide) (by decide) rfl fun t h htime => ?_
    have htm : t.tm = (⟨24, 1, 1, 12, 0, 0⟩ : UtcTime).tm := h.tm_eq.trans (by decide)
    rw [UtcTime.seconds_of_tm htm] at htime
    exact absurd htime (by decide)

end WolfCLU.Ocsp
