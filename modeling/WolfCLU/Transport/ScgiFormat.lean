import WolfCLU.Transport.ScgiAccepted

namespace WolfCLU.Scgi
open Buffer CString

def isContentLength (p : List Byte × List Byte) : Bool := p.1 = str "CONTENT_LENGTH"

structure WireFormat (stream lenText : List Byte) (pairs : List (List Byte × List Byte))
    (value body rest : List Byte) : Prop where
  stream : stream = lenText ++ 58 :: (encodePairs pairs ++ 44 :: (body ++ rest))
  header : IsNumeral lenText (encodePairs pairs).length
  nulFree : NulFree pairs
  one : (pairs.filter isContentLength).map Prod.snd = [value]
  length : IsNumeral value body.length

def BeginsWithRequest (stream : List Byte) : Prop :=
  ∃ lenText pairs value body rest, WireFormat stream lenText pairs value body rest

def Continues (announced : Nat) (pairs : List (List Byte × List Byte))
    (tail value after : List Byte) : Prop :=
  ∃ more next, tail ++ 44 :: after = encodePairs more ++ 44 :: next ∧ NulFree more ∧
    (encodePairs (pairs ++ more)).length = announced ∧ more.filter isContentLength = [] ∧
    digitsValue value ≤ next.length

structure Undeviating (lenText : List Byte) (pairs : List (List Byte × List Byte))
    (tail value after : List Byte) : Prop where
  digits : ∀ b ∈ lenText, isDigit b
  one : (pairs.filter isContentLength).length = 1
  nonempty : value ≠ []
  valueDigits : ∀ b ∈ value, isDigit b
  block :
    if (digitsValue lenText : Int) ≤ MachineInt.intMax then
      tail = [] ∧ digitsValue value ≤ after.length
    else Continues (digitsValue lenText) pairs tail value after

theorem count_encodePairs_cons (p : List Byte × List Byte) (pairs : List (List Byte × List Byte)) :
    2 ≤ (encodePairs (p :: pairs)).count 0 := by
  rw [encodePairs_cons, List.count_append, List.count_cons_self, List.count_append,
    List.count_cons_self]
  omega

theorem encodePairs_append (pairs more : List (List Byte × List Byte)) :
    encodePairs (pairs ++ more) = encodePairs pairs ++ encodePairs more := by
  simp only [encodePairs, List.flatMap_append]

theorem encodePairs_split {pairs pairs' : List (List Byte × List Byte)} {tail : List Byte}
    (h : NulFree pairs) (h' : NulFree pairs') (heq : encodePairs pairs' = encodePairs pairs ++ tail) :
    ∃ more, pairs' = pairs ++ more ∧ NulFree more ∧ tail = encodePairs more := by
  induction pairs generalizing pairs' with
  | nil => exact ⟨pairs', rfl, h', heq.symm⟩
  | cons p pairs ih =>
    cases pairs' with
    | nil =>
      have hempty := congrArg List.length heq
      rw [encodePairs_cons] at hempty
      simp [encodePairs] at hempty
    | cons p' pairs' =>
      rw [encodePairs_cons, encodePairs_cons, List.append_assoc, List.cons_append] at heq
      obtain ⟨hk, hv⟩ := h p List.mem_cons_self
      obtain ⟨hk', hv'⟩ := h' p' List.mem_cons_self
      obtain ⟨hkey, heq⟩ := field_unique hk' hk heq
      rw [List.append_assoc, List.cons_append] at heq
      obtain ⟨hvalue, heq⟩ := field_unique hv' hv heq
      obtain ⟨more, rfl, hmore, hrest⟩ := ih (fun q hq => h q (List.mem_cons_of_mem _ hq))
        (fun q hq => h' q (List.mem_cons_of_mem _ hq)) heq
      exact ⟨more, by rw [Prod.ext hkey hvalue, List.cons_append], hmore, hrest⟩

theorem encodePairs_unique {pairs pairs' : List (List Byte × List Byte)} {tail : List Byte}
    (h : NulFree pairs) (h' : NulFree pairs') (htail : tail.count 0 ≤ 1)
    (heq : encodePairs pairs' = encodePairs pairs ++ tail) : pairs' = pairs ∧ tail = [] := by
  obtain ⟨more, rfl, -, rfl⟩ := encodePairs_split h h' heq
  cases more with
  | nil => exact ⟨List.append_nil pairs, rfl⟩
  | cons p more =>
    have htwo := count_encodePairs_cons p more
    omega

theorem lastFrom_contentLength (last : Option (List Byte)) (pairs : List (List Byte × List Byte)) :
    lastFrom (str "CONTENT_LENGTH") last pairs =
      (((pairs.filter isContentLength).map Prod.snd).getLast?).or last := by
  induction pairs generalizing last with
  | nil => rfl
  | cons p pairs ih =>
    have hstep : lastFrom (str "CONTENT_LENGTH") last (p :: pairs) = lastFrom (str "CONTENT_LENGTH")
        (if p.1 = str "CONTENT_LENGTH" then some p.2 else last) pairs := rfl
    rw [hstep, ih]
    by_cases hp : p.1 = str "CONTENT_LENGTH"
    · have hnamed : isContentLength p = true := decide_eq_true hp
      rw [if_pos hp, List.filter_cons_of_pos hnamed, List.map_cons, List.getLast?_cons]
      cases ((pairs.filter isContentLength).map Prod.snd).getLast? <;> rfl
    · rw [if_neg hp, List.filter_cons_of_neg (by simpa [isContentLength] using hp)]

theorem filter_of_value {pairs : List (List Byte × List Byte)} {value : List Byte}
    (hlast : lastValue (str "CONTENT_LENGTH") pairs = some value) :
    pairs.filter isContentLength ≠ [] := by
  intro hnone
  rw [lastValue, lastFrom_contentLength, hnone] at hlast
  cases hlast

theorem one_of_value {pairs : List (List Byte × List Byte)} {value : List Byte}
    (hlast : lastValue (str "CONTENT_LENGTH") pairs = some value)
    (h : (pairs.filter isContentLength).length = 1) :
    (pairs.filter isContentLength).map Prod.snd = [value] := by
  obtain ⟨p, hp⟩ := List.length_eq_one_iff.mp h
  rw [lastValue, lastFrom_contentLength, hp] at hlast
  rw [hp, List.map_singleton]
  exact congrArg (fun v => [v]) (Option.some.inj hlast)

theorem one_of_append {pairs more : List (List Byte × List Byte)} {value v : List Byte}
    (hlast : lastValue (str "CONTENT_LENGTH") pairs = some value)
    (h : ((pairs ++ more).filter isContentLength).map Prod.snd = [v]) :
    (pairs.filter isContentLength).length = 1 ∧ more.filter isContentLength = [] ∧ value = v := by
  have hcount := congrArg List.length h
  have hpos := List.length_pos_iff.mpr (filter_of_value hlast)
  rw [List.length_map, List.filter_append, List.length_append, List.length_singleton] at hcount
  have hone : (pairs.filter isContentLength).length = 1 := by omega
  have hmore : more.filter isContentLength = [] := List.length_eq_zero_iff.mp (by omega)
  rw [List.filter_append, hmore, List.append_nil, one_of_value hlast hone] at h
  exact ⟨hone, hmore, List.head_eq_of_cons_eq h⟩

theorem atoi_whole {v : List Byte} {n : Nat} (hv : IsNumeral v n) (hn : (n : Int) ≤ MachineInt.intMax) :
    atoi v = n := by
  rw [← List.append_nil v]
  exact atoi_numeral hv hn (by simp)

section Accepted
variable {stream lenText tail value body rest : List Byte} {pairs : List (List Byte × List Byte)}
  {bufferSz : Nat}

theorem Accepts.lenText_ne_nil (h : Accepts stream bufferSz lenText pairs tail value body rest) :
    lenText ≠ [] := by
  rintro rfl
  have hzero := h.headerLen
  have hpos := h.headers
  rw [show atoi (cstr []) = 0 from atoi_blank (fun b hb => absurd hb List.not_mem_nil)] at hzero
  omega

theorem wireFormat_of {n : Nat} {after : List Byte} (hnumeral : IsNumeral lenText n)
    (hstream : stream = lenText ++ 58 :: (encodePairs pairs ++ 44 :: after))
    (hlen : (encodePairs pairs).length = n) (hnul : NulFree pairs)
    (hone : (pairs.filter isContentLength).map Prod.snd = [value]) (hne : value ≠ [])
    (hvalue : ∀ b ∈ value, isDigit b) (hfits : digitsValue value ≤ after.length) :
    BeginsWithRequest stream := by
  refine ⟨lenText, pairs, value, after.take (digitsValue value), after.drop (digitsValue value),
    ?_, ?_, hnul, hone, ?_⟩
  · rw [List.take_append_drop, hstream]
  · rw [hlen]
    exact hnumeral
  · rw [List.length_take, Nat.min_eq_left hfits]
    exact ⟨hne, hvalue, rfl⟩

theorem Accepts.wireFormat (h : Accepts stream bufferSz lenText pairs tail value body rest)
    (hplain : Undeviating lenText pairs tail value (body ++ rest)) : BeginsWithRequest stream := by
  have hnumeral : IsNumeral lenText (digitsValue lenText) := ⟨h.lenText_ne_nil, hplain.digits, rfl⟩
  have hone := one_of_value h.contentLength hplain.one
  have hblock := hplain.block
  by_cases hint : (digitsValue lenText : Int) ≤ MachineInt.intMax
  · rw [if_pos hint] at hblock
    obtain ⟨rfl, hfits⟩ := hblock
    have hheader := h.headerLen
    rw [cstr_of_nul_free (numeral_excludes hnumeral (by decide)), atoi_whole hnumeral hint,
      List.append_nil] at hheader
    refine wireFormat_of hnumeral ?_ (Int.natCast_inj.mp hheader).symm h.nulFree hone
      hplain.nonempty hplain.valueDigits hfits
    rw [h.stream, List.append_nil]
  · rw [if_neg hint] at hblock
    obtain ⟨more, next, hafter, hmore, hlen, hnone, hfits⟩ := hblock
    have hnul : NulFree (pairs ++ more) := fun p hp =>
      (List.mem_append.mp hp).elim (h.nulFree p) (hmore p)
    refine wireFormat_of hnumeral ?_ hlen hnul ?_ hplain.nonempty hplain.valueDigits hfits
    · rw [h.stream, List.append_assoc, hafter, encodePairs_append, List.append_assoc]
    · rw [List.filter_append, hnone, List.append_nil, hone]

theorem Accepts.undeviating (h : Accepts stream bufferSz lenText pairs tail value body rest)
    (hformat : BeginsWithRequest stream) :
    Undeviating lenText pairs tail value (body ++ rest) := by
  obtain ⟨text, pairs', value', body', rest', hwire⟩ := hformat
  obtain ⟨rfl, hafter⟩ := field_unique h.colon (numeral_excludes hwire.header (by decide))
    (h.stream.symm.trans hwire.stream)
  have hblock := h.headerLen
  rw [cstr_of_nul_free (numeral_excludes hwire.header (by decide))] at hblock
  by_cases hint : (digitsValue lenText : Int) ≤ MachineInt.intMax
  · have hint' := hint
    rw [hwire.header.value] at hint'
    rw [atoi_whole hwire.header hint'] at hblock
    obtain ⟨hsame, hbodies⟩ := List.append_inj hafter (Int.natCast_inj.mp hblock).symm
    obtain ⟨rfl, hnil⟩ := encodePairs_unique h.nulFree hwire.nulFree h.unfinished hsame.symm
    have hwhole : ((pairs' ++ []).filter isContentLength).map Prod.snd = [value'] := by
      rw [List.append_nil]
      exact hwire.one
    obtain ⟨hone, -, rfl⟩ := one_of_append h.contentLength hwhole
    refine ⟨hwire.header.digits, hone, hwire.length.nonempty, hwire.length.digits, ?_⟩
    rw [if_pos hint, hwire.length.value, (List.cons.inj hbodies).2, List.length_append]
    exact ⟨hnil, Nat.le_add_right _ _⟩
  · have hmax : atoi lenText ≤ MachineInt.intMax := (MachineInt.toInt32_range _).2
    rw [hwire.header.value] at hint
    have hshort : (encodePairs pairs ++ tail).length ≤ (encodePairs pairs').length := by
      have hlen := hwire.header.value
      omega
    obtain ⟨between, hbetween⟩ := List.prefix_of_prefix_length_le
      (List.prefix_append (encodePairs pairs ++ tail) (44 :: (body ++ rest)))
      (hafter ▸ List.prefix_append (encodePairs pairs') (44 :: (body' ++ rest'))) hshort
    rw [List.append_assoc] at hbetween
    obtain ⟨more, rfl, hmore, -⟩ := encodePairs_split h.nulFree hwire.nulFree hbetween.symm
    obtain ⟨hone, hnone, rfl⟩ := one_of_append h.contentLength hwire.one
    rw [encodePairs_append, List.append_assoc, List.append_assoc] at hafter
    refine ⟨hwire.header.digits, hone, hwire.length.nonempty, hwire.length.digits, ?_⟩
    rw [hwire.header.value, if_neg hint]
    refine ⟨more, body' ++ rest', List.append_cancel_left hafter, hmore, rfl, hnone, ?_⟩
    rw [hwire.length.value, List.length_append]
    exact Nat.le_add_right _ _

end Accepted

theorem scgiReadRequest_format_iff (sockfd : SocketT) (buffer : List Byte) :
    ((scgiReadRequest sockfd buffer buffer.length).ret = 0 →
        BeginsWithRequest (Socket.bytes sockfd)) ↔
      ∀ lenText pairs tail value body rest,
        Accepts (Socket.bytes sockfd) buffer.length lenText pairs tail value body rest →
          Undeviating lenText pairs tail value (body ++ rest) := by
  rw [accepts_iff]
  constructor
  · intro h lenText pairs tail value body rest haccepts
    exact haccepts.undeviating (h ⟨lenText, pairs, tail, value, body, rest, haccepts⟩)
  · rintro h ⟨lenText, pairs, tail, value, body, rest, haccepts⟩
    exact haccepts.wireFormat (h _ _ _ _ _ _ haccepts)

def letterInLength : List Byte :=
  str "17x" ++ 58 :: (encodePairs [(str "CONTENT_LENGTH", str "0")] ++ str ",")

theorem letter_in_length_accepted :
    ¬ ∀ (sockfd : SocketT) (buffer : List Byte),
      (scgiReadRequest sockfd buffer buffer.length).ret = 0 →
        BeginsWithRequest (Socket.bytes sockfd) := by
  intro h
  obtain ⟨text, pairs, value, body, rest, hwire⟩ :=
    h (Socket.oneSegment letterInLength) (List.replicate 64 0) (by decide +kernel)
  have hstream := hwire.stream
  rw [Socket.bytes_oneSegment, letterInLength] at hstream
  obtain ⟨rfl, -⟩ := field_unique (by decide)
    (numeral_excludes hwire.header (by decide)) hstream
  exact absurd (hwire.header.digits 120 (by decide)) (by decide)

end WolfCLU.Scgi
