import WolfCLU.Transport.HttpBounds

namespace WolfCLU.Http
open Buffer CString

structure HttpField where
  name : List Byte
  value : List Byte
  name_plain : ∀ c ∈ name, c ∉ ([0, 10, 13, 58] : List Byte)
  value_plain : ∀ c ∈ value, c ∉ ([0, 10, 13] : List Byte)

structure HttpRequest where
  line : List Byte
  fields : List HttpField
  line_plain : ∀ c ∈ line, c ∉ ([0, 10, 13] : List Byte)

def HttpField.text (f : HttpField) : List Byte := f.name ++ 58 :: f.value

def fieldLines (fields : List HttpField) : List Byte :=
  fields.flatMap fun f => f.text ++ [13, 10]

def HttpRequest.header (req : HttpRequest) : List Byte :=
  req.line ++ 13 :: 10 :: (fieldLines req.fields ++ [13, 10])

def HttpField.isContentLength (f : HttpField) : Bool :=
  f.name.map toLower = str "content-length"

def isBlank (c : Byte) : Bool := c = 32 || c = 9

def trimBlanks (value : List Byte) : List Byte :=
  ((value.dropWhile isBlank).reverse.dropWhile isBlank).reverse

def decimalValue (value : List Byte) : Option Nat :=
  let digits := trimBlanks value
  if digits ≠ [] ∧ digits.all isDigit then some (digitsValue digits) else none

def HttpRequest.contentLengths (req : HttpRequest) : List HttpField :=
  req.fields.filter HttpField.isContentLength

def ExactLength (req : HttpRequest) (rest : List Byte) (len : Int) : Prop :=
  if req.contentLengths = [] then len = rest.length
  else ∀ f ∈ req.contentLengths, (decimalValue f.value).map Int.ofNat = some len

section Header
variable {req : HttpRequest}

theorem HttpField.text_plain (f : HttpField) : (13 : Byte) ∉ f.text ∧ (0 : Byte) ∉ f.text := by
  constructor
  · intro h
    rcases List.mem_append.mp h with h | h
    · exact f.name_plain 13 h (by decide)
    · rcases List.mem_cons.mp h with h | h
      · exact absurd h (by decide)
      · exact f.value_plain 13 h (by decide)
  · intro h
    rcases List.mem_append.mp h with h | h
    · exact f.name_plain 0 h (by decide)
    · rcases List.mem_cons.mp h with h | h
      · exact absurd h (by decide)
      · exact f.value_plain 0 h (by decide)

theorem HttpField.text_ne_nil (f : HttpField) : f.text ≠ [] := by
  simp [HttpField.text]

theorem header_nul_free (req : HttpRequest) : (0 : Byte) ∉ req.header := by
  intro h
  rcases List.mem_append.mp h with h | h
  · exact req.line_plain 0 h (by decide)
  · simp only [List.mem_cons, List.mem_append] at h
    rcases h with h | h | h | h
    · exact absurd h (by decide)
    · exact absurd h (by decide)
    · obtain ⟨f, -, hf⟩ := List.mem_flatMap.mp h
      rcases List.mem_append.mp hf with hf | hf
      · exact f.text_plain.2 hf
      · exact absurd hf (by decide)
    · exact absurd h (by decide)

theorem cstr_header (rest : List Byte) : cstr (req.header ++ rest) = req.header ++ cstr rest := by
  rw [cstr, List.takeWhile_append_of_pos]
  · rfl
  · intro c hc
    have hne : c ≠ 0 := fun h0 => header_nul_free req (h0 ▸ hc)
    simpa using hne

theorem strstr_after_break {s : List Byte} (h : ¬ [13, 10] <+: s) :
    strstr crlfcrlf (13 :: 10 :: s) = (strstr crlfcrlf s).map (· + 2) := by
  have hfirst : ¬ crlfcrlf <+: 13 :: 10 :: s := by
    intro hpre
    exact h (List.cons_prefix_cons.mp (List.cons_prefix_cons.mp hpre).2).2
  have hsecond : ¬ crlfcrlf <+: 10 :: s := fun hpre =>
    absurd (List.cons_prefix_cons.mp hpre).1 (by decide)
  rw [strstr, if_neg hfirst, strstr, if_neg hsecond, Option.map_map]
  rfl

theorem strstr_fieldLines (fields : List HttpField) (rest : List Byte) :
    strstr crlfcrlf (13 :: 10 :: (fieldLines fields ++ 13 :: 10 :: rest))
      = some (fieldLines fields).length := by
  induction fields with
  | nil =>
    have hpre : crlfcrlf <+: 13 :: 10 :: 13 :: 10 :: rest := ⟨rest, rfl⟩
    exact if_pos hpre
  | cons f fields ih =>
    have hcons : fieldLines (f :: fields) ++ 13 :: 10 :: rest
        = f.text ++ 13 :: 10 :: (fieldLines fields ++ 13 :: 10 :: rest) := by
      simp [fieldLines]
    have hlen : (fieldLines (f :: fields)).length = f.text.length + 2 + (fieldLines fields).length := by
      simp [fieldLines]
      omega
    have hstart : ¬ [13, 10] <+: fieldLines (f :: fields) ++ 13 :: 10 :: rest := by
      rw [hcons]
      obtain ⟨c, text, htext⟩ := List.exists_cons_of_ne_nil f.text_ne_nil
      rw [htext, List.cons_append, List.cons_prefix_cons]
      rintro ⟨hc, -⟩
      exact f.text_plain.1 (by rw [htext, ← hc]; exact List.mem_cons_self)
    rw [strstr_after_break hstart, hcons, show crlfcrlf = 13 :: [10, 13, 10] from rfl,
      strstr_append_of_not_mem f.text_plain.1, show (13 : Byte) :: [10, 13, 10] = crlfcrlf from rfl,
      ih, hlen]
    simp
    omega

theorem headerEnd_header (req : HttpRequest) (rest : List Byte) :
    headerEnd (req.header ++ rest) = some req.header.length := by
  have hline : (13 : Byte) ∉ req.line := fun h => req.line_plain 13 h (by decide)
  have hsplit : req.header ++ cstr rest
      = req.line ++ 13 :: 10 :: (fieldLines req.fields ++ 13 :: 10 :: cstr rest) := by
    simp [HttpRequest.header]
  have hlen : req.header.length = (fieldLines req.fields).length + req.line.length + 4 := by
    simp [HttpRequest.header]
    omega
  rw [headerEnd, cstr_header, hsplit, show crlfcrlf = 13 :: [10, 13, 10] from rfl,
    strstr_append_of_not_mem hline, show (13 : Byte) :: [10, 13, 10] = crlfcrlf from rfl,
    strstr_fieldLines, hlen]
  rfl

end Header

structure Faithful (req : HttpRequest) (rest : List Byte) (st : RecvState) (r : ParsedRequest) :
    Prop where
  body : r.body = some req.header.length
  length : ExactLength req rest r.bodySz
  header : st.headerSz = req.header.length
  announced : req.contentLengths ≠ [] → st.contentLen = r.bodySz

def TooLarge (bufferSz : Nat) (req : HttpRequest) (n : Nat) : Prop :=
  MachineInt.intMax < n ∨ (bufferSz : Int) - 1 - req.header.length < n

structure LengthAgrees (bufferSz : Nat) (req : HttpRequest) (rest : List Byte) (st : RecvState)
    (r : ParsedRequest) : Prop where
  accepted : r.ret = 0 → Faithful req rest st r
  refused : ∀ f ∈ req.contentLengths, ∀ n, decimalValue f.value = some n → TooLarge bufferSz req n →
    r.ret ≠ 0

def arrivalAt : SocketT → Nat → Nat
  | .interrupted :: s, n => arrivalAt s n
  | .segment bs :: s, n =>
    if bs ≠ [] ∧ bs.length < n then bs.length + arrivalAt s (n - bs.length) else bs.length
  | _, _ => 0

def earlyBytes (clientfd : SocketT) (bufferSz : Nat) (req : HttpRequest) (rest : List Byte) :
    List Byte :=
  rest.take (min (bufferSz - 1) (arrivalAt clientfd req.header.length) - req.header.length)

def announcedLen (bufferSz : Nat) (req : HttpRequest) (early : List Byte) : Int :=
  min (max (parsedContentLength (req.header ++ early)) 0) ((bufferSz : Int) - 1 - req.header.length)

def CountsAgree (bufferSz : Nat) (req : HttpRequest) (early rest : List Byte) : Prop :=
  ¬ isPost (req.header ++ rest) ∨
    match contentLengthAt (req.header ++ rest) with
    | none => ExactLength req rest rest.length ∧ (req.contentLengths ≠ [] → rest = [])
    | some cl =>
      let found := parsedContentLength (req.header ++ rest)
      found ≤ 0 ∨
        if cl < req.header.length then
          rest.length < found ∨ (ExactLength req rest found ∧
            (req.contentLengths ≠ [] → announcedLen bufferSz req early = found))
        else
          ∀ i, strstr crlfcrlf ((cstr (req.header ++ rest)).drop cl) = some i →
            ((req.header ++ rest).length : Int) < (cl + i + 4 : Nat) + found

def SpelledFirst (req : HttpRequest) (front : List HttpField) (name : List Byte) : Prop :=
  ∀ line ∈ req.line :: front.map HttpField.text, ¬ name ++ [58] <:+: line

structure NamedFirst (req : HttpRequest) (rest : List Byte) (f : HttpField) : Prop where
  named : ∃ front back, req.fields = front ++ f :: back ∧
    (f.name = str "Content-Length" ∧ SpelledFirst req front f.name ∨
      f.name = str "content-length" ∧ SpelledFirst req front f.name ∧
        ¬ str "Content-Length:" <:+: cstr (req.header ++ rest))

section Named
variable {req : HttpRequest} {rest : List Byte} {f : HttpField}

def linesText (lines : List (List Byte)) : List Byte := lines.flatMap fun line => line ++ [13, 10]

theorem strstr_lines {name : List Byte} (hname : (13 : Byte) ∉ name ∧ (10 : Byte) ∉ name)
    {lines : List (List Byte)} (hlines : ∀ line ∈ lines, ¬ name ++ [58] <:+: line) (hay : List Byte) :
    strstr (name ++ [58]) (linesText lines ++ hay) =
      (strstr (name ++ [58]) hay).map (· + (linesText lines).length) := by
  have hcr : (13 : Byte) ∉ name ++ [58] := by simpa using hname.1
  have hlf : (10 : Byte) ∉ name ++ [58] := by simpa using hname.2
  induction lines with
  | nil => simp [linesText]
  | cons line lines ih =>
    obtain ⟨hline, hlines⟩ := List.forall_mem_cons.mp hlines
    have hsplit : linesText (line :: lines) ++ hay =
        line ++ 13 :: ([] ++ 10 :: (linesText lines ++ hay)) := by
      simp [linesText]
    have hlen : (linesText (line :: lines)).length = line.length + 2 + (linesText lines).length := by
      simp [linesText]
      omega
    have hnil : ¬ name ++ [58] <:+: [] := by simp
    rw [hsplit, strstr_skip hcr hline, strstr_skip hlf hnil, ih hlines, hlen, Option.map_map,
      Option.map_map]
    congr 1
    funext n
    simp only [Function.comp_apply, List.length_nil]
    omega

theorem header_split {front back : List HttpField} (hfields : req.fields = front ++ f :: back)
    (p : List Byte) : req.header ++ p = linesText (req.line :: front.map HttpField.text) ++
      (f.name ++ 58 :: (f.value ++ 13 :: 10 :: (fieldLines back ++ 13 :: 10 :: p))) := by
  simp [HttpRequest.header, hfields, fieldLines, linesText, HttpField.text, List.flatMap_map]

theorem NamedFirst.located (h : NamedFirst req rest f) :
    ∃ cl tail, req.header.drop (cl + 15) = f.value ++ 13 :: 10 :: tail ∧ cl + 15 < req.header.length ∧
      f ∈ req.contentLengths ∧ ∀ p, p <+: rest → contentLengthAt (req.header ++ p) = some cl := by
  obtain ⟨front, back, hfields, hspelled⟩ := h.named
  have hname : f.name.length = 14 ∧ f.isContentLength = true ∧ (13 : Byte) ∉ f.name ∧
      (10 : Byte) ∉ f.name := by
    rcases hspelled with ⟨hname, -⟩ | ⟨hname, -⟩
    · simp only [HttpField.isContentLength, hname]
      decide
    · simp only [HttpField.isContentLength, hname]
      decide
  obtain ⟨hlen, hown, hcr, hlf⟩ := hname
  have hfirst : SpelledFirst req front f.name := by
    rcases hspelled with ⟨-, hfirst⟩ | ⟨-, hfirst, -⟩
    · exact hfirst
    · exact hfirst
  have hsearch (p : List Byte) : strstr (f.name ++ [58]) (req.header ++ p) =
      some (linesText (req.line :: front.map HttpField.text)).length := by
    have hstart : strstr (f.name ++ [58]) (f.name ++ 58 :: (f.value ++ 13 :: 10 ::
        (fieldLines back ++ 13 :: 10 :: p))) = some 0 :=
      strstr_eq_some.mpr ⟨Nat.zero_le _, ⟨_, List.append_assoc ..⟩, fun j hj => absurd hj (Nat.not_lt_zero j)⟩
    rw [header_split hfields, strstr_lines ⟨hcr, hlf⟩ hfirst, hstart, Option.map_some, Nat.zero_add]
  have hdrop : req.header.drop ((linesText (req.line :: front.map HttpField.text)).length + 15) =
      f.value ++ 13 :: 10 :: (fieldLines back ++ [13, 10]) := by
    have hheader := header_split hfields []
    rw [List.append_nil] at hheader
    rw [hheader, ← List.drop_drop, List.drop_left, show f.name ++ 58 :: (f.value ++ 13 :: 10 ::
        (fieldLines back ++ [13, 10])) = (f.name ++ [58]) ++ (f.value ++ 13 :: 10 ::
          (fieldLines back ++ [13, 10])) from (List.append_assoc _ [58] _).symm]
    exact List.drop_left' (by rw [List.length_append, hlen]; rfl)
  refine ⟨_, _, hdrop, ?_, ?_, fun p hp => ?_⟩
  · by_contra hover
    rw [List.drop_of_length_le (not_lt.mp hover)] at hdrop
    exact absurd hdrop.symm (by simp)
  · refine List.mem_filter.mpr ⟨?_, hown⟩
    rw [hfields]
    simp
  · rw [contentLengthAt, cstr_header]
    rcases hspelled with ⟨hname, -⟩ | ⟨hname, -, hupper⟩
    · rw [show str "Content-Length:" = f.name ++ [58] by rw [hname]; decide, hsearch (cstr p)]
    · have hnone : strstr (str "Content-Length:") (req.header ++ cstr p) = none := by
        rw [← Option.not_isSome_iff_eq_none, isSome_strstr]
        intro hsub
        refine hupper (hsub.trans ?_)
        rw [← cstr_header]
        rw [List.prefix_iff_eq_take.mp hp, ← List.take_length_add_append, cstr_take]
        exact (List.take_prefix _ _).isInfix
      rw [hnone, show str "content-length:" = f.name ++ [58] by rw [hname]; decide]
      exact hsearch (cstr p)

theorem trimBlanks_split (value : List Byte) : ∃ front back,
    value = front ++ (trimBlanks value ++ back) ∧ (∀ c ∈ front, isBlank c = true) ∧
      ∀ c ∈ back, isBlank c = true := by
  refine ⟨value.takeWhile isBlank, ((value.dropWhile isBlank).reverse.takeWhile isBlank).reverse, ?_,
    fun c hc => List.mem_takeWhile_imp hc, fun c hc => List.mem_takeWhile_imp (List.mem_reverse.mp hc)⟩
  rw [trimBlanks, ← List.reverse_append, List.takeWhile_append_dropWhile, List.reverse_reverse,
    List.takeWhile_append_dropWhile]

theorem atoi_spaces {front : List Byte} (hfront : ∀ c ∈ front, isSpace c = true) (s : List Byte) :
    atoi (front ++ s) = atoi s := by
  rw [atoi, atoi, strtol, strtol, List.dropWhile_append_of_pos hfront]

theorem atoi_decimalValue {value : List Byte} {n : Nat} (h : decimalValue value = some n)
    (hn : (n : Int) ≤ MachineInt.intMax) (tail : List Byte) : atoi (value ++ 13 :: tail) = n := by
  have hblank {c : Byte} (hc : isBlank c = true) : isSpace c = true ∧ isDigit c = false := by
    simp only [isBlank, Bool.or_eq_true, decide_eq_true_eq] at hc
    rcases hc with rfl | rfl <;> decide
  obtain ⟨front, back, hvalue, hfront, hback⟩ := trimBlanks_split value
  simp only [decimalValue] at h
  split_ifs at h with hdigits
  have hnumeral : IsNumeral (trimBlanks value) n :=
    ⟨hdigits.1, List.all_eq_true.mp hdigits.2, Option.some.inj h⟩
  rw [hvalue, List.append_assoc, List.append_assoc, atoi_spaces fun c hc => (hblank (hfront c hc)).1]
  refine atoi_numeral hnumeral hn fun b hb => ?_
  cases back with
  | nil =>
    obtain rfl : b = 13 := by simpa using hb.symm
    decide
  | cons c back =>
    obtain rfl : b = c := by simpa using hb.symm
    exact (hblank (hback b List.mem_cons_self)).2

end Named
section Run
variable {stream rest : List Byte} {bufferSz : Nat} {clientfd : SocketT} {st : RecvState}
  {req : HttpRequest}

theorem expectedLen_eq {hs : Nat} (hfit : hs < bufferSz) (p : List Byte) :
    expectedLen bufferSz hs p 0 = min (max (parsedContentLength p) 0) ((bufferSz : Int) - 1 - hs) := by
  simp only [expectedLen, parsedContentLength]
  cases contentLengthAt p with
  | none =>
    simp only [max_self]
    omega
  | some cl =>
    simp only
    split_ifs <;> omega

theorem arrivalAt_recv (clientfd : SocketT) {len : Nat} (n : Nat) (hgot : 0 < (recv clientfd len).n) :
    min len (arrivalAt clientfd n) =
      if n ≤ (recv clientfd len).data.length then (recv clientfd len).data.length
      else min len ((recv clientfd len).data.length +
        arrivalAt (recv clientfd len).rest (n - (recv clientfd len).data.length)) := by
  induction clientfd with
  | nil => exact absurd hgot (lt_irrefl 0)
  | cons e s ih =>
    cases e with
    | interrupted => exact ih hgot
    | failed => cases hgot
    | segment bs =>
      have hne : bs ≠ [] := by
        rintro rfl
        simp [recv, Socket.recv] at hgot
      simp only [recv, Socket.recv, arrivalAt, hne, ne_eq, not_false_eq_true, true_and,
        List.length_take]
      by_cases hcut : len < bs.length
      · rw [if_pos hcut, Nat.min_eq_left hcut.le]
        split_ifs <;> omega
      · rw [if_neg hcut, Nat.min_eq_right (not_lt.mp hcut)]
        split_ifs <;> omega

theorem recvLoop_announced_kept (clientfd : SocketT) (st : RecvState) (h : st.headerSz ≠ 0) :
    (httpServerRecvLoop bufferSz clientfd st).1.contentLen = st.contentLen := by
  have hkept : ∀ {st : RecvState} {r : Socket.Received Byte}, st.headerSz ≠ 0 →
      recvHeader bufferSz (receive st r) = receive st r := fun hne => if_neg hne
  fun_induction httpServerRecvLoop bufferSz clientfd st with
  | case1 | case4 => rfl
  | case2 clientfd st hlt r hn st' hstop =>
    simp only [st', hkept h]
    rfl
  | case3 clientfd st hlt r hn st' hstop ih =>
    rw [ih (by simp only [st', hkept h]; exact h)]
    simp only [st', hkept h]
    rfl

theorem RecvInv.unfinished (inv : RecvInv stream bufferSz clientfd st) (h0 : st.headerSz = 0) :
    st.contentLen = 0 ∧ headerEnd (stream.take st.totalLen) = none := by
  rcases inv.header with ⟨-, hcontent, hnone⟩ | ⟨t, -, hend, -⟩
  · exact ⟨hcontent, hnone⟩
  · have := (headerEnd_le hend).1
    omega

theorem recvLoop_totalLen (clientfd : SocketT) (st : RecvState) :
    st.totalLen ≤ (httpServerRecvLoop bufferSz clientfd st).1.totalLen := by
  fun_induction httpServerRecvLoop bufferSz clientfd st with
  | case1 | case4 => exact le_rfl
  | case2 clientfd st hlt r hn st' hstop =>
    simp only [st', recvHeader_totalLen, receive]
    omega
  | case3 clientfd st hlt r hn st' hstop ih =>
    have hmore : st.totalLen ≤ st'.totalLen := by
      simp only [st', recvHeader_totalLen, receive]
      omega
    exact hmore.trans ih

def atHeaderEnd (bufferSz hs totalLen : Nat) (clientfd : SocketT) : Nat :=
  min (bufferSz - 1) (totalLen + arrivalAt clientfd (hs - totalLen))

theorem found_announced {hs : Nat} (inv : RecvInv stream bufferSz clientfd st) (h0 : st.headerSz = 0)
    (hlt : st.totalLen < bufferSz - 1)
    (hgot : 0 < (recv clientfd (bufferSz - 1 - st.totalLen)).n)
    (hend : headerEnd (stream.take (recvHeader bufferSz (receive st
      (recv clientfd (bufferSz - 1 - st.totalLen)))).totalLen) = some hs) :
    (recvHeader bufferSz (receive st (recv clientfd (bufferSz - 1 - st.totalLen)))).totalLen =
        atHeaderEnd bufferSz hs st.totalLen clientfd ∧
      (recvHeader bufferSz (receive st (recv clientfd (bufferSz - 1 - st.totalLen)))).contentLen =
        expectedLen bufferSz hs (stream.take (atHeaderEnd bufferSz hs st.totalLen clientfd)) 0 := by
  have hspace : 0 < bufferSz - 1 - st.totalLen := Nat.sub_pos_of_lt hlt
  rcases recv_cases clientfd hspace with ⟨hn, _⟩ | ⟨hn, hne, hfit, hbytes⟩
  · omega
  · have inv' := recvInv_receive inv hn hne hfit hbytes
    have hdata := List.length_pos_iff.mpr hne
    have htotal : (recvHeader bufferSz (receive st
        (recv clientfd (bufferSz - 1 - st.totalLen)))).totalLen
          = st.totalLen + (recv clientfd (bufferSz - 1 - st.totalLen)).data.length := by
      rw [recvHeader_totalLen, receive, hn]
      rfl
    obtain ⟨hzero, hnone⟩ := inv.unfinished h0
    have hnew : st.totalLen < hs := by
      by_contra hold
      rw [headerEnd_take (headerEnd_of_take hend) (not_lt.mp hold)] at hnone
      cases hnone
    have hin : hs ≤ st.totalLen + (recv clientfd (bufferSz - 1 - st.totalLen)).data.length := by
      have := ((headerEnd_le hend).2.trans (cstr_length_le _)).trans (List.length_take_le _ _)
      omega
    have harrival := arrivalAt_recv clientfd (hs - st.totalLen) hgot
    rw [if_pos (by omega)] at harrival
    have hcut : (recvHeader bufferSz (receive st
        (recv clientfd (bufferSz - 1 - st.totalLen)))).totalLen
          = atHeaderEnd bufferSz hs st.totalLen clientfd := by
      rw [htotal, atHeaderEnd]
      omega
    have hterm := inv'.terminated (by omega)
    rw [recvHeader_buffer] at hterm
    have hcontent : (recvHeader bufferSz (receive st _)).contentLen = _ :=
      (recvHeader_found (show (receive st _).headerSz = 0 from h0) hterm hend).2
    refine ⟨hcut, ?_⟩
    rw [hcontent, hcut]
    exact congrArg _ hzero

theorem recvLoop_announced {hs : Nat} (clientfd : SocketT) (st : RecvState)
    (inv : RecvInv stream bufferSz clientfd st) (h0 : st.headerSz = 0)
    (hend : headerEnd (stream.take (httpServerRecvLoop bufferSz clientfd st).1.totalLen) = some hs) :
    atHeaderEnd bufferSz hs st.totalLen clientfd
        ≤ (httpServerRecvLoop bufferSz clientfd st).1.totalLen ∧
      headerEnd (stream.take (atHeaderEnd bufferSz hs st.totalLen clientfd)) = some hs ∧
      (httpServerRecvLoop bufferSz clientfd st).1.contentLen =
        expectedLen bufferSz hs (stream.take (atHeaderEnd bufferSz hs st.totalLen clientfd)) 0 := by
  fun_induction httpServerRecvLoop bufferSz clientfd st with
  | case1 clientfd st hlt r hn =>
    rw [(inv.unfinished h0).2] at hend
    cases hend
  | case4 clientfd st hlt =>
    rw [(inv.unfinished h0).2] at hend
    cases hend
  | case2 clientfd st hlt r hn st' hstop =>
    obtain ⟨hcut, hcontent⟩ := found_announced inv h0 hlt (not_le.mp hn) hend
    exact ⟨hcut.ge, hcut ▸ hend, hcontent⟩
  | case3 clientfd st hlt r hn st' hstop ih =>
    have hspace : 0 < bufferSz - 1 - st.totalLen := Nat.sub_pos_of_lt hlt
    rcases recv_cases clientfd hspace with ⟨hle, _⟩ | ⟨hlen, hne, hfit, hbytes⟩
    · exact absurd hle hn
    · have inv' : RecvInv stream bufferSz r.rest st' := recvInv_receive inv hlen hne hfit hbytes
      by_cases hstart : st'.headerSz = 0
      · obtain ⟨-, hnone⟩ := inv'.unfinished hstart
        have htotal : st'.totalLen = st.totalLen + r.data.length := by
          simp only [st', r, recvHeader_totalLen, receive, hlen]
          rfl
        have hnew : st'.totalLen < hs := by
          by_contra hold
          rw [headerEnd_take (headerEnd_of_take hend) (not_lt.mp hold)] at hnone
          cases hnone
        have harrival := arrivalAt_recv clientfd (hs - st.totalLen) (not_le.mp hn)
        rw [if_neg (by simp only [r] at htotal; omega)] at harrival
        have hcut : atHeaderEnd bufferSz hs st'.totalLen r.rest
            = atHeaderEnd bufferSz hs st.totalLen clientfd := by
          rw [atHeaderEnd, atHeaderEnd, htotal, ← Nat.sub_sub]
          simp only [r]
          omega
        rw [← hcut]
        exact ih inv' hstart hend
      · have hfound : headerEnd (stream.take st'.totalLen) = some hs := by
          rcases inv'.header with ⟨hzero, -⟩ | ⟨t, ht, hfirst, -⟩
          · exact absurd hzero hstart
          · have hsame := (headerEnd_of_take hfirst).symm.trans (headerEnd_of_take hend)
            have hle := ((headerEnd_le hfirst).2.trans (cstr_length_le _)).trans
              (List.length_take_le _ _)
            rw [Option.some.inj hsame] at hle
            exact headerEnd_take (headerEnd_of_take hend) (hle.trans ht)
        obtain ⟨hcut, hcontent⟩ := found_announced inv h0 hlt (not_le.mp hn) hfound
        refine ⟨hcut ▸ recvLoop_totalLen r.rest st', hcut ▸ hfound, ?_⟩
        rw [recvLoop_announced_kept r.rest st' hstart]
        exact hcontent

theorem recv_header (clientfd : SocketT) {buffer : List Byte}
    (hreceived : (Socket.bytes clientfd).take (httpServerRecv clientfd buffer buffer.length).1.totalLen
      = req.header ++ rest) :
    (httpServerRecv clientfd buffer buffer.length).1.headerSz = req.header.length ∧
      (httpServerRecv clientfd buffer buffer.length).1.contentLen =
        announcedLen buffer.length req (earlyBytes clientfd buffer.length req rest) := by
  have inv0 := recvInv_initial clientfd (rfl : buffer.length = buffer.length)
  obtain ⟨fd, inv⟩ : ∃ fd, RecvInv (Socket.bytes clientfd) buffer.length fd
      (httpServerRecv clientfd buffer buffer.length).1 := (recvLoop_stops clientfd _ inv0).1
  have hend : headerEnd ((Socket.bytes clientfd).take
      (httpServerRecv clientfd buffer buffer.length).1.totalLen) = some req.header.length := by
    rw [hreceived]
    exact headerEnd_header req rest
  obtain ⟨hcut, hfirst, hcontent⟩ := recvLoop_announced clientfd _ inv0 rfl hend
  have hin := ((headerEnd_le hfirst).2.trans (cstr_length_le _)).trans (List.length_take_le _ _)
  have hwithin : atHeaderEnd buffer.length req.header.length 0 clientfd
      ≤ (httpServerRecv clientfd buffer buffer.length).1.totalLen := hcut
  have htext : (Socket.bytes clientfd).take
      (atHeaderEnd buffer.length req.header.length 0 clientfd)
        = req.header ++ earlyBytes clientfd buffer.length req rest := by
    have htwice := congrArg
      (List.take (atHeaderEnd buffer.length req.header.length 0 clientfd)) hreceived
    rw [List.take_take, Nat.min_eq_left hwithin, List.take_append, List.take_of_length_le hin] at htwice
    rw [htwice, earlyBytes, atHeaderEnd, Nat.zero_add, Nat.sub_zero]
  have hfit : req.header.length < buffer.length := by
    have h4 := (headerEnd_le hend).1
    have hfits := inv.fits
    have := ((headerEnd_le hend).2.trans (cstr_length_le _)).trans (List.length_take_le _ _)
    omega
  constructor
  · rcases inv.header with ⟨-, -, hnone⟩ | ⟨t, ht, hsome, -⟩
    · rw [hend] at hnone
      cases hnone
    · exact Option.some.inj ((headerEnd_of_take hsome).symm.trans (headerEnd_of_take hend))
  · rw [httpServerRecv, hcontent, htext, expectedLen_eq hfit]
    rfl

theorem parse_unnamed (hpost : isPost (req.header ++ rest))
    (hnone : contentLengthAt (req.header ++ rest) = none) :
    httpServerParseRequest (req.header ++ rest) (req.header ++ rest).length
      = ⟨0, some req.header.length, rest.length⟩ := by
  refine parse_accepts.mpr ⟨hpost, Or.inl ⟨hnone, headerEnd_header req rest, ?_⟩⟩
  rw [List.length_append]
  omega

theorem blank_after_name {cl : Nat} (hcl : contentLengthAt (req.header ++ rest) = some cl)
    (hin : cl < req.header.length) :
    strstr crlfcrlf ((cstr (req.header ++ rest)).drop cl) = some (req.header.length - 4 - cl) := by
  have hend := headerEnd_header req rest
  have hclear := contentLength_clear_of_header hcl hend
  exact strstr_drop (crlfcrlf_at hend).1 (by omega)

theorem parse_named_iff {cl off : Nat} {sz : Int} (hpost : isPost (req.header ++ rest))
    (hcl : contentLengthAt (req.header ++ rest) = some cl) :
    httpServerParseRequest (req.header ++ rest) (req.header ++ rest).length = ⟨0, some off, sz⟩ ↔
      sz = parsedContentLength (req.header ++ rest) ∧ 0 < sz ∧
        ∃ i, strstr crlfcrlf ((cstr (req.header ++ rest)).drop cl) = some i ∧ off = cl + i + 4 ∧
          (off : Int) + sz ≤ (req.header ++ rest).length := by
  rw [parse_accepts]
  simp only [hpost, hcl, true_and, reduceCtorEq, false_and, false_or, Option.some.injEq]
  constructor
  · rintro ⟨cl', i, rfl, hpos, hi, hoff, rfl, hle⟩
    exact ⟨rfl, hpos, i, hi, hoff, hle⟩
  · rintro ⟨rfl, hpos, i, hi, hoff, hle⟩
    exact ⟨cl, i, rfl, hpos, hi, hoff, rfl, hle⟩

theorem parse_inside_header_iff {cl off : Nat} {sz : Int} (hpost : isPost (req.header ++ rest))
    (hcl : contentLengthAt (req.header ++ rest) = some cl) (hin : cl < req.header.length) :
    httpServerParseRequest (req.header ++ rest) (req.header ++ rest).length = ⟨0, some off, sz⟩ ↔
      off = req.header.length ∧ sz = parsedContentLength (req.header ++ rest) ∧ 0 < sz ∧
        sz ≤ rest.length := by
  have hclear := contentLength_clear_of_header hcl (headerEnd_header req rest)
  rw [parse_named_iff hpost hcl, blank_after_name hcl hin]
  have hoff : cl + (req.header.length - 4 - cl) + 4 = req.header.length := by omega
  simp only [Option.some.injEq, exists_eq_left', hoff, List.length_append]
  constructor
  · rintro ⟨hsz, hpos, rfl, hle⟩
    exact ⟨rfl, hsz, hpos, by omega⟩
  · rintro ⟨rfl, hsz, hpos, hle⟩
    exact ⟨hsz, hpos, rfl, by omega⟩

theorem announced_unnamed {early : List Byte} (hearly : early <+: rest)
    (hnone : contentLengthAt (req.header ++ rest) = none) (hfit : req.header.length < bufferSz) :
    announcedLen bufferSz req early = 0 := by
  have hcut : req.header ++ early = (req.header ++ rest).take (req.header.length + early.length) := by
    rw [List.take_length_add_append, ← List.prefix_iff_eq_take.mp hearly]
  have hzero : parsedContentLength (req.header ++ early) = 0 := by
    rw [parsedContentLength, hcut, contentLengthAt_take_none hnone]
  rw [announcedLen, hzero]
  omega

theorem accepted_unnamed_iff (hpost : isPost (req.header ++ rest))
    (hnone : contentLengthAt (req.header ++ rest) = none) (hheader : st.headerSz = req.header.length)
    (hannounced : st.contentLen = 0) :
    ((httpServerParseRequest (req.header ++ rest) (req.header ++ rest).length).ret = 0 →
      Faithful req rest st
        (httpServerParseRequest (req.header ++ rest) (req.header ++ rest).length)) ↔
      ExactLength req rest rest.length ∧ (req.contentLengths ≠ [] → rest = []) := by
  simp only [parse_unnamed hpost hnone, true_implies]
  constructor
  · intro h
    refine ⟨h.length, fun hne => ?_⟩
    have hzero := (h.announced hne).symm.trans hannounced
    exact List.length_eq_zero_iff.mp (Int.ofNat_eq_zero.mp hzero)
  · rintro ⟨hexact, hnil⟩
    refine ⟨rfl, hexact, hheader, fun hne => ?_⟩
    rw [hannounced, hnil hne]
    rfl

theorem accepted_inside_iff {cl : Nat} {announced : Int} (hpost : isPost (req.header ++ rest))
    (hcl : contentLengthAt (req.header ++ rest) = some cl) (hin : cl < req.header.length)
    (hheader : st.headerSz = req.header.length) (hcontent : st.contentLen = announced) :
    ((httpServerParseRequest (req.header ++ rest) (req.header ++ rest).length).ret = 0 →
      Faithful req rest st
        (httpServerParseRequest (req.header ++ rest) (req.header ++ rest).length)) ↔
      parsedContentLength (req.header ++ rest) ≤ 0 ∨
        rest.length < parsedContentLength (req.header ++ rest) ∨
          (ExactLength req rest (parsedContentLength (req.header ++ rest)) ∧
            (req.contentLengths ≠ [] → announced = parsedContentLength (req.header ++ rest))) := by
  constructor
  · intro h
    by_contra hbad
    rw [not_or, not_or] at hbad
    obtain ⟨hpos, hfits, hwrong⟩ := hbad
    have hparse := (parse_inside_header_iff hpost hcl hin).mpr
      ⟨rfl, rfl, not_le.mp hpos, not_lt.mp hfits⟩
    rw [hparse] at h
    have hfaith := h rfl
    exact hwrong ⟨hfaith.length, fun hne => hcontent.symm.trans (hfaith.announced hne)⟩
  · intro hfound hret
    obtain ⟨off, sz, hparse⟩ := parse_body hret
    obtain ⟨rfl, rfl, hpos, hle⟩ := (parse_inside_header_iff hpost hcl hin).mp hparse
    rcases hfound with hneg | hlarge | ⟨hexact, hannounced⟩
    · omega
    · omega
    · rw [hparse]
      exact ⟨rfl, hexact, hheader, fun hne => hcontent.trans (hannounced hne)⟩

theorem accepted_past_iff {cl : Nat} (hpost : isPost (req.header ++ rest))
    (hcl : contentLengthAt (req.header ++ rest) = some cl) (hpast : ¬ cl < req.header.length) :
    ((httpServerParseRequest (req.header ++ rest) (req.header ++ rest).length).ret = 0 →
      Faithful req rest st
        (httpServerParseRequest (req.header ++ rest) (req.header ++ rest).length)) ↔
      parsedContentLength (req.header ++ rest) ≤ 0 ∨
        ∀ i, strstr crlfcrlf ((cstr (req.header ++ rest)).drop cl) = some i →
          ((req.header ++ rest).length : Int) <
            (cl + i + 4 : Nat) + parsedContentLength (req.header ++ rest) := by
  constructor
  · intro h
    by_contra hbad
    simp only [not_or, not_forall, not_lt] at hbad
    obtain ⟨hpos, i, hi, hle⟩ := hbad
    have hparse := (parse_named_iff hpost hcl).mpr ⟨rfl, not_le.mp hpos, i, hi, rfl, hle⟩
    rw [hparse] at h
    have hbody := Option.some.inj (h rfl).body
    omega
  · intro hfound hret
    obtain ⟨off, sz, hparse⟩ := parse_body hret
    obtain ⟨rfl, hpos, i, hi, rfl, hle⟩ := (parse_named_iff hpost hcl).mp hparse
    rcases hfound with hneg | hlate
    · omega
    · have := hlate i hi
      omega

theorem accepted_iff {early : List Byte} (hearly : early <+: rest) (hfit : req.header.length < bufferSz)
    (hheader : st.headerSz = req.header.length)
    (hcontent : st.contentLen = announcedLen bufferSz req early) :
    ((httpServerParseRequest (req.header ++ rest) (req.header ++ rest).length).ret = 0 →
      Faithful req rest st
        (httpServerParseRequest (req.header ++ rest) (req.header ++ rest).length)) ↔
      CountsAgree bufferSz req early rest := by
  by_cases hpost : isPost (req.header ++ rest)
  · cases hcl : contentLengthAt (req.header ++ rest) with
    | none =>
      simp only [CountsAgree, hpost, not_true, false_or, hcl]
      exact accepted_unnamed_iff hpost hcl hheader
        (hcontent.trans (announced_unnamed hearly hcl hfit))
    | some cl =>
      simp only [CountsAgree, hpost, not_true, false_or, hcl]
      by_cases hin : cl < req.header.length
      · rw [if_pos hin]
        exact accepted_inside_iff hpost hcl hin hheader hcontent
      · rw [if_neg hin]
        exact accepted_past_iff hpost hcl hin
  · refine iff_of_true (fun hret => ?_) (Or.inl hpost)
    rw [parse_not_post hpost] at hret
    cases hret

theorem exactLength_value {len : Int} (h : ExactLength req rest len) {f : HttpField}
    (hf : f ∈ req.contentLengths) {n : Nat} (hn : decimalValue f.value = some n) : len = n := by
  rw [ExactLength, if_neg (List.ne_nil_of_mem hf)] at h
  have := h f hf
  rw [hn] at this
  exact (Option.some.inj this).symm

theorem refused_of_accepted (hbuffer : (bufferSz : Int) ≤ MachineInt.intMax)
    (hsize : (req.header ++ rest).length ≤ bufferSz - 1)
    (h : (httpServerParseRequest (req.header ++ rest) (req.header ++ rest).length).ret = 0 →
      Faithful req rest st
        (httpServerParseRequest (req.header ++ rest) (req.header ++ rest).length)) :
    LengthAgrees bufferSz req rest st
      (httpServerParseRequest (req.header ++ rest) (req.header ++ rest).length) := by
  refine ⟨h, fun f hf n hn hlarge hret => ?_⟩
  obtain ⟨off, sz, hparse⟩ := parse_body hret
  have hfaith := h hret
  rw [hparse] at hfaith
  have hbody : off = req.header.length := Option.some.inj hfaith.body
  have hvalue : sz = n := exactLength_value hfaith.length hf hn
  have hinside := (parse_inside hparse).2
  have hblank := (headerEnd_le (headerEnd_header req rest)).1
  rw [List.length_append] at hsize hinside
  rcases hlarge with hint | hspace
  · omega
  · omega

end Run

def textBehind (received : List Byte) (cl : Nat) : List Byte := (cstr received).drop (cl + 15)

def Countable (rest text : List Byte) : Prop := 0 < atoi text ∧ atoi text ≤ rest.length

def OwnLength (req : HttpRequest) (rest : List Byte) : Prop :=
  (∃ f, NamedFirst req rest f) ∧ ∃ n : Nat, (n : Int) ≤ MachineInt.intMax ∧
    ∀ g ∈ req.contentLengths, decimalValue g.value = some n

def ForeignLength (bufferSz : Nat) (req : HttpRequest) (early rest : List Byte) (cl : Nat) : Prop :=
  (¬ ∃ f, NamedFirst req rest f) ∧
    if req.contentLengths = [] then atoi (textBehind (req.header ++ rest) cl) = rest.length
    else
      (∀ g ∈ req.contentLengths,
        (decimalValue g.value).map Int.ofNat = some (atoi (textBehind (req.header ++ rest) cl))) ∧
      min (max (atoi (textBehind (req.header ++ early) cl)) 0)
        ((bufferSz : Int) - 1 - req.header.length) = atoi (textBehind (req.header ++ rest) cl)

def LengthFound (bufferSz : Nat) (req : HttpRequest) (early rest : List Byte) : Prop :=
  ¬ isPost (req.header ++ rest) ∨
    match contentLengthAt (req.header ++ rest) with
    | none => req.contentLengths = [] ∨
        rest = [] ∧ ∀ f ∈ req.contentLengths, decimalValue f.value = some 0
    | some cl =>
      if cl < req.header.length then
        ¬ Countable rest (textBehind (req.header ++ rest) cl) ∨ OwnLength req rest ∨
          ForeignLength bufferSz req early rest cl
      else
        atoi (textBehind (req.header ++ rest) cl) ≤ 0 ∨
          ∀ i, strstr crlfcrlf ((cstr (req.header ++ rest)).drop cl) = some i →
            ((req.header ++ rest).length : Int) <
              (cl + i + 4 : Nat) + atoi (textBehind (req.header ++ rest) cl)

section Fields
variable {req : HttpRequest} {early rest : List Byte} {bufferSz cl : Nat}

theorem parsedContentLength_at {received : List Byte} (h : contentLengthAt received = some cl) :
    parsedContentLength received = atoi (textBehind received cl) := by
  rw [parsedContentLength, h]
  rfl

theorem early_at (hearly : early <+: rest) (hcl : contentLengthAt (req.header ++ rest) = some cl)
    (hin : cl < req.header.length) : contentLengthAt (req.header ++ early) = some cl := by
  have hclear := contentLength_clear_of_header hcl (headerEnd_header req rest)
  rw [List.prefix_iff_eq_take.mp hearly, ← List.take_length_add_append]
  exact contentLengthAt_take hcl (by omega)

theorem exactLength_unnamed_iff : ExactLength req rest rest.length ∧
      (req.contentLengths ≠ [] → rest = []) ↔
    req.contentLengths = [] ∨ rest = [] ∧ ∀ f ∈ req.contentLengths, decimalValue f.value = some 0 := by
  by_cases hnone : req.contentLengths = []
  · simp [ExactLength, hnone]
  · simp only [ExactLength, hnone, if_false, ne_eq, not_false_eq_true, true_implies, false_or]
    constructor
    · rintro ⟨hexact, rfl⟩
      refine ⟨rfl, fun f hf => ?_⟩
      obtain ⟨n, hn, hzero⟩ := Option.map_eq_some_iff.mp (hexact f hf)
      obtain rfl : n = 0 := Int.ofNat.inj hzero
      exact hn
    · rintro ⟨rfl, hzero⟩
      exact ⟨fun f hf => by rw [hzero f hf]; rfl, rfl⟩

theorem NamedFirst.text {f : HttpField} (h : NamedFirst req rest f)
    (hcl : contentLengthAt (req.header ++ rest) = some cl) {n : Nat}
    (hvalue : decimalValue f.value = some n) (hn : (n : Int) ≤ MachineInt.intMax) (p : List Byte) :
    atoi (textBehind (req.header ++ p) cl) = n := by
  obtain ⟨cl', tail, hdrop, hlt, -, hat⟩ := h.located
  obtain rfl : cl' = cl := Option.some.inj ((hat rest List.prefix_rfl).symm.trans hcl)
  rw [textBehind, cstr_header, List.drop_append_of_le_length hlt.le, hdrop, List.append_assoc,
    List.cons_append, List.cons_append]
  exact atoi_decimalValue hvalue hn _

theorem named_iff (hearly : early <+: rest) (hsize : (req.header ++ rest).length ≤ bufferSz - 1)
    (hcl : contentLengthAt (req.header ++ rest) = some cl) (hin : cl < req.header.length)
    (hcount : Countable rest (textBehind (req.header ++ rest) cl)) :
    (ExactLength req rest (atoi (textBehind (req.header ++ rest) cl)) ∧
        (req.contentLengths ≠ [] →
          announcedLen bufferSz req early = atoi (textBehind (req.header ++ rest) cl))) ↔
      OwnLength req rest ∨ ForeignLength bufferSz req early rest cl := by
  have hannounced : announcedLen bufferSz req early =
      min (max (atoi (textBehind (req.header ++ early) cl)) 0)
        ((bufferSz : Int) - 1 - req.header.length) := by
    rw [announcedLen, parsedContentLength_at (early_at hearly hcl hin)]
  have hspace : (rest.length : Int) ≤ (bufferSz : Int) - 1 - req.header.length := by
    rw [List.length_append] at hsize
    have := (headerEnd_le (headerEnd_header req rest)).1
    omega
  by_cases hown : ∃ f, NamedFirst req rest f
  · obtain ⟨f, hf⟩ := hown
    obtain ⟨-, -, -, -, hmem, -⟩ := hf.located
    have hne : req.contentLengths ≠ [] := List.ne_nil_of_mem hmem
    have hforeign : ¬ ForeignLength bufferSz req early rest cl := fun h => h.1 ⟨f, hf⟩
    rw [ExactLength, if_neg hne, or_iff_left hforeign]
    constructor
    · rintro ⟨hexact, -⟩
      obtain ⟨n, -, hn⟩ := Option.map_eq_some_iff.mp (hexact f hmem)
      have hint : (n : Int) ≤ MachineInt.intMax := hn.trans_le (MachineInt.toInt32_range _).2
      refine ⟨⟨f, hf⟩, n, hint, fun g hg => ?_⟩
      obtain ⟨m, hm, heq⟩ := Option.map_eq_some_iff.mp (hexact g hg)
      rw [hm, Int.ofNat.inj (heq.trans hn.symm)]
    · rintro ⟨-, n, hn, hall⟩
      have htext := hf.text hcl (hall f hmem) hn
      obtain ⟨hpos, hle⟩ := hcount
      rw [htext rest] at hpos hle ⊢
      refine ⟨fun g hg => by rw [hall g hg]; rfl, fun _ => ?_⟩
      rw [hannounced, htext early]
      omega
  · have hnot : ¬ OwnLength req rest := fun h => hown h.1
    rw [or_iff_right hnot, ForeignLength, ExactLength, hannounced]
    by_cases hnone : req.contentLengths = []
    · simp [hnone, hown]
    · simp [hnone, hown]

theorem lengthFound_iff (hearly : early <+: rest)
    (hsize : (req.header ++ rest).length ≤ bufferSz - 1) :
    CountsAgree bufferSz req early rest ↔ LengthFound bufferSz req early rest := by
  rw [CountsAgree, LengthFound]
  refine or_congr_right ?_
  rcases hcl : contentLengthAt (req.header ++ rest) with _ | cl
  · exact exactLength_unnamed_iff
  · simp only [parsedContentLength_at hcl]
    by_cases hin : cl < req.header.length
    · rw [if_pos hin, if_pos hin]
      by_cases hcount : Countable rest (textBehind (req.header ++ rest) cl)
      · rw [or_iff_right (not_le.mpr hcount.1), or_iff_right (not_lt.mpr hcount.2),
          or_iff_right (not_not.mpr hcount)]
        exact named_iff hearly hsize hcl hin hcount
      · refine iff_of_true ?_ (.inl hcount)
        rw [Countable, not_and_or, not_lt, not_le] at hcount
        exact hcount.imp_right .inl
    · rw [if_neg hin, if_neg hin]

end Fields

section Exact

theorem request_length_iff (clientfd : SocketT) {buffer rest : List Byte} {req : HttpRequest}
    (hbuffer : (buffer.length : Int) ≤ MachineInt.intMax)
    (hreceived : (Socket.bytes clientfd).take (httpServerRecv clientfd buffer buffer.length).1.totalLen
      = req.header ++ rest) :
    let st := (httpServerRecv clientfd buffer buffer.length).1
    LengthAgrees buffer.length req rest st (httpServerParseRequest st.buffer st.totalLen) ↔
      LengthFound buffer.length req (earlyBytes clientfd buffer.length req rest) rest := by
  intro st
  obtain ⟨fd, inv⟩ : ∃ fd, RecvInv (Socket.bytes clientfd) buffer.length fd st :=
    (recvLoop_stops clientfd _ (recvInv_initial clientfd rfl)).1
  obtain ⟨hheader, hcontent⟩ := recv_header clientfd hreceived
  have hlen : (req.header ++ rest).length = st.totalLen := by
    rw [← hreceived, List.length_take, Nat.min_eq_left inv.arrived]
  have hsize : (req.header ++ rest).length ≤ buffer.length - 1 := hlen ▸ inv.fits
  have hpos := (headerEnd_le (headerEnd_header req rest)).1
  have hfit : req.header.length < buffer.length := by
    rw [List.length_append] at hsize
    omega
  have hparse : httpServerParseRequest st.buffer st.totalLen =
      httpServerParseRequest (req.header ++ rest) (req.header ++ rest).length := by
    rw [parse_received inv, hreceived]
  have hearly : earlyBytes clientfd buffer.length req rest <+: rest := List.take_prefix _ _
  rw [hparse, ← lengthFound_iff hearly hsize, ← accepted_iff hearly hfit hheader hcontent]
  exact ⟨LengthAgrees.accepted, refused_of_accepted hbuffer hsize⟩

end Exact

def plainRequest : HttpRequest where
  line := str "POST / HTTP/1.0"
  fields := [⟨str "Content-Length", str " 2", by decide +kernel, by decide +kernel⟩]
  line_plain := by decide +kernel

theorem plain_request_agrees :
    LengthAgrees 64 plainRequest (str "AB")
      (httpServerRecv (Socket.oneSegment (plainRequest.header ++ str "AB")) (List.replicate 64 0) 64).1
      (httpServerParseRequest
        (httpServerRecv (Socket.oneSegment (plainRequest.header ++ str "AB")) (List.replicate 64 0)
          64).1.buffer
        (httpServerRecv (Socket.oneSegment (plainRequest.header ++ str "AB")) (List.replicate 64 0)
          64).1.totalLen) := by
  refine (request_length_iff (Socket.oneSegment (plainRequest.header ++ str "AB"))
    (by decide : ((List.replicate 64 (0 : Byte)).length : Int) ≤ MachineInt.intMax)
    (by decide +kernel)).mpr (Or.inr ?_)
  have hat : contentLengthAt (plainRequest.header ++ str "AB") = some 17 := by decide
  have hfirst : NamedFirst plainRequest (str "AB") ⟨str "Content-Length", str " 2", by decide +kernel,
      by decide +kernel⟩ := ⟨[], [], rfl, .inl ⟨rfl, by unfold SpelledFirst; decide +kernel⟩⟩
  simp only [hat]
  rw [if_pos (by decide)]
  exact Or.inr (Or.inl ⟨⟨_, hfirst⟩, 2, by decide, by decide +kernel⟩)

def longerNameRequest : HttpRequest where
  line := str "POST / HTTP/1.0"
  fields := [⟨str "X-Content-Length", str " 1", by decide +kernel, by decide +kernel⟩,
    ⟨str "Content-Length", str " 2", by decide +kernel, by decide +kernel⟩]
  line_plain := by decide +kernel

theorem longer_name_shortens_body :
    ¬ ∀ (clientfd : SocketT) (buffer rest : List Byte) (req : HttpRequest),
      (buffer.length : Int) ≤ MachineInt.intMax →
      (Socket.bytes clientfd).take (httpServerRecv clientfd buffer buffer.length).1.totalLen
        = req.header ++ rest →
      let st := (httpServerRecv clientfd buffer buffer.length).1
      LengthAgrees buffer.length req rest st (httpServerParseRequest st.buffer st.totalLen) := by
  intro h
  have hagree := h (Socket.oneSegment (longerNameRequest.header ++ str "AB")) (List.replicate 64 0)
    (str "AB") longerNameRequest (by decide +kernel) (by decide +kernel)
  have hexact := (hagree.accepted (by decide +kernel)).length
  rw [ExactLength, if_neg (by decide)] at hexact
  exact absurd hexact (by decide +kernel)

end WolfCLU.Http
