import WolfCLU.Transport.Http

namespace WolfCLU.Http
open Buffer CString

def requestBody (buffer : List Byte) (r : ParsedRequest) : Option (List Byte) :=
  if r.ret = 0 then r.body.map (fun off => (buffer.drop off).take r.bodySz.toNat) else none

def serve (clientfd : SocketT) (buffer : List Byte) (bufferSz : Nat) : Option (List Byte) :=
  let st := (httpServerRecv clientfd buffer bufferSz).1
  requestBody st.buffer (httpServerParseRequest st.buffer st.totalLen)

def prefixOutcome (p : List Byte) : Option (List Byte) :=
  requestBody p (httpServerParseRequest p p.length)

def window (stream : List Byte) (bufferSz : Nat) : List Byte := stream.take (bufferSz - 1)

def headerEnd (p : List Byte) : Option Nat := (strstr crlfcrlf (cstr p)).map (· + 4)

theorem headerEnd_take {w : List Byte} {hs t : Nat} (h : headerEnd w = some hs) (ht : hs ≤ t) :
    headerEnd (w.take t) = some hs := by
  simp only [headerEnd, Option.map_eq_some_iff] at h ⊢
  obtain ⟨i, hi, rfl⟩ := h
  exact ⟨i, by rw [cstr_take]; exact strstr_take hi ht, rfl⟩

theorem headerEnd_of_take {w : List Byte} {hs t : Nat} (h : headerEnd (w.take t) = some hs) :
    headerEnd w = some hs := by
  simp only [headerEnd, Option.map_eq_some_iff, cstr_take] at h ⊢
  obtain ⟨i, hi, rfl⟩ := h
  exact ⟨i, strstr_of_take hi, rfl⟩

theorem headerEnd_le {w : List Byte} {hs : Nat} (h : headerEnd w = some hs) :
    4 ≤ hs ∧ hs ≤ (cstr w).length := by
  simp only [headerEnd, Option.map_eq_some_iff] at h
  obtain ⟨i, hi, rfl⟩ := h
  have := strstr_bound hi
  simp only [crlfcrlf, List.length_cons, List.length_nil] at this
  omega

structure RecvInv (stream : List Byte) (bufferSz : Nat) (clientfd : SocketT) (st : RecvState) :
    Prop where
  fits : st.totalLen ≤ bufferSz - 1
  arrived : st.totalLen ≤ stream.length
  pending : Socket.bytes clientfd = stream.drop st.totalLen
  size : st.buffer.length = bufferSz
  content : st.buffer.take st.totalLen = stream.take st.totalLen
  terminated : 0 < st.totalLen → cstr st.buffer = cstr (stream.take st.totalLen)
  header : (st.headerSz = 0 ∧ st.contentLen = 0 ∧ headerEnd (stream.take st.totalLen) = none) ∨
    ∃ t, t ≤ st.totalLen ∧ headerEnd (stream.take t) = some st.headerSz ∧
      st.contentLen = expectedLen bufferSz st.headerSz (stream.take t) 0

theorem recvInv_initial (clientfd : SocketT) {buffer : List Byte} {bufferSz : Nat}
    (hsz : buffer.length = bufferSz) :
    RecvInv (Socket.bytes clientfd) bufferSz clientfd
      { totalLen := 0, contentLen := 0, headerSz := 0, buffer := buffer } where
  fits := Nat.zero_le _
  arrived := Nat.zero_le _
  pending := by simp
  size := hsz
  content := by simp
  terminated := by simp
  header := Or.inl ⟨rfl, rfl, by simp [headerEnd, cstr, strstr, crlfcrlf]⟩

theorem expectedLen_congr {b b' : List Byte} (h : cstr b = cstr b') (bufferSz hs : Nat) (c : Int) :
    expectedLen bufferSz hs b c = expectedLen bufferSz hs b' c := by
  simp only [expectedLen, contentLengthAt, h]

theorem receive_buffer {st : RecvState} {r : Socket.Received Byte} {bufferSz : Nat}
    (hsize : st.buffer.length = bufferSz) (hn : r.n = r.data.length)
    (hfit : st.totalLen + r.data.length < bufferSz) :
    (receive st r).totalLen = st.totalLen + r.data.length ∧
      ∃ tail, (receive st r).buffer = st.buffer.take st.totalLen ++ r.data ++ 0 :: tail ∧
        (receive st r).buffer.length = bufferSz := by
  have hnat : r.n.toNat = r.data.length := by omega
  refine ⟨by simp [receive, hnat], ?_⟩
  have hl : (blit st.buffer st.totalLen r.data).length = bufferSz := by
    rw [blit_length (by omega), hsize]
  refine ⟨(blit st.buffer st.totalLen r.data).drop (st.totalLen + r.data.length + 1), ?_, ?_⟩
  · simp only [receive, hnat]
    rw [blit, blit_take_append (by omega)]
    simp
  · simp only [receive, hnat]
    rw [blit_length (by simp only [List.length_singleton]; omega), hl]

theorem recvInv_receive {stream : List Byte} {bufferSz : Nat} {clientfd : SocketT}
    {st : RecvState} (inv : RecvInv stream bufferSz clientfd st) {r : Socket.Received Byte}
    (hn : r.n = r.data.length) (hne : r.data ≠ []) (hlen : r.data.length ≤ bufferSz - 1 - st.totalLen)
    (hbytes : Socket.bytes clientfd = r.data ++ Socket.bytes r.rest) :
    RecvInv stream bufferSz r.rest (recvHeader bufferSz (receive st r)) := by
  have hpos : 0 < r.data.length := List.length_pos_iff.mpr hne
  obtain ⟨htot, tail, hbuf, hsize⟩ := receive_buffer inv.size hn (by omega)
  have hdrop : stream.drop st.totalLen = r.data ++ Socket.bytes r.rest := by
    rw [← inv.pending, hbytes]
  have hdroplen : stream.length - st.totalLen = r.data.length + (Socket.bytes r.rest).length := by
    rw [← List.length_drop, hdrop, List.length_append]
  have harr := inv.arrived
  have htake : stream.take (st.totalLen + r.data.length) = stream.take st.totalLen ++ r.data := by
    rw [List.take_add, hdrop, List.take_left]
  have hcontent : (receive st r).buffer.take (receive st r).totalLen
      = stream.take (receive st r).totalLen := by
    have hl : (st.buffer.take st.totalLen ++ r.data).length = st.totalLen + r.data.length := by
      rw [List.length_append, List.length_take, inv.size]
      omega
    rw [hbuf, htot, htake, ← inv.content, ← hl, List.take_left]
  have hterm : cstr (receive st r).buffer = cstr (stream.take (receive st r).totalLen) := by
    rw [hbuf, cstr_append_nul, htot, htake, inv.content]
  refine ⟨?_, ?_, ?_, ?_, ?_, ?_, ?_⟩
  · rw [recvHeader_totalLen, htot]
    omega
  · rw [recvHeader_totalLen, htot]
    omega
  · rw [recvHeader_totalLen, htot, ← List.drop_drop, hdrop, List.drop_left]
  · rw [recvHeader_buffer, hsize]
  · rw [recvHeader_buffer, recvHeader_totalLen, hcontent]
  · intro _
    rw [recvHeader_buffer, recvHeader_totalLen, hterm]
  · have hhs : (receive st r).headerSz = st.headerSz := rfl
    have hcl : (receive st r).contentLen = st.contentLen := rfl
    rw [recvHeader_totalLen]
    rcases inv.header with ⟨h0, hc0, _⟩ | ⟨t, ht, hend, hexp⟩
    · simp only [recvHeader, hhs, h0, if_true, hcl, hc0]
      cases hs : strstr crlfcrlf (cstr (receive st r).buffer) with
      | none =>
        left
        rw [hterm] at hs
        exact ⟨h0, hc0, by simp [headerEnd, hs]⟩
      | some i =>
        right
        refine ⟨(receive st r).totalLen, le_rfl, ?_, expectedLen_congr hterm _ _ _⟩
        rw [hterm] at hs
        simp [headerEnd, hs]
    · right
      have h4 := (headerEnd_le hend).1
      have hne0 : st.headerSz ≠ 0 := by omega
      refine ⟨t, by omega, ?_⟩
      simp only [recvHeader, hhs, if_neg hne0]
      exact ⟨hend, hexp⟩

def AtStop (stream : List Byte) (bufferSz : Nat) (st : RecvState) : Prop :=
  st.totalLen = (window stream bufferSz).length ∨
    (0 < st.headerSz ∧ st.contentLen ≤ (st.totalLen : Int) - st.headerSz)

theorem recvLoop_stops {stream : List Byte} {bufferSz : Nat} (clientfd : SocketT)
    (st : RecvState) (inv : RecvInv stream bufferSz clientfd st) :
    (∃ fd, RecvInv stream bufferSz fd (httpServerRecvLoop bufferSz clientfd st).1) ∧
      AtStop stream bufferSz (httpServerRecvLoop bufferSz clientfd st).1 := by
  fun_induction httpServerRecvLoop bufferSz clientfd st with
  | case1 clientfd st hlt r hn =>
    refine ⟨⟨clientfd, inv⟩, Or.inl ?_⟩
    rcases recv_cases clientfd (Nat.sub_pos_of_lt hlt) with ⟨_, hnil⟩ | ⟨hlen, hne, _, _⟩
    · have hdrop := congrArg List.length (inv.pending.symm.trans hnil)
      have := inv.arrived
      simp only [List.length_drop, List.length_nil] at hdrop
      simp only [window, List.length_take]
      omega
    · have := List.length_pos_iff.mpr hne
      simp only [r] at hn
      omega
  | case2 clientfd st hlt r hn st' hstop =>
    rcases recv_cases clientfd (Nat.sub_pos_of_lt hlt) with ⟨hle, _⟩ | ⟨hlen, hne, hfit, hbytes⟩
    · exact absurd hle hn
    · exact ⟨⟨r.rest, recvInv_receive inv hlen hne hfit hbytes⟩, Or.inr ⟨hstop.1, hstop.2⟩⟩
  | case3 clientfd st hlt r hn st' hstop ih =>
    rcases recv_cases clientfd (Nat.sub_pos_of_lt hlt) with ⟨hle, _⟩ | ⟨hlen, hne, hfit, hbytes⟩
    · exact absurd hle hn
    · exact ih (recvInv_receive inv hlen hne hfit hbytes)
  | case4 clientfd st hlt =>
    refine ⟨⟨clientfd, inv⟩, Or.inl ?_⟩
    have := inv.fits
    have := inv.arrived
    simp only [window, List.length_take]
    omega

def isPost (p : List Byte) : Prop := p.take 5 = str "POST "

theorem isPost_length {p : List Byte} (h : isPost p) : 5 ≤ p.length := by
  have := congrArg List.length (show p.take 5 = str "POST " from h)
  simp only [List.length_take, show (str "POST ").length = 5 from rfl] at this
  omega

theorem contentLengthAt_congr {b p : List Byte} (h : cstr b = cstr p) :
    contentLengthAt b = contentLengthAt p := by
  simp only [contentLengthAt, h]

theorem parsedContentLength_congr {b p : List Byte} (h : cstr b = cstr p) :
    parsedContentLength b = parsedContentLength p := by
  simp only [parsedContentLength, contentLengthAt_congr h, h]

theorem contentLengthAt_bound {p : List Byte} {cl : Nat} (h : contentLengthAt p = some cl) :
    cl + 15 ≤ (cstr p).length := by
  simp only [contentLengthAt] at h
  split at h
  · rename_i c hc
    rw [← Option.some.inj h]
    exact strstr_bound hc
  · exact strstr_bound h

theorem parse_congr {buffer p : List Byte} (htake : buffer.take p.length = p)
    (hterm : 0 < p.length → cstr buffer = cstr p) :
    httpServerParseRequest buffer p.length = httpServerParseRequest p p.length := by
  by_cases h5 : p.length < 5
  · have hpost : p.length < (str "POST ").length := h5
    simp only [httpServerParseRequest, if_pos hpost]
  · have hc : cstr buffer = cstr p := hterm (by omega)
    have hfive : buffer.take 5 = p.take 5 := by
      rw [← htake, List.take_take, Nat.min_eq_left (by omega)]
    simp only [httpServerParseRequest, parsedContentLength_congr hc, contentLengthAt_congr hc, hc,
      hfive]

theorem parse_not_post {p : List Byte} (h : ¬ isPost p) (size : Nat) :
    (httpServerParseRequest p size).ret = -1 := by
  by_cases h5 : size < (str "POST ").length
  · simp only [httpServerParseRequest, if_pos h5]
  · have hp : p.take 5 ≠ str "POST " := h
    simp only [httpServerParseRequest, if_neg h5, if_pos hp]

theorem parse_accepts {p : List Byte} {off : Nat} {sz : Int} :
    httpServerParseRequest p p.length = ⟨0, some off, sz⟩ ↔
      isPost p ∧
        ((contentLengthAt p = none ∧ headerEnd p = some off ∧ sz = p.length - off) ∨
          ∃ cl i, contentLengthAt p = some cl ∧ 0 < parsedContentLength p ∧
            strstr crlfcrlf ((cstr p).drop cl) = some i ∧ off = cl + i + 4 ∧
            sz = parsedContentLength p ∧ (off : Int) + sz ≤ p.length) := by
  by_cases hpost : isPost p
  · have h5 : ¬ p.length < (str "POST ").length := by
      have := isPost_length hpost
      simp only [show (str "POST ").length = 5 from rfl]
      omega
    have hp : ¬ p.take 5 ≠ str "POST " := not_not.mpr hpost
    simp only [httpServerParseRequest, if_neg h5, if_neg hp, hpost, true_and]
    cases hcl : contentLengthAt p with
    | none =>
      have hlen : parsedContentLength p = 0 := by simp [parsedContentLength, hcl]
      simp only [Option.isSome_none, Bool.false_eq_true, false_and, if_false, Option.getD_none,
        List.drop_zero, hlen, if_true, headerEnd]
      cases hs : strstr crlfcrlf (cstr p) with
      | none => simp
      | some i =>
        simp only [ParsedRequest.mk.injEq, true_and, Option.some.injEq, Option.map_some,
          Nat.zero_add, reduceCtorEq, false_and, exists_false, or_false]
        constructor
        · rintro ⟨rfl, rfl⟩
          exact ⟨rfl, rfl⟩
        · rintro ⟨rfl, rfl⟩
          exact ⟨rfl, rfl⟩
    | some cl =>
      simp only [Option.isSome_some, true_and, Option.getD_some, reduceCtorEq, false_and, false_or]
      by_cases hpos : parsedContentLength p ≤ 0
      · simp only [if_pos hpos, ParsedRequest.mk.injEq]
        constructor
        · intro h
          exact absurd h.1 (by decide)
        · rintro ⟨_, _, _, h, _⟩
          omega
      · have hne : parsedContentLength p ≠ 0 := by omega
        simp only [if_neg hpos]
        cases hs : strstr crlfcrlf ((cstr p).drop cl) with
        | none =>
          constructor
          · intro h
            simp at h
          · rintro ⟨c, i, hc, _, hi, _⟩
            cases hc
            rw [hs] at hi
            cases hi
        | some i =>
          simp only [if_neg hne]
          by_cases hfit : parsedContentLength p > (p.length : Int) - (cl + i + 4 : Nat)
          · simp only [if_pos hfit]
            constructor
            · intro h
              simp at h
            · rintro ⟨c, j, hc, _, hj, rfl, rfl, hle⟩
              cases hc
              rw [hs] at hj
              cases hj
              omega
          · simp only [if_neg hfit, ParsedRequest.mk.injEq, true_and, Option.some.injEq]
            constructor
            · rintro ⟨rfl, rfl⟩
              exact ⟨cl, i, rfl, by omega, hs, rfl, rfl, by omega⟩
            · rintro ⟨c, j, hc, _, hj, rfl, rfl, hle⟩
              cases hc
              rw [hs] at hj
              cases hj
              exact ⟨rfl, rfl⟩
  · constructor
    · intro h
      have hret := parse_not_post hpost p.length
      rw [h] at hret
      simp at hret
    · rintro ⟨h, _⟩
      exact absurd h hpost

theorem prefixOutcome_eq_some {p b : List Byte} :
    prefixOutcome p = some b ↔
      ∃ off sz, httpServerParseRequest p p.length = ⟨0, some off, sz⟩ ∧
        b = (p.drop off).take sz.toNat := by
  simp only [prefixOutcome, requestBody]
  generalize httpServerParseRequest p p.length = r
  obtain ⟨ret, body, bodySz⟩ := r
  by_cases h : ret = 0
  · cases body with
    | none => simp [h]
    | some off =>
      simp only [h, if_true, Option.map_some, Option.some.injEq, ParsedRequest.mk.injEq, true_and]
      constructor
      · rintro rfl
        exact ⟨off, bodySz, ⟨rfl, rfl⟩, rfl⟩
      · rintro ⟨_, _, ⟨rfl, rfl⟩, rfl⟩
        rfl
  · simp [h]

theorem parse_inside {p : List Byte} {off : Nat} {sz : Int}
    (h : httpServerParseRequest p p.length = ⟨0, some off, sz⟩) :
    0 ≤ sz ∧ (off : Int) + sz ≤ p.length := by
  rcases (parse_accepts.mp h).2 with ⟨_, hend, rfl⟩ | ⟨cl, i, _, hpos, _, _, rfl, hle⟩
  · have := (headerEnd_le hend).2
    have := cstr_length_le p
    omega
  · omega

theorem requestBody_congr {buffer p : List Byte} (htake : buffer.take p.length = p)
    (hterm : 0 < p.length → cstr buffer = cstr p) :
    requestBody buffer (httpServerParseRequest buffer p.length) = prefixOutcome p := by
  rw [parse_congr htake hterm, prefixOutcome]
  simp only [requestBody]
  split_ifs with hret
  · cases hbody : (httpServerParseRequest p p.length).body with
    | none => rfl
    | some off =>
      have hp : httpServerParseRequest p p.length
          = ⟨0, some off, (httpServerParseRequest p p.length).bodySz⟩ := by
        rw [← hret, ← hbody]
      obtain ⟨h0, hle⟩ := parse_inside hp
      have hcut : off + (httpServerParseRequest p p.length).bodySz.toNat ≤ p.length := by omega
      generalize (httpServerParseRequest p p.length).bodySz.toNat = k at hcut
      have hbuf : (buffer.drop off).take k = ((buffer.take p.length).drop off).take k := by
        rw [List.drop_take, List.take_take, Nat.min_eq_left (by omega)]
      simp only [Option.map_some, hbuf, htake]
  · rfl

structure Stops (w : List Byte) (bufferSz t : Nat) : Prop where
  inside : t ≤ w.length
  complete : t = w.length ∨ ∃ hs t', headerEnd (w.take t') = some hs ∧ t' ≤ t ∧
    expectedLen bufferSz hs (w.take t') 0 ≤ (t : Int) - hs

theorem RecvInv.window_take {stream : List Byte} {bufferSz : Nat} {clientfd : SocketT}
    {st : RecvState} (inv : RecvInv stream bufferSz clientfd st) {k : Nat} (hk : k ≤ st.totalLen) :
    (window stream bufferSz).take k = stream.take k := by
  rw [window, List.take_take, Nat.min_eq_left (hk.trans inv.fits)]

theorem RecvInv.outcome {stream : List Byte} {bufferSz : Nat} {clientfd : SocketT}
    {st : RecvState} (inv : RecvInv stream bufferSz clientfd st) :
    requestBody st.buffer (httpServerParseRequest st.buffer st.totalLen)
      = prefixOutcome ((window stream bufferSz).take st.totalLen) := by
  have hlen : (stream.take st.totalLen).length = st.totalLen := by
    rw [List.length_take, Nat.min_eq_left inv.arrived]
  have hbody := requestBody_congr (by rw [hlen, inv.content]) (fun h => inv.terminated (hlen ▸ h))
  rwa [hlen, ← inv.window_take le_rfl] at hbody

theorem parse_received {stream : List Byte} {bufferSz : Nat} {clientfd : SocketT} {st : RecvState}
    (inv : RecvInv stream bufferSz clientfd st) :
    httpServerParseRequest st.buffer st.totalLen =
      httpServerParseRequest (stream.take st.totalLen) (stream.take st.totalLen).length := by
  have hlen : (stream.take st.totalLen).length = st.totalLen := by
    rw [List.length_take, Nat.min_eq_left inv.arrived]
  have h := parse_congr (by rw [hlen, inv.content]) fun h => inv.terminated (hlen ▸ h)
  rwa [hlen] at h ⊢

theorem RecvInv.window_length {stream : List Byte} {bufferSz : Nat} {clientfd : SocketT}
    {st : RecvState} (inv : RecvInv stream bufferSz clientfd st) :
    st.totalLen ≤ (window stream bufferSz).length := by
  have := inv.fits
  have := inv.arrived
  simp only [window, List.length_take]
  omega

theorem serve_eq (clientfd : SocketT) {buffer : List Byte} {bufferSz : Nat}
    (hsz : buffer.length = bufferSz) :
    ∃ t, Stops (window (Socket.bytes clientfd) bufferSz) bufferSz t ∧
      serve clientfd buffer bufferSz
        = prefixOutcome ((window (Socket.bytes clientfd) bufferSz).take t) := by
  obtain ⟨⟨fd, inv⟩, hstop⟩ := recvLoop_stops clientfd _ (recvInv_initial clientfd hsz)
  refine ⟨_, ⟨inv.window_length, ?_⟩, inv.outcome⟩
  rcases hstop with hall | ⟨hpos, hle⟩
  · exact Or.inl hall
  · rcases inv.header with ⟨h0, _, _⟩ | ⟨t, ht, hend, hexp⟩
    · omega
    · rw [← inv.window_take ht] at hend hexp
      exact Or.inr ⟨_, t, hend, ht, hexp ▸ hle⟩

theorem recvHeader_found {bufferSz hs : Nat} {st : RecvState} {p : List Byte}
    (h0 : st.headerSz = 0) (hc : cstr st.buffer = cstr p) (hend : headerEnd p = some hs) :
    (recvHeader bufferSz st).headerSz = hs ∧
      (recvHeader bufferSz st).contentLen = expectedLen bufferSz hs p st.contentLen := by
  simp only [headerEnd, Option.map_eq_some_iff] at hend
  obtain ⟨i, hi, rfl⟩ := hend
  simp only [recvHeader, h0, if_true, hc, hi]
  exact ⟨trivial, expectedLen_congr hc _ _ _⟩

theorem recvLoop_exhausted {stream : List Byte} {bufferSz : Nat} {clientfd : SocketT}
    {st : RecvState} (inv : RecvInv stream bufferSz clientfd st)
    (hall : st.totalLen = (window stream bufferSz).length) :
    (httpServerRecvLoop bufferSz clientfd st).1 = st := by
  rw [httpServerRecvLoop]
  by_cases hlt : st.totalLen < bufferSz - 1
  · have hnil : Socket.bytes clientfd = [] := by
      rw [inv.pending, List.drop_eq_nil_iff]
      simp only [window, List.length_take] at hall
      omega
    rcases recv_cases clientfd (Nat.sub_pos_of_lt hlt) with ⟨hn, _⟩ | ⟨_, hne, _, hbytes⟩
    · simp only [dif_pos hlt, dif_pos hn]
    · rw [hnil] at hbytes
      exact absurd (List.append_eq_nil_iff.mp hbytes.symm).1 hne
  · simp only [dif_neg hlt]

theorem recv_twoSegments {stream : List Byte} {t len : Nat} (ht : t ≤ len)
    (hs : t ≤ stream.length) :
    recv (Socket.twoSegments stream t) len
      = ⟨t, false, stream.take t, [.segment (stream.drop t)]⟩ := by
  have hl : (stream.take t).length = t := by rw [List.length_take, Nat.min_eq_left hs]
  simp only [Socket.twoSegments, recv, Socket.recv, List.take_of_length_le (hl.le.trans ht), hl,
    if_neg (Nat.not_lt.mpr ht)]

theorem serve_twoSegments {stream buffer : List Byte} {bufferSz t : Nat}
    (hsz : buffer.length = bufferSz) (hpos : 0 < t)
    (hle : t ≤ (window stream bufferSz).length)
    (hstop : t = (window stream bufferSz).length ∨
      ∃ hs, headerEnd ((window stream bufferSz).take t) = some hs ∧
        expectedLen bufferSz hs ((window stream bufferSz).take t) 0 ≤ (t : Int) - hs) :
    serve (Socket.twoSegments stream t) buffer bufferSz
      = prefixOutcome ((window stream bufferSz).take t) := by
  have hcut : t ≤ bufferSz - 1 ∧ t ≤ stream.length := by
    simp only [window, List.length_take] at hle
    omega
  have hl : (stream.take t).length = t := by rw [List.length_take, Nat.min_eq_left hcut.2]
  have hne : stream.take t ≠ [] := List.ne_nil_of_length_pos (by omega)
  have hrecv := recv_twoSegments hcut.1 hcut.2
  have hbytes : Socket.bytes (Socket.twoSegments stream t) = stream :=
    Socket.bytes_twoSegments hpos
  have inv0 := recvInv_initial (Socket.twoSegments stream t) hsz
  rw [hbytes] at inv0
  set st0 : RecvState := { totalLen := 0, contentLen := 0, headerSz := 0, buffer := buffer }
  set r : Socket.Received Byte := ⟨t, false, stream.take t, [.segment (stream.drop t)]⟩
  have hrest : Socket.bytes (Socket.twoSegments stream t) = r.data ++ Socket.bytes r.rest := by
    rcases recv_cases (Socket.twoSegments stream t) (hpos.trans_le hcut.1) with
      ⟨hn, _⟩ | ⟨_, _, _, hdata⟩
    · rw [hrecv] at hn
      simp only [r] at hn
      omega
    · rwa [hrecv] at hdata
  have inv1 : RecvInv stream bufferSz r.rest (recvHeader bufferSz (receive st0 r)) :=
    recvInv_receive inv0 (by simp only [r, hl]) hne (by simp only [r, hl]; exact hcut.1) hrest
  have htot : (recvHeader bufferSz (receive st0 r)).totalLen = t := by
    simp [receive, st0, r]
  have hloop : (httpServerRecvLoop bufferSz (Socket.twoSegments stream t) st0).1
      = recvHeader bufferSz (receive st0 r) := by
    have hlt : st0.totalLen < bufferSz - 1 := hpos.trans_le hcut.1
    have hn : ¬ r.n ≤ 0 := by
      simp only [r]
      omega
    have hr : recv (Socket.twoSegments stream t) (bufferSz - 1 - st0.totalLen) = r := hrecv
    rw [httpServerRecvLoop]
    simp only [dif_pos hlt, hr, dif_neg hn]
    split_ifs with hcond
    · rfl
    · refine recvLoop_exhausted inv1 ?_
      rcases hstop with hall | ⟨hs, hend, hexp⟩
      · rw [htot, hall]
      · have hw : (window stream bufferSz).take t = stream.take t := by
          rw [← htot, inv1.window_take le_rfl]
        have hterm : cstr (receive st0 r).buffer = cstr (stream.take t) := by
          have := inv1.terminated (by rw [htot]; exact hpos)
          rwa [recvHeader_buffer, htot] at this
        rw [hw] at hend hexp
        obtain ⟨hhs, hcl⟩ := recvHeader_found rfl hterm hend
        have h4 := (headerEnd_le hend).1
        refine absurd ⟨by rw [hhs]; omega, ?_⟩ hcond
        rw [hhs, hcl, htot]
        exact hexp
  calc serve (Socket.twoSegments stream t) buffer bufferSz
      = requestBody (httpServerRecvLoop bufferSz (Socket.twoSegments stream t) st0).1.buffer
          (httpServerParseRequest
            (httpServerRecvLoop bufferSz (Socket.twoSegments stream t) st0).1.buffer
            (httpServerRecvLoop bufferSz (Socket.twoSegments stream t) st0).1.totalLen) := rfl
    _ = prefixOutcome ((window stream bufferSz).take t) := by rw [hloop, inv1.outcome, htot]

theorem crlfcrlf_at {w : List Byte} {hs : Nat} (h : headerEnd w = some hs) :
    strstr crlfcrlf (cstr w) = some (hs - 4) ∧ crlfcrlf <+: (cstr w).drop (hs - 4) := by
  simp only [headerEnd, Option.map_eq_some_iff] at h
  obtain ⟨i, hi, rfl⟩ := h
  exact ⟨hi, (strstr_eq_some.mp hi).2.1⟩

theorem contentLengthAt_occurs {w : List Byte} {cl : Nat} (h : contentLengthAt w = some cl) :
    str "Content-Length:" <+: (cstr w).drop cl ∨ str "content-length:" <+: (cstr w).drop cl := by
  simp only [contentLengthAt] at h
  split at h
  · rename_i c hc
    rw [← Option.some.inj h]
    exact Or.inl (strstr_eq_some.mp hc).2.1
  · exact Or.inr (strstr_eq_some.mp h).2.1

theorem contentLength_clear_of_header {w : List Byte} {cl hs : Nat}
    (hcl : contentLengthAt w = some cl) (hend : headerEnd w = some hs) :
    cl + 15 ≤ hs - 4 ∨ hs ≤ cl := by
  have hcrlf := (crlfcrlf_at hend).2
  have h4 := (headerEnd_le hend).1
  have key (name : List Byte) (hlen : name.length = 15) (hdisj : ∀ x ∈ name, x ∉ crlfcrlf)
      (hocc : name <+: (cstr w).drop cl) : cl + 15 ≤ hs - 4 ∨ hs ≤ cl := by
    have hsep := occurrences_disjoint hocc hcrlf hdisj (by omega) (by decide)
    rw [hlen, show crlfcrlf.length = 4 from rfl] at hsep
    omega
  rcases contentLengthAt_occurs hcl with hocc | hocc
  · exact key _ rfl (by decide +kernel) hocc
  · exact key _ rfl (by decide +kernel) hocc

theorem contentLengthAt_take {w : List Byte} {cl t : Nat} (h : contentLengthAt w = some cl)
    (ht : cl + 15 ≤ t) : contentLengthAt (w.take t) = some cl := by
  simp only [contentLengthAt, cstr_take] at h ⊢
  cases hc : strstr (str "Content-Length:") (cstr w) with
  | some c =>
    rw [hc] at h
    simp only [Option.some.injEq] at h
    rw [strstr_take hc (by rw [h]; exact ht), h]
  | none =>
    rw [hc] at h
    rw [strstr_take_none hc]
    exact strstr_take h ht

theorem contentLengthAt_take_none {w : List Byte} (h : contentLengthAt w = none) (t : Nat) :
    contentLengthAt (w.take t) = none := by
  simp only [contentLengthAt, cstr_take] at h ⊢
  cases hc : strstr (str "Content-Length:") (cstr w) with
  | some c =>
    rw [hc] at h
    cases h
  | none =>
    rw [hc] at h
    rw [strstr_take_none hc]
    exact strstr_take_none h

theorem isPost_of_take {w : List Byte} {t : Nat} (h : isPost (w.take t)) : isPost w := by
  have h5 := isPost_length h
  simp only [List.length_take] at h5
  rw [isPost, List.take_take, Nat.min_eq_left (by omega)] at h
  exact h

theorem isPost_take {w : List Byte} {t : Nat} (h : isPost w) (ht : 5 ≤ t) : isPost (w.take t) := by
  rw [isPost, List.take_take, Nat.min_eq_left ht]
  exact h

theorem isPost_before_header {w : List Byte} {hs : Nat} (h : isPost w)
    (hend : headerEnd w = some hs) : 9 ≤ hs := by
  have hcw : (cstr w).take 5 = str "POST " := by
    rw [← cstr_take, show w.take 5 = str "POST " from h]
    decide
  have hocc : str "POST " <+: (cstr w).drop 0 := by
    rw [← hcw]
    exact List.take_prefix 5 (cstr w)
  have hsep := occurrences_disjoint hocc (crlfcrlf_at hend).2 (by decide +kernel) (by decide) (by decide +kernel)
  rw [show (str "POST ").length = 5 from rfl, show crlfcrlf.length = 4 from rfl] at hsep
  have := (headerEnd_le hend).1
  omega

def headerValue (w : List Byte) (hs cl : Nat) : List Byte := ((cstr w).take hs).drop (cl + 15)

theorem headerValue_split {w : List Byte} {hs cl : Nat} (hend : headerEnd w = some hs)
    (hclear : cl + 15 ≤ hs - 4) :
    headerValue w hs cl = ((cstr w).take (hs - 4)).drop (cl + 15) ++ [13, 10, 13] ++ [10] := by
  obtain ⟨rest, hrest⟩ := (crlfcrlf_at hend).2
  have hle := headerEnd_le hend
  have htake : (cstr w).take hs = (cstr w).take (hs - 4) ++ crlfcrlf := by
    conv_lhs => rw [← Nat.sub_add_cancel hle.1, List.take_add, ← hrest]
    rfl
  have hl : cl + 15 ≤ ((cstr w).take (hs - 4)).length := by
    rw [List.length_take]
    omega
  rw [headerValue, htake, List.drop_append_of_le_length hl]
  simp [crlfcrlf]

theorem parsedContentLength_take {w : List Byte} {hs cl t : Nat}
    (hend : headerEnd w = some hs) (hcl : contentLengthAt w = some cl) (hin : cl < hs)
    (hval : ∃ b ∈ headerValue w hs cl, isSpace b = false) (ht : hs ≤ t) :
    parsedContentLength (w.take t) = atoi (headerValue w hs cl) := by
  have hclear : cl + 15 ≤ hs - 4 := by
    have := contentLength_clear_of_header hcl hend
    omega
  have hle := headerEnd_le hend
  have hcut : ((cstr w).take t).drop (cl + 15)
      = headerValue w hs cl ++ ((cstr w).take t).drop hs := by
    have hl : cl + 15 ≤ (((cstr w).take t).take hs).length := by
      simp only [List.length_take]
      omega
    conv_lhs => rw [← List.take_append_drop hs ((cstr w).take t)]
    rw [List.drop_append_of_le_length hl, List.take_take, Nat.min_eq_left ht, headerValue]
  have hspace : ∃ b ∈ ((cstr w).take (hs - 4)).drop (cl + 15) ++ [13, 10, 13],
      isSpace b = false := by
    obtain ⟨b, hb, hbs⟩ := hval
    rw [headerValue_split hend hclear] at hb
    rcases List.mem_append.mp hb with hb | hb
    · exact ⟨b, hb, hbs⟩
    · rw [List.mem_singleton.mp hb] at hbs
      exact absurd hbs (by decide)
  simp only [parsedContentLength, contentLengthAt_take hcl (by omega : cl + 15 ≤ t), cstr_take,
    hcut]
  rw [headerValue_split hend hclear]
  exact atoi_append (by decide) hspace

theorem headerValue_blank {w : List Byte} {hs cl : Nat} (hend : headerEnd w = some hs)
    (hcl : contentLengthAt w = some cl) (hin : cl < hs)
    (hval : ¬ ∃ b ∈ headerValue w hs cl, isSpace b = false) :
    parsedContentLength (w.take hs) = 0 := by
  have hclear := contentLength_clear_of_header hcl hend
  simp only [parsedContentLength, contentLengthAt_take hcl (by omega : cl + 15 ≤ hs), cstr_take]
  apply atoi_blank
  intro b hb
  by_contra hns
  exact hval ⟨b, hb, by simpa using hns⟩

def Incomplete (p : List Byte) : Prop :=
  ¬ isPost p ∨ ∃ cl, contentLengthAt p = some cl ∧
    ∀ i, strstr crlfcrlf ((cstr p).drop cl) = some i →
      atoi ((cstr p).drop (cl + 15)) ≤ 0 ∨
        (p.length : Int) < (cl + i + 4 : Nat) + atoi ((cstr p).drop (cl + 15))

theorem prefixOutcome_eq_none {p : List Byte} {hs : Nat} (hend : headerEnd p = some hs) :
    prefixOutcome p = none ↔ Incomplete p := by
  have hvalue (cl : Nat) (hcl : contentLengthAt p = some cl) :
      parsedContentLength p = atoi ((cstr p).drop (cl + 15)) := by
    simp only [parsedContentLength, hcl]
  rw [← not_iff_not, ← ne_eq, Option.ne_none_iff_exists']
  constructor
  · rintro ⟨b, hb⟩ hinc
    obtain ⟨off, sz, hparse, _⟩ := prefixOutcome_eq_some.mp hb
    obtain ⟨hpost, hacc⟩ := parse_accepts.mp hparse
    rcases hinc with hnot | ⟨cl, hcl, hall⟩
    · exact hnot hpost
    · rcases hacc with ⟨hnone, _, _⟩ | ⟨c, i, hc, hpos, hi, rfl, rfl, hle⟩
      · rw [hcl] at hnone
        cases hnone
      · rw [hcl] at hc
        cases hc
        rw [hvalue cl hcl] at hpos hle
        rcases hall i hi with hneg | hshort
        · omega
        · omega
  · intro hinc
    simp only [Incomplete, not_or, not_not, not_exists, not_and, not_forall] at hinc
    obtain ⟨hpost, hall⟩ := hinc
    cases hcl : contentLengthAt p with
    | none =>
      exact ⟨_, prefixOutcome_eq_some.mpr ⟨hs, _, parse_accepts.mpr
        ⟨hpost, Or.inl ⟨hcl, hend, rfl⟩⟩, rfl⟩⟩
    | some cl =>
      obtain ⟨i, hi, hpos, hle⟩ := hall cl hcl
      rw [← hvalue cl hcl] at hpos hle
      exact ⟨_, prefixOutcome_eq_some.mpr ⟨cl + i + 4, _, parse_accepts.mpr
        ⟨hpost, Or.inr ⟨cl, i, hcl, by omega, hi, rfl, rfl, by omega⟩⟩, rfl⟩⟩

def FramedByHeader (stream : List Byte) (bufferSz : Nat) : Prop :=
  ∀ hs, headerEnd (window stream bufferSz) = some hs →
    hs = (window stream bufferSz).length ∨
    (∃ cl, contentLengthAt (window stream bufferSz) = some cl ∧ cl < hs ∧
      ∃ b ∈ headerValue (window stream bufferSz) hs cl, isSpace b = false) ∨
    ∀ t, hs ≤ t → Incomplete ((window stream bufferSz).take t)

theorem prefixOutcome_framed {w b : List Byte} {hs cl t : Nat}
    (hend : headerEnd w = some hs) (hcl : contentLengthAt w = some cl) (hin : cl < hs)
    (hval : ∃ b ∈ headerValue w hs cl, isSpace b = false) (ht : hs ≤ t) (htw : t ≤ w.length) :
    prefixOutcome (w.take t) = some b ↔
      isPost w ∧ 0 < atoi (headerValue w hs cl) ∧ (hs : Int) + atoi (headerValue w hs cl) ≤ t ∧
        b = (w.drop hs).take (atoi (headerValue w hs cl)).toNat := by
  have hclear : cl + 15 ≤ hs - 4 := by
    have := contentLength_clear_of_header hcl hend
    omega
  have hlen : (w.take t).length = t := by rw [List.length_take, Nat.min_eq_left htw]
  have hv := parsedContentLength_take hend hcl hin hval ht
  have hend' := headerEnd_take hend ht
  have hfind : strstr crlfcrlf ((cstr (w.take t)).drop cl) = some (hs - 4 - cl) :=
    strstr_drop (crlfcrlf_at hend').1 (by omega)
  have h4 := (headerEnd_le hend).1
  generalize atoi (headerValue w hs cl) = v at hv
  have hbody (hfit : (hs : Int) + v ≤ t) (h0 : 0 < v) :
      ((w.take t).drop hs).take v.toNat = (w.drop hs).take v.toNat := by
    rw [List.drop_take, List.take_take, Nat.min_eq_left (by omega)]
  constructor
  · intro h
    obtain ⟨off, sz, hparse, rfl⟩ := prefixOutcome_eq_some.mp h
    obtain ⟨hpost, ⟨hnone, _, _⟩ | ⟨c, i, hc, hpos, hi, rfl, rfl, hle⟩⟩ := parse_accepts.mp hparse
    · rw [contentLengthAt_take hcl (by omega)] at hnone
      cases hnone
    · rw [contentLengthAt_take hcl (by omega)] at hc
      cases hc
      rw [hfind] at hi
      cases hi
      rw [hv] at hpos hle ⊢
      rw [hlen] at hle
      have hoff : cl + (hs - 4 - cl) + 4 = hs := by omega
      rw [hoff] at hle ⊢
      exact ⟨isPost_of_take hpost, hpos, hle, hbody hle hpos⟩
  · rintro ⟨hpost, hpos, hle, rfl⟩
    have h9 := isPost_before_header hpost hend
    refine prefixOutcome_eq_some.mpr ⟨hs, v, parse_accepts.mpr ⟨isPost_take hpost (by omega),
      Or.inr ⟨cl, hs - 4 - cl, contentLengthAt_take hcl (by omega), by rw [hv]; exact hpos, hfind,
        by omega, hv.symm, by rw [hlen]; exact hle⟩⟩, (hbody hle hpos).symm⟩

theorem expectedLen_take {w : List Byte} {hs cl t bufferSz : Nat} (hend : headerEnd w = some hs)
    (hcl : contentLengthAt w = some cl) (hin : cl < hs)
    (hval : ∃ b ∈ headerValue w hs cl, isSpace b = false) (ht : hs ≤ t) :
    expectedLen bufferSz hs (w.take t) 0 =
      min (max (atoi (headerValue w hs cl)) 0) ((bufferSz : Int) - 1 - hs) := by
  have hclear := contentLength_clear_of_header hcl hend
  have hcut : contentLengthAt (w.take t) = some cl := contentLengthAt_take hcl (by omega)
  have hv := parsedContentLength_take hend hcl hin hval ht
  simp only [parsedContentLength, hcut] at hv
  simp only [expectedLen, hcut, hv]
  generalize atoi (headerValue w hs cl) = v
  split_ifs <;> omega

theorem outcome_framed_stable {w : List Byte} {hs cl t : Nat} (hend : headerEnd w = some hs)
    (hcl : contentLengthAt w = some cl) (hin : cl < hs)
    (hval : ∃ b ∈ headerValue w hs cl, isSpace b = false) (ht : hs ≤ t) (htw : t ≤ w.length)
    (hcover : atoi (headerValue w hs cl) ≤ 0 ∨ (hs : Int) + atoi (headerValue w hs cl) ≤ t) :
    prefixOutcome (w.take t) = prefixOutcome w := by
  have hwhole : w.take w.length = w := List.take_length
  apply Option.ext
  intro b
  rw [prefixOutcome_framed hend hcl hin hval ht htw]
  conv_rhs => rw [← hwhole, prefixOutcome_framed hend hcl hin hval (ht.trans htw) le_rfl]
  constructor
  · rintro ⟨hpost, hpos, hle, hb⟩
    exact ⟨hpost, hpos, by omega, hb⟩
  · rintro ⟨hpost, hpos, hle, hb⟩
    exact ⟨hpost, hpos, by omega, hb⟩

theorem stops_outcome {stream : List Byte} {bufferSz t : Nat}
    (hframed : FramedByHeader stream bufferSz)
    (hstop : Stops (window stream bufferSz) bufferSz t) :
    prefixOutcome ((window stream bufferSz).take t) = prefixOutcome (window stream bufferSz) := by
  have hwhole : (window stream bufferSz).take (window stream bufferSz).length
      = window stream bufferSz := List.take_length
  have hcap : (window stream bufferSz).length ≤ bufferSz - 1 := List.length_take_le _ _
  have hinside := hstop.inside
  rcases hstop.complete with rfl | ⟨hs, t', hend', ht', hexp⟩
  · rw [hwhole]
  · have hend := headerEnd_of_take hend'
    have hhs : hs ≤ t' := by
      have := (headerEnd_le hend').2
      have := cstr_length_le ((window stream bufferSz).take t')
      simp only [List.length_take] at this
      omega
    rcases hframed hs hend with hall | ⟨cl, hcl, hin, hval⟩ | hreject
    · have : t = (window stream bufferSz).length := by omega
      rw [this, hwhole]
    · rw [expectedLen_take hend hcl hin hval hhs] at hexp
      by_cases hfull : t = (window stream bufferSz).length
      · rw [hfull, hwhole]
      · exact outcome_framed_stable hend hcl hin hval (hhs.trans ht') hinside (by omega)
    · have hnone (u : Nat) (hu : hs ≤ u) :
          prefixOutcome ((window stream bufferSz).take u) = none :=
        (prefixOutcome_eq_none (headerEnd_take hend hu)).mpr (hreject u hu)
      have hw := hnone _ (hhs.trans (ht'.trans hinside))
      rw [hwhole] at hw
      rw [hnone t (hhs.trans ht'), hw]

theorem expectedLen_le (p : List Byte) (bufferSz hs : Nat) :
    expectedLen bufferSz hs p 0 ≤ max 0 (parsedContentLength p) := by
  simp only [expectedLen, parsedContentLength]
  cases contentLengthAt p with
  | none => exact le_max_left 0 0
  | some cl =>
    simp only
    split_ifs <;> omega

theorem accepted_complete {w b : List Byte} {bufferSz hs t : Nat} (hend : headerEnd w = some hs)
    (ht : hs ≤ t) (htw : t ≤ w.length) (hacc : prefixOutcome (w.take t) = some b) :
    expectedLen bufferSz hs (w.take t) 0 ≤ (t : Int) - hs := by
  have hlen : (w.take t).length = t := by rw [List.length_take, Nat.min_eq_left htw]
  have hle := expectedLen_le (w.take t) bufferSz hs
  obtain ⟨off, sz, hparse, _⟩ := prefixOutcome_eq_some.mp hacc
  rcases (parse_accepts.mp hparse).2 with ⟨hnone, _, _⟩ | ⟨cl, i, _, hpos, hi, rfl, rfl, hfit⟩
  · simp only [parsedContentLength, hnone] at hle
    omega
  · have hfirst := (strstr_eq_some.mp (crlfcrlf_at (headerEnd_take hend ht)).1).2.2
    have hocc : crlfcrlf <+: (cstr (w.take t)).drop (cl + i) := by
      rw [← List.drop_drop]
      exact (strstr_eq_some.mp hi).2.1
    have hlate : ¬ cl + i < hs - 4 := fun hlt => hfirst _ hlt hocc
    rw [hlen] at hfit
    omega

theorem outcome_at_header {w : List Byte} {hs : Nat} (hpost : isPost w)
    (hend : headerEnd w = some hs) (hnone : contentLengthAt w = none) {t : Nat} (ht : hs ≤ t) :
    prefixOutcome (w.take t) = some ((w.take t).drop hs) := by
  have h9 := isPost_before_header hpost hend
  refine prefixOutcome_eq_some.mpr ⟨hs, (w.take t).length - hs, parse_accepts.mpr
    ⟨isPost_take hpost (by omega), Or.inl ⟨contentLengthAt_take_none hnone t,
      headerEnd_take hend ht, rfl⟩⟩, ?_⟩
  refine (List.take_of_length_le ?_).symm
  rw [List.length_drop]
  omega

theorem reject_without_value {w : List Byte} {cl t : Nat}
    (hcl : contentLengthAt (w.take t) = some cl) (hval : parsedContentLength (w.take t) = 0) :
    prefixOutcome (w.take t) = none := by
  cases hout : prefixOutcome (w.take t) with
  | none => rfl
  | some b =>
    obtain ⟨off, sz, hparse, _⟩ := prefixOutcome_eq_some.mp hout
    rcases (parse_accepts.mp hparse).2 with ⟨hnone, _, _⟩ | ⟨c, i, _, hpos, _⟩
    · rw [hcl] at hnone
      cases hnone
    · omega

theorem name_without_value {w : List Byte} {cl : Nat} (hcl : contentLengthAt w = some cl) :
    parsedContentLength (w.take (cl + 15)) = 0 := by
  simp only [parsedContentLength, contentLengthAt_take hcl le_rfl, cstr_take]
  apply atoi_blank
  intro b hb
  rw [List.drop_eq_nil_of_le (List.length_take_le _ _)] at hb
  cases hb

structure StopsAt (w : List Byte) (bufferSz hs t : Nat) : Prop where
  header : hs ≤ t
  inside : t ≤ w.length
  complete : expectedLen bufferSz hs (w.take t) 0 ≤ (t : Int) - hs

theorem stopsAt_of_no_value {w : List Byte} {bufferSz hs t : Nat} (ht : hs ≤ t)
    (htw : t ≤ w.length) (hval : parsedContentLength (w.take t) = 0) :
    StopsAt w bufferSz hs t := by
  refine ⟨ht, htw, ?_⟩
  have hle := expectedLen_le (w.take t) bufferSz hs
  omega

theorem framed_of_agree {w : List Byte} {bufferSz hs : Nat} (hend : headerEnd w = some hs)
    (hagree : ∀ t u, StopsAt w bufferSz hs t → StopsAt w bufferSz hs u →
      prefixOutcome (w.take t) = prefixOutcome (w.take u)) :
    hs = w.length ∨
      (∃ cl, contentLengthAt w = some cl ∧ cl < hs ∧
        ∃ b ∈ headerValue w hs cl, isSpace b = false) ∨
      ∀ t, hs ≤ t → Incomplete (w.take t) := by
  have hbound : hs ≤ w.length := (headerEnd_le hend).2.trans (cstr_length_le w)
  by_cases hreject : ∀ t, hs ≤ t → t ≤ w.length → prefixOutcome (w.take t) = none
  · refine Or.inr (Or.inr fun t ht => (prefixOutcome_eq_none (headerEnd_take hend ht)).mp ?_)
    rcases Nat.le_total t w.length with htw | htw
    · exact hreject t ht htw
    · have hw := hreject w.length hbound le_rfl
      rwa [List.take_length, ← List.take_of_length_le htw] at hw
  · simp only [not_forall] at hreject
    obtain ⟨t, ht, htw, hacc⟩ := hreject
    obtain ⟨b, hb⟩ := Option.ne_none_iff_exists'.mp hacc
    have hstop : StopsAt w bufferSz hs t := ⟨ht, htw, accepted_complete hend ht htw hb⟩
    have hvalued (cl u : Nat) (hu : hs ≤ u) (huw : u ≤ w.length)
        (hcl : contentLengthAt (w.take u) = some cl) :
        parsedContentLength (w.take u) ≠ 0 := by
      intro hval
      have hsame := hagree t u hstop (stopsAt_of_no_value hu huw hval)
      rw [hb, reject_without_value hcl hval] at hsame
      cases hsame
    cases hcl : contentLengthAt w with
    | none =>
      left
      have hpost : isPost w := by
        obtain ⟨_, _, hparse, _⟩ := prefixOutcome_eq_some.mp hb
        exact isPost_of_take (parse_accepts.mp hparse).1
      have hnoval (u : Nat) : parsedContentLength (w.take u) = 0 := by
        simp only [parsedContentLength, contentLengthAt_take_none hcl]
      have hsame := hagree hs w.length (stopsAt_of_no_value le_rfl hbound (hnoval hs))
        (stopsAt_of_no_value hbound le_rfl (hnoval w.length))
      rw [outcome_at_header hpost hend hcl le_rfl, outcome_at_header hpost hend hcl hbound,
        List.take_length, List.drop_eq_nil_of_le (List.length_take_le _ _)] at hsame
      have hnil := congrArg List.length (Option.some.inj hsame)
      simp only [List.length_nil, List.length_drop] at hnil
      omega
    | some cl =>
      have hclear := contentLength_clear_of_header hcl hend
      have hname : cl + 15 ≤ w.length := (contentLengthAt_bound hcl).trans (cstr_length_le w)
      rcases Nat.lt_or_ge cl hs with hin | hout
      · by_cases hval : ∃ b ∈ headerValue w hs cl, isSpace b = false
        · exact Or.inr (Or.inl ⟨cl, rfl, hin, hval⟩)
        · have hcut := contentLengthAt_take hcl (by omega : cl + 15 ≤ hs)
          exact absurd (headerValue_blank hend hcl hin hval) (hvalued cl hs le_rfl hbound hcut)
      · have hcut := contentLengthAt_take hcl (le_refl (cl + 15))
        exact absurd (name_without_value hcl)
          (hvalued cl (cl + 15) (by omega) hname hcut)

theorem serve_stopsAt {stream buffer : List Byte} {hs t : Nat}
    (hend : headerEnd (window stream buffer.length) = some hs)
    (hstop : StopsAt (window stream buffer.length) buffer.length hs t) :
    serve (Socket.twoSegments stream t) buffer buffer.length
      = prefixOutcome ((window stream buffer.length).take t) := by
  have h4 := (headerEnd_le hend).1
  have ht := hstop.header
  exact serve_twoSegments rfl (by omega) hstop.inside
    (Or.inr ⟨hs, headerEnd_take hend ht, hstop.complete⟩)

theorem serve_segmentation_iff (stream buffer : List Byte) :
    (∀ fd1 fd2, Socket.bytes fd1 = stream → Socket.bytes fd2 = stream →
      serve fd1 buffer buffer.length = serve fd2 buffer buffer.length) ↔
      FramedByHeader stream buffer.length := by
  constructor
  · intro hsame hs hend
    have hagree (t u : Nat)
        (ht : StopsAt (window stream buffer.length) buffer.length hs t)
        (hu : StopsAt (window stream buffer.length) buffer.length hs u) :
        prefixOutcome ((window stream buffer.length).take t)
          = prefixOutcome ((window stream buffer.length).take u) := by
      have h4 := (headerEnd_le hend).1
      have ht0 := ht.header
      have hu0 := hu.header
      rw [← serve_stopsAt hend ht, ← serve_stopsAt hend hu]
      exact hsame _ _ (Socket.bytes_twoSegments (by omega)) (Socket.bytes_twoSegments (by omega))
    exact framed_of_agree hend hagree
  · intro hframed fd1 fd2 hfd1 hfd2
    obtain ⟨t, hstop, hserve⟩ := serve_eq fd1 (rfl : buffer.length = buffer.length)
    obtain ⟨u, hstop', hserve'⟩ := serve_eq fd2 (rfl : buffer.length = buffer.length)
    rw [hfd1] at hstop hserve
    rw [hfd2] at hstop' hserve'
    rw [hserve, hserve', stops_outcome hframed hstop, stops_outcome hframed hstop']

def cutRequest : List Byte := str "POST / HTTP/1.0" ++ crlfcrlf ++ str "AB"

theorem cutRequest_body_lost :
    ¬ ∀ (stream buffer : List Byte) (fd1 fd2 : SocketT), Socket.bytes fd1 = stream →
      Socket.bytes fd2 = stream →
      serve fd1 buffer buffer.length = serve fd2 buffer buffer.length := by
  intro h
  have hend : headerEnd (window cutRequest (List.replicate 32 (0 : Byte)).length) = some 19 := by
    decide
  have hwhole : serve (Socket.twoSegments cutRequest 21) _ _ = _ :=
    serve_stopsAt hend ⟨by decide, by decide, by decide⟩
  have hcut : serve (Socket.twoSegments cutRequest 19) _ _ = _ :=
    serve_stopsAt hend ⟨by decide, by decide, by decide⟩
  have hsame := h cutRequest (List.replicate 32 0) (Socket.twoSegments cutRequest 21)
    (Socket.twoSegments cutRequest 19) (Socket.bytes_twoSegments (by decide))
    (Socket.bytes_twoSegments (by decide))
  rw [hwhole, hcut] at hsame
  revert hsame
  decide

end WolfCLU.Http
