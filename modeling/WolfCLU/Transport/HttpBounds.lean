import WolfCLU.Transport.HttpSegmentation

namespace WolfCLU.Http
open Buffer CString

structure Within (buffer : List Byte) (st : RecvState) : Prop where
  size : st.buffer.length = buffer.length
  fits : st.totalLen ≤ buffer.length - 1
  nothing : st.totalLen = 0 → st.buffer = buffer
  ended : 0 < st.totalLen → st.buffer[st.totalLen]? = some 0

theorem within_receive {buffer : List Byte} {st : RecvState} (h : Within buffer st)
    {r : Socket.Received Byte} (hn : r.n = r.data.length) (hne : r.data ≠ [])
    (hlen : r.data.length ≤ buffer.length - 1 - st.totalLen) :
    Within buffer (recvHeader buffer.length (receive st r)) := by
  have hpos : 0 < r.data.length := List.length_pos_iff.mpr hne
  have hfits := h.fits
  obtain ⟨htot, tail, hbuf, hsize⟩ := receive_buffer h.size hn (by omega)
  have hl : (st.buffer.take st.totalLen ++ r.data).length = st.totalLen + r.data.length := by
    rw [List.length_append, List.length_take, h.size, Nat.min_eq_left (by omega)]
  refine ⟨?_, ?_, ?_, ?_⟩
  · rw [recvHeader_buffer, hsize]
  · rw [recvHeader_totalLen, htot]
    omega
  · rw [recvHeader_totalLen, htot]
    omega
  · intro _
    rw [recvHeader_buffer, recvHeader_totalLen, hbuf, htot, ← hl, List.getElem?_append_right le_rfl,
      Nat.sub_self]
    rfl

theorem within_loop {buffer : List Byte} (clientfd : SocketT) (st : RecvState)
    (h : Within buffer st) :
    Within buffer (httpServerRecvLoop buffer.length clientfd st).1 := by
  fun_induction httpServerRecvLoop buffer.length clientfd st with
  | case1 | case4 => exact h
  | case2 clientfd st hlt r hn st' hstop =>
    rcases recv_cases clientfd (Nat.sub_pos_of_lt hlt) with ⟨hle, _⟩ | ⟨hlen, hne, hfit, _⟩
    · exact absurd hle hn
    · exact within_receive h hlen hne hfit
  | case3 clientfd st hlt r hn st' hstop ih =>
    rcases recv_cases clientfd (Nat.sub_pos_of_lt hlt) with ⟨hle, _⟩ | ⟨hlen, hne, hfit, _⟩
    · exact absurd hle hn
    · exact ih (within_receive h hlen hne hfit)

theorem within_recv (clientfd : SocketT) (buffer : List Byte) :
    Within buffer (httpServerRecv clientfd buffer buffer.length).1 :=
  within_loop clientfd _ ⟨rfl, Nat.zero_le _, fun _ => rfl, fun h => absurd h (lt_irrefl 0)⟩

theorem parse_body {httpReq : List Byte} {httpReqSz : Nat}
    (h : (httpServerParseRequest httpReq httpReqSz).ret = 0) :
    ∃ off sz, httpServerParseRequest httpReq httpReqSz = ⟨0, some off, sz⟩ := by
  have hfail : ¬ (-1 : Int) = 0 := by decide
  simp only [httpServerParseRequest] at h ⊢
  cases hs : strstr crlfcrlf ((cstr httpReq).drop ((contentLengthAt httpReq).getD 0)) with
  | none =>
    simp only [hs] at h
    split_ifs at h <;> exact absurd h hfail
  | some i =>
    simp only [hs] at h ⊢
    split_ifs at h ⊢ <;> first | exact absurd h hfail | exact ⟨_, _, rfl⟩

structure BodyInside (received : Nat) (r : ParsedRequest) (off : Nat) : Prop where
  body : r.body = some off
  nonneg : 0 ≤ r.bodySz
  start : off ≤ received
  inside : 0 < r.bodySz → off < received
  stop : (off : Int) + r.bodySz ≤ received

theorem recv_parse_bounded (clientfd : SocketT) (buffer : List Byte) :
    let st := (httpServerRecv clientfd buffer buffer.length).1
    let r := httpServerParseRequest st.buffer st.totalLen
    st.buffer.length = buffer.length ∧
      (0 < st.totalLen → st.totalLen < buffer.length ∧ st.buffer[st.totalLen]? = some 0) ∧
      ((0 : Byte) ∈ buffer → (0 : Byte) ∈ st.buffer) ∧
      (r.ret = 0 → ∃ off, BodyInside st.totalLen r off) := by
  intro st r
  have hwithin : Within buffer st := within_recv clientfd buffer
  obtain ⟨fd, inv⟩ : ∃ fd, RecvInv (Socket.bytes clientfd) buffer.length fd st :=
    (recvLoop_stops clientfd _ (recvInv_initial clientfd rfl)).1
  refine ⟨hwithin.size, fun hpos => ⟨?_, hwithin.ended hpos⟩, fun hmem => ?_, fun hret => ?_⟩
  · have := hwithin.fits
    omega
  · rcases Nat.eq_zero_or_pos st.totalLen with hzero | hpos
    · rw [hwithin.nothing hzero]
      exact hmem
    · exact List.mem_of_getElem? (hwithin.ended hpos)
  · have hlen : ((Socket.bytes clientfd).take st.totalLen).length = st.totalLen := by
      rw [List.length_take, Nat.min_eq_left inv.arrived]
    obtain ⟨off, sz, hparse⟩ := parse_body hret
    have hr : r = ⟨0, some off, sz⟩ := hparse
    have hprefix := (parse_received inv).symm.trans hparse
    obtain ⟨hnonneg, hstop⟩ := parse_inside hprefix
    rw [hlen] at hstop
    refine ⟨off, ?_⟩
    rw [hr]
    exact ⟨rfl, hnonneg, by omega, fun hpos => by simp only at hpos; omega, hstop⟩

def emptyRequest : List Byte := str "POST / HTTP/1.0" ++ crlfcrlf

theorem empty_body_past_the_end :
    ¬ ∀ (clientfd : SocketT) (buffer : List Byte),
      let st := (httpServerRecv clientfd buffer buffer.length).1
      let r := httpServerParseRequest st.buffer st.totalLen
      r.ret = 0 → ∃ off, r.body = some off ∧ off < st.totalLen := by
  intro h
  have hall : (httpServerRecv (Socket.oneSegment emptyRequest) (List.replicate 32 0) 32).1.totalLen
      = 19 := by decide +kernel
  have hparse : httpServerParseRequest
      (httpServerRecv (Socket.oneSegment emptyRequest) (List.replicate 32 0) 32).1.buffer 19
        = ⟨0, some 19, 0⟩ := by decide +kernel
  have hcase := h (Socket.oneSegment emptyRequest) (List.replicate 32 0)
  simp only [List.length_replicate, hall, hparse, true_implies, Option.some.injEq] at hcase
  obtain ⟨off, rfl, hlt⟩ := hcase
  exact absurd hlt (by decide)

end WolfCLU.Http
