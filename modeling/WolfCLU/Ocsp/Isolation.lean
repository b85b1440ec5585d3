import WolfCLU.Ocsp.Transport
import WolfCLU.Transport.HttpSegmentation

namespace WolfCLU.Ocsp
open Buffer CString

structure StaticBuffer where
  bytes : List Byte
  size : bytes.length = reqBufferSz

structure Handling where
  ret : Int
  request : Option (List Byte × Int)
  client : Client
  deriving DecidableEq, Repr

def handling (r : RequestRead) : Handling where
  ret := r.ret
  request :=
    if r.ret = wolfcluSuccess then
      r.ocspReq.map fun off => ((r.reqBuffer.drop off).take r.ocspReqSz.toNat, r.ocspReqSz)
    else none
  client := r.client

section Http

structure Agree (bufferSz : Nat) (st st' : RecvState) : Prop where
  totalLen : st.totalLen = st'.totalLen
  contentLen : st.contentLen = st'.contentLen
  headerSz : st.headerSz = st'.headerSz
  size : st.buffer.length = bufferSz
  size' : st'.buffer.length = bufferSz
  content : st.buffer.take st.totalLen = st'.buffer.take st.totalLen
  text : 0 < st.totalLen → cstr st.buffer = cstr st'.buffer

theorem agree_recvHeader {bufferSz : Nat} {st st' : RecvState} (h : Agree bufferSz st st')
    (hpos : 0 < st.totalLen) : Agree bufferSz (recvHeader bufferSz st) (recvHeader bufferSz st') := by
  have htext := h.text hpos
  have hexpected (hs : Nat) : expectedLen bufferSz hs st.buffer st.contentLen =
      expectedLen bufferSz hs st'.buffer st'.contentLen := by
    rw [Http.expectedLen_congr htext, h.contentLen]
  refine ⟨by simpa using h.totalLen, ?_, ?_, by simpa using h.size, by simpa using h.size',
    by simpa using h.content, by simpa using h.text⟩
  · simp only [recvHeader, h.headerSz, htext]
    split
    · split
      · exact h.contentLen
      · exact hexpected _
    · exact h.contentLen
  · simp only [recvHeader, h.headerSz, htext]
    split
    · split
      · exact h.headerSz
      · rfl
    · exact h.headerSz

theorem agree_receive {bufferSz : Nat} {st st' : RecvState} (h : Agree bufferSz st st')
    {r : Socket.Received Byte} (hn : r.n = r.data.length)
    (hfit : st.totalLen + r.data.length < bufferSz) :
    Agree bufferSz (receive st r) (receive st' r) := by
  have hfit' : st'.totalLen + r.data.length < bufferSz := h.totalLen ▸ hfit
  obtain ⟨htot, tail, hbuf, hsize⟩ := Http.receive_buffer h.size hn hfit
  obtain ⟨htot', tail', hbuf', hsize'⟩ := Http.receive_buffer h.size' hn hfit'
  have hprefix : st'.buffer.take st'.totalLen = st.buffer.take st.totalLen := by
    rw [← h.totalLen, h.content]
  have hlen : (st.buffer.take st.totalLen ++ r.data).length = st.totalLen + r.data.length := by
    rw [List.length_append, List.length_take, h.size]
    omega
  refine ⟨by rw [htot, htot', h.totalLen], h.contentLen, h.headerSz, hsize, hsize', ?_, ?_⟩
  · rw [htot, hbuf, hbuf', hprefix, ← hlen, List.take_left, List.take_left]
  · intro _
    rw [hbuf, hbuf', hprefix, cstr_append_nul, cstr_append_nul]

theorem recvLoop_agrees {bufferSz : Nat} {clientfd : SocketT} {st st' : RecvState}
    (h : Agree bufferSz st st') :
    Agree bufferSz (httpServerRecvLoop bufferSz clientfd st).1
        (httpServerRecvLoop bufferSz clientfd st').1 ∧
      (httpServerRecvLoop bufferSz clientfd st).2 = (httpServerRecvLoop bufferSz clientfd st').2 := by
  induction hroom : bufferSz - 1 - st.totalLen using Nat.strong_induction_on
    generalizing clientfd st st' with
  | _ room ih =>
    rw [httpServerRecvLoop, httpServerRecvLoop, ← h.totalLen]
    by_cases hlt : st.totalLen < bufferSz - 1
    · simp only [dif_pos hlt]
      rcases recv_cases clientfd (Nat.sub_pos_of_lt hlt) with ⟨hle, _⟩ | ⟨hn, hne, hmax, _⟩
      · simp only [dif_pos hle]
        exact ⟨h, trivial⟩
      · have hdata := List.length_pos_iff.mpr hne
        have hgt : ¬ (recv clientfd (bufferSz - 1 - st.totalLen)).n ≤ 0 := by omega
        have hrecv := agree_receive h hn (by omega)
        have htot : (receive st (recv clientfd (bufferSz - 1 - st.totalLen))).totalLen =
            st.totalLen + (recv clientfd (bufferSz - 1 - st.totalLen)).data.length :=
          (Http.receive_buffer h.size hn (by omega)).1
        have hnext := agree_recvHeader hrecv (by omega)
        simp only [dif_neg hgt, ← hnext.headerSz, ← hnext.totalLen, ← hnext.contentLen]
        split
        · exact ⟨hnext, rfl⟩
        · refine ih _ ?_ hnext rfl
          rw [recvHeader_totalLen, htot]
          omega
    · simp only [dif_neg hlt]
      exact ⟨h, trivial⟩

theorem recv_agrees (clientfd : SocketT) {buffer buffer' : List Byte} {bufferSz : Nat}
    (hsz : buffer.length = bufferSz) (hsz' : buffer'.length = bufferSz) :
    Agree bufferSz (httpServerRecv clientfd buffer bufferSz).1
        (httpServerRecv clientfd buffer' bufferSz).1 ∧
      (httpServerRecv clientfd buffer bufferSz).2 = (httpServerRecv clientfd buffer' bufferSz).2 :=
  recvLoop_agrees ⟨rfl, rfl, rfl, hsz, hsz', by simp, by simp⟩

def httpHandling (client : Client) (sock : SocketT) (p : List Byte) : Handling :=
  let client := { client with incoming := sock }
  if p.length = 0 then ⟨wolfcluFatalError, none, client⟩
  else
    let parsed := httpServerParseRequest p p.length
    if parsed.ret ≠ 0 ∨ parsed.body = none ∨ parsed.bodySz ≤ 0 then
      ⟨wolfcluFatalError, none, (httpServerSendError client 400 (str "Bad Request")).2⟩
    else
      ⟨wolfcluSuccess,
        parsed.body.map fun off => ((p.drop off).take parsed.bodySz.toNat, parsed.bodySz), client⟩

theorem httpReadRequest_handling (client : Client) (stale : StaticBuffer) :
    handling (httpReadRequest client stale.bytes) =
      httpHandling client (httpServerRecv client.incoming stale.bytes reqBufferSz).2
        ((Socket.bytes client.incoming).take
          (httpServerRecv client.incoming stale.bytes reqBufferSz).1.totalLen) := by
  obtain ⟨⟨fd, inv⟩, _⟩ :=
    Http.recvLoop_stops client.incoming _ (Http.recvInv_initial client.incoming stale.size)
  rw [← httpServerRecv] at inv
  have hfatal : wolfcluFatalError ≠ wolfcluSuccess := by decide
  have hparse := Http.parse_received inv
  have hcontent := inv.content
  have harrived := inv.arrived
  simp only [httpReadRequest]
  generalize httpServerRecv client.incoming stale.bytes reqBufferSz = run at *
  obtain ⟨st, sock⟩ := run
  generalize Socket.bytes client.incoming = stream at *
  have hlen : (stream.take st.totalLen).length = st.totalLen := by
    rw [List.length_take, Nat.min_eq_left harrived]
  simp only [httpHandling, hparse]
  by_cases hzero : st.totalLen = 0
  · simp only [if_pos hzero, if_pos (hlen.trans hzero), handling, if_neg hfatal]
  · have hsome : ¬ (stream.take st.totalLen).length = 0 := by rwa [hlen]
    simp only [if_neg hzero, if_neg hsome]
    generalize hp : httpServerParseRequest (stream.take st.totalLen)
      (stream.take st.totalLen).length = parsed
    obtain ⟨ret, body, bodySz⟩ := parsed
    by_cases hbad : ret ≠ 0 ∨ body = none ∨ bodySz ≤ 0
    · simp only [if_pos hbad, handling, if_neg hfatal]
    · obtain ⟨hret, hbody, _⟩ := not_or.mp hbad |>.imp not_not.mp not_or.mp
      obtain ⟨off, rfl⟩ := Option.ne_none_iff_exists'.mp hbody
      obtain rfl : ret = 0 := hret
      have hinside := Http.parse_inside hp
      simp only [if_neg hbad, handling, if_true, Option.map_some, ← hcontent]
      rw [List.drop_take, List.take_take, Nat.min_eq_left (by omega)]

theorem httpReadRequest_agrees (client : Client) (stale stale' : StaticBuffer) :
    handling (httpReadRequest client stale.bytes) = handling (httpReadRequest client stale'.bytes) := by
  obtain ⟨hagree, hrest⟩ := recv_agrees client.incoming stale.size stale'.size
  rw [httpReadRequest_handling, httpReadRequest_handling, hagree.totalLen, hrest]

end Http

section Scgi

theorem mem_of_memchr {m : List Byte} {c : Byte} {i : Nat} (h : memchr m c = some i) : c ∈ m := by
  obtain ⟨hi, hc, _⟩ := List.findIdx?_eq_some_iff_getElem.mp h
  exact of_decide_eq_true hc ▸ List.getElem_mem hi

theorem cstr_take_of_mem {m : List Byte} {k : Nat} (h : (0 : Byte) ∈ m.take k) :
    cstr (m.take k) = cstr m := by
  obtain ⟨pre, tail, hsplit⟩ := List.append_of_mem h
  conv_rhs => rw [← List.take_append_drop k m, hsplit, List.append_assoc, List.cons_append]
  rw [hsplit, cstr_append_nul, cstr_append_nul]

theorem drop_take_window (headers : List Byte) (headerLen pos : Nat) :
    ((headers.take headerLen).drop pos).take (headerLen - pos) =
      (headers.drop pos).take (headerLen - pos) := by
  rw [List.drop_take, List.take_take, Nat.min_self]

theorem cstr_window {headers : List Byte} {headerLen pos i : Nat}
    (h : memchr ((headers.drop pos).take (headerLen - pos)) 0 = some i) :
    cstr ((headers.take headerLen).drop pos) = cstr (headers.drop pos) := by
  rw [List.drop_take]
  exact cstr_take_of_mem (mem_of_memchr h)

theorem parseHeadersLoop_take (headers : List Byte) (headerLen pos : Nat) (req : ScgiRequest) :
    parseHeadersLoop (headers.take headerLen) headerLen pos req =
      parseHeadersLoop headers headerLen pos req := by
  fun_induction parseHeadersLoop headers headerLen pos req with
  | case1 pos req hlt key hkey =>
    rw [parseHeadersLoop]
    simp only [if_pos hlt, drop_take_window, key] at hkey ⊢
    simp only [hkey]
  | case2 pos req hlt key keyLen hkey valueOff hval =>
    rw [parseHeadersLoop]
    simp only [if_pos hlt, drop_take_window, key, valueOff] at hkey hval ⊢
    simp only [hkey, if_pos hval]
  | case3 pos req hlt key keyLen hkey valueOff hval value hvalue =>
    rw [parseHeadersLoop]
    simp only [if_pos hlt, drop_take_window, key, valueOff, value] at hkey hval hvalue ⊢
    simp only [hkey, if_neg hval, hvalue]
  | case4 pos req hlt key keyLen hkey valueOff hval value valueLen hvalue ih =>
    rw [parseHeadersLoop]
    simp only [if_pos hlt, drop_take_window, key, valueOff, value] at hkey hval hvalue ih ⊢
    simp only [hkey, if_neg hval, hvalue, cstr_window hkey, cstr_window hvalue]
    exact ih
  | case5 pos req hlt =>
    rw [parseHeadersLoop]
    simp only [if_neg hlt]

def Terminated (text : List Byte) (off : Option Nat) : Prop :=
  ∀ o, off = some o → (0 : Byte) ∈ text.drop o

theorem terminated_assignHeader {text key value : List Byte} {o : Nat} {req : ScgiRequest}
    (hreq : Terminated text req.requestMethod) (ho : (0 : Byte) ∈ text.drop o) :
    Terminated text (assignHeader key value o req).requestMethod := by
  simp only [assignHeader]
  split_ifs
  · exact hreq
  · intro o' h
    exact Option.some.inj h ▸ ho
  · exact hreq
  · exact hreq

theorem parseHeadersLoop_terminated (headers : List Byte) (headerLen pos : Nat) (req : ScgiRequest)
    (h : Terminated (headers.take headerLen) req.requestMethod) :
    Terminated (headers.take headerLen) (parseHeadersLoop headers headerLen pos req).requestMethod := by
  fun_induction parseHeadersLoop headers headerLen pos req with
  | case1 pos req hlt key hkey => exact h
  | case2 pos req hlt key keyLen hkey valueOff hval => exact h
  | case3 pos req hlt key keyLen hkey valueOff hval value hvalue => exact h
  | case4 pos req hlt key keyLen hkey valueOff hval value valueLen hvalue ih =>
    refine ih (terminated_assignHeader h ?_)
    rw [List.drop_take]
    exact mem_of_memchr hvalue
  | case5 pos req hlt => exact h

theorem parseHeaders_congr {headers headers' : List Byte} {headerLen : Nat}
    (h : headers.take headerLen = headers'.take headerLen) (req : ScgiRequest) :
    parseHeaders headers headerLen req = parseHeaders headers' headerLen req := by
  rw [parseHeaders, parseHeaders, ← parseHeadersLoop_take, h, parseHeadersLoop_take]

theorem stringAt_take {buffer : List Byte} {k : Nat} {off : Option Nat}
    (h : Terminated (buffer.take k) off) :
    Scgi.stringAt (buffer.take k) off = Scgi.stringAt buffer off := by
  cases off with
  | none => rfl
  | some o =>
    have hmem := h o rfl
    rw [List.drop_take] at hmem
    simp only [Scgi.stringAt, Option.map_some, List.drop_take, cstr_take_of_mem hmem]

theorem stringAt_parseHeaders {headers buffer buffer' : List Byte} {headerLen : Nat}
    (req : ScgiRequest) (h : buffer.take headerLen = headers.take headerLen)
    (h' : buffer'.take headerLen = headers.take headerLen) :
    Scgi.stringAt buffer (parseHeaders headers headerLen req).requestMethod =
      Scgi.stringAt buffer' (parseHeaders headers headerLen req).requestMethod := by
  have hterm : Terminated (headers.take headerLen)
      (parseHeaders headers headerLen req).requestMethod :=
    parseHeadersLoop_terminated headers headerLen 0 _ (by simp [Terminated])
  have hat : Scgi.stringAt buffer _ = _ := (stringAt_take (h.symm ▸ hterm)).symm
  have hat' : Scgi.stringAt buffer' _ = _ := (stringAt_take (h'.symm ▸ hterm)).symm
  rw [hat, hat', h, h']

structure SameScgi (r r' : ScgiResult) : Prop where
  ret : r.ret = r'.ret
  sockfd : r.sockfd = r'.sockfd
  req : r.ret = 0 → r.req = r'.req
  method : r.ret = 0 → Scgi.stringAt r.buffer r.req.requestMethod =
    Scgi.stringAt r'.buffer r'.req.requestMethod
  body : r.ret = 0 → Scgi.deliveredBody r = Scgi.deliveredBody r'

theorem sameScgi_failed {buffer buffer' : List Byte} {req req' : ScgiRequest} {sockfd : SocketT} :
    SameScgi ⟨-1, buffer, req, sockfd⟩ ⟨-1, buffer', req', sockfd⟩ := by
  have hne : (-1 : Int) ≠ 0 := by decide
  exact ⟨rfl, rfl, fun h => absurd h hne, fun h => absurd h hne, fun h => absurd h hne⟩

def scgiReadBody (sockfd : SocketT) (buffer : List Byte) (pos : Nat) (req : ScgiRequest)
    (bufferSz : Nat) : ScgiResult :=
  if req.contentLength < 0 ∨ req.contentLength > bufferSz - pos then ⟨-1, buffer, req, sockfd⟩
  else if req.contentLength > 0 then
    let (got, buffer, sockfd) := readExactly sockfd buffer pos req.contentLength.toNat 0
    if got ≠ req.contentLength then ⟨-1, buffer, req, sockfd⟩
    else ⟨0, buffer, { req with body := some pos, bodyLen := req.contentLength }, sockfd⟩
  else ⟨0, buffer, { req with body := none, bodyLen := 0 }, sockfd⟩

theorem scgiReadBody_same (sockfd : SocketT) {buffer buffer' headers : List Byte} {pos bufferSz : Nat}
    (req : ScgiRequest) (hsz : buffer.length = bufferSz) (hsz' : buffer'.length = bufferSz)
    (hpos : pos ≤ bufferSz) (h : buffer.take pos = headers.take pos)
    (h' : buffer'.take pos = headers.take pos) :
    SameScgi (scgiReadBody sockfd buffer pos (parseHeaders headers pos req) bufferSz)
      (scgiReadBody sockfd buffer' pos (parseHeaders headers pos req) bufferSz) := by
  generalize hparsed : parseHeaders headers pos req = parsed
  have hmethod {b b' : List Byte} (hb : b.take pos = headers.take pos)
      (hb' : b'.take pos = headers.take pos) :
      Scgi.stringAt b parsed.requestMethod = Scgi.stringAt b' parsed.requestMethod :=
    hparsed ▸ stringAt_parseHeaders req hb hb'
  simp only [scgiReadBody]
  by_cases hlen : parsed.contentLength < 0 ∨ parsed.contentLength > (bufferSz : Int) - pos
  · simp only [if_pos hlen]
    exact sameScgi_failed
  · simp only [if_neg hlen]
    by_cases hbody : parsed.contentLength > 0
    · simp only [if_pos hbody]
      obtain ⟨got, data, rest, _, hfull, hread⟩ :=
        Scgi.readExactly_uniform sockfd pos (Nat.zero_le parsed.contentLength.toNat)
      rw [hread buffer (by omega), hread buffer' (by omega)]
      simp only [Nat.add_zero, Nat.zero_add] at hfull ⊢
      by_cases hgot : got ≠ parsed.contentLength
      · simp only [if_pos hgot]
        exact sameScgi_failed
      · simp only [if_neg hgot]
        have hdata : data.length = parsed.contentLength.toNat := hfull (by omega)
        have hkeep {b : List Byte} (hb : b.length = bufferSz) :
            (blit b pos data).take pos = b.take pos := blit_take_of_le le_rfl (by omega)
        have hwindow {b : List Byte} (hb : b.length = bufferSz) :
            ((blit b pos data).drop pos).take parsed.contentLength.toNat = data := by
          rw [← hdata]
          exact blit_window (by omega)
        refine ⟨rfl, rfl, fun _ => rfl, fun _ => ?_, fun _ => ?_⟩
        · exact hmethod ((hkeep hsz).trans h) ((hkeep hsz').trans h')
        · exact (hwindow hsz).trans (hwindow hsz').symm
    · simp only [if_neg hbody]
      exact ⟨rfl, rfl, fun _ => rfl, fun _ => hmethod h h', fun _ => rfl⟩

theorem scgiReadRequest_same (sockfd : SocketT) {buffer buffer' : List Byte} {bufferSz : Nat}
    (hsz : buffer.length = bufferSz) (hsz' : buffer'.length = bufferSz) :
    SameScgi (scgiReadRequest sockfd buffer bufferSz) (scgiReadRequest sockfd buffer' bufferSz) := by
  simp only [scgiReadRequest]
  by_cases hpos : (bufferSz : Int) ≤ 0
  · simp only [if_pos hpos]
    exact sameScgi_failed
  · simp only [if_neg hpos]
    obtain ⟨ret, headerLen, sock⟩ := parseNetstringLength sockfd [] 0
    by_cases hret : ret ≠ 0
    · simp only [if_pos hret]
      exact sameScgi_failed
    · simp only [if_neg hret]
      by_cases hlen : headerLen ≤ 0 ∨ headerLen ≥ bufferSz
      · simp only [if_pos hlen]
        exact sameScgi_failed
      · simp only [if_neg hlen]
        obtain ⟨got, data, sock1, hfit, hfull, hread⟩ :=
          Scgi.readExactly_uniform sock 0 (Nat.zero_le headerLen.toNat)
        rw [hread buffer (by omega), hread buffer' (by omega)]
        simp only [Nat.add_zero, Nat.zero_add] at hfit hfull ⊢
        by_cases hgot : got ≠ headerLen
        · simp only [if_pos hgot]
          exact sameScgi_failed
        · simp only [if_neg hgot]
          have hdata : data.length = headerLen.toNat := hfull (by omega)
          have htaken {b : List Byte} (h : 0 ≤ b.length) :
              (blit b 0 data).take (0 + data.length) = b.take 0 ++ data := blit_take_append h
          have htake : (blit buffer 0 data).take headerLen.toNat = data := by
            simpa [hdata] using htaken (Nat.zero_le buffer.length)
          have htake' : (blit buffer' 0 data).take headerLen.toNat = data := by
            simpa [hdata] using htaken (Nat.zero_le buffer'.length)
          have hsize : (blit buffer 0 data).length = bufferSz := by
            rw [blit_length (by omega), hsz]
          have hsize' : (blit buffer' 0 data).length = bufferSz := by
            rw [blit_length (by omega), hsz']
          obtain ⟨one, comma, sock2⟩ := readExactly sock1 [0] 0 1 0
          by_cases hcomma : one ≠ 1 ∨ comma ≠ str ","
          · simp only [if_pos hcomma]
            exact sameScgi_failed
          · simp only [if_neg hcomma]
            rw [parseHeaders_congr (htake.trans htake'.symm)]
            exact scgiReadBody_same sock2 _ hsize hsize' (by omega) (htake.trans htake'.symm) rfl

theorem scgiReadOcspRequest_agrees (client : Client) (stale stale' : StaticBuffer) :
    handling (scgiReadOcspRequest client stale.bytes) =
      handling (scgiReadOcspRequest client stale'.bytes) := by
  have hsame := scgiReadRequest_same client.incoming stale.size stale'.size
  have hfatal : wolfcluFatalError ≠ wolfcluSuccess := by decide
  simp only [scgiReadOcspRequest]
  generalize scgiReadRequest client.incoming stale.bytes reqBufferSz = r at *
  generalize scgiReadRequest client.incoming stale'.bytes reqBufferSz = r' at *
  simp only [← hsame.ret, ← hsame.sockfd]
  by_cases hret : r.ret = 0
  · have hmethod := hsame.method hret
    have hbody := hsame.body hret
    simp only [Scgi.stringAt] at hmethod
    rw [← hsame.req hret] at hmethod ⊢
    simp only [hret, ne_eq, not_true_eq_false, if_false, hmethod]
    simp only [Scgi.deliveredBody, ← hsame.req hret] at hbody
    split
    · simp only [handling, if_neg hfatal]
    · split
      · simp only [handling, if_neg hfatal]
      · rename_i hreq
        obtain ⟨off, hoff⟩ := Option.ne_none_iff_exists'.mp (not_or.mp hreq).1
        simp only [hoff] at hbody ⊢
        simp only [handling, if_true, Option.map_some, hbody]
  · simp only [ne_eq, hret, not_false_eq_true, if_true, handling, if_neg hfatal]

end Scgi

theorem scgiReadRequest_size (sockfd : SocketT) {buffer : List Byte} {bufferSz : Nat}
    (hsz : buffer.length = bufferSz) :
    (scgiReadRequest sockfd buffer bufferSz).buffer.length = bufferSz := by
  generalize hrun : scgiReadRequest sockfd buffer bufferSz = run
  rw [scgiReadRequest] at hrun
  split at hrun
  · exact hrun ▸ hsz
  split at hrun
  rename_i ret headerLen sock _
  split at hrun
  · exact hrun ▸ hsz
  split at hrun
  · exact hrun ▸ hsz
  rename_i hlen
  split at hrun
  rename_i got headers sock1 hheaders
  have hsize : headers.length = bufferSz := by
    have hread := Scgi.readExactly_size sock (show 0 + headerLen.toNat ≤ buffer.length by omega)
    rw [hheaders] at hread
    exact hread.trans hsz
  split at hrun
  · exact hrun ▸ hsize
  extract_lets pos req at hrun
  split at hrun
  rename_i one comma sock2 _
  split at hrun
  · exact hrun ▸ hsize
  split at hrun
  · exact hrun ▸ hsize
  rename_i hcontent
  split at hrun
  · split at hrun
    rename_i more body sock3 hbody
    have hwhole : body.length = bufferSz := by
      have hread := Scgi.readExactly_size sock2
        (show pos + req.contentLength.toNat ≤ headers.length by omega)
      rw [hbody] at hread
      exact hread.trans hsize
    split at hrun
    · exact hrun ▸ hwhole
    · exact hrun ▸ hwhole
  · exact hrun ▸ hsize

theorem transportReadRequest_size (transportType : TransportType) (client : Client)
    (stale : StaticBuffer) :
    (transportReadRequest client transportType stale.bytes).reqBuffer.length = reqBufferSz := by
  cases transportType with
  | none => exact stale.size
  | http =>
    have hsize := (recv_agrees client.incoming stale.size stale.size).1.size
    simp only [transportReadRequest, httpReadRequest]
    split
    · exact hsize
    · split
      · exact hsize
      · exact hsize
  | scgi =>
    have hsize := scgiReadRequest_size client.incoming stale.size
    simp only [transportReadRequest, scgiReadOcspRequest]
    split
    · exact hsize
    · split
      · exact hsize
      · split
        · exact hsize
        · exact hsize

def left (transportType : TransportType) (client : Client) (stale : StaticBuffer) : StaticBuffer :=
  ⟨(transportReadRequest client transportType stale.bytes).reqBuffer,
    transportReadRequest_size transportType client stale⟩

def serveAll (transportType : TransportType) : List Client → StaticBuffer → List Handling
  | [], _ => []
  | client :: clients, stale =>
    handling (transportReadRequest client transportType stale.bytes) ::
      serveAll transportType clients (left transportType client stale)

theorem handling_independent (transportType : TransportType) (client : Client)
    (stale stale' : StaticBuffer) :
    handling (transportReadRequest client transportType stale.bytes) =
      handling (transportReadRequest client transportType stale'.bytes) := by
  cases transportType with
  | none => rfl
  | http => exact httpReadRequest_agrees client stale stale'
  | scgi => exact scgiReadOcspRequest_agrees client stale stale'

theorem serveAll_independent (transportType : TransportType) (clients : List Client)
    (stale fresh : StaticBuffer) :
    serveAll transportType clients stale =
      clients.map fun client => handling (transportReadRequest client transportType fresh.bytes) := by
  induction clients generalizing stale with
  | nil => rfl
  | cons client clients ih =>
    rw [serveAll, ih, List.map_cons, handling_independent transportType client stale fresh]

theorem transportReadRequest_isolated (transportType : TransportType) :
    (∀ (client : Client) (stale stale' : StaticBuffer),
      handling (transportReadRequest client transportType stale.bytes) =
        handling (transportReadRequest client transportType stale'.bytes)) ∧
    ∀ (clients : List Client) (stale fresh : StaticBuffer),
      serveAll transportType clients stale =
        clients.map fun client => handling (transportReadRequest client transportType fresh.bytes) :=
  ⟨handling_independent transportType, serveAll_independent transportType⟩

end WolfCLU.Ocsp
