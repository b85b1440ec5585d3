import WolfCLU.Ocsp.Isolation
import WolfCLU.Ocsp.ResponderRuns
import WolfCLU.Transport.HttpComplete

namespace WolfCLU.Http
open CString

section Response
variable {transportType : TransportType}

theorem decimal_excludes {c : Byte} (h : isDigit c = false) (n : Nat) : c ∉ decimal n := by
  intro hmem
  rw [(decimal_isNumeral n).digits c hmem] at h
  cases h

theorem lengthValue_plain (n : Nat) :
    ∀ c ∈ (32 : Byte) :: decimal n, c ∉ ([0, 10, 13] : List Byte) := by
  intro c hc hbad
  rcases List.mem_cons.mp hc with rfl | hc
  · exact absurd hbad (by decide)
  · simp only [List.mem_cons, List.not_mem_nil, or_false] at hbad
    rcases hbad with rfl | rfl | rfl
    · exact decimal_excludes (by decide) n hc
    · exact decimal_excludes (by decide) n hc
    · exact decimal_excludes (by decide) n hc

theorem contentLength_plain :
    ∀ c ∈ str "Content-Length", c ∉ ([0, 10, 13, 58] : List Byte) := by
  decide +kernel

def lengthField (n : Nat) : HttpField where
  name := str "Content-Length"
  value := 32 :: decimal n
  name_plain := contentLength_plain
  value_plain := lengthValue_plain n

theorem lengthField_value (n : Nat) : decimalValue (lengthField n).value = some n := by
  obtain ⟨hne, hdigits, hvalue⟩ := decimal_isNumeral n
  have hnotBlank : ∀ b ∈ decimal n, isBlank b = false := by
    intro b hb
    by_contra hblank
    have hspace : b = 32 ∨ b = 9 := by
      simp only [isBlank, Bool.or_eq_false_iff, decide_eq_false_iff_not] at hblank
      tauto
    rcases hspace with rfl | rfl
    · exact decimal_excludes (by decide) n hb
    · exact decimal_excludes (by decide) n hb
  have hfront : (decimal n).dropWhile isBlank = decimal n := by
    rw [List.dropWhile_eq_self_iff]
    intro hpos
    rw [hnotBlank _ (List.getElem_mem hpos)]
    decide
  have hback : (decimal n).reverse.dropWhile isBlank = (decimal n).reverse := by
    rw [List.dropWhile_eq_self_iff]
    intro hpos
    rw [hnotBlank _ (List.mem_reverse.mp (List.getElem_mem hpos))]
    decide
  have htrim : trimBlanks (32 :: decimal n) = decimal n := by
    rw [trimBlanks, List.dropWhile_cons_of_pos (by decide), hfront, hback, List.reverse_reverse]
  have hall : (decimal n).all isDigit = true := List.all_eq_true.mpr hdigits
  rw [lengthField, decimalValue, htrim, if_pos ⟨hne, hall⟩, hvalue]

def httpReplyHead (n : Nat) : HttpRequest where
  line := str "HTTP/1.0 200 OK"
  fields := [⟨str "Content-Type", str " application/ocsp-response", by decide +kernel,
    by decide +kernel⟩, lengthField n, ⟨str "Connection", str " close", by decide +kernel,
    by decide +kernel⟩]
  line_plain := by decide +kernel

def scgiReplyHead (n : Nat) : HttpRequest where
  line := str "Status: 200 OK"
  fields := [⟨str "Content-Type", str " application/ocsp-response", by decide +kernel,
    by decide +kernel⟩, lengthField n]
  line_plain := by decide +kernel

theorem httpReplyHead_header (n : Nat) : (httpReplyHead n).header = httpResponseHeader n := by
  rw [httpResponseHeader, show str "Content-Type: application/ocsp-response" =
    str "Content-Type" ++ 58 :: str " application/ocsp-response" by decide,
    show str "Content-Length: " = str "Content-Length" ++ [58, 32] by decide,
    show str "Connection: close" = str "Connection" ++ 58 :: str " close" by decide]
  simp [httpReplyHead, HttpRequest.header, fieldLines, HttpField.text, lengthField, crlf]

theorem scgiReplyHead_header (n : Nat) : (scgiReplyHead n).header =
    scgiResponseHeader 200 (str "OK") (str "application/ocsp-response") n := by
  rw [scgiResponseHeader, show str "Status: " ++ decimal 200 ++ str " " ++ str "OK" =
      str "Status: 200 OK" by decide +kernel,
    show str "Content-Type: " = str "Content-Type" ++ [58, 32] by decide,
    show str "Content-Length: " = str "Content-Length" ++ [58, 32] by decide]
  have hvalue : str " application/ocsp-response" = 32 :: str "application/ocsp-response" := by decide
  simp [scgiReplyHead, HttpRequest.header, fieldLines, HttpField.text, lengthField, crlf, hvalue]

theorem wireResponse_header (h : transportType ≠ .none) (resp : List Byte) :
    ∃ (m : HttpRequest) (f : HttpField), wireResponse transportType resp = m.header ++ resp ∧
      headerEnd (wireResponse transportType resp) = some m.header.length ∧
      m.contentLengths = [f] ∧ decimalValue f.value = some resp.length := by
  have hlength : (lengthField resp.length).isContentLength = true := by
    have hname : (str "Content-Length").map toLower = str "content-length" := by decide
    exact decide_eq_true hname
  cases transportType with
  | none => exact absurd rfl h
  | http =>
    refine ⟨httpReplyHead resp.length, lengthField resp.length, ?_, ?_, ?_, lengthField_value _⟩
    · rw [wireResponse, httpReplyHead_header]
    · rw [wireResponse, ← httpReplyHead_header, headerEnd_header]
    · rw [HttpRequest.contentLengths, httpReplyHead, List.filter_cons_of_neg (by decide),
        List.filter_cons_of_pos hlength, List.filter_cons_of_neg (by decide), List.filter_nil]
  | scgi =>
    refine ⟨scgiReplyHead resp.length, lengthField resp.length, ?_, ?_, ?_, lengthField_value _⟩
    · rw [wireResponse, scgiReplyHead_header]
    · rw [wireResponse, ← scgiReplyHead_header, headerEnd_header]
    · rw [HttpRequest.contentLengths, scgiReplyHead, List.filter_cons_of_neg (by decide),
        List.filter_cons_of_pos hlength, List.filter_nil]

theorem wireResponse_message (h : transportType ≠ .none) (resp : List Byte) :
    ∃ (m : HttpRequest) (f : HttpField), wireResponse transportType resp = m.header ++ resp ∧
      headerEnd (wireResponse transportType resp) = some m.header.length ∧
      m.contentLengths = [f] ∧ decimalValue f.value = some resp.length ∧
      ∀ client, (transportSendResponse client transportType resp).1 = 0 ↔
        (transportSendResponse client transportType resp).2.delivered =
          client.delivered ++ (m.header ++ resp) := by
  obtain ⟨m, f, hwire, hend, hone, hvalue⟩ := wireResponse_header h resp
  refine ⟨m, f, hwire, hend, hone, hvalue, fun client => ?_⟩
  rw [← hwire]
  exact transportSendResponse_complete client h resp

end Response

theorem wireResponse_message_http :
    ∃ (m : HttpRequest) (f : HttpField), wireResponse .http [1, 10] = m.header ++ [1, 10] ∧
      headerEnd (wireResponse .http [1, 10]) = some m.header.length ∧
      m.contentLengths = [f] ∧ decimalValue f.value = some 2 ∧
      ∀ client, (transportSendResponse client .http [1, 10]).1 = 0 ↔
        (transportSendResponse client .http [1, 10]).2.delivered =
          client.delivered ++ (m.header ++ [1, 10]) :=
  wireResponse_message (by decide) [1, 10]

end WolfCLU.Http

namespace WolfCLU.Ocsp
open CString Http

section Sending
variable {client : Client} {header body : List Byte}

theorem sendAll_prefix (client : Client) (buf : List Byte) :
    ∃ part, part <+: buf ∧ (sendAll client buf).2.delivered = client.delivered ++ part :=
  ⟨_, List.take_prefix _ _, rfl⟩

theorem sendResponse_prefix (client : Client) (header body : List Byte) :
    ∃ part, part <+: header ++ body ∧
      (sendResponse client header body).2.delivered = client.delivered ++ part := by
  obtain ⟨part, hpart, hdelivered⟩ := sendAll_prefix client header
  have hheader : part <+: header ++ body := hpart.trans (List.prefix_append header body)
  simp only [sendResponse]
  split
  · exact ⟨[], List.nil_prefix, (List.append_nil _).symm⟩
  split
  · exact ⟨part, hheader, hdelivered⟩
  · rename_i hsent
    have hall : part = header := by
      rcases sendAll_cases client header with ⟨hret, -⟩ | ⟨-, hfull⟩
      · rw [not_not] at hsent
        omega
      · exact List.append_cancel_left (hdelivered.symm.trans hfull)
    obtain ⟨part', hpart', hdelivered'⟩ := sendAll_prefix (sendAll client header).2 body
    have hboth : (sendAll (sendAll client header).2 body).2.delivered =
        client.delivered ++ (header ++ part') := by
      rw [hdelivered', hdelivered, hall, List.append_assoc]
    split
    · split <;> exact ⟨header ++ part', (List.prefix_append_right_inj header).mpr hpart', hboth⟩
    · exact ⟨part, hheader, hdelivered⟩

theorem transportSendResponse_prefix (client : Client) (transportType : TransportType)
    (resp : List Byte) :
    ∃ part, part <+: wireResponse transportType resp ∧
      (transportSendResponse client transportType resp).2.delivered = client.delivered ++ part := by
  cases transportType with
  | none => exact ⟨[], List.nil_prefix, (List.append_nil _).symm⟩
  | http => exact sendResponse_prefix client _ resp
  | scgi => exact sendResponse_prefix client _ resp

theorem httpServerSendError_prefix (client : Client) (statusCode : Nat) (statusMsg : List Byte) :
    ∃ part, part <+: httpErrorResponse statusCode statusMsg ∧
      (httpServerSendError client statusCode statusMsg).2.delivered = client.delivered ++ part := by
  simp only [httpServerSendError]
  split
  · exact ⟨[], List.nil_prefix, (List.append_nil _).symm⟩
  · exact sendAll_prefix client _

end Sending

section Round
variable {req : HttpRequest} {body : List Byte} {f : HttpField}

theorem httpReadRequest_announced (h : Announces req body f) (hpost : isPost (req.header ++ body))
    (client : Client) {reqBuffer : List Byte}
    (hbytes : Socket.bytes client.incoming = req.header ++ body)
    (hsize : reqBuffer.length = reqBufferSz) (hfit : (req.header ++ body).length < reqBufferSz) :
    (httpReadRequest client reqBuffer).ret = wolfcluSuccess ∧
      requestBytes (httpReadRequest client reqBuffer) = body := by
  have hint : (body.length : Int) ≤ MachineInt.intMax := by
    rw [List.length_append] at hfit
    simp only [reqBufferSz] at hfit
    simp only [MachineInt.intMax]
    omega
  have hserve := serve_announced h hint hpost hbytes (hsize ▸ hfit)
  have hpos := List.length_pos_iff.mpr h.nonempty
  rw [hsize] at hserve
  simp only [serve] at hserve
  simp only [httpReadRequest]
  generalize httpServerRecv client.incoming reqBuffer reqBufferSz = received at hserve
  obtain ⟨st, sock⟩ := received
  simp only at hserve ⊢
  generalize hparsed : httpServerParseRequest st.buffer st.totalLen = parsed at hserve
  obtain ⟨ret, off, sz⟩ := parsed
  simp only [requestBody] at hserve
  split at hserve
  · rename_i hret
    obtain ⟨start, hstart, hbody⟩ := Option.map_eq_some_iff.mp hserve
    obtain rfl : ret = 0 := hret
    obtain rfl : off = some start := hstart
    have hsz : 0 < sz := by
      by_contra hneg
      rw [Int.toNat_of_nonpos (not_lt.mp hneg), List.take_zero] at hbody
      exact h.nonempty hbody.symm
    have htotal : ¬ st.totalLen = 0 := by
      intro hzero
      rw [hzero] at hparsed
      simp [httpServerParseRequest, show (str "POST ").length = 5 from rfl] at hparsed
    have haccepted : ¬ ((0 : Int) ≠ 0 ∨ some start = none ∨ sz ≤ 0) := by
      rintro (hbad | hbad | hbad)
      · exact hbad rfl
      · cases hbad
      · omega
    rw [if_neg htotal, if_neg haccepted]
    exact ⟨rfl, hbody⟩
  · cases hserve

theorem closeClient_log (st : ResponderState) : st.log <+: st.closeClient.log := by
  unfold ResponderState.closeClient
  split
  · exact List.prefix_rfl
  · exact List.prefix_append _ _

theorem serveClient_announced (h : Announces req body f) (hpost : isPost (req.header ++ body))
    {config : ResponderConfig} (hhttp : config.scgiMode = false) (round : Round) (fd : Nat)
    {incoming : SocketT} (outgoing : List SendEvent) (st : ResponderState)
    (hbytes : Socket.bytes incoming = req.header ++ body)
    (hsize : st.reqBuffer.length = reqBufferSz) (hfit : (req.header ++ body).length < reqBufferSz) :
    match generateResponse config round body with
    | none => ∃ delivered, delivered <+: httpErrorResponse 500 (str "Internal Server Error") ∧
        (serveClient config round fd ⟨incoming, outgoing, []⟩ st).2.log =
          st.log ++ [.refused fd delivered]
    | some (status, resp) => ∃ delivered, delivered <+: wireResponse .http resp ∧
        (serveClient config round fd ⟨incoming, outgoing, []⟩ st).2.log =
          st.log ++ [.replied fd status resp delivered] := by
  obtain ⟨hret, hrequest⟩ := httpReadRequest_announced h hpost ⟨incoming, outgoing, []⟩
    hbytes hsize hfit
  have htransport : config.transportType = .http := by
    rw [ResponderConfig.transportType, hhttp]
    rfl
  have hread : transportReadRequest ⟨incoming, outgoing, []⟩ config.transportType st.reqBuffer =
      httpReadRequest ⟨incoming, outgoing, []⟩ st.reqBuffer := by
    rw [htransport]
    rfl
  have hdelivered : (httpReadRequest ⟨incoming, outgoing, []⟩ st.reqBuffer).client.delivered = [] :=
    @transportReadRequest_delivered _ .http _ hret
  simp only [serveClient, hread, hret, ne_eq, not_true_eq_false, if_false, hrequest]
  cases generateResponse config round body with
  | none =>
    obtain ⟨part, hpart, hsent⟩ := httpServerSendError_prefix
      (httpReadRequest ⟨incoming, outgoing, []⟩ st.reqBuffer).client 500
      (str "Internal Server Error")
    rw [hdelivered, List.nil_append] at hsent
    refine ⟨part, hpart, ?_⟩
    rw [htransport, ← hsent]
    rfl
  | some reply =>
    obtain ⟨status, resp⟩ := reply
    obtain ⟨part, hpart, hsent⟩ := transportSendResponse_prefix
      (httpReadRequest ⟨incoming, outgoing, []⟩ st.reqBuffer).client .http resp
    rw [hdelivered, List.nil_append] at hsent
    refine ⟨part, hpart, ?_⟩
    rw [htransport]
    simp only
    split
    · rw [← hsent]
      rfl
    · rw [← hsent]
      split <;> rfl

end Round

section Loop
variable {config : ResponderConfig} {round : Round} {st : ResponderState}

structure Extends (before after : ResponderState) : Prop where
  size : after.reqBuffer.length = reqBufferSz
  log : before.log <+: after.log

theorem Extends.trans {a b c : ResponderState} (h : Extends a b) (h' : Extends b c) : Extends a c :=
  ⟨h'.size, h.log.trans h'.log⟩

theorem extends_signal (hsize : st.reqBuffer.length = reqBufferSz) (flag : Bool) :
    Extends st (if flag then { st with shutdownRequested := true } else st) := by
  cases flag
  · exact ⟨hsize, List.prefix_rfl⟩
  · exact ⟨hsize, List.prefix_rfl⟩

theorem serveClient_reqBuffer (fd : Nat) (client : Client) :
    (serveClient config round fd client st).2.reqBuffer =
      (transportReadRequest client config.transportType st.reqBuffer).reqBuffer := by
  simp only [serveClient]
  split
  · rfl
  · split
    · rfl
    · split
      · rfl
      · split <;> rfl

theorem extends_serveClient (hsize : st.reqBuffer.length = reqBufferSz) (fd : Nat)
    (incoming : SocketT) (outgoing : List SendEvent) :
    Extends st (serveClient config round fd ⟨incoming, outgoing, []⟩ st).2 := by
  obtain ⟨e, hserved⟩ := serveClient_spec config round fd incoming outgoing st
  constructor
  · rw [serveClient_reqBuffer]
    exact transportReadRequest_size config.transportType ⟨incoming, outgoing, []⟩
      ⟨st.reqBuffer, hsize⟩
  · rw [hserved.log]
    exact List.prefix_append _ _

theorem extends_closeClient (hsize : st.reqBuffer.length = reqBufferSz) :
    Extends st st.closeClient := by
  refine ⟨?_, closeClient_log st⟩
  unfold ResponderState.closeClient
  split <;> exact hsize

theorem extends_serveRound (hsize : st.reqBuffer.length = reqBufferSz) :
    Extends st (serveRound config round st).2 := by
  simp only [serveRound]
  split
  · exact ⟨hsize, List.prefix_rfl⟩
  · rename_i fd incoming outgoing _
    have haccepted : Extends st { st.record (.accepted fd) with clientfd := some fd } :=
      ⟨hsize, List.prefix_append _ _⟩
    have hserved : Extends st (serveClient config round fd ⟨incoming, outgoing, []⟩
        { st.record (.accepted fd) with clientfd := some fd }).2 :=
      haccepted.trans (extends_serveClient haccepted.size fd incoming outgoing)
    split
    · exact hserved
    · exact hserved.trans (extends_closeClient hserved.size)

theorem extends_responderLoop (rounds : List Round) (hsize : st.reqBuffer.length = reqBufferSz) :
    Extends st (responderLoop config rounds st).2 := by
  induction rounds generalizing st with
  | nil => exact ⟨hsize, List.prefix_rfl⟩
  | cons round rounds ih =>
    have hchecked := extends_signal hsize (decide (round.signal = some .check))
    simp only [decide_eq_true_eq] at hchecked
    rw [responderLoop]
    generalize (if round.signal = some .check then { st with shutdownRequested := true } else st) =
      checked at hchecked
    by_cases hrunning : running config checked = true
    · have hserved : Extends st (serveRound config round checked).2 :=
        hchecked.trans (extends_serveRound hchecked.size)
      simp only [if_pos hrunning]
      generalize serveRound config round checked = out at hserved
      obtain ⟨left, next⟩ := out
      have hsignalled := hserved.trans (extends_signal hserved.size round.signal.isSome)
      cases left with
      | true => exact hsignalled
      | false => exact hsignalled.trans (ih hsignalled.size)
    · simp only [if_neg hrunning]
      exact hchecked

theorem responderLoop_append (front back : List Round)
    (h : (responderLoop config front st).1 = false) :
    responderLoop config (front ++ back) st =
      responderLoop config back (responderLoop config front st).2 := by
  induction front generalizing st with
  | nil => rfl
  | cons round front ih =>
    rw [responderLoop] at h
    rw [List.cons_append, responderLoop, responderLoop]
    generalize (if round.signal = some .check then { st with shutdownRequested := true } else st) =
      checked at h ⊢
    by_cases hrunning : running config checked = true
    · simp only [if_pos hrunning] at h ⊢
      generalize serveRound config round checked = out at h ⊢
      obtain ⟨left, next⟩ := out
      cases left with
      | true => cases h
      | false => exact ih h
    · simp only [if_neg hrunning] at h
      cases h

theorem running_of_continues {rounds : List Round} (h : (responderLoop config rounds st).1 = false) :
    running config (responderLoop config rounds st).2 = true := by
  induction rounds generalizing st with
  | nil => simpa [responderLoop] using h
  | cons round rounds ih =>
    rw [responderLoop] at h ⊢
    generalize (if round.signal = some .check then { st with shutdownRequested := true } else st) =
      checked at h ⊢
    by_cases hrunning : running config checked = true
    · simp only [if_pos hrunning] at h ⊢
      generalize serveRound config round checked = out at h ⊢
      obtain ⟨left, next⟩ := out
      cases left with
      | true => cases h
      | false => exact ih h
    · simp only [if_neg hrunning] at h
      cases h

inductive Answer (config : ResponderConfig) (round : Round) (fd : Nat) (body : List Byte) :
    ServerEvent → Prop where
  | refused (delivered : List Byte) (h : generateResponse config round body = none)
      (hwire : delivered <+: httpErrorResponse 500 (str "Internal Server Error")) :
      Answer config round fd body (.refused fd delivered)
  | replied (status : OcspStatus) (resp delivered : List Byte)
      (h : generateResponse config round body = some (status, resp))
      (hwire : delivered <+: wireResponse .http resp) :
      Answer config round fd body (.replied fd status resp delivered)

variable {req : HttpRequest} {body : List Byte} {f : HttpField} {fd : Nat} {incoming : SocketT}
  {outgoing : List SendEvent}

theorem serveRound_answers (h : Announces req body f) (hpost : isPost (req.header ++ body))
    (hhttp : config.scgiMode = false) (haccept : round.accept = some (fd, incoming, outgoing))
    (hbytes : Socket.bytes incoming = req.header ++ body)
    (hfit : (req.header ++ body).length < reqBufferSz) (hsize : st.reqBuffer.length = reqBufferSz) :
    ∃ e, Answer config round fd body e ∧
      st.log ++ [.accepted fd, e] <+: (serveRound config round st).2.log := by
  have hclient := serveClient_announced h hpost hhttp round fd outgoing
    { st.record (.accepted fd) with clientfd := some fd } hbytes hsize hfit
  obtain ⟨e, hanswer, hlog⟩ : ∃ e, Answer config round fd body e ∧
      (serveClient config round fd ⟨incoming, outgoing, []⟩
        { st.record (.accepted fd) with clientfd := some fd }).2.log = st.log ++ [.accepted fd, e] := by
    cases hgenerated : generateResponse config round body with
    | none =>
      simp only [hgenerated] at hclient
      obtain ⟨delivered, hwire, hlog⟩ := hclient
      exact ⟨_, .refused delivered hgenerated hwire, hlog.trans (List.append_assoc _ _ _)⟩
    | some reply =>
      obtain ⟨status, resp⟩ := reply
      simp only [hgenerated] at hclient
      obtain ⟨delivered, hwire, hlog⟩ := hclient
      exact ⟨_, .replied status resp delivered hgenerated hwire,
        hlog.trans (List.append_assoc _ _ _)⟩
  refine ⟨e, hanswer, ?_⟩
  rw [← hlog]
  simp only [serveRound, haccept]
  split
  · exact List.prefix_rfl
  · exact closeClient_log _

theorem lengthTwo_plain : ∀ c ∈ str " 2", c ∉ ([0, 10, 13] : List Byte) := by decide +kernel

def postRequest : HttpRequest where
  line := str "POST /ocsp HTTP/1.1"
  fields := [⟨str "Host", str " a", by decide +kernel, by decide +kernel⟩,
    ⟨str "Content-Length", str " 2", contentLength_plain, lengthTwo_plain⟩]
  line_plain := by decide +kernel

theorem postRequest_announces : Announces postRequest (str "AB")
    ⟨str "Content-Length", str " 2", contentLength_plain, lengthTwo_plain⟩ :=
  ⟨⟨[⟨str "Host", str " a", by decide +kernel, by decide +kernel⟩], [], rfl,
    .inl ⟨rfl, by unfold SpelledFirst; decide +kernel⟩⟩, by decide +kernel, by decide⟩

def postRound : Round where
  signal := none
  accept := some (4, Socket.oneSegment (postRequest.header ++ str "AB"),
    [.accepted 512, .accepted 512])
  writeResponse ocspReq := if ocspReq = str "AB" then (0, str "!") else (-1, [])
  writeErrorResponse _ := (-1, [])

end Loop

end WolfCLU.Ocsp
