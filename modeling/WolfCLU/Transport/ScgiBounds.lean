import WolfCLU.Foundation.CheckedMemory
import WolfCLU.Transport.ScgiAccepted

namespace WolfCLU.Scgi
open Buffer CString CheckedMemory

namespace Checked

def recvInto (sockfd : SocketT) (m : List Byte) (off len : Nat) :
    Option (Socket.Received Byte × List Byte) :=
  (area m off len).bind fun _ =>
    let r := recv sockfd len
    if r.n ≤ 0 then some (r, m) else (store m off r.data).map fun m => (r, m)

def readExactly (sockfd : SocketT) (buffer : List Byte) (off n totalRead : Nat) :
    Option (Int × List Byte × SocketT) :=
  if _hlt : totalRead < n then
    match recvInto sockfd buffer (off + totalRead) (n - totalRead) with
    | none => none
    | some (r, buffer) =>
      if _h : r.n ≤ 0 then some (-1, buffer, r.rest)
      else readExactly r.rest buffer off n (totalRead + r.n.toNat)
  else some (totalRead, buffer, sockfd)
termination_by n - totalRead
decreasing_by omega

def parseNetstringLength (sockfd : SocketT) (lenBuf : List Byte) (i : Nat) :
    Option (Int × Int × SocketT) :=
  if i < 15 then
    (recvInto sockfd lenBuf i 1).bind fun (r, lenBuf) =>
      if r.n ≤ 0 then some (-1, 0, r.rest)
      else
        lenBuf[i]?.bind fun c =>
          if c = 58 then
            (store lenBuf i [0]).bind fun lenBuf =>
              (scan 0 lenBuf 0).bind fun text =>
                let length := atoi text
                if length < 0 then some (-1, length, r.rest) else some (0, length, r.rest)
          else parseNetstringLength r.rest lenBuf (i + 1)
  else some (-1, 0, sockfd)
termination_by 15 - i

def parseHeadersLoop (headers : List Byte) (headerLen pos : Nat) (req : ScgiRequest) :
    Option ScgiRequest :=
  if pos < headerLen then
    (area headers pos (headerLen - pos)).bind fun left =>
      match memchr left 0 with
      | none => some req
      | some keyLen =>
        let valueOff := pos + (keyLen + 1)
        if valueOff ≥ headerLen then some req
        else
          (area headers valueOff (headerLen - valueOff)).bind fun left =>
            match memchr left 0 with
            | none => some req
            | some valueLen =>
              (scan 0 headers pos).bind fun key =>
                (scan 0 headers valueOff).bind fun value =>
                  parseHeadersLoop headers headerLen (valueOff + (valueLen + 1))
                    (assignHeader key value valueOff req)
  else some req
termination_by headerLen - pos

def parseHeaders (headers : List Byte) (headerLen : Nat) (req : ScgiRequest) :
    Option ScgiRequest :=
  parseHeadersLoop headers headerLen 0
    { req with contentLength := -1, requestMethod := none, requestUri := none }

def scgiReadRequest (sockfd : SocketT) (buffer : List Byte) (bufferSz : Int) (lenBuf comma : List Byte) :
    Option ScgiResult :=
  let req : ScgiRequest := ⟨none, 0, 0, none, none⟩
  if bufferSz ≤ 0 then some ⟨-1, buffer, req, sockfd⟩
  else
    (parseNetstringLength sockfd lenBuf 0).bind fun (ret, headerLen, sockfd) =>
      if ret ≠ 0 then some ⟨-1, buffer, req, sockfd⟩
      else if headerLen ≤ 0 ∨ headerLen ≥ bufferSz then some ⟨-1, buffer, req, sockfd⟩
      else
        (readExactly sockfd buffer 0 headerLen.toNat 0).bind fun (got, buffer, sockfd) =>
          if got ≠ headerLen then some ⟨-1, buffer, req, sockfd⟩
          else
            let pos := headerLen.toNat
            (readExactly sockfd comma 0 1 0).bind fun (got, comma, sockfd) =>
              if got ≠ 1 ∨ comma ≠ str "," then some ⟨-1, buffer, req, sockfd⟩
              else
                (parseHeaders buffer pos req).bind fun req =>
                  if req.contentLength < 0 ∨ req.contentLength > bufferSz - pos then
                    some ⟨-1, buffer, req, sockfd⟩
                  else if req.contentLength > 0 then
                    (readExactly sockfd buffer pos req.contentLength.toNat 0).bind
                      fun (got, buffer, sockfd) =>
                        if got ≠ req.contentLength then some ⟨-1, buffer, req, sockfd⟩
                        else some ⟨0, buffer,
                          { req with body := some pos, bodyLen := req.contentLength }, sockfd⟩
                  else some ⟨0, buffer, { req with body := none, bodyLen := 0 }, sockfd⟩

theorem recvInto_of_le {m : List Byte} {off len : Nat} (sockfd : SocketT) (hlen : 0 < len)
    (h : off + len ≤ m.length) :
    recvInto sockfd m off len = some (recv sockfd len,
      if (recv sockfd len).n ≤ 0 then m else blit m off (recv sockfd len).data) := by
  rw [recvInto, area_of_le h, Option.bind_some]
  rcases recv_cases sockfd hlen with ⟨hn, _⟩ | ⟨hn, hne, hmax, _⟩
  · simp only [if_pos hn]
  · have hpos := List.length_pos_iff.mpr hne
    simp only [if_neg (show ¬ (recv sockfd len).n ≤ 0 by omega)]
    rw [store_of_le (by omega), Option.map_some]

theorem readExactly_eq (sockfd : SocketT) {buffer : List Byte} {off n : Nat} (totalRead : Nat)
    (h : off + n ≤ buffer.length) :
    readExactly sockfd buffer off n totalRead =
      some (WolfCLU.readExactly sockfd buffer off n totalRead) := by
  fun_induction WolfCLU.readExactly sockfd buffer off n totalRead with
  | case1 sockfd buffer totalRead hlt r hn =>
    have hstop : (recv sockfd (n - totalRead)).n ≤ 0 := hn
    rw [readExactly, dif_pos hlt, recvInto_of_le sockfd (by omega) (by omega)]
    simp only [if_pos hstop, dif_pos hstop]
    rfl
  | case2 sockfd buffer totalRead hlt r hn ih =>
    rcases recv_cases sockfd (Nat.sub_pos_of_lt hlt) with ⟨hle, _⟩ | ⟨hlen, _, hmax, _⟩
    · exact absurd hle hn
    · have hmore : ¬ (recv sockfd (n - totalRead)).n ≤ 0 := hn
      rw [readExactly, dif_pos hlt, recvInto_of_le sockfd (by omega) (by omega)]
      simp only [if_neg hmore, dif_neg hmore]
      refine ih ?_
      rw [blit_length (by simp only [r]; omega)]
      exact h
  | case3 sockfd buffer totalRead hge =>
    rw [readExactly, dif_neg hge]

theorem parseNetstringLength_eq (sockfd : SocketT) {lenBuf : List Byte} {i : Nat}
    (hsize : lenBuf.length = 16) (hi : i ≤ 15) :
    parseNetstringLength sockfd lenBuf i =
      some (WolfCLU.parseNetstringLength sockfd (lenBuf.take i) i) := by
  induction hk : 15 - i generalizing sockfd lenBuf i with
  | zero =>
    rw [parseNetstringLength, if_neg (by omega), WolfCLU.parseNetstringLength, if_neg (by omega)]
  | succ k ih =>
    have hroom : i < 15 := by omega
    rw [parseNetstringLength, if_pos hroom, recvInto_of_le sockfd Nat.one_pos (by omega),
      WolfCLU.parseNetstringLength, Option.bind_some]
    simp only [if_pos hroom]
    rcases recv_cases sockfd Nat.one_pos with ⟨hn, _⟩ | ⟨hn, hne, hmax, _⟩
    · simp only [if_pos hn]
    · obtain ⟨c, hc⟩ : ∃ c, (recv sockfd 1).data = [c] := by
        have := List.length_pos_iff.mpr hne
        exact List.length_eq_one_iff.mp (by omega)
      have hmore : ¬ (recv sockfd 1).n ≤ 0 := by
        rw [hn, hc, List.length_singleton]
        decide
      have hfit : i + [c].length ≤ lenBuf.length := by
        rw [List.length_singleton]
        omega
      have hlen : (blit lenBuf i [c]).length = 16 := by rw [blit_length hfit, hsize]
      have hread : (blit lenBuf i [c]).take (i + 1) = lenBuf.take i ++ [c] :=
        @blit_take_append _ lenBuf [c] i (by omega)
      have hlast : (blit lenBuf i [c])[i]? = some c := by
        rw [← List.getElem?_take_of_lt (Nat.lt_succ_self i), hread,
          List.getElem?_append_right (List.length_take_le _ _), List.length_take,
          Nat.min_eq_left (by omega), Nat.sub_self]
        rfl
      simp only [if_neg hmore, hc, hlast, Option.bind_some]
      by_cases hcolon : c = 58
      · have hstr : [c] = str ":" := by rw [hcolon]; decide
        have hends : blit (blit lenBuf i [c]) i [0] = lenBuf.take i ++ 0 :: lenBuf.drop (i + 1) := by
          have hl : (lenBuf.take i ++ [c]).length = i + [(0 : Byte)].length := by
            rw [List.length_append, List.length_take, Nat.min_eq_left (by omega)]
            rfl
          rw [blit, blit_take_of_le le_rfl (by omega), blit, List.drop_left' hl, List.append_assoc]
          rfl
        rw [if_pos hcolon, if_pos hstr, store_of_le (by rw [hlen, List.length_singleton]; omega),
          Option.bind_some, hends, scan_of_mem (by simp), Option.bind_some, List.drop_zero]
        have htext : (lenBuf.take i ++ 0 :: lenBuf.drop (i + 1)).takeWhile (· ≠ 0)
            = cstr (lenBuf.take i) := cstr_append_nul _ _
        simp only [htext]
        split_ifs <;> rfl
      · have hstr : ¬ [c] = str ":" := by
          intro h
          exact hcolon (List.cons.inj (h.trans (by decide : str ":" = [58]))).1
        rw [if_neg hcolon, if_neg hstr, ih _ hlen (by omega) (by omega), hread]

theorem scan_found {headers : List Byte} {off n i : Nat}
    (h : memchr ((headers.drop off).take n) 0 = some i) :
    scan 0 headers off = some (cstr (headers.drop off)) := by
  obtain ⟨x, hx, hzero⟩ := mem_of_found h
  obtain rfl : x = 0 := by simpa using hzero
  exact scan_of_mem hx

theorem parseHeadersLoop_eq {headers : List Byte} {headerLen : Nat} (pos : Nat) (req : ScgiRequest)
    (h : headerLen ≤ headers.length) :
    parseHeadersLoop headers headerLen pos req =
      some (WolfCLU.parseHeadersLoop headers headerLen pos req) := by
  fun_induction WolfCLU.parseHeadersLoop headers headerLen pos req with
  | case1 pos req hmore key hkey =>
    rw [parseHeadersLoop, if_pos hmore, area_of_le (by omega), Option.bind_some]
    rw [show memchr ((headers.drop pos).take (headerLen - pos)) 0 = none from hkey]
  | case2 pos req hmore key keyLen hkey valueOff hend =>
    rw [parseHeadersLoop, if_pos hmore, area_of_le (by omega), Option.bind_some]
    rw [show memchr ((headers.drop pos).take (headerLen - pos)) 0 = some keyLen from hkey]
    exact if_pos hend
  | case3 pos req hmore key keyLen hkey valueOff hend value hvalue =>
    rw [parseHeadersLoop, if_pos hmore, area_of_le (by omega), Option.bind_some,
      show memchr ((headers.drop pos).take (headerLen - pos)) 0 = some keyLen from hkey]
    change (if valueOff ≥ headerLen then some req else _) = _
    rw [if_neg hend, area_of_le (by omega), Option.bind_some,
      show memchr ((headers.drop valueOff).take (headerLen - valueOff)) 0 = none from hvalue]
  | case4 pos req hmore key keyLen hkey valueOff hend value valueLen hvalue ih =>
    rw [parseHeadersLoop, if_pos hmore, area_of_le (by omega), Option.bind_some,
      show memchr ((headers.drop pos).take (headerLen - pos)) 0 = some keyLen from hkey]
    change (if valueOff ≥ headerLen then some req else _) = _
    rw [if_neg hend, area_of_le (by omega), Option.bind_some,
      show memchr ((headers.drop valueOff).take (headerLen - valueOff)) 0 = some valueLen from hvalue]
    change ((scan 0 headers pos).bind fun key => (scan 0 headers valueOff).bind fun value => _) = _
    rw [scan_found hkey, Option.bind_some, scan_found hvalue, Option.bind_some]
    exact ih
  | case5 pos req hend => rw [parseHeadersLoop, if_neg hend]

theorem parseHeaders_eq {headers : List Byte} {headerLen : Nat} (req : ScgiRequest)
    (h : headerLen ≤ headers.length) :
    parseHeaders headers headerLen req = some (WolfCLU.parseHeaders headers headerLen req) :=
  parseHeadersLoop_eq 0 _ h

theorem scgiReadRequest_eq (sockfd : SocketT) (buffer : List Byte) {lenBuf comma : List Byte}
    (hlenBuf : lenBuf.length = 16) (hcomma : comma.length = 1) :
    scgiReadRequest sockfd buffer buffer.length lenBuf comma =
      some (WolfCLU.scgiReadRequest sockfd buffer buffer.length) := by
  rw [scgiReadRequest, WolfCLU.scgiReadRequest]
  by_cases hsize : (buffer.length : Int) ≤ 0
  · simp only [if_pos hsize]
  rw [if_neg hsize, parseNetstringLength_eq sockfd hlenBuf (Nat.zero_le 15), Option.bind_some,
    List.take_zero]
  rcases WolfCLU.parseNetstringLength sockfd [] 0 with ⟨ret, headerLen, sock1⟩
  simp only [if_neg hsize]
  by_cases hret : ret ≠ 0
  · simp only [if_pos hret]
  simp only [if_neg hret]
  by_cases hheader : headerLen ≤ 0 ∨ headerLen ≥ buffer.length
  · simp only [if_pos hheader]
  have hheaderFit : 0 + headerLen.toNat ≤ buffer.length := by omega
  have hbuffer1 := readExactly_size sock1 hheaderFit
  simp only [if_neg hheader]
  rw [readExactly_eq sock1 0 hheaderFit, Option.bind_some]
  rcases hheaders : WolfCLU.readExactly sock1 buffer 0 headerLen.toNat 0 with ⟨got, buffer1, sock2⟩
  rw [hheaders] at hbuffer1
  simp only at hbuffer1 ⊢
  by_cases hgot : got ≠ headerLen
  · simp only [if_pos hgot]
  simp only [if_neg hgot]
  obtain ⟨gotComma, data, sock3, -, hfull, hread⟩ := readExactly_uniform sock2 0 (Nat.zero_le 1)
  rw [readExactly_eq sock2 0 hcomma.ge, Option.bind_some, hread comma hcomma.ge,
    hread [0] (by decide)]
  by_cases hone : gotComma = 1
  · obtain ⟨c, rfl⟩ := List.length_eq_one_iff.mp (show data.length = 1 by
      have := hfull hone
      omega)
    obtain ⟨old, rfl⟩ := List.length_eq_one_iff.mp hcomma
    have hcommas : blit [old] (0 + 0) [c] = blit [0] (0 + 0) [c] := rfl
    simp only [hcommas]
    by_cases hsep : gotComma ≠ 1 ∨ blit [0] (0 + 0) [c] ≠ str ","
    · simp only [if_pos hsep]
    · simp only [if_neg hsep]
      rw [parseHeaders_eq _ (by omega), Option.bind_some]
      generalize WolfCLU.parseHeaders buffer1 headerLen.toNat ⟨none, 0, 0, none, none⟩ = req
      by_cases hcontent : req.contentLength < 0 ∨ req.contentLength > buffer.length - headerLen.toNat
      · simp only [if_pos hcontent]
      simp only [if_neg hcontent]
      by_cases hbody : req.contentLength > 0
      · simp only [if_pos hbody]
        rw [readExactly_eq sock3 0 (by omega), Option.bind_some]
        split_ifs <;> rfl
      · simp only [if_neg hbody]
  · simp only [ne_eq, hone, not_false_eq_true, true_or, if_true]

end Checked

structure StringInside (buffer : List Byte) (headerLen off : Nat) (value : List Byte) : Prop where
  text : cstr (buffer.drop off) = value
  ends : buffer[off + value.length]? = some 0
  inside : off + value.length < headerLen

structure RequestInside (bufferSz headerLen : Nat) (pairs : List (List Byte × List Byte))
    (r : ScgiResult) : Prop where
  size : r.buffer.length = bufferSz
  method : Option.Rel (StringInside r.buffer headerLen) r.req.requestMethod
    (lastValue (str "REQUEST_METHOD") pairs)
  uri : Option.Rel (StringInside r.buffer headerLen) r.req.requestUri
    (lastValue (str "REQUEST_URI") pairs)
  contentLength : 0 ≤ r.req.contentLength
  bodyLen : r.req.bodyLen = r.req.contentLength
  bodyAt : r.req.body = if r.req.contentLength = 0 then none else some headerLen
  fits : (headerLen : Int) + r.req.contentLength ≤ bufferSz

theorem PointsTo.inside {buffer block : List Byte} {off : Option Nat} {value : Option (List Byte)}
    (h : PointsTo block off value) (hblock : buffer.take block.length = block) :
    Option.Rel (StringInside buffer block.length) off value := by
  cases h with
  | none => exact Option.Rel.none
  | @some o v hv =>
    obtain ⟨hnul, tail, htail⟩ := hv
    have hinside : o + v.length < block.length := by
      have hlen := congrArg List.length htail
      rw [List.length_drop, List.length_append, List.length_cons] at hlen
      omega
    have hat : block[o + v.length]? = some 0 := by
      rw [← List.getElem?_drop, htail, List.getElem?_append_right le_rfl, Nat.sub_self]
      rfl
    refine Option.Rel.some ⟨?_, ?_, hinside⟩
    · rw [← hblock] at htail
      exact cstr_of_terminated hnul htail
    · rw [← hblock, List.getElem?_take_of_lt hinside] at hat
      exact hat

theorem ReadAs.inside {buffer block body rest : List Byte} {pairs : List (List Byte × List Byte)}
    {r : ScgiResult} (h : ReadAs buffer block body rest pairs r)
    (hfit : block.length + body.length ≤ buffer.length)
    (hcontent : r.req.contentLength = body.length) :
    RequestInside buffer.length block.length pairs r ∧
      r.buffer.take (block.length + body.length) = block ++ body := by
  have hlen1 : (blit buffer 0 block).length = buffer.length := blit_length (by omega)
  have hfirst : (blit buffer 0 block).take block.length = block := by
    rw [blit, List.take_zero, List.nil_append, List.take_left]
  have hblock : r.buffer.take block.length = block := by
    rw [h.buffer, blit_take_of_le le_rfl (by omega), hfirst]
  refine ⟨⟨?_, h.reported.method.inside hblock, h.reported.uri.inside hblock, ?_, ?_, ?_, ?_⟩, ?_⟩
  · rw [h.buffer, blit_length (by omega), hlen1]
  · omega
  · rw [h.bodyLen, hcontent]
  · rw [h.bodyAt, hcontent]
    simp only [Int.natCast_eq_zero, List.length_eq_zero_iff]
  · omega
  · rw [h.buffer, blit_take_append (by omega), hfirst]

theorem scgiReadRequest_bounded (sockfd : SocketT) (buffer : List Byte) {lenBuf comma : List Byte}
    (hlenBuf : lenBuf.length = 16) (hcomma : comma.length = 1) :
    let r := scgiReadRequest sockfd buffer buffer.length
    Checked.scgiReadRequest sockfd buffer buffer.length lenBuf comma = some r ∧
      (r.ret = 0 → ∃ lenText pairs tail body rest,
        Socket.bytes sockfd =
          lenText ++ 58 :: (encodePairs pairs ++ tail ++ 44 :: (body ++ rest)) ∧
        (58 : Byte) ∉ lenText ∧ NulFree pairs ∧ tail.count 0 ≤ 1 ∧
        atoi (cstr lenText) = (encodePairs pairs ++ tail).length ∧
        r.req.contentLength = body.length ∧
        RequestInside buffer.length (encodePairs pairs ++ tail).length pairs r ∧
        r.buffer.take ((encodePairs pairs ++ tail).length + body.length)
          = encodePairs pairs ++ tail ++ body) := by
  intro r
  refine ⟨Checked.scgiReadRequest_eq sockfd buffer hlenBuf hcomma, fun hret => ?_⟩
  obtain ⟨lenText, pairs, tail, value, body, rest, haccepts⟩ := scgiReadRequest_accepts hret
  have hread := haccepts.readAs
  have hcontent : r.req.contentLength = body.length := by
    rw [hread.reported.contentLength, haccepts.contentLength]
    exact haccepts.bodyLen
  obtain ⟨hinside, hbytes⟩ := hread.inside haccepts.bodyFits hcontent
  exact ⟨lenText, pairs, tail, body, rest, haccepts.stream, haccepts.colon, haccepts.nulFree,
    haccepts.unfinished, haccepts.headerLen, hcontent, hinside, hbytes⟩

def postBuffer : List Byte := List.replicate 64 0

def postRun : ScgiResult :=
  scgiReadRequest (Socket.oneSegment (encodeRequest postPairs (str "hi"))) postBuffer
    postBuffer.length

theorem scgiReadRequest_bounded_post :
    Checked.scgiReadRequest (Socket.oneSegment (encodeRequest postPairs (str "hi"))) postBuffer
        postBuffer.length (List.replicate 16 0) [0] = some postRun ∧
      ∃ lenText pairs tail body rest,
        Socket.bytes (Socket.oneSegment (encodeRequest postPairs (str "hi"))) =
          lenText ++ 58 :: (encodePairs pairs ++ tail ++ 44 :: (body ++ rest)) ∧
        (58 : Byte) ∉ lenText ∧ NulFree pairs ∧ tail.count 0 ≤ 1 ∧
        atoi (cstr lenText) = (encodePairs pairs ++ tail).length ∧
        postRun.req.contentLength = body.length ∧
        RequestInside postBuffer.length (encodePairs pairs ++ tail).length pairs postRun ∧
        postRun.buffer.take ((encodePairs pairs ++ tail).length + body.length)
          = encodePairs pairs ++ tail ++ body := by
  obtain ⟨hrun, hread⟩ := scgiReadRequest_bounded
    (Socket.oneSegment (encodeRequest postPairs (str "hi"))) postBuffer
    (List.length_replicate (n := 16)) (List.length_singleton (a := 0))
  exact ⟨hrun, hread (by decide +kernel)⟩

def lengthOnlyPairs : List (List Byte × List Byte) := [(str "CONTENT_LENGTH", str "0")]

theorem request_without_method :
    ¬ ∀ (sockfd : SocketT) (buffer : List Byte),
      let r := scgiReadRequest sockfd buffer buffer.length
      r.ret = 0 → ∃ off body, r.req.requestMethod = some off ∧ r.req.body = some body := by
  intro h
  have hcase := h (Socket.oneSegment (encodeRequest lengthOnlyPairs [])) (List.replicate 64 0)
    (by decide +kernel)
  obtain ⟨off, body, hmethod, -⟩ := hcase
  have hnone : (scgiReadRequest (Socket.oneSegment (encodeRequest lengthOnlyPairs []))
      (List.replicate 64 0) (List.replicate 64 (0 : Byte)).length).req.requestMethod = none := by
    decide +kernel
  rw [hnone] at hmethod
  cases hmethod

end WolfCLU.Scgi
