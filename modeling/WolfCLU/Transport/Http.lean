import WolfCLU.Transport.Recv

namespace WolfCLU
open Buffer CString

def crlfcrlf : List Byte := [13, 10, 13, 10]

structure RecvState where
  totalLen : Nat
  contentLen : Int
  headerSz : Nat
  buffer : List Byte

def contentLengthAt (buffer : List Byte) : Option Nat :=
  match strstr (str "Content-Length:") (cstr buffer) with
  | some cl => some cl
  | none => strstr (str "content-length:") (cstr buffer)

def receive (st : RecvState) (r : Socket.Received Byte) : RecvState :=
  let totalLen := st.totalLen + r.n.toNat
  { st with
    totalLen := totalLen
    buffer := blit (blit st.buffer st.totalLen r.data) totalLen [0] }

def expectedLen (bufferSz headerSz : Nat) (buffer : List Byte) (contentLen : Int) : Int :=
  match contentLengthAt buffer with
  | none => contentLen
  | some cl =>
    let contentLen := atoi ((cstr buffer).drop (cl + 15))
    let contentLen := if contentLen < 0 then 0 else contentLen
    let space : Int := bufferSz - 1 - headerSz
    if contentLen > space then space else contentLen

def recvHeader (bufferSz : Nat) (st : RecvState) : RecvState :=
  if st.headerSz = 0 then
    match strstr crlfcrlf (cstr st.buffer) with
    | none => st
    | some hdrEnd =>
      { st with
        headerSz := hdrEnd + 4
        contentLen := expectedLen bufferSz (hdrEnd + 4) st.buffer st.contentLen }
  else st

@[simp] theorem recvHeader_totalLen (bufferSz : Nat) (st : RecvState) :
    (recvHeader bufferSz st).totalLen = st.totalLen := by
  unfold recvHeader
  repeat' split
  all_goals rfl

@[simp] theorem recvHeader_buffer (bufferSz : Nat) (st : RecvState) :
    (recvHeader bufferSz st).buffer = st.buffer := by
  unfold recvHeader
  repeat' split
  all_goals rfl

def httpServerRecvLoop (bufferSz : Nat) (clientfd : SocketT) (st : RecvState) :
    RecvState × SocketT :=
  if hlt : st.totalLen < bufferSz - 1 then
    let r := recv clientfd (bufferSz - 1 - st.totalLen)
    if _hn : r.n ≤ 0 then (st, r.rest)
    else
      let st' := recvHeader bufferSz (receive st r)
      if st'.headerSz > 0 ∧ (st'.totalLen : Int) - st'.headerSz ≥ st'.contentLen then (st', r.rest)
      else httpServerRecvLoop bufferSz r.rest st'
  else (st, clientfd)
termination_by bufferSz - 1 - st.totalLen
decreasing_by
  simp only [st', r, recvHeader_totalLen, receive] at *
  omega

def httpServerRecv (clientfd : SocketT) (buffer : List Byte) (bufferSz : Nat) :
    RecvState × SocketT :=
  httpServerRecvLoop bufferSz clientfd
    { totalLen := 0, contentLen := 0, headerSz := 0, buffer := buffer }

structure ParsedRequest where
  ret : Int
  body : Option Nat
  bodySz : Int
  deriving DecidableEq, Repr

def parsedContentLength (httpReq : List Byte) : Int :=
  match contentLengthAt httpReq with
  | none => 0
  | some cl => atoi ((cstr httpReq).drop (cl + 15))

def httpServerParseRequest (httpReq : List Byte) (httpReqSz : Nat) : ParsedRequest :=
  if httpReqSz < (str "POST ").length then ⟨-1, none, 0⟩
  else if httpReq.take 5 ≠ str "POST " then ⟨-1, none, 0⟩
  else
    let contentLen := contentLengthAt httpReq
    let bodySz := parsedContentLength httpReq
    if contentLen.isSome ∧ bodySz ≤ 0 then ⟨-1, none, bodySz⟩
    else
      let searched := contentLen.getD 0
      match strstr crlfcrlf ((cstr httpReq).drop searched) with
      | none => ⟨-1, none, bodySz⟩
      | some i =>
        let bodyStart := searched + i + 4
        let bodyAvail : Int := httpReqSz - bodyStart
        if bodySz = 0 then ⟨0, some bodyStart, bodyAvail⟩
        else if bodySz > bodyAvail then ⟨-1, none, bodySz⟩
        else ⟨0, some bodyStart, bodySz⟩

end WolfCLU
