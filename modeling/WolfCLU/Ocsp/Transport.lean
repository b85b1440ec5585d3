import WolfCLU.ErrorCodes
import WolfCLU.Transport.Http
import WolfCLU.Transport.Scgi
import WolfCLU.Transport.Send

namespace WolfCLU
open CString

inductive TransportType where
  | none
  | http
  | scgi
  deriving DecidableEq, Repr

def reqBufferSz : Nat := 16384

structure RequestRead where
  ret : Int
  ocspReq : Option Nat
  ocspReqSz : Int
  reqBuffer : List Byte
  client : Client

def transportSendError (client : Client) (transportType : TransportType) (statusCode : Nat)
    (statusMsg : List Byte) : Client :=
  match transportType with
  | .http => (httpServerSendError client statusCode statusMsg).2
  | .scgi => (scgiSendError client statusCode statusMsg).2
  | .none => client

def transportSendResponse (client : Client) (transportType : TransportType)
    (respBuf : List Byte) : Int × Client :=
  match transportType with
  | .http => httpServerSendOcspResponse client respBuf
  | .scgi => scgiSendResponse client 200 (str "OK") (str "application/ocsp-response") respBuf
  | .none => (wolfcluFatalError, client)

def wireResponse (transportType : TransportType) (respBuf : List Byte) : List Byte :=
  match transportType with
  | .http => httpResponseHeader respBuf.length ++ respBuf
  | .scgi =>
    scgiResponseHeader 200 (str "OK") (str "application/ocsp-response") respBuf.length ++ respBuf
  | .none => []

theorem transportSendResponse_complete (client : Client) {transportType : TransportType}
    (h : transportType ≠ .none) (respBuf : List Byte) :
    (transportSendResponse client transportType respBuf).1 = 0 ↔
      (transportSendResponse client transportType respBuf).2.delivered =
        client.delivered ++ wireResponse transportType respBuf := by
  cases transportType with
  | none => exact absurd rfl h
  | http => exact sendResponse_complete client _ respBuf
  | scgi => exact sendResponse_complete client _ respBuf

def httpReadRequest (client : Client) (reqBuffer : List Byte) : RequestRead :=
  let (st, sock) := httpServerRecv client.incoming reqBuffer reqBufferSz
  let client := { client with incoming := sock }
  if st.totalLen = 0 then ⟨wolfcluFatalError, none, 0, st.buffer, client⟩
  else
    let parsed := httpServerParseRequest st.buffer st.totalLen
    if parsed.ret ≠ 0 ∨ parsed.body = none ∨ parsed.bodySz ≤ 0 then
      ⟨wolfcluFatalError, parsed.body, parsed.bodySz, st.buffer,
        (httpServerSendError client 400 (str "Bad Request")).2⟩
    else ⟨wolfcluSuccess, parsed.body, parsed.bodySz, st.buffer, client⟩

def scgiReadOcspRequest (client : Client) (reqBuffer : List Byte) : RequestRead :=
  let r := scgiReadRequest client.incoming reqBuffer reqBufferSz
  let client := { client with incoming := r.sockfd }
  if r.ret ≠ 0 then ⟨wolfcluFatalError, none, 0, r.buffer, client⟩
  else if (r.req.requestMethod.map fun off => cstr (r.buffer.drop off)) ≠ some (str "POST") then
    ⟨wolfcluFatalError, none, 0, r.buffer,
      (scgiSendError client 405 (str "Method Not Allowed")).2⟩
  else if r.req.body = none ∨ r.req.bodyLen ≤ 0 then
    ⟨wolfcluFatalError, none, 0, r.buffer, (scgiSendError client 400 (str "Bad Request")).2⟩
  else ⟨wolfcluSuccess, r.req.body, r.req.bodyLen, r.buffer, client⟩

def transportReadRequest (client : Client) (transportType : TransportType)
    (reqBuffer : List Byte) : RequestRead :=
  match transportType with
  | .http => httpReadRequest client reqBuffer
  | .scgi => scgiReadOcspRequest client reqBuffer
  | .none => ⟨wolfcluFatalError, none, 0, reqBuffer, client⟩

theorem transportReadRequest_delivered {client : Client} {transportType : TransportType}
    {reqBuffer : List Byte}
    (h : (transportReadRequest client transportType reqBuffer).ret = wolfcluSuccess) :
    (transportReadRequest client transportType reqBuffer).client.delivered = client.delivered := by
  have hfatal : ¬ wolfcluFatalError = wolfcluSuccess := by decide
  cases transportType with
  | none => rfl
  | http =>
    simp only [transportReadRequest, httpReadRequest] at h ⊢
    split at h
    · exact absurd h hfatal
    · split at h
      · exact absurd h hfatal
      · simp only [*, if_false]
  | scgi =>
    simp only [transportReadRequest, scgiReadOcspRequest] at h ⊢
    split at h
    · exact absurd h hfatal
    · split at h
      · exact absurd h hfatal
      · split at h
        · exact absurd h hfatal
        · simp only [*, if_false]

end WolfCLU
