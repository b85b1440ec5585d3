import WolfCLU.Ocsp.Transport

namespace WolfCLU.Ocsp
open CString

inductive OcspStatus where
  | successful
  | malformedRequest
  | internalError
  | unauthorized
  deriving DecidableEq, Repr

structure OcspCodes where
  asnParseE : Int
  asnSigHashE : Int
  asnNoSignerE : Int
  ocspCertUnknown : Int

def OcspCodes.status (codes : OcspCodes) (ret : Int) : OcspStatus :=
  if ret = codes.asnParseE then .malformedRequest
  else if ret = codes.asnSigHashE then .internalError
  else if ret = codes.asnNoSignerE then .unauthorized
  else if ret = codes.ocspCertUnknown then .unauthorized
  else .internalError

structure ResponderConfig where
  nrequest : Nat
  scgiMode : Bool
  codes : OcspCodes

def ResponderConfig.transportType (config : ResponderConfig) : TransportType :=
  if config.scgiMode then .scgi else .http

inductive Stage where
  | check
  | accept
  | read
  | process
  | send
  deriving DecidableEq, Repr

structure Round where
  signal : Option Stage
  accept : Option (Nat × SocketT × List SendEvent)
  writeResponse : List Byte → Int × List Byte
  writeErrorResponse : OcspStatus → Int × List Byte

inductive ServerEvent where
  | accepted (fd : Nat)
  | readFailed (fd : Nat) (delivered : List Byte)
  | refused (fd : Nat) (delivered : List Byte)
  | replied (fd : Nat) (status : OcspStatus) (response delivered : List Byte)
  | closed (fd : Nat)
  deriving DecidableEq, Repr

structure ResponderState where
  requestsProcessed : Nat
  shutdownRequested : Bool
  clientfd : Option Nat
  reqBuffer : List Byte
  log : List ServerEvent

def ServerEvent.fd : ServerEvent → Nat
  | .accepted fd => fd
  | .readFailed fd _ => fd
  | .refused fd _ => fd
  | .replied fd _ _ _ => fd
  | .closed fd => fd

def ResponderState.initial (reqBuffer : List Byte) : ResponderState where
  requestsProcessed := 0
  shutdownRequested := false
  clientfd := none
  reqBuffer := reqBuffer
  log := []

def ResponderState.record (st : ResponderState) (e : ServerEvent) : ResponderState :=
  { st with log := st.log ++ [e] }

def ResponderState.closeClient (st : ResponderState) : ResponderState :=
  match st.clientfd with
  | none => st
  | some fd => { st.record (.closed fd) with clientfd := none }

def requestBytes (r : RequestRead) : List Byte :=
  match r.ocspReq with
  | none => []
  | some off => (r.reqBuffer.drop off).take r.ocspReqSz.toNat

def generateResponse (config : ResponderConfig) (round : Round) (ocspReq : List Byte) :
    Option (OcspStatus × List Byte) :=
  let (ret, respBuf) := round.writeResponse ocspReq
  if ret = 0 then some (.successful, respBuf)
  else
    let ocspStatus := config.codes.status ret
    let (ret, respBuf) := round.writeErrorResponse ocspStatus
    if ret = 0 then some (ocspStatus, respBuf) else none

def serveClient (config : ResponderConfig) (round : Round) (fd : Nat) (client : Client)
    (st : ResponderState) : Bool × ResponderState :=
  let r := transportReadRequest client config.transportType st.reqBuffer
  let st := { st with reqBuffer := r.reqBuffer }
  if r.ret ≠ wolfcluSuccess then (false, st.record (.readFailed fd r.client.delivered))
  else
    match generateResponse config round (requestBytes r) with
    | none =>
      let client :=
        transportSendError r.client config.transportType 500 (str "Internal Server Error")
      (false, st.record (.refused fd client.delivered))
    | some (ocspStatus, respBuf) =>
      let (ret, client) := transportSendResponse r.client config.transportType respBuf
      let st := st.record (.replied fd ocspStatus respBuf client.delivered)
      if ret ≠ 0 then (false, st)
      else
        let st := if ocspStatus = .successful then
          { st with requestsProcessed := st.requestsProcessed + 1 } else st
        (decide (config.nrequest > 0 ∧ st.requestsProcessed ≥ config.nrequest), st)

def serveRound (config : ResponderConfig) (round : Round) (st : ResponderState) :
    Bool × ResponderState :=
  match round.accept with
  | none => (false, st)
  | some (fd, incoming, outgoing) =>
    let st := { st.record (.accepted fd) with clientfd := some fd }
    let (left, st) := serveClient config round fd ⟨incoming, outgoing, []⟩ st
    if left then (true, st) else (false, st.closeClient)

def running (config : ResponderConfig) (st : ResponderState) : Bool :=
  !st.shutdownRequested && (config.nrequest = 0 || st.requestsProcessed < config.nrequest)

def responderLoop (config : ResponderConfig) :
    List Round → ResponderState → Bool × ResponderState
  | [], st => (!running config st, st)
  | round :: rounds, st =>
    let st := if round.signal = some .check then { st with shutdownRequested := true } else st
    if running config st then
      let (left, st) := serveRound config round st
      let st := if round.signal.isSome then { st with shutdownRequested := true } else st
      if left then (true, st) else responderLoop config rounds st
    else (true, st)

structure ResponderRun where
  returned : Bool
  state : ResponderState

def ocspResponder (config : ResponderConfig) (reqBuffer : List Byte) (rounds : List Round) :
    ResponderRun :=
  let (returned, st) := responderLoop config rounds (.initial reqBuffer)
  ⟨returned, if returned then st.closeClient else st⟩

end WolfCLU.Ocsp
