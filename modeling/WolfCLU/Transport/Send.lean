import WolfCLU.Transport.Recv

namespace WolfCLU
open CString

inductive SendEvent where
  | interrupted
  | failed
  | accepted (n : Nat)
  deriving DecidableEq, Repr

structure Client where
  incoming : SocketT
  outgoing : List SendEvent
  delivered : List Byte
  deriving DecidableEq, Repr

def sendLoop (buf : List Byte) (sent : Nat) : List SendEvent → Int × Nat × List SendEvent
  | [] => if sent < buf.length then (-1, sent, []) else (sent, sent, [])
  | e :: s =>
    if sent < buf.length then
      match e with
      | .interrupted => sendLoop buf sent s
      | .failed => (-1, sent, s)
      | .accepted n =>
        if n = 0 then (-1, sent, s) else sendLoop buf (sent + min n (buf.length - sent)) s
    else (sent, sent, e :: s)

def sendAll (client : Client) (buf : List Byte) : Int × Client :=
  let (ret, sent, outgoing) := sendLoop buf 0 client.outgoing
  (ret, { client with outgoing := outgoing, delivered := client.delivered ++ buf.take sent })

theorem sendLoop_cases (buf : List Byte) (sent : Nat) (s : List SendEvent)
    (h : sent ≤ buf.length) :
    ((sendLoop buf sent s).1 = -1 ∧ (sendLoop buf sent s).2.1 < buf.length) ∨
      ((sendLoop buf sent s).1 = buf.length ∧ (sendLoop buf sent s).2.1 = buf.length) := by
  induction s generalizing sent with
  | nil =>
    simp only [sendLoop]
    split
    · left
      exact ⟨rfl, by assumption⟩
    · right
      constructor <;> dsimp only <;> omega
  | cons e s ih =>
    simp only [sendLoop]
    split
    · rename_i hlt
      cases e with
      | interrupted => exact ih sent h
      | failed => exact Or.inl ⟨rfl, hlt⟩
      | accepted n =>
        dsimp only
        split
        · exact Or.inl ⟨rfl, hlt⟩
        · exact ih _ (by omega)
    · right
      constructor <;> dsimp only <;> omega

theorem sendAll_cases (client : Client) (buf : List Byte) :
    ((sendAll client buf).1 = -1 ∧ ∃ part, part.length < buf.length ∧
        (sendAll client buf).2.delivered = client.delivered ++ part) ∨
      ((sendAll client buf).1 = buf.length ∧
        (sendAll client buf).2.delivered = client.delivered ++ buf) := by
  rcases sendLoop_cases buf 0 client.outgoing (Nat.zero_le _) with ⟨hret, hsent⟩ | ⟨hret, hsent⟩
  · refine Or.inl ⟨hret, buf.take (sendLoop buf 0 client.outgoing).2.1, ?_, rfl⟩
    rw [List.length_take]
    omega
  · refine Or.inr ⟨hret, ?_⟩
    change client.delivered ++ buf.take (sendLoop buf 0 client.outgoing).2.1 = _
    rw [hsent, List.take_length]

def crlf : List Byte := [13, 10]

def headerCapacity : Nat := 512

def sendResponse (client : Client) (header body : List Byte) : Int × Client :=
  if header.length ≥ headerCapacity then (-1, client)
  else
    let (sent, client) := sendAll client header
    if sent ≠ header.length then (-1, client)
    else if body.length > 0 then
      let (sent, client) := sendAll client body
      if sent ≠ body.length then (-1, client) else (0, client)
    else (0, client)

theorem sendResponse_complete (client : Client) (header body : List Byte) :
    (sendResponse client header body).1 = 0 ↔
      (sendResponse client header body).2.delivered = client.delivered ++ (header ++ body) := by
  have hfail : ¬ (-1 : Int) = 0 := by decide
  have hshort (part : List Byte) (h : part.length < header.length + body.length) :
      client.delivered ++ part ≠ client.delivered ++ (header ++ body) := by
    intro heq
    have := congrArg List.length (List.append_cancel_left heq)
    rw [List.length_append] at this
    omega
  simp only [sendResponse]
  split
  · rename_i hcap
    simp only [headerCapacity] at hcap
    have := hshort [] (by simp only [List.length_nil]; omega)
    rw [List.append_nil] at this
    exact iff_of_false hfail this
  rcases sendAll_cases client header with ⟨hret, part, hpart, hdelivered⟩ | ⟨hret, hdelivered⟩
  · rw [if_pos (by omega)]
    exact iff_of_false hfail (hdelivered ▸ hshort part (by omega))
  · rw [if_neg (by omega)]
    split
    · rcases sendAll_cases (sendAll client header).2 body with
        ⟨hret', part, hpart, hdelivered'⟩ | ⟨hret', hdelivered'⟩
      · rw [if_pos (by omega)]
        refine iff_of_false hfail ?_
        rw [hdelivered', hdelivered, List.append_assoc]
        exact hshort _ (by rw [List.length_append]; omega)
      · rw [if_neg (by omega)]
        refine iff_of_true rfl ?_
        rw [hdelivered', hdelivered, List.append_assoc]
    · rename_i hempty
      obtain rfl : body = [] := List.length_eq_zero_iff.mp (by omega)
      refine iff_of_true rfl ?_
      rw [hdelivered, List.append_nil]

def httpResponseHeader (bodySz : Nat) : List Byte :=
  str "HTTP/1.0 200 OK" ++ crlf ++
  str "Content-Type: application/ocsp-response" ++ crlf ++
  str "Content-Length: " ++ decimal bodySz ++ crlf ++
  str "Connection: close" ++ crlf ++ crlf

def httpServerSendOcspResponse (client : Client) (body : List Byte) : Int × Client :=
  sendResponse client (httpResponseHeader body.length) body

def httpErrorResponse (statusCode : Nat) (statusMsg : List Byte) : List Byte :=
  str "HTTP/1.0 " ++ decimal statusCode ++ str " " ++ statusMsg ++ crlf ++
  str "Content-Type: text/plain" ++ crlf ++
  str "Content-Length: " ++ decimal statusMsg.length ++ crlf ++
  str "Connection: close" ++ crlf ++ crlf ++ statusMsg

def httpServerSendError (client : Client) (statusCode : Nat) (statusMsg : List Byte) :
    Int × Client :=
  let response := httpErrorResponse statusCode statusMsg
  if response.length ≥ headerCapacity then (-1, client)
  else
    let (sent, client) := sendAll client response
    (if sent = response.length then 0 else -1, client)

def scgiResponseHeader (statusCode : Nat) (statusText contentType : List Byte) (bodyLen : Nat) :
    List Byte :=
  str "Status: " ++ decimal statusCode ++ str " " ++ statusText ++ crlf ++
  str "Content-Type: " ++ contentType ++ crlf ++
  str "Content-Length: " ++ decimal bodyLen ++ crlf ++ crlf

def scgiSendResponse (client : Client) (statusCode : Nat)
    (statusText contentType body : List Byte) : Int × Client :=
  sendResponse client (scgiResponseHeader statusCode statusText contentType body.length) body

def scgiSendError (client : Client) (statusCode : Nat) (statusText : List Byte) : Int × Client :=
  scgiSendResponse client statusCode statusText (str "text/plain") statusText

end WolfCLU
