import WolfCLU.Ocsp.Responder

namespace WolfCLU.Ocsp
open CString

def succeeded (config : ResponderConfig) : ServerEvent → Bool
  | .replied _ ocspStatus response delivered =>
    decide (ocspStatus = .successful ∧ delivered = wireResponse config.transportType response)
  | _ => false

def successes (config : ResponderConfig) (log : List ServerEvent) : Nat :=
  log.countP (succeeded config)

def isConnection : ServerEvent → Bool
  | .accepted _ => true
  | .closed _ => true
  | _ => false

def Balanced (log : List ServerEvent) : Prop :=
  ∃ fds : List Nat, log.filter isConnection = fds.flatMap fun fd => [.accepted fd, .closed fd]

theorem balanced_nil : Balanced [] := ⟨[], rfl⟩

theorem balanced_connection {log : List ServerEvent} (h : Balanced log) (fd : Nat) {e : ServerEvent}
    (he : isConnection e = false) : Balanced (log ++ [.accepted fd, e, .closed fd]) := by
  obtain ⟨fds, hfds⟩ := h
  have haccepted : isConnection (.accepted fd) = true := rfl
  have hclosed : isConnection (.closed fd) = true := rfl
  refine ⟨fds ++ [fd], ?_⟩
  simp [haccepted, he, hclosed, hfds]

theorem transportType_ne_none (config : ResponderConfig) : config.transportType ≠ .none := by
  rw [ResponderConfig.transportType]
  split <;> simp

theorem succeeded_isConnection {config : ResponderConfig} {e : ServerEvent}
    (h : succeeded config e = true) : isConnection e = false := by
  cases e with
  | replied _ _ _ _ => rfl
  | _ => cases h

structure Served (config : ResponderConfig) (st : ResponderState) (fd : Nat) (e : ServerEvent)
    (out : Bool × ResponderState) : Prop where
  log : out.2.log = st.log ++ [e]
  reply : isConnection e = false
  fd : e.fd = fd
  clientfd : out.2.clientfd = st.clientfd
  shutdownRequested : out.2.shutdownRequested = st.shutdownRequested
  requestsProcessed : out.2.requestsProcessed =
    st.requestsProcessed + if succeeded config e then 1 else 0
  left : out.1 = true → 0 < config.nrequest ∧ config.nrequest ≤ out.2.requestsProcessed
  limit : succeeded config e = true → 0 < config.nrequest →
    config.nrequest ≤ out.2.requestsProcessed → out.1 = true

theorem serveClient_spec (config : ResponderConfig) (round : Round) (fd : Nat)
    (incoming : SocketT) (outgoing : List SendEvent) (st : ResponderState) :
    ∃ e, Served config st fd e (serveClient config round fd ⟨incoming, outgoing, []⟩ st) := by
  simp only [serveClient]
  generalize hread : transportReadRequest ⟨incoming, outgoing, []⟩ config.transportType
    st.reqBuffer = r
  by_cases hret : r.ret ≠ wolfcluSuccess
  · simp only [if_pos hret]
    exact ⟨.readFailed fd _, rfl, rfl, rfl, rfl, rfl, rfl, by simp, by simp [succeeded]⟩
  · simp only [if_neg hret]
    have hdelivered : r.client.delivered = [] := by
      have := transportReadRequest_delivered (hread ▸ not_not.mp hret)
      rwa [hread] at this
    cases hgen : generateResponse config round (requestBytes r) with
    | none => exact ⟨.refused fd _, rfl, rfl, rfl, rfl, rfl, rfl, by simp, by simp [succeeded]⟩
    | some answer =>
      obtain ⟨ocspStatus, respBuf⟩ := answer
      have hcomplete := transportSendResponse_complete r.client (transportType_ne_none config) respBuf
      rw [hdelivered, List.nil_append] at hcomplete
      simp only
      generalize transportSendResponse r.client config.transportType respBuf = sent at *
      obtain ⟨ret, client⟩ := sent
      refine ⟨.replied fd ocspStatus respBuf client.delivered, ?_⟩
      simp only at hcomplete ⊢
      by_cases hsend : ret ≠ 0
      · have hcut : client.delivered ≠ wireResponse config.transportType respBuf :=
          fun h => hsend (hcomplete.mpr h)
        simp only [if_pos hsend]
        exact ⟨rfl, rfl, rfl, rfl, rfl, by simp [succeeded, hcut, ResponderState.record], by simp,
          by simp [succeeded, hcut]⟩
      · have hsent : client.delivered = wireResponse config.transportType respBuf :=
          hcomplete.mp (not_not.mp hsend)
        simp only [if_neg hsend]
        by_cases hstatus : ocspStatus = .successful
        · simp only [if_pos hstatus]
          refine ⟨rfl, rfl, rfl, rfl, rfl, by simp [succeeded, hstatus, hsent, ResponderState.record],
            ?_, ?_⟩
          · intro h
            exact of_decide_eq_true h
          · intro _ h0 hle
            exact decide_eq_true ⟨h0, hle⟩
        · simp only [if_neg hstatus]
          refine ⟨rfl, rfl, rfl, rfl, rfl, by simp [succeeded, hstatus, ResponderState.record], ?_, ?_⟩
          · intro h
            exact of_decide_eq_true h
          · intro h
            simp [succeeded, hstatus] at h

structure Idle (config : ResponderConfig) (st : ResponderState) : Prop where
  clientfd : st.clientfd = none
  balanced : Balanced st.log
  charged : st.requestsProcessed = successes config st.log
  below : 0 < config.nrequest → st.requestsProcessed < config.nrequest

structure LimitReached (config : ResponderConfig) (st : ResponderState) (past : List ServerEvent)
    (fd : Nat) (e : ServerEvent) : Prop where
  clientfd : st.clientfd = some fd
  log : st.log = past ++ [.accepted fd, e]
  fd : e.fd = fd
  balanced : Balanced past
  succeeded : succeeded config e = true
  charged : st.requestsProcessed = successes config st.log
  limit : 0 < config.nrequest ∧ st.requestsProcessed = config.nrequest

theorem idle_serveRound {config : ResponderConfig} {st : ResponderState} (h : Idle config st)
    (round : Round) :
    (serveRound config round st).2.shutdownRequested = st.shutdownRequested ∧
      (((serveRound config round st).1 = false ∧ Idle config (serveRound config round st).2) ∨
        ((serveRound config round st).1 = true ∧
          ∃ past fd e, LimitReached config (serveRound config round st).2 past fd e)) := by
  simp only [serveRound]
  cases round.accept with
  | none => exact ⟨rfl, Or.inl ⟨rfl, h⟩⟩
  | some connection =>
    obtain ⟨fd, incoming, outgoing⟩ := connection
    obtain ⟨e, hserved⟩ := serveClient_spec config round fd incoming outgoing
      { st.record (.accepted fd) with clientfd := some fd }
    simp only
    generalize serveClient config round fd ⟨incoming, outgoing, []⟩
      { st.record (.accepted fd) with clientfd := some fd } = out at *
    obtain ⟨left, st'⟩ := out
    have hlog : st'.log = st.log ++ [.accepted fd, e] := by
      rw [hserved.log]
      simp [ResponderState.record]
    have hclient : st'.clientfd = some fd := hserved.clientfd
    have hprocessed : st'.requestsProcessed =
        st.requestsProcessed + if succeeded config e then 1 else 0 := hserved.requestsProcessed
    have hcharged : st'.requestsProcessed = successes config st'.log := by
      rw [hlog, hprocessed, h.charged, successes, successes, List.countP_append,
        List.countP_cons_of_neg (by simp [succeeded]), List.countP_singleton]
    cases left with
    | true =>
      obtain ⟨hpos, hlimit⟩ := hserved.left rfl
      have hbelow := h.below hpos
      have hsucceeded : succeeded config e = true := by
        by_contra hnot
        rw [if_neg hnot] at hprocessed
        simp only [hprocessed] at hlimit
        omega
      simp only [if_true]
      refine ⟨hserved.shutdownRequested, Or.inr ⟨trivial, st.log, fd, e, ?_⟩⟩
      refine ⟨hclient, hlog, hserved.fd, h.balanced, hsucceeded, hcharged, hpos, ?_⟩
      rw [if_pos hsucceeded] at hprocessed
      simp only at hlimit
      omega
    | false =>
      have hclose : st'.closeClient = { st'.record (.closed fd) with clientfd := none } := by
        rw [ResponderState.closeClient, hclient]
      simp only [Bool.false_eq_true, if_false, hclose]
      refine ⟨hserved.shutdownRequested, Or.inl ⟨trivial, rfl, ?_, ?_, ?_⟩⟩
      · have hround := balanced_connection h.balanced fd hserved.reply
        simpa [ResponderState.record, hlog] using hround
      · simp only [ResponderState.record, successes, List.countP_append, hcharged]
        simp [succeeded]
      · intro hpos
        have hbelow := h.below hpos
        by_contra hfull
        simp only [ResponderState.record] at hfull
        by_cases hs : succeeded config e = true
        · exact absurd (hserved.limit hs hpos (Nat.not_lt.mp hfull)) (by simp)
        · rw [if_neg hs] at hprocessed
          omega

theorem running_iff {config : ResponderConfig} {st : ResponderState} (h : Idle config st) :
    running config st = !st.shutdownRequested := by
  rcases Nat.eq_zero_or_pos config.nrequest with hzero | hpos
  · simp [running, hzero]
  · have := h.below hpos
    simp [running, this]

theorem idle_signal {config : ResponderConfig} {st : ResponderState} (h : Idle config st) :
    Idle config { st with shutdownRequested := true } :=
  ⟨h.clientfd, h.balanced, h.charged, h.below⟩

theorem limitReached_signal {config : ResponderConfig} {st : ResponderState}
    {past : List ServerEvent} {fd : Nat} {e : ServerEvent} (h : LimitReached config st past fd e) :
    LimitReached config { st with shutdownRequested := true } past fd e :=
  ⟨h.clientfd, h.log, h.fd, h.balanced, h.succeeded, h.charged, h.limit⟩

def Signalled (rounds : List Round) : Prop := ∃ round ∈ rounds, round.signal.isSome = true

theorem not_signalled_nil : ¬ Signalled [] := by
  rintro ⟨_, h, _⟩
  exact absurd h List.not_mem_nil

theorem signalled_cons {round : Round} {rounds : List Round} :
    Signalled (round :: rounds) ↔ round.signal.isSome = true ∨ Signalled rounds := by
  simp [Signalled]

theorem responderLoop_spec {config : ResponderConfig} (rounds : List Round) {st : ResponderState}
    (h : Idle config st) :
    ((responderLoop config rounds st).1 = true ∧
        ∃ past fd e, LimitReached config (responderLoop config rounds st).2 past fd e) ∨
      (((responderLoop config rounds st).1 = true ↔
          st.shutdownRequested = true ∨ Signalled rounds) ∧
        Idle config (responderLoop config rounds st).2) := by
  induction rounds generalizing st with
  | nil =>
    right
    simp [responderLoop, running_iff h, not_signalled_nil, h]
  | cons round rounds ih =>
    rw [signalled_cons]
    simp only [responderLoop]
    by_cases hcheck : round.signal = some .check
    · right
      have hidle := idle_signal h
      simp [hcheck, running_iff hidle, hidle]
    · simp only [if_neg hcheck, running_iff h]
      cases hstop : st.shutdownRequested with
      | true =>
        right
        simp [h]
      | false =>
        obtain ⟨hkeep, ⟨hleft, hidle⟩ | ⟨hleft, past, fd, e, hreached⟩⟩ := idle_serveRound h round
        · simp only [hleft, Bool.not_false, if_true, Bool.false_eq_true, if_false, false_or]
          cases hsignal : round.signal.isSome with
          | true =>
            have := ih (idle_signal hidle)
            simpa using this
          | false =>
            have := ih hidle
            rw [hkeep, hstop] at this
            simpa using this
        · left
          simp only [hleft, Bool.not_false, if_true, true_and]
          cases round.signal.isSome with
          | true => exact ⟨past, fd, e, limitReached_signal hreached⟩
          | false => exact ⟨past, fd, e, hreached⟩

def Answered (config : ResponderConfig) (log : List ServerEvent) : Prop :=
  ∃ past fd response, log = past ++ [.accepted fd,
    .replied fd .successful response (wireResponse config.transportType response), .closed fd]

theorem LimitReached.answered {config : ResponderConfig} {st : ResponderState}
    {past : List ServerEvent} {fd : Nat} {e : ServerEvent} (h : LimitReached config st past fd e) :
    Answered config (st.log ++ [.closed fd]) := by
  have hsucceeded := h.succeeded
  have hfd := h.fd
  cases e with
  | replied fd' ocspStatus response delivered =>
    obtain ⟨rfl, rfl⟩ := of_decide_eq_true hsucceeded
    obtain rfl : fd' = fd := hfd
    refine ⟨past, fd', response, ?_⟩
    rw [h.log, List.append_assoc]
    rfl
  | _ => cases hsucceeded

theorem successes_closed (config : ResponderConfig) (log : List ServerEvent) (fd : Nat) :
    successes config (log ++ [.closed fd]) = successes config log := by
  simp [successes, succeeded]

theorem ocspResponder_limit {config : ResponderConfig} (hn : 0 < config.nrequest)
    (reqBuffer : List Byte) (rounds : List Round) :
    let run := ocspResponder config reqBuffer rounds
    successes config run.state.log ≤ config.nrequest ∧
      run.state.requestsProcessed = successes config run.state.log ∧
      (run.returned = true ↔
        successes config run.state.log = config.nrequest ∨ Signalled rounds) ∧
      (successes config run.state.log = config.nrequest → Answered config run.state.log) ∧
      Balanced run.state.log := by
  have hidle : Idle config (.initial reqBuffer) := ⟨rfl, balanced_nil, rfl, fun h => h⟩
  have hspec := responderLoop_spec rounds hidle
  simp only [ocspResponder]
  generalize responderLoop config rounds _ = out at *
  obtain ⟨returned, st⟩ := out
  rcases hspec with ⟨hreturned, past, fd, e, hreached⟩ | ⟨hreturned, hend⟩
  · obtain rfl : returned = true := hreturned
    have hcharged : st.requestsProcessed = successes config st.log := hreached.charged
    have hlimit : st.requestsProcessed = config.nrequest := hreached.limit.2
    have hclose : st.closeClient = { st.record (.closed fd) with clientfd := none } := by
      rw [ResponderState.closeClient, hreached.clientfd]
    simp only [if_true, hclose, ResponderState.record, successes_closed]
    refine ⟨by omega, hcharged, by simp [← hcharged, hlimit], fun _ => hreached.answered, ?_⟩
    rw [hreached.log, List.append_assoc]
    exact balanced_connection hreached.balanced fd (succeeded_isConnection hreached.succeeded)
  · have hcharged : st.requestsProcessed = successes config st.log := hend.charged
    have hbelow : st.requestsProcessed < config.nrequest := hend.below hn
    have hclose : (if returned = true then st.closeClient else st) = st := by
      rw [ResponderState.closeClient, hend.clientfd]
      exact ite_self st
    simp only [hclose]
    have hless : ¬ successes config st.log = config.nrequest := by omega
    refine ⟨by omega, hcharged, ?_, fun h => absurd h hless, hend.balanced⟩
    simpa [hless, ResponderState.initial] using hreturned

def pingRequest : List Byte := str "POST / HTTP/1.0" ++ crlf ++ crlf ++ str "?"

def pingRound : Round where
  signal := none
  accept := some (4, Socket.oneSegment pingRequest, [.accepted 512, .accepted 512])
  writeResponse ocspReq := if ocspReq = str "?" then (0, str "!") else (-1, [])
  writeErrorResponse _ := (-1, [])

def singleRequest : ResponderConfig := ⟨1, false, ⟨-140, -156, -188, -408⟩⟩

theorem ocspResponder_single :
    let run := ocspResponder singleRequest (List.replicate reqBufferSz 0) [pingRound, pingRound]
    successes singleRequest run.state.log ≤ 1 ∧
      run.state.requestsProcessed = successes singleRequest run.state.log ∧
      (run.returned = true ↔ successes singleRequest run.state.log = 1 ∨
        Signalled [pingRound, pingRound]) ∧
      (successes singleRequest run.state.log = 1 → Answered singleRequest run.state.log) ∧
      Balanced run.state.log :=
  ocspResponder_limit (by decide) _ _

end WolfCLU.Ocsp
