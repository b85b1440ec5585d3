import WolfCLU.Ocsp.IndexFile
import WolfCLU.Ocsp.Responder
import WolfCLU.Tools.HexToBin

namespace WolfCLU.Ocsp
open CString

inductive CertStatus where
  | good
  | revoked
  | unknown
  deriving DecidableEq, Repr

structure StatusCall where
  serial : List Byte
  status : CertStatus
  revTime : Int
  validity : Nat
  deriving DecidableEq, Repr

structure StatusLib (τ : Type) where
  alloc : Nat → Bool
  base16Decode : List Byte → Except Int (List Byte)
  setCertStatus : τ → StatusCall → Int × τ
  writeResponse : τ → List Byte → Int × List Byte

def entryStatus (status : Byte) : CertStatus :=
  if status = 86 then .good else if status = 82 then .revoked else .unknown

def entryCall (entry : IndexEntry) (serial : List Byte) : StatusCall :=
  let status := entryStatus entry.status
  { serial := serial
    status := status
    revTime := if status = .revoked then entry.revocationTime else 0
    validity := if status = .good then 86400 else 0 }

section Populate
variable {τ : Type} (lib : StatusLib τ)

def entryStep (responder : τ) (entry : IndexEntry) : τ :=
  match hexToBytes lib.alloc lib.base16Decode entry.serial with
  | .error _ => responder
  | .ok serial => (lib.setCertStatus responder (entryCall entry serial)).2

def populate (responder : τ) (indexEntries : List IndexEntry) : τ :=
  indexEntries.foldl (entryStep lib) responder

end Populate

section Table
variable {τ : Type} {lib : StatusLib τ}

structure StatusLib.Documented (lib : StatusLib τ) (held : τ → List Byte → Option StatusCall)
    (accepts : StatusCall → Bool) (reports : List Byte → List (List Byte × CertStatus)) : Prop where
  decode : ∀ hex, (lib.base16Decode hex).toOption = hexPairs hex
  set : ∀ t call serial, held (lib.setCertStatus t call).2 serial =
    if accepts call = true ∧ call.serial = serial then some call else held t serial
  respond : ∀ t req resp, lib.writeResponse t req = (0, resp) →
    ∀ serial status, (serial, status) ∈ reports resp → status ≠ .unknown →
      ∃ call, held t serial = some call ∧ call.status = status

variable {held : τ → List Byte → Option StatusCall} {accepts : StatusCall → Bool}
  {reports : List Byte → List (List Byte × CertStatus)}

def callOf (entry : IndexEntry) : Option StatusCall := (hexPairs entry.serial).map (entryCall entry)

def Decides (accepts : StatusCall → Bool) (serial : List Byte) (entry : IndexEntry) : Prop :=
  ∃ call, callOf entry = some call ∧ accepts call = true ∧ call.serial = serial

theorem held_entryStep (hdoc : lib.Documented held accepts reports)
    (halloc : ∀ n, lib.alloc n = true) (t : τ) (entry : IndexEntry) (serial : List Byte) :
    held (entryStep lib t entry) serial =
      match callOf entry with
      | none => held t serial
      | some call => if accepts call = true ∧ call.serial = serial then some call else held t serial := by
  have hdecode := hdoc.decode entry.serial
  have hhex : hexToBytes lib.alloc lib.base16Decode entry.serial = lib.base16Decode entry.serial :=
    if_pos (halloc _)
  unfold entryStep callOf
  rw [hhex]
  cases hbytes : lib.base16Decode entry.serial with
  | error e =>
    rw [hbytes] at hdecode
    rw [← hdecode]
    rfl
  | ok bytes =>
    rw [hbytes] at hdecode
    rw [← hdecode]
    exact hdoc.set t _ serial

theorem held_populate (hdoc : lib.Documented held accepts reports)
    (halloc : ∀ n, lib.alloc n = true) (entries : List IndexEntry) (t : τ) (serial : List Byte) :
    (held (populate lib t entries) serial = held t serial ∧
        ∀ entry ∈ entries, ¬ Decides accepts serial entry) ∨
      ∃ front entry back, entries = front ++ entry :: back ∧ Decides accepts serial entry ∧
        (∀ later ∈ back, ¬ Decides accepts serial later) ∧
        held (populate lib t entries) serial = callOf entry := by
  induction entries using List.reverseRecOn with
  | nil => exact Or.inl ⟨rfl, by simp⟩
  | append_singleton entries last ih =>
    have hstep : held (populate lib t (entries ++ [last])) serial = _ :=
      (congrArg (held · serial) (List.foldl_concat (entryStep lib) t last entries)).trans
        (held_entryStep hdoc halloc _ last serial)
    by_cases hlast : Decides accepts serial last
    · right
      obtain ⟨call, hcall, haccepts, hserial⟩ := hlast
      refine ⟨entries, last, [], rfl, ⟨call, hcall, haccepts, hserial⟩, by simp, ?_⟩
      rw [hstep, hcall]
      exact if_pos ⟨haccepts, hserial⟩
    · have hsame : held (populate lib t (entries ++ [last])) serial =
          held (populate lib t entries) serial := by
        rw [hstep]
        cases hcall : callOf last with
        | none => rfl
        | some call =>
          refine if_neg ?_
          rintro ⟨haccepts, hserial⟩
          exact hlast ⟨call, hcall, haccepts, hserial⟩
      rw [hsame]
      rcases ih with ⟨heq, hnone⟩ | ⟨front, entry, back, rfl, hdecides, hback, heq⟩
      · left
        refine ⟨heq, ?_⟩
        intro entry hentry
        rcases List.mem_append.mp hentry with hentry | hentry
        · exact hnone entry hentry
        · rw [List.mem_singleton.mp hentry]
          exact hlast
      · right
        refine ⟨front, entry, back ++ [last], by simp, hdecides, ?_, heq⟩
        intro later hlater
        rcases List.mem_append.mp hlater with hlater | hlater
        · exact hback later hlater
        · rw [List.mem_singleton.mp hlater]
          exact hlast

end Table

section Replies
variable {config : ResponderConfig} {writeResponse : List Byte → Int × List Byte}

def Genuine (writeResponse : List Byte → Int × List Byte) (log : List ServerEvent) : Prop :=
  ∀ fd resp delivered, ServerEvent.replied fd .successful resp delivered ∈ log →
    ∃ req, writeResponse req = (0, resp)

theorem genuine_append {log : List ServerEvent} {e : ServerEvent} (h : Genuine writeResponse log)
    (he : ∀ fd resp delivered, e = .replied fd .successful resp delivered →
      ∃ req, writeResponse req = (0, resp)) : Genuine writeResponse (log ++ [e]) := by
  intro fd resp delivered hmem
  rcases List.mem_append.mp hmem with hmem | hmem
  · exact h fd resp delivered hmem
  · exact he fd resp delivered (List.mem_singleton.mp hmem).symm

theorem generateResponse_successful {round : Round} {req resp : List Byte}
    (h : generateResponse config round req = some (.successful, resp)) :
    round.writeResponse req = (0, resp) ∨ ∃ ret, config.codes.status ret = .successful := by
  simp only [generateResponse] at h
  split at h
  · rename_i hret
    cases h
    exact Or.inl (Prod.ext hret rfl)
  · split at h
    · rename_i hstatus
      simp only [Option.some.injEq, Prod.mk.injEq] at h
      exact Or.inr ⟨_, h.1⟩
    · cases h

theorem status_failed (codes : OcspCodes) (ret : Int) : codes.status ret ≠ .successful := by
  unfold OcspCodes.status
  split_ifs <;> decide

theorem serveClient_genuine {round : Round} (hround : round.writeResponse = writeResponse)
    (fd : Nat) (client : Client) (st : ResponderState) (h : Genuine writeResponse st.log) :
    Genuine writeResponse (serveClient config round fd client st).2.log := by
  simp only [serveClient]
  split
  · exact genuine_append h (by simp)
  · split
    · exact genuine_append h (by simp)
    · rename_i ocspStatus resp hresponse
      have hreply : Genuine writeResponse (st.log ++ [.replied fd ocspStatus resp
          (transportSendResponse (transportReadRequest client config.transportType
            st.reqBuffer).client config.transportType resp).2.delivered]) := by
        refine genuine_append h ?_
        intro fd' resp' delivered' heq
        cases heq
        rcases generateResponse_successful hresponse with hwritten | ⟨ret, hret⟩
        · exact ⟨_, hround ▸ hwritten⟩
        · exact absurd hret (status_failed _ _)
      split
      · exact hreply
      · split <;> exact hreply

theorem closeClient_genuine {st : ResponderState} (h : Genuine writeResponse st.log) :
    Genuine writeResponse st.closeClient.log := by
  unfold ResponderState.closeClient
  split
  · exact h
  · exact genuine_append h (by simp)

theorem serveRound_genuine {round : Round} (hround : round.writeResponse = writeResponse)
    {st : ResponderState} (h : Genuine writeResponse st.log) :
    Genuine writeResponse (serveRound config round st).2.log := by
  simp only [serveRound]
  split
  · exact h
  · rename_i fd incoming outgoing _
    have haccepted : Genuine writeResponse (st.log ++ [.accepted fd]) :=
      genuine_append h (by simp)
    have hserved : Genuine writeResponse (serveClient config round fd ⟨incoming, outgoing, []⟩
        { st.record (.accepted fd) with clientfd := some fd }).2.log :=
      serveClient_genuine hround fd _ _ haccepted
    split
    · exact hserved
    · exact closeClient_genuine hserved

theorem responderLoop_genuine {rounds : List Round}
    (hrounds : ∀ round ∈ rounds, round.writeResponse = writeResponse) {st : ResponderState}
    (h : Genuine writeResponse st.log) :
    Genuine writeResponse (responderLoop config rounds st).2.log := by
  induction rounds generalizing st with
  | nil => exact h
  | cons round rounds ih =>
    have hrest : ∀ round ∈ rounds, round.writeResponse = writeResponse := fun r hr =>
      hrounds r (List.mem_cons_of_mem round hr)
    have hchecked : Genuine writeResponse (if round.signal = some .check then
        { st with shutdownRequested := true } else st).log := by
      split <;> exact h
    rw [responderLoop]
    generalize (if round.signal = some .check then { st with shutdownRequested := true } else st) =
      st at hchecked
    by_cases hrunning : running config st = true
    · have hserved : Genuine writeResponse (serveRound config round st).2.log :=
        serveRound_genuine (hrounds round List.mem_cons_self) hchecked
      simp only [if_pos hrunning]
      generalize serveRound config round st = out at hserved
      obtain ⟨left, next⟩ := out
      have hsignalled : Genuine writeResponse (if round.signal.isSome then
          { next with shutdownRequested := true } else next).log := by
        split <;> exact hserved
      cases left with
      | true => exact hsignalled
      | false => exact ih hrest hsignalled
    · simp only [if_neg hrunning]
      exact hchecked

theorem ocspResponder_genuine {rounds : List Round}
    (hrounds : ∀ round ∈ rounds, round.writeResponse = writeResponse) (reqBuffer : List Byte) :
    Genuine writeResponse (ocspResponder config reqBuffer rounds).state.log := by
  have hloop : Genuine writeResponse (responderLoop config rounds (.initial reqBuffer)).2.log :=
    responderLoop_genuine hrounds (by simp [Genuine, ResponderState.initial])
  simp only [ocspResponder]
  split
  · exact closeClient_genuine hloop
  · exact hloop

end Replies

section Reports
variable {τ : Type} {lib : StatusLib τ} {held : τ → List Byte → Option StatusCall}
  {accepts : StatusCall → Bool} {reports : List Byte → List (List Byte × CertStatus)}

theorem ocspResponder_reports_index (hdoc : lib.Documented held accepts reports)
    (halloc : ∀ n, lib.alloc n = true) {fresh : τ} (hfresh : ∀ serial, held fresh serial = none)
    {mktime : Tm → Int} {file : Option (List Byte)} {config : ResponderConfig} {rounds : List Round}
    (hrounds : ∀ round ∈ rounds,
      round.writeResponse = lib.writeResponse (populate lib fresh (parseIndexFile mktime file)))
    (reqBuffer : List Byte) {fd : Nat} {resp delivered serial : List Byte} {status : CertStatus}
    (hreply : .replied fd .successful resp delivered ∈
      (ocspResponder config reqBuffer rounds).state.log)
    (hreport : (serial, status) ∈ reports resp) (hknown : status ≠ .unknown) :
    ∃ front entry back, parseIndexFile mktime file = front ++ entry :: back ∧
      HexSpells entry.serial serial ∧ accepts (entryCall entry serial) = true ∧
      entryStatus entry.status = status ∧ ∀ later ∈ back, ¬ Decides accepts serial later := by
  obtain ⟨req, hreq⟩ := ocspResponder_genuine hrounds reqBuffer fd resp delivered hreply
  obtain ⟨call, hheld, hstatus⟩ := hdoc.respond _ req resp hreq serial status hreport hknown
  rcases held_populate hdoc halloc (parseIndexFile mktime file) fresh serial with
    ⟨heq, -⟩ | ⟨front, entry, back, hentries, ⟨call', hcall', haccepts, hserial⟩, hback, heq⟩
  · rw [heq, hfresh] at hheld
    cases hheld
  · rw [heq, hcall'] at hheld
    obtain rfl := Option.some.inj hheld
    obtain ⟨bytes, hbytes, hentry⟩ := Option.map_eq_some_iff.mp hcall'
    subst hentry
    obtain rfl : bytes = serial := hserial
    exact ⟨front, entry, back, hentries, hexPairs_iff.mp hbytes, haccepts, hstatus, hback⟩

def statusLib : StatusLib (List StatusCall) where
  alloc _ := true
  base16Decode hex := (hexPairs hex).elim (.error badFuncArg) .ok
  setCertStatus t call := (0, call :: t)
  writeResponse t req :=
    match t.find? fun call => call.serial = req with
    | none => (-408, [])
    | some call => (0, (if call.status = .good then 0 else if call.status = .revoked then 1 else 2) :: req)

def readReport : List Byte → List (List Byte × CertStatus)
  | [] => []
  | b :: serial => [(serial, if b = 0 then .good else if b = 1 then .revoked else .unknown)]

theorem statusLib_documented :
    statusLib.Documented (fun t serial => t.find? fun call => call.serial = serial) (fun _ => true)
      readReport where
  decode := by
    intro hex
    simp only [statusLib]
    cases hexPairs hex <;> rfl
  set := by
    intro t call serial
    simp only [statusLib, List.find?_cons, true_and]
    split <;> simp_all
  respond := by
    intro t req resp h serial status hreport hknown
    simp only [statusLib] at h
    split at h
    · cases h
    · rename_i call hcall
      cases h
      simp only [readReport, List.mem_singleton, Prod.mk.injEq] at hreport
      obtain ⟨rfl, hstatus⟩ := hreport
      refine ⟨call, hcall, ?_⟩
      rw [hstatus]
      cases call.status <;> rfl

def twiceIndex : List Byte :=
  str "V\t271231235959Z\t\t0a\tunknown\t/CN=a\nR\t271231235959Z\t240101120000Z\t0A\tunknown\t/CN=a\n"

def askRound : Round where
  signal := none
  accept := some (4, Socket.oneSegment (str "POST / HTTP/1.0" ++ crlf ++ crlf ++ [10]),
    [.accepted 512, .accepted 512])
  writeResponse := statusLib.writeResponse
    (populate statusLib [] (parseIndexFile (fun tm => tm.year) (some twiceIndex)))
  writeErrorResponse _ := (-1, [])

def askConfig : ResponderConfig := ⟨1, false, ⟨-140, -156, -188, -408⟩⟩

theorem askRound_reply : .replied 4 .successful [1, 10] (wireResponse .http [1, 10]) ∈
    (ocspResponder askConfig [] [askRound]).state.log := by
  decide +kernel

theorem ocspResponder_reports_revoked :
    ∃ front entry back, parseIndexFile (fun tm => tm.year) (some twiceIndex) = front ++ entry :: back ∧
      HexSpells entry.serial [10] ∧ (fun _ => true) (entryCall entry [10]) = true ∧
      entryStatus entry.status = .revoked ∧
      ∀ later ∈ back, ¬ Decides (fun _ => true) [10] later :=
  ocspResponder_reports_index statusLib_documented (fun _ => rfl)
    (show ∀ serial, ([] : List StatusCall).find? (fun call => call.serial = serial) = none from
      fun _ => rfl)
    (show ∀ round ∈ [askRound], round.writeResponse = statusLib.writeResponse
      (populate statusLib [] (parseIndexFile (fun tm => tm.year) (some twiceIndex))) by
        intro round hround
        rw [List.mem_singleton.mp hround]
        rfl)
    [] askRound_reply (by decide) (by decide)

end Reports

end WolfCLU.Ocsp
