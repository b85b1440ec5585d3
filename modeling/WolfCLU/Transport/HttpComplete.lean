import WolfCLU.Transport.HttpLength

namespace WolfCLU.Http
open Buffer CString

section Accepted
variable {req : HttpRequest} {body : List Byte} {f : HttpField} {bufferSz : Nat}

structure Announces (req : HttpRequest) (body : List Byte) (f : HttpField) : Prop where
  named : NamedFirst req body f
  value : decimalValue f.value = some body.length
  nonempty : body ≠ []

theorem Announces.found (h : Announces req body f)
    (hint : (body.length : Int) ≤ MachineInt.intMax) :
    ∃ cl, cl < req.header.length ∧ ∀ p, p <+: body →
      contentLengthAt (req.header ++ p) = some cl ∧
        parsedContentLength (req.header ++ p) = body.length := by
  obtain ⟨cl, -, -, hlt, -, hat⟩ := h.named.located
  refine ⟨cl, by omega, fun p hp => ⟨hat p hp, ?_⟩⟩
  rw [parsedContentLength_at (hat p hp)]
  exact h.named.text (hat body List.prefix_rfl) h.value hint p

theorem Announces.expectedLen (h : Announces req body f)
    (hint : (body.length : Int) ≤ MachineInt.intMax) {p : List Byte} (hp : p <+: body)
    (hfit : (req.header ++ body).length < bufferSz) :
    expectedLen bufferSz req.header.length (req.header ++ p) 0 = body.length := by
  obtain ⟨_, -, hfound⟩ := h.found hint
  rw [List.length_append] at hfit
  rw [expectedLen_eq (by omega), (hfound p hp).2]
  omega

theorem Announces.parse (h : Announces req body f)
    (hint : (body.length : Int) ≤ MachineInt.intMax) (hpost : isPost (req.header ++ body)) :
    httpServerParseRequest (req.header ++ body) (req.header ++ body).length =
      ⟨0, some req.header.length, body.length⟩ := by
  obtain ⟨cl, hinside, hfound⟩ := h.found hint
  obtain ⟨hat, hvalue⟩ := hfound body List.prefix_rfl
  have hpos := List.length_pos_iff.mpr h.nonempty
  exact (parse_inside_header_iff hpost hat hinside).mpr ⟨rfl, hvalue.symm, by omega, le_rfl⟩

theorem Announces.stops (h : Announces req body f)
    (hint : (body.length : Int) ≤ MachineInt.intMax) (hfit : (req.header ++ body).length < bufferSz)
    {t : Nat} (hstop : Stops (req.header ++ body) bufferSz t) : t = (req.header ++ body).length := by
  have hinside := hstop.inside
  rcases hstop.complete with hall | ⟨hs, t', hend, ht', hexpected⟩
  · exact hall
  · have hfull : headerEnd (req.header ++ body) = some hs := headerEnd_of_take hend
    obtain rfl : req.header.length = hs :=
      Option.some.inj ((headerEnd_header req body).symm.trans hfull)
    have hle := ((headerEnd_le hend).2.trans (cstr_length_le _)).trans (List.length_take_le _ _)
    have hcut : (req.header ++ body).take t' = req.header ++ body.take (t' - req.header.length) := by
      rw [List.take_append, List.take_of_length_le hle]
    rw [hcut, h.expectedLen hint (List.take_prefix _ _) hfit] at hexpected
    rw [List.length_append] at hinside ⊢
    omega

theorem serve_announced (h : Announces req body f)
    (hint : (body.length : Int) ≤ MachineInt.intMax) (hpost : isPost (req.header ++ body))
    {clientfd : SocketT} {buffer : List Byte} (hbytes : Socket.bytes clientfd = req.header ++ body)
    (hfit : (req.header ++ body).length < buffer.length) :
    serve clientfd buffer buffer.length = some body := by
  have hwindow : window (req.header ++ body) buffer.length = req.header ++ body :=
    List.take_of_length_le (by omega)
  obtain ⟨t, hstop, hserve⟩ := serve_eq clientfd (rfl : buffer.length = buffer.length)
  rw [hbytes, hwindow] at hstop hserve
  rw [hserve, h.stops hint hfit hstop, List.take_length]
  refine prefixOutcome_eq_some.mpr ⟨_, _, h.parse hint hpost, ?_⟩
  rw [List.drop_left, Int.toNat_natCast, List.take_length]

end Accepted

end WolfCLU.Http
