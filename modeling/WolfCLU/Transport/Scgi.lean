import WolfCLU.Transport.Recv

namespace WolfCLU
open Buffer CString

def readExactly (sockfd : SocketT) (buffer : List Byte) (off n totalRead : Nat) :
    Int × List Byte × SocketT :=
  if _hlt : totalRead < n then
    let r := recv sockfd (n - totalRead)
    if _h : r.n ≤ 0 then (-1, buffer, r.rest)
    else
      readExactly r.rest (blit buffer (off + totalRead) r.data) off n (totalRead + r.n.toNat)
  else (totalRead, buffer, sockfd)
termination_by n - totalRead
decreasing_by
  simp only [r] at _h
  omega

def parseNetstringLength (sockfd : SocketT) (lenBuf : List Byte) (i : Nat) :
    Int × Int × SocketT :=
  if i < 15 then
    let r := recv sockfd 1
    if r.n ≤ 0 then (-1, 0, r.rest)
    else if r.data = str ":" then
      let length := atoi (cstr lenBuf)
      if length < 0 then (-1, length, r.rest) else (0, length, r.rest)
    else parseNetstringLength r.rest (lenBuf ++ r.data) (i + 1)
  else (-1, 0, sockfd)
termination_by 15 - i

structure ScgiRequest where
  body : Option Nat
  bodyLen : Int
  contentLength : Int
  requestMethod : Option Nat
  requestUri : Option Nat
  deriving DecidableEq, Repr

def assignHeader (key value : List Byte) (valueOff : Nat) (req : ScgiRequest) : ScgiRequest :=
  if key = str "CONTENT_LENGTH" then { req with contentLength := atoi value }
  else if key = str "REQUEST_METHOD" then { req with requestMethod := some valueOff }
  else if key = str "REQUEST_URI" then { req with requestUri := some valueOff }
  else req

def memchr (m : List Byte) (c : Byte) : Option Nat := m.findIdx? (· = c)

def parseHeadersLoop (headers : List Byte) (headerLen pos : Nat) (req : ScgiRequest) :
    ScgiRequest :=
  if pos < headerLen then
    let key := headers.drop pos
    match memchr (key.take (headerLen - pos)) 0 with
    | none => req
    | some keyLen =>
      let valueOff := pos + (keyLen + 1)
      if valueOff ≥ headerLen then req
      else
        let value := headers.drop valueOff
        match memchr (value.take (headerLen - valueOff)) 0 with
        | none => req
        | some valueLen =>
          parseHeadersLoop headers headerLen (valueOff + (valueLen + 1))
            (assignHeader (cstr key) (cstr value) valueOff req)
  else req
termination_by headerLen - pos

def parseHeaders (headers : List Byte) (headerLen : Nat) (req : ScgiRequest) : ScgiRequest :=
  parseHeadersLoop headers headerLen 0
    { req with contentLength := -1, requestMethod := none, requestUri := none }

structure ScgiResult where
  ret : Int
  buffer : List Byte
  req : ScgiRequest
  sockfd : SocketT

def scgiReadRequest (sockfd : SocketT) (buffer : List Byte) (bufferSz : Int) : ScgiResult :=
  let req : ScgiRequest := ⟨none, 0, 0, none, none⟩
  if bufferSz ≤ 0 then ⟨-1, buffer, req, sockfd⟩
  else
    let (ret, headerLen, sockfd) := parseNetstringLength sockfd [] 0
    if ret ≠ 0 then ⟨-1, buffer, req, sockfd⟩
    else if headerLen ≤ 0 ∨ headerLen ≥ bufferSz then ⟨-1, buffer, req, sockfd⟩
    else
      let (got, buffer, sockfd) := readExactly sockfd buffer 0 headerLen.toNat 0
      if got ≠ headerLen then ⟨-1, buffer, req, sockfd⟩
      else
        let pos := headerLen.toNat
        let (got, comma, sockfd) := readExactly sockfd [0] 0 1 0
        if got ≠ 1 ∨ comma ≠ str "," then ⟨-1, buffer, req, sockfd⟩
        else
          let req := parseHeaders buffer pos req
          if req.contentLength < 0 ∨ req.contentLength > bufferSz - pos then
            ⟨-1, buffer, req, sockfd⟩
          else if req.contentLength > 0 then
            let (got, buffer, sockfd) :=
              readExactly sockfd buffer pos req.contentLength.toNat 0
            if got ≠ req.contentLength then ⟨-1, buffer, req, sockfd⟩
            else ⟨0, buffer, { req with body := some pos, bodyLen := req.contentLength }, sockfd⟩
          else ⟨0, buffer, { req with body := none, bodyLen := 0 }, sockfd⟩

namespace Scgi

theorem readExactly_spec {sockfd : SocketT} {buffer data rest : List Byte} {off n totalRead : Nat}
    (hbytes : Socket.bytes sockfd = data ++ rest) (hn : totalRead + data.length = n)
    (hfit : off + n ≤ buffer.length) :
    ∃ sockfd', readExactly sockfd buffer off n totalRead
        = ((n : Int), blit buffer (off + totalRead) data, sockfd') ∧
      Socket.bytes sockfd' = rest := by
  fun_induction readExactly sockfd buffer off n totalRead generalizing data with
  | case1 sockfd buffer totalRead hlt r =>
    rename_i hle
    rcases recv_cases sockfd (Nat.sub_pos_of_lt hlt) with ⟨_, hnil⟩ | ⟨hlen, hne, _, _⟩
    · rw [hbytes] at hnil
      have := congrArg List.length hnil
      simp only [List.length_append, List.length_nil] at this
      omega
    · have := List.length_pos_iff.mpr hne
      simp only [r] at hle
      omega
  | case2 sockfd buffer totalRead hlt r hpos =>
    rename_i ih
    rcases recv_cases sockfd (Nat.sub_pos_of_lt hlt) with ⟨hle, _⟩ | ⟨hlen, hne, hmax, hsplit⟩
    · exact absurd hle hpos
    · have hdata : data = r.data ++ data.drop r.data.length := by
        have htake : data.take r.data.length = r.data := by
          have := congrArg (List.take r.data.length) (hbytes.symm.trans hsplit)
          rwa [List.take_append_of_le_length (by simp only [r]; omega), List.take_left] at this
        conv_lhs => rw [← List.take_append_drop r.data.length data, htake]
      have hrest : Socket.bytes r.rest = data.drop r.data.length ++ rest := by
        have h := hbytes.symm.trans hsplit
        rw [hdata, List.append_assoc] at h
        exact (List.append_cancel_left h).symm
      have hnat : r.n.toNat = r.data.length := by
        simp only [r] at hlen ⊢
        omega
      have hl : r.data.length ≤ data.length := by
        simp only [r]
        omega
      have hlb : (blit buffer (off + totalRead) r.data).length = buffer.length :=
        blit_length (by omega)
      obtain ⟨sockfd', hread, hend⟩ := ih hrest
        (by rw [hnat, List.length_drop]; omega) (by rw [hlb]; exact hfit)
      refine ⟨sockfd', ?_, hend⟩
      rw [hread, hnat, ← Nat.add_assoc, blit_blit (by omega), ← hdata]
  | case3 sockfd buffer totalRead hge =>
    have hnil : data = [] := List.length_eq_zero_iff.mp (by omega)
    subst hnil
    refine ⟨sockfd, ?_, by simpa using hbytes⟩
    rw [blit_nil, ← hn]
    simp

theorem readExactly_all {sockfd : SocketT} {data rest : List Byte} (buffer : List Byte) (off : Nat)
    (hbytes : Socket.bytes sockfd = data ++ rest) (hfit : off + data.length ≤ buffer.length) :
    ∃ sockfd', readExactly sockfd buffer off data.length 0
        = ((data.length : Int), blit buffer off data, sockfd') ∧
      Socket.bytes sockfd' = rest :=
  readExactly_spec hbytes (Nat.zero_add _) hfit

theorem readExactly_uniform (sockfd : SocketT) (off : Nat) {n totalRead : Nat} (hle : totalRead ≤ n) :
    ∃ ret data rest, totalRead + data.length ≤ n ∧
      (ret = (n : Int) → totalRead + data.length = n) ∧
      ∀ buffer : List Byte, off + n ≤ buffer.length →
        readExactly sockfd buffer off n totalRead =
          (ret, blit buffer (off + totalRead) data, rest) := by
  induction hroom : n - totalRead using Nat.strong_induction_on generalizing sockfd totalRead with
  | _ room ih =>
    by_cases hlt : totalRead < n
    · rcases recv_cases sockfd (Nat.sub_pos_of_lt hlt) with ⟨hend, _⟩ | ⟨hn, hne, hmax, _⟩
      · refine ⟨-1, [], (recv sockfd (n - totalRead)).rest, by simpa using hle, ?_, ?_⟩
        · intro h
          omega
        · intro buffer _
          rw [readExactly]
          simp only [dif_pos hlt, dif_pos hend, blit_nil]
      · have hdata := List.length_pos_iff.mpr hne
        have hgt : ¬ (recv sockfd (n - totalRead)).n ≤ 0 := by omega
        have hnat : (recv sockfd (n - totalRead)).n.toNat =
            (recv sockfd (n - totalRead)).data.length := by omega
        obtain ⟨ret, data, rest, hfit, hfull, hread⟩ := ih _ (by omega)
          (recv sockfd (n - totalRead)).rest
          (show totalRead + (recv sockfd (n - totalRead)).data.length ≤ n by omega) rfl
        refine ⟨ret, (recv sockfd (n - totalRead)).data ++ data, rest, ?_, ?_, ?_⟩
        · rw [List.length_append]
          omega
        · intro h
          rw [List.length_append]
          have := hfull h
          omega
        · intro buffer hbuf
          have hsize : (blit buffer (off + totalRead) (recv sockfd (n - totalRead)).data).length =
              buffer.length := blit_length (by omega)
          rw [readExactly]
          simp only [dif_pos hlt, dif_neg hgt, hnat]
          rw [hread _ (by omega), ← Nat.add_assoc, blit_blit (by omega)]
    · refine ⟨totalRead, [], sockfd, by simpa using hle, ?_, ?_⟩
      · intro h
        simpa using h
      · intro buffer _
        rw [readExactly]
        simp only [dif_neg hlt, blit_nil]

theorem readExactly_size (sockfd : SocketT) {buffer : List Byte} {off n : Nat}
    (h : off + n ≤ buffer.length) :
    (readExactly sockfd buffer off n 0).2.1.length = buffer.length := by
  obtain ⟨_, data, _, hfit, _, hread⟩ := readExactly_uniform sockfd off (Nat.zero_le n)
  rw [hread buffer h]
  exact blit_length (by omega)

theorem recv_one {sockfd : SocketT} {c : Byte} {rest : List Byte}
    (hbytes : Socket.bytes sockfd = c :: rest) :
    (recv sockfd 1).n = 1 ∧ (recv sockfd 1).data = [c] ∧
      Socket.bytes (recv sockfd 1).rest = rest := by
  rcases recv_cases sockfd Nat.one_pos with ⟨_, hnil⟩ | ⟨hlen, hne, hmax, hsplit⟩
  · rw [hbytes] at hnil
    cases hnil
  · have hone : (recv sockfd 1).data.length = 1 := by
      have := List.length_pos_iff.mpr hne
      omega
    obtain ⟨d, hd⟩ := List.length_eq_one_iff.mp hone
    rw [hbytes, hd] at hsplit
    injection hsplit with hc hr
    exact ⟨by rw [hlen, hone]; rfl, by rw [hd, hc], hr.symm⟩

theorem parseNetstringLength_spec {sockfd : SocketT} {lenBuf ds rest : List Byte} {i : Nat}
    (hbytes : Socket.bytes sockfd = ds ++ 58 :: rest) (hcolon : (58 : Byte) ∉ ds)
    (hroom : i + ds.length < 15) (hval : 0 ≤ atoi (cstr (lenBuf ++ ds))) :
    ∃ sockfd', parseNetstringLength sockfd lenBuf i = (0, atoi (cstr (lenBuf ++ ds)), sockfd') ∧
      Socket.bytes sockfd' = rest := by
  induction ds generalizing sockfd lenBuf i with
  | nil =>
    obtain ⟨hn, hdata, hrest⟩ := recv_one hbytes
    have hpos : ¬ (recv sockfd 1).n ≤ 0 := by omega
    have hcol : [(58 : Byte)] = str ":" := by decide
    refine ⟨_, ?_, hrest⟩
    rw [parseNetstringLength]
    simp only [List.append_nil] at hval ⊢
    simp only [if_pos (show i < 15 from hroom), if_neg hpos, hdata, if_pos hcol,
      if_neg (not_lt.mpr hval)]
  | cons c ds ih =>
    obtain ⟨hn, hdata, hrest⟩ := recv_one hbytes
    have hpos : ¬ (recv sockfd 1).n ≤ 0 := by omega
    simp only [List.mem_cons, not_or] at hcolon
    have hcol : ¬ [c] = str ":" := by
      intro h
      rw [show str ":" = [58] by decide] at h
      exact hcolon.1 (List.cons.inj h).1.symm
    have happ : lenBuf ++ c :: ds = lenBuf ++ [c] ++ ds := by simp
    rw [happ] at hval ⊢
    simp only [List.length_cons] at hroom
    obtain ⟨sockfd', hparse, hend⟩ := ih (i := i + 1) hrest hcolon.2 (by omega) hval
    refine ⟨sockfd', ?_, hend⟩
    rw [parseNetstringLength]
    simp only [if_pos (show i < 15 by omega), if_neg hpos, hdata, if_neg hcol]
    exact hparse

theorem numeral_excludes {v : List Byte} {n : Nat} (hv : IsNumeral v n) {b : Byte}
    (hb : isDigit b = false) : b ∉ v := by
  intro hmem
  rw [hv.digits b hmem] at hb
  cases hb

def encodePairs (pairs : List (List Byte × List Byte)) : List Byte :=
  pairs.flatMap fun p => p.1 ++ 0 :: (p.2 ++ [0])

def encodeRequest (pairs : List (List Byte × List Byte)) (body : List Byte) : List Byte :=
  decimal (encodePairs pairs).length ++ str ":" ++ encodePairs pairs ++ str "," ++ body

def lastFrom (name : List Byte) (last : Option (List Byte)) (pairs : List (List Byte × List Byte)) :
    Option (List Byte) :=
  pairs.foldl (fun last p => if p.1 = name then some p.2 else last) last

def lastValue (name : List Byte) (pairs : List (List Byte × List Byte)) : Option (List Byte) :=
  lastFrom name none pairs

def NulFree (pairs : List (List Byte × List Byte)) : Prop :=
  ∀ p ∈ pairs, (0 : Byte) ∉ p.1 ∧ (0 : Byte) ∉ p.2

def assignAll (req : ScgiRequest) (pos : Nat) : List (List Byte × List Byte) → ScgiRequest
  | [] => req
  | p :: pairs =>
    assignAll (assignHeader p.1 p.2 (pos + (p.1.length + 1)) req)
      (pos + (p.1.length + 1) + (p.2.length + 1)) pairs

theorem encodePairs_cons (p : List Byte × List Byte) (pairs : List (List Byte × List Byte)) :
    encodePairs (p :: pairs) = p.1 ++ 0 :: (p.2 ++ 0 :: encodePairs pairs) := by
  simp [encodePairs]

theorem memchr_nul {xs : List Byte} (h : (0 : Byte) ∉ xs) (ys : List Byte) :
    memchr (xs ++ 0 :: ys) 0 = some xs.length := by
  induction xs with
  | nil => rfl
  | cons x xs ih =>
    simp only [List.mem_cons, not_or] at h
    have hx : x ≠ 0 := fun h0 => h.1 h0.symm
    have hrec := ih h.2
    simp only [memchr] at hrec
    simp [memchr, List.findIdx?_cons, hx, hrec]

theorem memchr_none {xs : List Byte} (h : (0 : Byte) ∉ xs) : memchr xs 0 = none := by
  rw [memchr, List.findIdx?_eq_none_iff]
  intro x hx
  have hne : x ≠ 0 := fun h0 => h (h0 ▸ hx)
  simpa using hne

theorem cstr_of_terminated {m v tail : List Byte} {L o : Nat} (hv : (0 : Byte) ∉ v)
    (h : (m.take L).drop o = v ++ 0 :: tail) : cstr (m.drop o) = v := by
  have hm : m.drop o = v ++ 0 :: (tail ++ (m.drop L).drop (o - L)) := by
    conv_lhs => rw [← List.take_append_drop L m, List.drop_append, h]
    have hlt : o < (m.take L).length := by
      by_contra hge
      rw [List.drop_of_length_le (by omega)] at h
      simp at h
    have h0 : o - (m.take L).length = 0 := by omega
    have hL : o - L = 0 := by
      simp only [List.length_take] at hlt
      omega
    rw [h0, hL]
    simp
  rw [hm, cstr_append_nul, cstr_of_nul_free hv]

theorem parseHeadersLoop_unfinished {headers tail : List Byte} {headerLen pos : Nat}
    (req : ScgiRequest) (hat : (headers.take headerLen).drop pos = tail)
    (hlen : pos + tail.length = headerLen) (htail : tail.count 0 ≤ 1) :
    parseHeadersLoop headers headerLen pos req = req := by
  rw [parseHeadersLoop]
  by_cases hmore : pos < headerLen
  · simp only [if_pos hmore, ← List.drop_take, hat]
    by_cases hmem : (0 : Byte) ∈ tail
    · obtain ⟨key, after, rfl, hkey⟩ := List.eq_append_cons_of_mem hmem
      have hnone : (0 : Byte) ∉ after := by
        rw [List.count_append, List.count_cons_self] at htail
        exact List.count_eq_zero.mp (by omega)
      have hvalue : (headers.take headerLen).drop (pos + (key.length + 1)) = after := by
        rw [← List.drop_drop, hat]
        simp
      simp only [memchr_nul hkey, hvalue, memchr_none hnone, ite_self]
    · simp only [memchr_none hmem]
  · rw [if_neg hmore]

theorem parseHeadersLoop_pairs {headers tail : List Byte} {headerLen pos : Nat} (req : ScgiRequest)
    {pairs : List (List Byte × List Byte)} (hnul : NulFree pairs) (htail : tail.count 0 ≤ 1)
    (hat : (headers.take headerLen).drop pos = encodePairs pairs ++ tail)
    (hlen : pos + (encodePairs pairs ++ tail).length = headerLen) :
    parseHeadersLoop headers headerLen pos req = assignAll req pos pairs := by
  induction pairs generalizing pos req with
  | nil => exact parseHeadersLoop_unfinished req hat hlen htail
  | cons p pairs ih =>
    obtain ⟨hk, hv⟩ := hnul p (List.mem_cons_self ..)
    rw [encodePairs_cons, List.append_assoc, List.cons_append, List.append_assoc,
      List.cons_append] at hat hlen
    simp only [List.length_append, List.length_cons] at hlen
    have hvalue : (headers.take headerLen).drop (pos + (p.1.length + 1))
        = p.2 ++ 0 :: (encodePairs pairs ++ tail) := by
      rw [← List.drop_drop, hat]
      simp
    have hnext : (headers.take headerLen).drop (pos + (p.1.length + 1) + (p.2.length + 1))
        = encodePairs pairs ++ tail := by
      rw [← List.drop_drop, hvalue]
      simp
    rw [parseHeadersLoop]
    simp only [if_pos (show pos < headerLen by omega), ← List.drop_take, hat, memchr_nul hk,
      if_neg (show ¬ pos + (p.1.length + 1) ≥ headerLen by omega), hvalue, memchr_nul hv,
      cstr_of_terminated hk hat, cstr_of_terminated hv hvalue, assignAll]
    exact ih _ (fun q hq => hnul q (List.mem_cons_of_mem _ hq)) hnext
      (by rw [List.length_append]; omega)

def PointsTo (m : List Byte) (off : Option Nat) (value : Option (List Byte)) : Prop :=
  Option.Rel (fun o v => (0 : Byte) ∉ v ∧ ∃ tail, m.drop o = v ++ 0 :: tail) off value

theorem PointsTo.cstr {m : List Byte} {L : Nat} {off : Option Nat} {value : Option (List Byte)}
    (h : PointsTo (m.take L) off value) : off.map (fun o => cstr (m.drop o)) = value := by
  cases h with
  | none => rfl
  | some hv =>
    obtain ⟨hnul, tail, htail⟩ := hv
    simp only [Option.map_some, cstr_of_terminated hnul htail]

structure Reported (m : List Byte) (req : ScgiRequest) (contentLength method uri :
    Option (List Byte)) : Prop where
  contentLength : req.contentLength = (contentLength.map atoi).getD (-1)
  method : PointsTo m req.requestMethod method
  uri : PointsTo m req.requestUri uri

theorem reported_assignHeader {m : List Byte} {req : ScgiRequest} {cl method uri :
    Option (List Byte)} (h : Reported m req cl method uri) {k v tail : List Byte} {o : Nat}
    (hv : (0 : Byte) ∉ v) (hat : m.drop o = v ++ 0 :: tail) :
    Reported m (assignHeader k v o req) (if k = str "CONTENT_LENGTH" then some v else cl)
      (if k = str "REQUEST_METHOD" then some v else method)
      (if k = str "REQUEST_URI" then some v else uri) := by
  have hpoint : PointsTo m (some o) (some v) := Option.Rel.some ⟨hv, tail, hat⟩
  simp only [assignHeader]
  by_cases hc : k = str "CONTENT_LENGTH"
  · subst hc
    simp only [if_true, if_neg (show str "CONTENT_LENGTH" ≠ str "REQUEST_METHOD" by decide),
      if_neg (show str "CONTENT_LENGTH" ≠ str "REQUEST_URI" by decide)]
    exact ⟨rfl, h.method, h.uri⟩
  · by_cases hm : k = str "REQUEST_METHOD"
    · subst hm
      simp only [if_true, if_neg hc, if_neg (show str "REQUEST_METHOD" ≠ str "REQUEST_URI" by decide)]
      exact ⟨h.contentLength, hpoint, h.uri⟩
    · by_cases hu : k = str "REQUEST_URI"
      · subst hu
        simp only [if_true, if_neg hc, if_neg hm]
        exact ⟨h.contentLength, h.method, hpoint⟩
      · simp only [if_neg hc, if_neg hm, if_neg hu]
        exact h

theorem reported_pairs {m tail : List Byte} {req : ScgiRequest} {pos : Nat} {cl method uri :
    Option (List Byte)} {pairs : List (List Byte × List Byte)}
    (h : Reported m req cl method uri) (hnul : NulFree pairs)
    (hat : m.drop pos = encodePairs pairs ++ tail) :
    Reported m (assignAll req pos pairs) (lastFrom (str "CONTENT_LENGTH") cl pairs)
      (lastFrom (str "REQUEST_METHOD") method pairs) (lastFrom (str "REQUEST_URI") uri pairs) := by
  induction pairs generalizing req pos cl method uri with
  | nil => exact h
  | cons p pairs ih =>
    obtain ⟨hk, hv⟩ := hnul p (List.mem_cons_self ..)
    rw [encodePairs_cons, List.append_assoc, List.cons_append, List.append_assoc,
      List.cons_append] at hat
    have hvalue : m.drop (pos + (p.1.length + 1)) = p.2 ++ 0 :: (encodePairs pairs ++ tail) := by
      rw [← List.drop_drop, hat]
      simp
    have hnext : m.drop (pos + (p.1.length + 1) + (p.2.length + 1)) = encodePairs pairs ++ tail := by
      rw [← List.drop_drop, hvalue]
      simp
    exact ih (reported_assignHeader h hv hvalue) (fun q hq => hnul q (List.mem_cons_of_mem _ hq))
      hnext

theorem parseHeaders_block {headers tail : List Byte} {req : ScgiRequest}
    {pairs : List (List Byte × List Byte)} (hnul : NulFree pairs) (htail : tail.count 0 ≤ 1)
    (hat : headers.take (encodePairs pairs ++ tail).length = encodePairs pairs ++ tail) :
    Reported (encodePairs pairs ++ tail)
      (parseHeaders headers (encodePairs pairs ++ tail).length req)
      (lastValue (str "CONTENT_LENGTH") pairs) (lastValue (str "REQUEST_METHOD") pairs)
      (lastValue (str "REQUEST_URI") pairs) := by
  have hat0 : (headers.take (encodePairs pairs ++ tail).length).drop 0
      = encodePairs pairs ++ tail := hat
  rw [parseHeaders, parseHeadersLoop_pairs _ hnul htail hat0 (Nat.zero_add _)]
  exact reported_pairs ⟨rfl, Option.Rel.none, Option.Rel.none⟩ hnul rfl

def stringAt (buffer : List Byte) (off : Option Nat) : Option (List Byte) :=
  off.map fun o => cstr (buffer.drop o)

def deliveredBody (r : ScgiResult) : List Byte :=
  match r.req.body with
  | none => []
  | some off => (r.buffer.drop off).take r.req.bodyLen.toNat

structure Delivers (r : ScgiResult) (pairs : List (List Byte × List Byte)) (body rest : List Byte) :
    Prop where
  success : r.ret = 0
  method : stringAt r.buffer r.req.requestMethod = lastValue (str "REQUEST_METHOD") pairs
  uri : stringAt r.buffer r.req.requestUri = lastValue (str "REQUEST_URI") pairs
  bodyLen : r.req.bodyLen = body.length
  delivered : deliveredBody r = body
  consumed : Socket.bytes r.sockfd = rest

theorem PointsTo.of_take {m m' : List Byte} {L : Nat} {off : Option Nat}
    {value : Option (List Byte)} (h : PointsTo (m.take L) off value) (hm : m'.take L = m.take L) :
    stringAt m' off = value := by
  rw [← hm] at h
  exact h.cstr

structure Accepts (stream : List Byte) (bufferSz : Nat) (lenText : List Byte)
    (pairs : List (List Byte × List Byte)) (tail value body rest : List Byte) : Prop where
  stream : stream = lenText ++ 58 :: (encodePairs pairs ++ tail ++ 44 :: (body ++ rest))
  colon : (58 : Byte) ∉ lenText
  room : lenText.length < 15
  headerLen : atoi (cstr lenText) = (encodePairs pairs ++ tail).length
  headers : 0 < (encodePairs pairs ++ tail).length
  headersFit : (encodePairs pairs ++ tail).length < bufferSz
  nulFree : NulFree pairs
  unfinished : tail.count 0 ≤ 1
  contentLength : lastValue (str "CONTENT_LENGTH") pairs = some value
  bodyLen : atoi value = body.length
  bodyFits : (encodePairs pairs ++ tail).length + body.length ≤ bufferSz

structure ReadAs (buffer block body rest : List Byte) (pairs : List (List Byte × List Byte))
    (r : ScgiResult) : Prop where
  success : r.ret = 0
  buffer : r.buffer = blit (blit buffer 0 block) block.length body
  reported : Reported block r.req (lastValue (str "CONTENT_LENGTH") pairs)
    (lastValue (str "REQUEST_METHOD") pairs) (lastValue (str "REQUEST_URI") pairs)
  bodyAt : r.req.body = if body = [] then none else some block.length
  bodyLen : r.req.bodyLen = body.length
  consumed : Socket.bytes r.sockfd = rest

theorem Accepts.readAs {sockfd : SocketT} {buffer lenText tail value body rest : List Byte}
    {pairs : List (List Byte × List Byte)}
    (h : Accepts (Socket.bytes sockfd) buffer.length lenText pairs tail value body rest) :
    ReadAs buffer (encodePairs pairs ++ tail) body rest pairs
      (scgiReadRequest sockfd buffer buffer.length) := by
  have hheaders := h.headers
  have hfits := h.headersFit
  have hbodyFits := h.bodyFits
  obtain ⟨sock1, hlength, hb1⟩ := parseNetstringLength_spec h.stream h.colon
    (show 0 + lenText.length < 15 by have := h.room; omega)
    (show 0 ≤ atoi (cstr ([] ++ lenText)) by rw [List.nil_append, h.headerLen]; omega)
  rw [List.nil_append, h.headerLen] at hlength
  obtain ⟨sock2, hread, hb2⟩ := readExactly_all buffer 0 hb1 (by omega)
  obtain ⟨sock3, hcomma, hb3⟩ := readExactly_all [0] 0
    (hb2.trans (show 44 :: (body ++ rest) = str "," ++ (body ++ rest) from rfl)) (by decide)
  set block := encodePairs pairs ++ tail with hblock
  set buffer1 := blit buffer 0 block with hbuffer1
  have htake1 : buffer1.take block.length = block := by
    simp [hbuffer1, blit]
  have hlen1 : buffer1.length = buffer.length := blit_length (by omega)
  set req := parseHeaders buffer1 block.length ⟨none, 0, 0, none, none⟩
  have hreported : Reported block req _ _ _ := parseHeaders_block h.nulFree h.unfinished htake1
  have hcl : req.contentLength = body.length := by
    rw [hreported.contentLength, h.contentLength, Option.map_some, Option.getD_some, h.bodyLen]
  have hone : (str ",").length = 1 := by decide
  have hsep : blit [0] 0 (str ",") = str "," := by decide
  rw [hone, hsep] at hcomma
  have hstages : scgiReadRequest sockfd buffer buffer.length =
      if req.contentLength > 0 then
        let (got, buffer, sockfd) := readExactly sock3 buffer1 block.length
          req.contentLength.toNat 0
        if got ≠ req.contentLength then ⟨-1, buffer, req, sockfd⟩
        else ⟨0, buffer, { req with body := some block.length,
                                    bodyLen := req.contentLength }, sockfd⟩
      else ⟨0, buffer1, { req with body := none, bodyLen := 0 }, sock3⟩ := by
    simp only [scgiReadRequest, hlength, Int.toNat_natCast, hread, hcomma]
    rw [if_neg (by omega), if_neg (by simp), if_neg (by omega), if_neg (by simp), if_neg (by simp),
      if_neg]
    change ¬ (req.contentLength < 0 ∨ req.contentLength > _)
    omega
  rcases Nat.eq_zero_or_pos body.length with hzero | hbpos
  · have hnil : body = [] := List.length_eq_zero_iff.mp hzero
    subst hnil
    rw [hstages, if_neg (by omega)]
    exact ⟨rfl, (blit_nil _ _).symm, ⟨hreported.contentLength, hreported.method, hreported.uri⟩,
      rfl, rfl, hb3⟩
  · obtain ⟨sock4, hbody, hb4⟩ := readExactly_all buffer1 block.length hb3 (by omega)
    rw [hstages, if_pos (by omega), hcl, Int.toNat_natCast]
    simp only [hbody]
    rw [if_neg (by simp)]
    exact ⟨rfl, rfl, ⟨hcl.symm.trans hreported.contentLength, hreported.method, hreported.uri⟩,
      (if_neg (List.ne_nil_of_length_pos hbpos)).symm, rfl, hb4⟩

theorem ReadAs.delivers {buffer block body rest : List Byte} {pairs : List (List Byte × List Byte)}
    {r : ScgiResult} (h : ReadAs buffer block body rest pairs r)
    (hfit : block.length + body.length ≤ buffer.length) : Delivers r pairs body rest := by
  have hlen1 : (blit buffer 0 block).length = buffer.length := blit_length (by omega)
  have hblock : r.buffer.take block.length = block := by
    rw [h.buffer, blit_take_of_le le_rfl (by omega)]
    simp [blit]
  refine ⟨h.success, ?_, ?_, h.bodyLen, ?_, h.consumed⟩
  · exact PointsTo.of_take (hblock.symm ▸ h.reported.method) rfl
  · exact PointsTo.of_take (hblock.symm ▸ h.reported.uri) rfl
  · rw [deliveredBody, h.bodyAt, h.bodyLen, h.buffer]
    by_cases hnil : body = []
    · rw [if_pos hnil, hnil]
    · rw [if_neg hnil]
      exact blit_window (by omega)

theorem scgiReadRequest_delivers {sockfd : SocketT} {buffer body rest value : List Byte}
    {pairs : List (List Byte × List Byte)}
    (hbytes : Socket.bytes sockfd = encodeRequest pairs body ++ rest) (hnul : NulFree pairs)
    (hpos : 1 ≤ (encodePairs pairs).length) (hlt : (encodePairs pairs).length < buffer.length)
    (hint : (buffer.length : Int) ≤ MachineInt.intMax)
    (hlast : lastValue (str "CONTENT_LENGTH") pairs = some value)
    (hvalue : IsNumeral value body.length)
    (hbody : (encodePairs pairs).length + body.length ≤ buffer.length) :
    Delivers (scgiReadRequest sockfd buffer buffer.length) pairs body rest := by
  have hnone : (str ":") = [58] := by decide
  have hnumeral := decimal_isNumeral (encodePairs pairs).length
  have haccepts : Accepts (Socket.bytes sockfd) buffer.length (decimal (encodePairs pairs).length)
      pairs [] value body rest := by
    refine ⟨?_, numeral_excludes hnumeral (by decide), ?_, ?_, ?_, ?_, hnul, Nat.zero_le _, hlast, ?_, ?_⟩
    · rw [hbytes, encodeRequest, hnone, show str "," = [44] by decide]
      simp
    · have hdigits : (decimal (encodePairs pairs).length).length ≤ 10 := by
        apply decimal_length_le (by omega)
        simp only [MachineInt.intMax] at hint
        omega
      omega
    · rw [List.append_nil, cstr_of_nul_free (numeral_excludes hnumeral (by decide)),
        ← List.append_nil (decimal _)]
      exact atoi_numeral hnumeral (by omega) (by simp)
    · rwa [List.append_nil]
    · rwa [List.append_nil]
    · rw [← List.append_nil value]
      exact atoi_numeral hvalue (by omega) (by simp)
    · rwa [List.append_nil]
  exact haccepts.readAs.delivers (by rwa [List.append_nil])

def postPairs : List (List Byte × List Byte) :=
  [(str "CONTENT_LENGTH", str "2"), (str "REQUEST_METHOD", str "GET"),
    (str "REQUEST_METHOD", str "POST")]

theorem scgiReadRequest_delivers_post :
    Delivers (scgiReadRequest (Socket.oneSegment (encodeRequest postPairs (str "hi") ++ str "!"))
      (List.replicate 64 0) (List.replicate 64 (0 : Byte)).length) postPairs (str "hi") (str "!") :=
  scgiReadRequest_delivers (Socket.bytes_oneSegment _) (by unfold NulFree; decide) (by decide)
    (by decide) (by decide) (show lastValue _ postPairs = some (str "2") by decide)
    ⟨by decide +kernel, by decide +kernel, by decide +kernel⟩ (by decide)

end Scgi

end WolfCLU
