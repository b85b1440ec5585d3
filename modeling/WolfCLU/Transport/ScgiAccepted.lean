import WolfCLU.Transport.Scgi

namespace WolfCLU.Scgi
open Buffer CString

theorem parseNetstringLength_ok {sockfd fd : SocketT} {lenBuf : List Byte} {i : Nat} {n : Int}
    (h : parseNetstringLength sockfd lenBuf i = (0, n, fd)) :
    ∃ ds rest, Socket.bytes sockfd = ds ++ 58 :: rest ∧ (58 : Byte) ∉ ds ∧ i + ds.length < 15 ∧
      n = atoi (cstr (lenBuf ++ ds)) ∧ 0 ≤ n ∧ Socket.bytes fd = rest := by
  fun_induction parseNetstringLength sockfd lenBuf i with
  | case1 sockfd lenBuf i hi r hn => simp at h
  | case2 sockfd lenBuf i hi r hn hcolon length hneg => simp at h
  | case3 sockfd lenBuf i hi r hn hcolon length hneg =>
    obtain ⟨-, rfl, rfl⟩ : (0 : Int) = 0 ∧ length = n ∧ r.rest = fd := by simpa using h
    rcases recv_cases sockfd Nat.one_pos with ⟨hle, _⟩ | ⟨-, -, -, hbytes⟩
    · exact absurd hle hn
    · refine ⟨[], Socket.bytes r.rest, ?_, List.not_mem_nil, hi, ?_, not_lt.mp hneg, rfl⟩
      · rw [hbytes, show (recv sockfd 1).data = str ":" from hcolon]
        rfl
      · rw [List.append_nil]
  | case4 sockfd lenBuf i hi r hn hcolon ih =>
    rcases recv_cases sockfd Nat.one_pos with ⟨hle, _⟩ | ⟨hlen, hne, hmax, hbytes⟩
    · exact absurd hle hn
    · obtain ⟨c, hc⟩ : ∃ c, r.data = [c] := by
        have := List.length_pos_iff.mpr hne
        exact List.length_eq_one_iff.mp (by simp only [r]; omega)
      obtain ⟨ds, rest, hrest, hnone, hroom, hval, hpos, hfd⟩ := ih h
      refine ⟨c :: ds, rest, ?_, ?_, ?_, ?_, hpos, hfd⟩
      · rw [hbytes, show (recv sockfd 1).data = [c] from hc, hrest]
        rfl
      · rintro (_ | ⟨_, hmem⟩)
        · exact hcolon (by rw [hc]; decide)
        · exact hnone hmem
      · simp only [List.length_cons]
        omega
      · rw [hval, hc, List.append_assoc]
        rfl
  | case5 sockfd lenBuf i hi => simp at h

theorem readExactly_short {sockfd : SocketT} {buffer : List Byte} {off n totalRead : Nat}
    (h : totalRead + (Socket.bytes sockfd).length < n) :
    (readExactly sockfd buffer off n totalRead).1 = -1 := by
  fun_induction readExactly sockfd buffer off n totalRead with
  | case1 => rfl
  | case2 sockfd buffer totalRead hlt r hpos ih =>
    rcases recv_cases sockfd (Nat.sub_pos_of_lt hlt) with ⟨hle, _⟩ | ⟨hlen, -, -, hbytes⟩
    · exact absurd hle hpos
    · have hsum := congrArg List.length hbytes
      rw [List.length_append] at hsum
      refine ih ?_
      simp only [r]
      omega
  | case3 sockfd buffer totalRead hge => omega

theorem readExactly_got {sockfd : SocketT} {buffer : List Byte} {off n : Nat}
    (h : (readExactly sockfd buffer off n 0).1 = n) (hfit : off + n ≤ buffer.length) :
    ∃ data rest fd, Socket.bytes sockfd = data ++ rest ∧ data.length = n ∧
      readExactly sockfd buffer off n 0 = ((n : Int), blit buffer off data, fd) ∧
      Socket.bytes fd = rest := by
  have hn : n ≤ (Socket.bytes sockfd).length := by
    by_contra hlt
    rw [readExactly_short (by omega)] at h
    omega
  have hlen : ((Socket.bytes sockfd).take n).length = n := by
    rw [List.length_take, Nat.min_eq_left hn]
  have hbytes : Socket.bytes sockfd = (Socket.bytes sockfd).take n ++ (Socket.bytes sockfd).drop n :=
    (List.take_append_drop n _).symm
  obtain ⟨fd, hread, hfd⟩ := readExactly_all buffer off hbytes (by rw [hlen]; exact hfit)
  rw [hlen] at hread
  exact ⟨_, _, fd, hbytes, hlen, hread, hfd⟩

theorem exists_pairs (block : List Byte) :
    ∃ pairs tail, block = encodePairs pairs ++ tail ∧ NulFree pairs ∧ tail.count 0 ≤ 1 := by
  induction hn : block.length using Nat.strong_induction_on generalizing block with
  | _ n ih =>
    by_cases hshort : block.count 0 ≤ 1
    · exact ⟨[], block, rfl, fun p hp => absurd hp List.not_mem_nil, hshort⟩
    · have hkeyMem : (0 : Byte) ∈ block := List.count_pos_iff.mp (by omega)
      obtain ⟨key, after, rfl, hkey⟩ := List.eq_append_cons_of_mem hkeyMem
      have hcount : (key ++ 0 :: after).count 0 = after.count 0 + 1 := by
        rw [List.count_append, List.count_eq_zero.mpr hkey, List.count_cons_self, Nat.zero_add]
      have hvalueMem : (0 : Byte) ∈ after := List.count_pos_iff.mp (by omega)
      obtain ⟨value, next, rfl, hvalue⟩ := List.eq_append_cons_of_mem hvalueMem
      obtain ⟨pairs, tail, rfl, hnul, htail⟩ := ih next.length
        (by simp only [← hn, List.length_append, List.length_cons]; omega) next rfl
      refine ⟨(key, value) :: pairs, tail, ?_, ?_, htail⟩
      · rw [encodePairs_cons]
        simp
      · rintro p (_ | ⟨_, hp⟩)
        · exact ⟨hkey, hvalue⟩
        · exact hnul p hp

theorem lastValue_of_contentLength {block : List Byte} {req : ScgiRequest}
    {pairs : List (List Byte × List Byte)} {method uri : Option (List Byte)}
    (h : Reported block req (lastValue (str "CONTENT_LENGTH") pairs) method uri)
    (hpos : 0 ≤ req.contentLength) :
    ∃ value, lastValue (str "CONTENT_LENGTH") pairs = some value ∧
      atoi value = req.contentLength := by
  cases hlast : lastValue (str "CONTENT_LENGTH") pairs with
  | none =>
    have hnone := h.contentLength
    rw [hlast] at hnone
    rw [hnone] at hpos
    exact absurd hpos (by decide)
  | some value =>
    refine ⟨value, rfl, ?_⟩
    rw [h.contentLength, hlast]
    rfl

theorem passed_guard {c : Prop} [Decidable c] {refused next : ScgiResult} (hrefused : refused.ret = -1)
    (h : (if c then refused else next).ret = 0) : ¬ c ∧ next.ret = 0 := by
  by_cases hc : c
  · rw [if_pos hc, hrefused] at h
    cases h
  · rw [if_neg hc] at h
    exact ⟨hc, h⟩

theorem scgiReadRequest_accepts {sockfd : SocketT} {buffer : List Byte}
    (h : (scgiReadRequest sockfd buffer buffer.length).ret = 0) :
    ∃ lenText pairs tail value body rest,
      Accepts (Socket.bytes sockfd) buffer.length lenText pairs tail value body rest := by
  rcases hlen : parseNetstringLength sockfd [] 0 with ⟨ret, headerLen, sock1⟩
  simp only [scgiReadRequest, hlen] at h
  obtain ⟨hsize, h⟩ := passed_guard rfl h
  obtain ⟨hret, h⟩ := passed_guard rfl h
  obtain ⟨hheader, h⟩ := passed_guard rfl h
  rw [not_not.mp hret] at hlen
  obtain ⟨lenText, after, hstream, hcolon, hroom, hval, -, hb1⟩ := parseNetstringLength_ok hlen
  obtain ⟨n, rfl⟩ : ∃ n : Nat, headerLen = n := Int.eq_ofNat_of_zero_le (by omega)
  rw [Int.toNat_natCast] at h
  obtain ⟨hgot, h⟩ := passed_guard rfl h
  obtain ⟨block, after, sock2, hsplit, rfl, hread, hb2⟩ := readExactly_got (not_not.mp hgot)
    (show 0 + n ≤ buffer.length by omega)
  rw [hread] at h
  simp only at h
  obtain ⟨hsep, h⟩ := passed_guard rfl h
  rw [not_or, not_not, not_not] at hsep
  obtain ⟨comma, after, sock3, hcomma, hone, hgotComma, hb3⟩ :=
    readExactly_got hsep.1 (by decide : 0 + 1 ≤ [(0 : Byte)].length)
  obtain ⟨c, rfl⟩ := List.length_eq_one_iff.mp hone
  rw [hgotComma] at h hsep
  obtain rfl : c = 44 := List.cons.inj (show [c] = [44] from hsep.2) |>.1
  simp only at h
  obtain ⟨pairs, tail, rfl, hnul, htail⟩ := exists_pairs block
  have htake : (blit buffer 0 (encodePairs pairs ++ tail)).take (encodePairs pairs ++ tail).length
      = encodePairs pairs ++ tail := by
    rw [blit, List.take_zero, List.nil_append, List.take_left]
  set req := parseHeaders (blit buffer 0 (encodePairs pairs ++ tail))
    (encodePairs pairs ++ tail).length ⟨none, 0, 0, none, none⟩
  have hreported : Reported (encodePairs pairs ++ tail) req _ _ _ :=
    parseHeaders_block hnul htail htake
  obtain ⟨hcontent, h⟩ := passed_guard rfl h
  obtain ⟨value, hlast, hatoi⟩ := lastValue_of_contentLength hreported (by omega)
  obtain ⟨len, hlenEq⟩ : ∃ len : Nat, req.contentLength = len := Int.eq_ofNat_of_zero_le (by omega)
  have hbody : ∃ body rest, after = body ++ rest ∧ body.length = len := by
    rw [hlenEq, Int.toNat_natCast] at h
    rcases Nat.eq_zero_or_pos len with hzero | hpos
    · exact ⟨[], after, rfl, hzero.symm⟩
    · rw [if_pos (by omega)] at h
      obtain ⟨hgotBody, -⟩ := passed_guard rfl h
      obtain ⟨body, rest, -, hsplitBody, hbodyLen, -, -⟩ := readExactly_got (not_not.mp hgotBody)
        (by rw [blit_length (by omega)]; omega)
      exact ⟨body, rest, hb3.symm.trans hsplitBody, hbodyLen⟩
  obtain ⟨body, rest, rfl, hbodyLen⟩ := hbody
  refine ⟨lenText, pairs, tail, value, body, rest, ?_, hcolon, by omega, ?_, by omega, by omega, hnul,
    htail, hlast, ?_, by omega⟩
  · rw [hstream, ← hb1, hsplit, ← hb2, hcomma]
    rfl
  · rw [List.nil_append] at hval
    exact hval.symm
  · rw [hatoi, hlenEq, hbodyLen]

theorem accepts_iff (sockfd : SocketT) (buffer : List Byte) :
    (scgiReadRequest sockfd buffer buffer.length).ret = 0 ↔
      ∃ lenText pairs tail value body rest,
        Accepts (Socket.bytes sockfd) buffer.length lenText pairs tail value body rest :=
  ⟨scgiReadRequest_accepts, fun ⟨_, _, _, _, _, _, h⟩ => h.readAs.success⟩

end WolfCLU.Scgi
