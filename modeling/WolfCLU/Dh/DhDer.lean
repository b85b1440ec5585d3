import WolfCLU.ErrorCodes
import WolfCLU.Foundation.Der
import WolfCLU.Foundation.Emitter

namespace WolfCLU
open BigEndian CString Der Emitter

def bufferE : Int := -132
def lengthOnlyE : Int := -202

structure DhKey where
  p : Nat
  g : Nat
  deriving DecidableEq, Repr

structure DerRun where
  ret : Int
  output : Option (List Byte)
  outSz : Nat
  deriving DecidableEq, Repr

def keyDhOid : List Byte := [42, 134, 72, 134, 247, 13, 1, 3, 1]

section Headers

def bytePrecisionFrom (value : Nat) : Nat → Nat
  | 0 => 0
  | i + 1 => if value >>> (i * 8) ≠ 0 then i + 1 else bytePrecisionFrom value i

def bytePrecisionCopy (value : Nat) : Nat := bytePrecisionFrom value 3

def setLengthLoop (length : Nat) : Nat → Emitter Byte
  | 0 => put []
  | j + 1 => andThen (put [UInt8.ofNat (length >>> (j * 8))]) (setLengthLoop length j)

def setLengthCopy (length : Nat) : Emitter Byte :=
  if length < 128 then put [UInt8.ofNat length]
  else
    let j := bytePrecisionCopy length
    andThen (put [UInt8.ofNat (j ||| 128)]) (setLengthLoop length j)

def setMyVersionCopy (version : Nat) (header : Bool) : Emitter Byte :=
  andThen (put (if header then [160, 3] else [])) (put [2, 1, UInt8.ofNat version])

def setObjectIdCopy (len : Nat) : Emitter Byte := andThen (put [6]) (setLengthCopy len)

def setSequenceCopy (len : Nat) : Emitter Byte := andThen (put [48]) (setLengthCopy len)

def setOctetStringCopy (len : Nat) : Emitter Byte := andThen (put [4]) (setLengthCopy len)

def setASNIntCopy (len : Nat) (firstByte : Byte) : Emitter Byte :=
  andThen (put [2])
    (andThen (setLengthCopy (if firstByte &&& 128 ≠ 0 then len + 1 else len))
      (put (if firstByte &&& 128 ≠ 0 then [0] else [])))

def setASNIntMPCopy (n : Nat) : Emitter Byte :=
  andThen (setASNIntCopy (byteLen n) (if 128 ≤ topByte n then 128 else 0)) (put (bytes n))

end Headers

section Keys

def dhParamsToDer (key : DhKey) (output : Option (List Byte)) (off outSz : Nat) : DerRun :=
  let total := (setASNIntMPCopy key.g none 0).1 + (setASNIntMPCopy key.p none 0).1
  let idx := total + (setSequenceCopy total none 0).1
  match output with
  | none => ⟨lengthOnlyE, none, idx⟩
  | some buffer =>
    if idx > outSz then ⟨bufferE, some buffer, outSz⟩
    else
      let (idx, output) := andThen (setSequenceCopy total)
        (andThen (setASNIntMPCopy key.p) (setASNIntMPCopy key.g)) (some buffer) off
      ⟨idx, output, idx⟩

def dhPrivKeyHeader (total len : Nat) : Emitter Byte :=
  andThen (setSequenceCopy total)
    (andThen (setMyVersionCopy 0 false)
      (andThen (setSequenceCopy len)
        (andThen (setObjectIdCopy keyDhOid.length) (put keyDhOid))))

def mpReadUnsignedBin (mpSize : Nat) (prv : List Byte) : Option Nat :=
  if mpSize < prv.length then none else some (value prv)

def dhPrivKeyToDer (mpSize : Nat) (key : DhKey) (prv : List Byte) (output : Option (List Byte))
    (outSz : Nat) : DerRun :=
  match mpReadUnsignedBin mpSize prv with
  | none => ⟨badFuncArg, output, outSz⟩
  | some mpPriv =>
    let privSz := (setASNIntMPCopy mpPriv none 0).1
    let keySz := 1 + (setLengthCopy privSz none 0).1 + privSz
    let idx := keySz + (dhParamsToDer key none 0 0).outSz
    let idx := idx + (setObjectIdCopy keyDhOid.length none 0).1 + keyDhOid.length
    let len := idx - keySz
    let idx := idx + (setSequenceCopy len none 0).1 + 3
    let total := idx + (setSequenceCopy idx none 0).1
    match output with
    | none => ⟨lengthOnlyE, none, total⟩
    | some buffer =>
      if total > outSz then ⟨bufferE, some buffer, outSz⟩
      else
        let (idx, output) := dhPrivKeyHeader idx len (some buffer) 0
        let params := dhParamsToDer key output idx (outSz - idx)
        if params.ret < 0 then ⟨params.ret, params.output, outSz⟩
        else
          let idx := idx + params.outSz
          let (n, output) := andThen (setOctetStringCopy privSz) (setASNIntMPCopy mpPriv)
            params.output idx
          ⟨(idx + n : Nat), output, idx + n⟩

end Keys

def dhParamsDer (key : DhKey) : List Byte := tlv 48 (natural key.p ++ natural key.g)

def unsignedContent (n : Nat) : List Byte := if n = 0 then [] else naturalContent n

def unsigned (n : Nat) : List Byte := tlv 2 (unsignedContent n)

def dhParamsWritten (key : DhKey) : List Byte := tlv 48 (unsigned key.p ++ unsigned key.g)

def dhKeyDer (key : DhKey) (x : Nat) : List Byte :=
  tlv 48 (natural 0 ++ (tlv 48 (tlv 6 keyDhOid ++ dhParamsDer key) ++ tlv 4 (natural x)))

section Lengths
variable {n : Nat}

theorem shiftRight_bytes (n k : Nat) : n >>> (k * 8) = n / 256 ^ k := by
  rw [Nat.shiftRight_eq_div_pow, Nat.mul_comm, Nat.pow_mul]

theorem bytePrecisionFrom_eq {k : Nat} (h : byteLen n ≤ k) : bytePrecisionFrom n k = byteLen n := by
  induction k with
  | zero => exact (Nat.le_zero.mp h).symm
  | succ k ih =>
    rw [bytePrecisionFrom, shiftRight_bytes]
    split
    · rename_i hne
      have hlarge : ¬ byteLen n ≤ k := by
        rw [byteLen_le_iff]
        intro hlt
        exact hne (Nat.div_eq_of_lt hlt)
      omega
    · rename_i hzero
      have hlt : n < 256 ^ k := by
        rw [not_not, Nat.div_eq_zero_iff] at hzero
        exact hzero.resolve_left (by positivity)
      exact ih (byteLen_le_iff.mpr hlt)

theorem bytePrecisionCopy_le (n : Nat) : bytePrecisionCopy n ≤ 3 := by
  simp only [bytePrecisionCopy, bytePrecisionFrom]
  split_ifs <;> omega

theorem setLengthLoop_emits (length j : Nat) : Emits (setLengthLoop length j) (fixed j length) := by
  induction j with
  | zero => exact emits_put []
  | succ j ih =>
    rw [setLengthLoop, shiftRight_bytes]
    exact (emits_put _).andThen ih

theorem or_128 {j : Nat} (h : j ≤ 3) : j ||| 128 = 128 + j := by
  interval_cases j <;> rfl

theorem setLengthCopy_emits (n : Nat) : Emits (setLengthCopy n)
    (if n < 128 then [UInt8.ofNat n]
      else UInt8.ofNat (128 + bytePrecisionCopy n) :: fixed (bytePrecisionCopy n) n) := by
  rw [setLengthCopy]
  split
  · exact emits_put _
  · simp only [or_128 (bytePrecisionCopy_le n)]
    exact (emits_put _).andThen (setLengthLoop_emits n _)

theorem setLengthCopy_octets (h : n < 2 ^ 24) : Emits (setLengthCopy n) (lengthOctets n) := by
  have hprecision : bytePrecisionCopy n = byteLen n :=
    bytePrecisionFrom_eq (byteLen_le_iff.mpr (by omega))
  have hemits := setLengthCopy_emits n
  rw [hprecision] at hemits
  exact hemits

theorem bytePrecisionCopy_large (h : 2 ^ 24 ≤ n) : bytePrecisionCopy n = 3 := by
  have hne : n >>> (2 * 8) ≠ 0 := by
    rw [shiftRight_bytes]
    omega
  rw [bytePrecisionCopy, bytePrecisionFrom, if_pos hne]

theorem setLengthCopy_octets_iff :
    (Emits (setLengthCopy n) (lengthOctets n) ↔ n < 2 ^ 24) ∧
      (2 ^ 24 ≤ n → Emits (setLengthCopy n) (131 :: fixed 3 n)) := by
  refine ⟨⟨fun h => ?_, setLengthCopy_octets⟩, fun hlarge => ?_⟩
  case refine_2 =>
    have hemits := setLengthCopy_emits n
    rw [if_neg (by omega), bytePrecisionCopy_large hlarge] at hemits
    exact hemits
  by_contra hlarge
  have hbytes : ¬ byteLen n ≤ 3 := by
    rw [byteLen_le_iff]
    omega
  have hcopied := setLengthCopy_emits n
  rw [if_neg (by omega)] at hcopied
  have hcount := congrArg Prod.fst ((h.count 0).symm.trans (hcopied.count 0))
  simp only [lengthOctets, if_neg (show ¬ n < 128 by omega), List.length_cons, bytes_length,
    fixed_length] at hcount
  have hle := bytePrecisionCopy_le n
  omega

theorem tlv_length (tag : Byte) (content : List Byte) :
    (tlv tag content).length = 1 + (lengthOctets content.length).length + content.length := by
  simp only [tlv, List.cons_append, List.length_cons, List.length_append]
  omega

theorem header_emits {tag : Byte} (h : n < 2 ^ 24) :
    Emits (andThen (put [tag]) (setLengthCopy n)) (tag :: lengthOctets n) :=
  (emits_put [tag]).andThen (setLengthCopy_octets h)

theorem tlv_emits {tag : Byte} {content : List Byte} {f : Emitter Byte}
    (h : content.length < 2 ^ 24) (hf : Emits f content) :
    Emits (andThen (andThen (put [tag]) (setLengthCopy content.length)) f) (tlv tag content) :=
  (header_emits h).andThen hf

theorem naturalContent_length (hpos : 0 < n) :
    (naturalContent n).length = if 128 ≤ topByte n then byteLen n + 1 else byteLen n := by
  simp only [naturalContent, if_neg hpos.ne']
  split
  · rw [List.length_cons, bytes_length]
  · exact bytes_length n

theorem unsigned_of_pos (hpos : 0 < n) : unsigned n = natural n := by
  rw [unsigned, unsignedContent, if_neg hpos.ne', natural]

theorem unsignedContent_eq (n : Nat) :
    unsignedContent n = (if 128 ≤ topByte n then [0] else []) ++ bytes n := by
  rcases Nat.eq_zero_or_pos n with rfl | hpos
  · rfl
  · rw [unsignedContent, if_neg hpos.ne', naturalContent, if_neg hpos.ne']
    split <;> rfl

theorem setASNIntMPCopy_emits (h : (unsignedContent n).length < 2 ^ 24) :
    Emits (setASNIntMPCopy n) (unsigned n) := by
  have hheader := setLengthCopy_octets h
  rw [unsigned, tlv, setASNIntMPCopy, setASNIntCopy]
  by_cases hhigh : 128 ≤ topByte n
  · have hcontent : unsignedContent n = 0 :: bytes n := by
      rw [unsignedContent_eq, if_pos hhigh, List.singleton_append]
    rw [hcontent, List.length_cons, bytes_length] at hheader
    have hemits := ((emits_put [2]).andThen (hheader.andThen (emits_put [0]))).andThen
      (emits_put (bytes n))
    rw [if_pos hhigh, hcontent, List.length_cons, bytes_length]
    rw [List.append_assoc, List.append_assoc] at hemits
    exact hemits
  · have hcontent : unsignedContent n = bytes n := by
      rw [unsignedContent_eq, if_neg hhigh, List.nil_append]
    rw [hcontent, bytes_length] at hheader
    have hemits := ((emits_put [2]).andThen (hheader.andThen (emits_put []))).andThen
      (emits_put (bytes n))
    rw [if_neg hhigh, hcontent, bytes_length]
    rw [List.append_nil, List.append_assoc] at hemits
    exact hemits

end Lengths

section Params
variable {key : DhKey} {buffer : List Byte} {off outSz : Nat}

def DhHeld (key : DhKey) : Prop := (dhParamsWritten key).length < 2 ^ 24

structure DhSized (key : DhKey) : Prop where
  p_pos : 0 < key.p
  g_pos : 0 < key.g
  size : (dhParamsDer key).length < 2 ^ 24

theorem content_lt_tlv (tag : Byte) (content : List Byte) :
    content.length < (tlv tag content).length := by
  rw [tlv_length]
  omega

theorem dhParamsWritten_of_pos (hp : 0 < key.p) (hg : 0 < key.g) :
    dhParamsWritten key = dhParamsDer key := by
  rw [dhParamsWritten, unsigned_of_pos hp, unsigned_of_pos hg, dhParamsDer]

theorem DhSized.written (h : DhSized key) : dhParamsWritten key = dhParamsDer key :=
  dhParamsWritten_of_pos h.p_pos h.g_pos

theorem DhSized.held (h : DhSized key) : DhHeld key := by
  rw [DhHeld, h.written]
  exact h.size

theorem DhHeld.sized (h : DhHeld key) (hp : 0 < key.p) (hg : 0 < key.g) : DhSized key :=
  ⟨hp, hg, by rwa [DhHeld, dhParamsWritten_of_pos hp hg] at h⟩

theorem DhHeld.content (h : DhHeld key) : (unsigned key.p ++ unsigned key.g).length < 2 ^ 24 :=
  (content_lt_tlv 48 _).trans h

theorem DhSized.content (h : DhSized key) : (natural key.p ++ natural key.g).length < 2 ^ 24 :=
  (content_lt_tlv 48 _).trans h.size

theorem DhHeld.emits_p (h : DhHeld key) : Emits (setASNIntMPCopy key.p) (unsigned key.p) := by
  refine setASNIntMPCopy_emits ?_
  have hcontent := h.content
  have hp := content_lt_tlv 2 (unsignedContent key.p)
  simp only [unsigned, List.length_append] at hcontent hp
  omega

theorem DhHeld.emits_g (h : DhHeld key) : Emits (setASNIntMPCopy key.g) (unsigned key.g) := by
  refine setASNIntMPCopy_emits ?_
  have hcontent := h.content
  have hg := content_lt_tlv 2 (unsignedContent key.g)
  simp only [unsigned, List.length_append] at hcontent hg
  omega

theorem DhHeld.total (h : DhHeld key) :
    (setASNIntMPCopy key.g none 0).1 + (setASNIntMPCopy key.p none 0).1 =
      (unsigned key.p ++ unsigned key.g).length := by
  rw [h.emits_g.count, h.emits_p.count, List.length_append, Nat.add_comm]

theorem sequence_count {content : List Byte} (h : content.length < 2 ^ 24) :
    content.length + (setSequenceCopy content.length none 0).1 = (tlv 48 content).length := by
  rw [setSequenceCopy, (header_emits h).count, tlv_length]
  simp only [List.length_cons]
  omega

theorem DhHeld.toDer_size (h : DhHeld key) :
    dhParamsToDer key none off outSz = ⟨lengthOnlyE, none, (dhParamsWritten key).length⟩ := by
  simp only [dhParamsToDer, h.total, sequence_count h.content, dhParamsWritten]

theorem DhHeld.toDer_written (h : DhHeld key) (hfits : (dhParamsWritten key).length ≤ outSz)
    (hoff : off ≤ buffer.length) :
    dhParamsToDer key (some buffer) off outSz =
      ⟨(dhParamsWritten key).length, some (Buffer.blit buffer off (dhParamsWritten key)),
        (dhParamsWritten key).length⟩ := by
  have hemits : Emits (andThen (setSequenceCopy (unsigned key.p ++ unsigned key.g).length)
      (andThen (setASNIntMPCopy key.p) (setASNIntMPCopy key.g))) (dhParamsWritten key) :=
    tlv_emits h.content (h.emits_p.andThen h.emits_g)
  simp only [dhParamsToDer, h.total, sequence_count h.content]
  rw [if_neg (by simpa [dhParamsWritten] using hfits), hemits.written hoff]

theorem dhParamsToDer_size (h : DhSized key) :
    dhParamsToDer key none off outSz = ⟨lengthOnlyE, none, (dhParamsDer key).length⟩ := by
  rw [h.held.toDer_size, h.written]

theorem dhParamsToDer_written (h : DhSized key) (hfits : (dhParamsDer key).length ≤ outSz)
    (hoff : off ≤ buffer.length) :
    dhParamsToDer key (some buffer) off outSz =
      ⟨(dhParamsDer key).length, some (Buffer.blit buffer off (dhParamsDer key)),
        (dhParamsDer key).length⟩ := by
  rw [← h.written] at hfits ⊢
  exact h.held.toDer_written hfits hoff

end Params

section PrivateKey
variable {mpSize : Nat} {key : DhKey} {prv buffer : List Byte} {outSz : Nat}

theorem mpReadUnsignedBin_of_le (hread : prv.length ≤ mpSize) :
    mpReadUnsignedBin mpSize prv = some (value prv) :=
  if_neg (Nat.not_lt.mpr hread)

theorem dhPrivKeyToDer_unread (output : Option (List Byte)) (hread : mpSize < prv.length) :
    dhPrivKeyToDer mpSize key prv output outSz = ⟨badFuncArg, output, outSz⟩ := by
  simp only [dhPrivKeyToDer, mpReadUnsignedBin, if_pos hread]

theorem dhPrivKeyHeader_emits {total len : Nat} (htotal : total < 2 ^ 24) (hlen : len < 2 ^ 24) :
    Emits (dhPrivKeyHeader total len)
      (48 :: lengthOctets total ++ (natural 0 ++ (48 :: lengthOctets len ++ tlv 6 keyDhOid))) := by
  have hversion : Emits (setMyVersionCopy 0 false) (natural 0) :=
    (emits_put []).andThen (emits_put [2, 1, 0])
  have hoid : Emits (andThen (setObjectIdCopy keyDhOid.length) (put keyDhOid)) (tlv 6 keyDhOid) :=
    tlv_emits (by decide) (emits_put keyDhOid)
  exact (header_emits htotal).andThen (hversion.andThen ((header_emits hlen).andThen hoid))

def dhAlgorithm (key : DhKey) : List Byte := tlv 6 keyDhOid ++ dhParamsDer key

def dhKeyBody (key : DhKey) (x : Nat) : List Byte :=
  natural 0 ++ (tlv 48 (dhAlgorithm key) ++ tlv 4 (natural x))

structure DhKeySized (key : DhKey) (x : Nat) : Prop where
  p_pos : 0 < key.p
  g_pos : 0 < key.g
  x_pos : 0 < x
  size : (dhKeyDer key x).length < 2 ^ 24

theorem DhKeySized.body {x : Nat} (h : DhKeySized key x) : (dhKeyBody key x).length < 2 ^ 24 :=
  (content_lt_tlv 48 _).trans h.size

theorem DhKeySized.algorithm {x : Nat} (h : DhKeySized key x) :
    (dhAlgorithm key).length < 2 ^ 24 := by
  have hbody := h.body
  have hinner := content_lt_tlv 48 (dhAlgorithm key)
  simp only [dhKeyBody, List.length_append] at hbody
  omega

theorem DhKeySized.params {x : Nat} (h : DhKeySized key x) : DhSized key := by
  refine ⟨h.p_pos, h.g_pos, ?_⟩
  have halgorithm := h.algorithm
  simp only [dhAlgorithm, List.length_append] at halgorithm
  omega

theorem DhKeySized.secret {x : Nat} (h : DhKeySized key x) : (natural x).length < 2 ^ 24 := by
  have hbody := h.body
  have hinner := content_lt_tlv 4 (natural x)
  simp only [dhKeyBody, List.length_append] at hbody
  omega

theorem DhKeySized.emits_x {x : Nat} (h : DhKeySized key x) :
    Emits (setASNIntMPCopy x) (natural x) := by
  have hsecret := h.secret
  rw [← unsigned_of_pos h.x_pos] at hsecret ⊢
  exact setASNIntMPCopy_emits ((content_lt_tlv 2 _).trans hsecret)

theorem DhKeySized.counts {x : Nat} (h : DhKeySized key x) :
    (setASNIntMPCopy x none 0).1 = (natural x).length ∧
      1 + (setLengthCopy (natural x).length none 0).1 + (natural x).length =
        (tlv 4 (natural x)).length ∧
      (dhParamsDer key).length + (setObjectIdCopy keyDhOid.length none 0).1 + keyDhOid.length =
        (dhAlgorithm key).length ∧
      (tlv 4 (natural x)).length + (dhAlgorithm key).length +
        (setSequenceCopy (dhAlgorithm key).length none 0).1 + 3 = (dhKeyBody key x).length ∧
      (dhKeyBody key x).length + (setSequenceCopy (dhKeyBody key x).length none 0).1 =
        (dhKeyDer key x).length := by
  refine ⟨?_, ?_, ?_, ?_, sequence_count h.body⟩
  · rw [h.emits_x.count]
  · rw [(setLengthCopy_octets h.secret).count, tlv_length]
  · have hoid : (setObjectIdCopy keyDhOid.length none 0).1 + keyDhOid.length =
        (tlv 6 keyDhOid).length := by decide
    rw [dhAlgorithm, List.length_append, ← hoid]
    omega
  · have hversion : (natural 0).length = 3 := rfl
    have halgorithm := sequence_count h.algorithm
    rw [dhKeyBody, List.length_append, List.length_append, hversion, ← halgorithm]
    omega

theorem DhKeySized.lengths {x : Nat} (h : DhKeySized key x) :
    (tlv 4 (natural x)).length + (dhParamsDer key).length +
        (setObjectIdCopy keyDhOid.length none 0).1 + keyDhOid.length -
          (tlv 4 (natural x)).length = (dhAlgorithm key).length ∧
      (tlv 4 (natural x)).length + (dhParamsDer key).length +
        (setObjectIdCopy keyDhOid.length none 0).1 + keyDhOid.length +
          (setSequenceCopy (dhAlgorithm key).length none 0).1 + 3 = (dhKeyBody key x).length := by
  obtain ⟨-, -, halgorithm, hbody, -⟩ := h.counts
  constructor <;> omega

theorem dhPrivKeyToDer_size (hread : prv.length ≤ mpSize) (h : DhKeySized key (value prv)) :
    dhPrivKeyToDer mpSize key prv none outSz =
      ⟨lengthOnlyE, none, (dhKeyDer key (value prv)).length⟩ := by
  obtain ⟨hpriv, hkeySz, -, -, htotal⟩ := h.counts
  obtain ⟨hlen, hidx⟩ := h.lengths
  simp only [dhPrivKeyToDer, mpReadUnsignedBin_of_le hread, hpriv, hkeySz,
    dhParamsToDer_size h.params, hlen, hidx, htotal]

theorem dhPrivKeyToDer_small (hread : prv.length ≤ mpSize) (h : DhKeySized key (value prv))
    (hsmall : outSz < (dhKeyDer key (value prv)).length) :
    dhPrivKeyToDer mpSize key prv (some buffer) outSz = ⟨bufferE, some buffer, outSz⟩ := by
  obtain ⟨hpriv, hkeySz, -, -, htotal⟩ := h.counts
  obtain ⟨hlen, hidx⟩ := h.lengths
  simp only [dhPrivKeyToDer, mpReadUnsignedBin_of_le hread, hpriv, hkeySz,
    dhParamsToDer_size h.params, hlen, hidx, htotal]
  exact if_pos hsmall

theorem dhKeyDer_split (key : DhKey) (x : Nat) :
    dhKeyDer key x = (48 :: lengthOctets (dhKeyBody key x).length ++
        (natural 0 ++ (48 :: lengthOctets (dhAlgorithm key).length ++ tlv 6 keyDhOid))) ++
      dhParamsDer key ++ tlv 4 (natural x) := by
  simp only [dhKeyDer, dhKeyBody, dhAlgorithm, tlv, List.cons_append, List.append_assoc]

theorem dhPrivKeyToDer_written (hread : prv.length ≤ mpSize) (h : DhKeySized key (value prv))
    (hfits : (dhKeyDer key (value prv)).length ≤ outSz) (hbuffer : outSz ≤ buffer.length) :
    dhPrivKeyToDer mpSize key prv (some buffer) outSz =
      ⟨(dhKeyDer key (value prv)).length,
        some (Buffer.blit buffer 0 (dhKeyDer key (value prv))),
        (dhKeyDer key (value prv)).length⟩ := by
  obtain ⟨hpriv, hkeySz, -, -, htotal⟩ := h.counts
  obtain ⟨hlen, hidx⟩ := h.lengths
  have hheader := dhPrivKeyHeader_emits h.body h.algorithm
  have hsecret : Emits (andThen (setOctetStringCopy (natural (value prv)).length)
      (setASNIntMPCopy (value prv))) (tlv 4 (natural (value prv))) :=
    tlv_emits h.secret h.emits_x
  have hsplit := congrArg List.length (dhKeyDer_split key (value prv))
  simp only [List.length_append] at hsplit
  set header := 48 :: lengthOctets (dhKeyBody key (value prv)).length ++
    (natural 0 ++ (48 :: lengthOctets (dhAlgorithm key).length ++ tlv 6 keyDhOid)) with hdef
  have hlong : (dhKeyDer key (value prv)).length =
      header.length + (dhParamsDer key).length + (tlv 4 (natural (value prv))).length := by
    rw [dhKeyDer_split, ← hdef, List.length_append, List.length_append]
  have hblit : (Buffer.blit buffer 0 header).length = buffer.length :=
    Buffer.blit_length (by omega)
  have hparams : dhParamsToDer key (some (Buffer.blit buffer 0 header)) header.length
        (outSz - header.length) =
      ⟨(dhParamsDer key).length,
        some (Buffer.blit (Buffer.blit buffer 0 header) header.length (dhParamsDer key)),
        (dhParamsDer key).length⟩ :=
    dhParamsToDer_written h.params (by omega) (by omega)
  have hstored : Buffer.blit (Buffer.blit buffer 0 header) header.length (dhParamsDer key) =
      Buffer.blit buffer 0 (header ++ dhParamsDer key) := by
    have hblits := @Buffer.blit_blit _ _ header (dhParamsDer key) 0 (Nat.zero_le buffer.length)
    rwa [Nat.zero_add] at hblits
  have hall : Buffer.blit (Buffer.blit buffer 0 (header ++ dhParamsDer key))
      (header.length + (dhParamsDer key).length) (tlv 4 (natural (value prv))) =
        Buffer.blit buffer 0 (dhKeyDer key (value prv)) := by
    have hblits := @Buffer.blit_blit _ _ (header ++ dhParamsDer key)
      (tlv 4 (natural (value prv))) 0 (Nat.zero_le buffer.length)
    rwa [Nat.zero_add, List.length_append, hdef, ← dhKeyDer_split] at hblits
  simp only [dhPrivKeyToDer, mpReadUnsignedBin_of_le hread, hpriv, hkeySz,
    dhParamsToDer_size h.params, hlen, hidx, htotal]
  rw [if_neg (by omega), hheader.written (Nat.zero_le _)]
  simp only [hparams, hstored]
  rw [hsecret.written (by rw [Buffer.blit_length (by simp only [List.length_append]; omega)]; omega),
    hall]
  simp only [hlong]
  rw [if_neg (by omega)]

end PrivateKey

section ReadBack
variable {key : DhKey} {x : Nat}

def readDhParams (input : List Byte) : Option DhKey :=
  match readTlv 48 input with
  | some (content, []) =>
    match readNatural content with
    | some (p, rest) =>
      match readNatural rest with
      | some (g, []) => some ⟨p, g⟩
      | _ => none
    | none => none
  | _ => none

def readDhAlgorithm (input : List Byte) : Option DhKey :=
  match readTlv 6 input with
  | some (oid, rest) => if oid = keyDhOid then readDhParams rest else none
  | none => none

def readDhSecret (input : List Byte) : Option Nat :=
  match readTlv 4 input with
  | some (content, []) =>
    match readNatural content with
    | some (x, []) => some x
    | _ => none
  | _ => none

def readDhPrivateKey (input : List Byte) : Option (DhKey × Nat) :=
  match readTlv 48 input with
  | some (body, []) =>
    match readNatural body with
    | some (0, rest) =>
      match readTlv 48 rest with
      | some (algorithm, secret) =>
        match readDhAlgorithm algorithm, readDhSecret secret with
        | some key, some x => some (key, x)
        | _, _ => none
      | none => none
    | _ => none
  | _ => none

theorem short_content {m : Nat} (h : m < 2 ^ 24) : m < 256 ^ 127 :=
  h.trans_le (by norm_num)

theorem readDhParams_der (h : DhSized key) : readDhParams (dhParamsDer key) = some key := by
  have hp := (content_lt_tlv 2 (naturalContent key.p))
  have hg := (content_lt_tlv 2 (naturalContent key.g))
  have hcontent := h.content
  simp only [List.length_append, natural] at hcontent
  have houter := readTlv_tlv 48 (short_content h.content) []
  have hfirst := readNatural_natural (short_content (hp.trans (by omega))) (natural key.g)
  have hsecond := readNatural_natural (short_content (hg.trans (by omega))) []
  rw [List.append_nil] at houter hsecond
  simp only [readDhParams, dhParamsDer, houter, hfirst, hsecond]

theorem readNatural_zero (rest : List Byte) : readNatural (unsigned 0 ++ rest) = none := by
  have hcontent := @readTlv_tlv 2 [] (by decide) rest
  simp only [readNatural, unsigned, unsignedContent, if_pos, hcontent]
  rfl

theorem readDhParams_zero (h : DhHeld key) (hzero : key.p = 0 ∨ key.g = 0) :
    readDhParams (dhParamsWritten key) = none := by
  have hcontent := h.content
  have houter := readTlv_tlv 48 (short_content hcontent) []
  rw [List.append_nil] at houter
  simp only [readDhParams, dhParamsWritten, houter]
  rcases Nat.eq_zero_or_pos key.p with hp | hp
  · rw [hp, readNatural_zero]
  · have hg : key.g = 0 := hzero.resolve_left hp.ne'
    have hlen := content_lt_tlv 2 (naturalContent key.p)
    rw [unsigned_of_pos hp, List.length_append, natural] at hcontent
    have hfirst := readNatural_natural (short_content (hlen.trans (by omega))) (unsigned 0)
    have hsecond := readNatural_zero []
    rw [List.append_nil] at hsecond
    simp only [unsigned_of_pos hp, hg, hfirst, hsecond]

theorem readDhAlgorithm_der (h : DhSized key) : readDhAlgorithm (dhAlgorithm key) = some key := by
  have hoid := @readTlv_tlv 6 keyDhOid (by decide) (dhParamsDer key)
  simp only [readDhAlgorithm, dhAlgorithm, hoid, if_true, readDhParams_der h]

theorem readDhSecret_der (h : (natural x).length < 2 ^ 24) :
    readDhSecret (tlv 4 (natural x)) = some x := by
  have houter := readTlv_tlv 4 (short_content h) []
  have hnumber := readNatural_natural (n := x)
    (short_content ((content_lt_tlv 2 (naturalContent x)).trans h)) []
  rw [List.append_nil] at houter hnumber
  simp only [readDhSecret, houter, hnumber]

theorem readDhPrivateKey_der (h : DhKeySized key x) :
    readDhPrivateKey (dhKeyDer key x) = some (key, x) := by
  have houter := readTlv_tlv 48 (short_content h.body) []
  have hversion := readNatural_natural (n := 0) (by decide)
    (tlv 48 (dhAlgorithm key) ++ tlv 4 (natural x))
  have halgorithm := readTlv_tlv 48 (short_content h.algorithm) (tlv 4 (natural x))
  rw [List.append_nil] at houter
  rw [show dhKeyDer key x = tlv 48 (dhKeyBody key x) from rfl]
  simp only [readDhPrivateKey, houter]
  simp only [dhKeyBody, hversion, halgorithm, readDhAlgorithm_der h.params,
    readDhSecret_der h.secret]

end ReadBack

section Exact
variable {mpSize : Nat} {key : DhKey} {prv buffer : List Byte} {outSz : Nat}

theorem dhPrivKeyToDer_exact (h : DhKeySized key (value prv)) (hbuffer : outSz ≤ buffer.length) :
    (mpSize < prv.length → ∀ output sz,
      dhPrivKeyToDer mpSize key prv output sz = ⟨badFuncArg, output, sz⟩) ∧
    (prv.length ≤ mpSize → ∃ needed : Nat,
      (∀ sz, dhPrivKeyToDer mpSize key prv none sz = ⟨lengthOnlyE, none, needed⟩) ∧
      (outSz < needed →
        dhPrivKeyToDer mpSize key prv (some buffer) outSz = ⟨bufferE, some buffer, outSz⟩) ∧
      (needed ≤ outSz → ∃ written : List Byte, written.length = buffer.length ∧
        dhPrivKeyToDer mpSize key prv (some buffer) outSz = ⟨needed, some written, needed⟩ ∧
        written.drop needed = buffer.drop needed ∧
        readDhPrivateKey (written.take needed) = some (key, value prv))) := by
  refine ⟨fun hlong output sz => dhPrivKeyToDer_unread output hlong, fun hread => ?_⟩
  refine ⟨(dhKeyDer key (value prv)).length, fun sz => dhPrivKeyToDer_size hread h,
    dhPrivKeyToDer_small hread h, ?_⟩
  intro hfits
  have hinside : 0 + (dhKeyDer key (value prv)).length ≤ buffer.length := by omega
  refine ⟨Buffer.blit buffer 0 (dhKeyDer key (value prv)), Buffer.blit_length hinside,
    dhPrivKeyToDer_written hread h hfits hbuffer, ?_, ?_⟩
  · have hlen : ((buffer.take 0) ++ dhKeyDer key (value prv)).length =
        (dhKeyDer key (value prv)).length := by simp
    rw [Buffer.blit, List.drop_left' hlen, Nat.zero_add]
  · have htake := @Buffer.blit_take_append _ _ (dhKeyDer key (value prv)) 0
      (Nat.zero_le buffer.length)
    rw [Nat.zero_add, List.take_zero, List.nil_append] at htake
    rw [htake, readDhPrivateKey_der h]

theorem dhPrivKeyToDer_exact_small_group :
    (512 < [(7 : Byte)].length → ∀ output sz,
      dhPrivKeyToDer 512 ⟨23, 5⟩ [7] output sz = ⟨badFuncArg, output, sz⟩) ∧
    ([(7 : Byte)].length ≤ 512 → ∃ needed : Nat,
      (∀ sz, dhPrivKeyToDer 512 ⟨23, 5⟩ [7] none sz = ⟨lengthOnlyE, none, needed⟩) ∧
      (40 < needed → dhPrivKeyToDer 512 ⟨23, 5⟩ [7] (some (List.replicate 40 255)) 40 =
        ⟨bufferE, some (List.replicate 40 255), 40⟩) ∧
      (needed ≤ 40 → ∃ written : List Byte, written.length = (List.replicate 40 (255 : Byte)).length ∧
        dhPrivKeyToDer 512 ⟨23, 5⟩ [7] (some (List.replicate 40 255)) 40 =
          ⟨needed, some written, needed⟩ ∧
        written.drop needed = (List.replicate 40 (255 : Byte)).drop needed ∧
        readDhPrivateKey (written.take needed) = some (⟨23, 5⟩, value [7]))) :=
  dhPrivKeyToDer_exact ⟨by decide, by decide, by decide, by decide⟩ (by simp)

end Exact

end WolfCLU
