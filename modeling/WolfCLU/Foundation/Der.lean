import WolfCLU.Foundation.BigEndian

namespace Der
open BigEndian CString

def lengthOctets (n : Nat) : List Byte :=
  if n < 128 then [UInt8.ofNat n] else UInt8.ofNat (128 + byteLen n) :: bytes n

def readLength : List Byte → Option (Nat × List Byte)
  | [] => none
  | b :: rest =>
    if b.toNat < 128 then some (b.toNat, rest)
    else
      let octets := rest.take (b.toNat - 128)
      if octets.length < b.toNat - 128 ∨ octets.headD 0 = 0 ∨ value octets < 128 then none
      else some (value octets, rest.drop (b.toNat - 128))

theorem readLength_octets {n : Nat} (h : n < 256 ^ 127) (rest : List Byte) :
    readLength (lengthOctets n ++ rest) = some (n, rest) := by
  by_cases hshort : n < 128
  · have hbyte : (UInt8.ofNat n).toNat = n := by
      rw [UInt8.toNat_ofNat']
      omega
    simp only [lengthOctets, if_pos hshort, List.singleton_append, readLength, hbyte]
  · have hcount : byteLen n ≤ 127 := byteLen_le_iff.mpr h
    have hpos : 0 < n := by omega
    have hbyte : (UInt8.ofNat (128 + byteLen n)).toNat = 128 + byteLen n := by
      rw [UInt8.toNat_ofNat']
      omega
    have htop : ¬ UInt8.ofNat (topByte n) = 0 := by
      intro hzero
      have htoNat := congrArg UInt8.toNat hzero
      have hbounds := topByte_bounds hpos
      rw [UInt8.toNat_ofNat', UInt8.toNat_zero] at htoNat
      omega
    have htake : (bytes n ++ rest).take (byteLen n) = bytes n := List.take_left' (bytes_length n)
    have hdrop : (bytes n ++ rest).drop (byteLen n) = rest := List.drop_left' (bytes_length n)
    have hhead : (bytes n).headD 0 = UInt8.ofNat (topByte n) := by rw [bytes_cons hpos]; rfl
    simp only [lengthOctets, if_neg hshort, List.cons_append, readLength, hbyte]
    rw [if_neg (by omega), Nat.add_sub_cancel_left, htake, hdrop, value_bytes, bytes_length, hhead,
      if_neg (by simp only [lt_irrefl, false_or, not_or]; exact ⟨htop, hshort⟩)]

def tlv (tag : Byte) (content : List Byte) : List Byte :=
  tag :: lengthOctets content.length ++ content

def readTlv (tag : Byte) : List Byte → Option (List Byte × List Byte)
  | [] => none
  | t :: rest =>
    if t ≠ tag then none
    else
      match readLength rest with
      | none => none
      | some (n, rest) => if rest.length < n then none else some (rest.take n, rest.drop n)

theorem readTlv_tlv (tag : Byte) {content : List Byte} (h : content.length < 256 ^ 127)
    (rest : List Byte) : readTlv tag (tlv tag content ++ rest) = some (content, rest) := by
  simp only [tlv, List.cons_append, List.append_assoc, readTlv, ne_eq, not_true_eq_false, if_false,
    readLength_octets h]
  rw [if_neg (by simp), List.take_left, List.drop_left]

def naturalContent (n : Nat) : List Byte :=
  if n = 0 then [0] else if 128 ≤ topByte n then 0 :: bytes n else bytes n

def readNaturalContent : List Byte → Option Nat
  | [] => none
  | b :: rest =>
    if 128 ≤ b.toNat then none
    else if b = 0 ∧ rest ≠ [] ∧ (rest.headD 0).toNat < 128 then none
    else some (value (b :: rest))

theorem readNaturalContent_content (n : Nat) : readNaturalContent (naturalContent n) = some n := by
  rcases Nat.eq_zero_or_pos n with rfl | hpos
  · rfl
  · obtain ⟨htop, hbyte⟩ := topByte_bounds hpos
    have htoNat : (UInt8.ofNat (topByte n)).toNat = topByte n := by
      rw [UInt8.toNat_ofNat']
      omega
    by_cases hhigh : 128 ≤ topByte n
    · have hvalue : value (0 :: bytes n) = n := by
        rw [value_cons, value_bytes]
        simp
      simp only [naturalContent, if_neg hpos.ne', if_pos hhigh, readNaturalContent]
      rw [if_neg (by decide), if_neg ?_, hvalue]
      rintro ⟨-, -, hlow⟩
      rw [bytes_cons hpos, List.headD_cons, htoNat] at hlow
      omega
    · have hvalue := value_bytes n
      simp only [naturalContent, if_neg hpos.ne', if_neg hhigh]
      rw [bytes_cons hpos] at hvalue ⊢
      simp only [readNaturalContent, htoNat, hvalue]
      rw [if_neg hhigh, if_neg ?_]
      rintro ⟨hzero, -, -⟩
      rw [← UInt8.toNat_inj, htoNat, UInt8.toNat_zero] at hzero
      omega

def natural (n : Nat) : List Byte := tlv 2 (naturalContent n)

def readNatural (input : List Byte) : Option (Nat × List Byte) :=
  match readTlv 2 input with
  | none => none
  | some (content, rest) => (readNaturalContent content).map (·, rest)

theorem readNatural_natural {n : Nat} (h : (naturalContent n).length < 256 ^ 127)
    (rest : List Byte) : readNatural (natural n ++ rest) = some (n, rest) := by
  simp only [readNatural, natural, readTlv_tlv 2 h, readNaturalContent_content, Option.map_some]

end Der
