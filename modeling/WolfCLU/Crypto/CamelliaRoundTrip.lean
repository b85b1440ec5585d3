import WolfCLU.Crypto.Camellia

namespace WolfCLU.Cbc
open Buffer Chunks CString

structure Lawful (lib : CamelliaLib) : Prop where
  decrypts : ∀ key iv {xs : List Byte}, 16 ∣ xs.length →
    lib.cbcDecrypt key iv (lib.cbcEncrypt key iv xs) = xs
  encryptLength : ∀ key iv {xs : List Byte}, 16 ∣ xs.length →
    (lib.cbcEncrypt key iv xs).length = xs.length
  derivedLength : ∀ password salt iterations size,
    (lib.pbkdf2 password salt iterations size).length = size

def padOf (n : Nat) : Nat := (16 - n % 16) % 16

theorem padLength_eq {fuel m k : Nat} (hfuel : padOf m ≤ fuel)
    (hmax : ((m + padOf m : Nat) : Int) ≤ MachineInt.intMax) :
    padLength 16 fuel m k = (((m + padOf m : Nat) : Int), k + padOf m) := by
  induction fuel generalizing m k with
  | zero =>
    have hzero : padOf m = 0 := Nat.le_zero.mp hfuel
    simp [padLength, hzero]
  | succ fuel ih =>
    have hmod : (m : Int).tmod (16 : Nat) = (m % 16 : Nat) := by
      rw [Int.tmod_eq_emod_of_nonneg (by omega)]
      omega
    rw [padLength, hmod]
    by_cases hm : m % 16 = 0
    · have hzero : padOf m = 0 := by simp [padOf, hm]
      simp [hm, hzero]
    · have hstep : padOf (m + 1) + 1 = padOf m := by
        simp only [padOf]
        omega
      have hmax' : ((m + 1 + padOf (m + 1) : Nat) : Int) ≤ MachineInt.intMax := by
        rw [← hstep] at hmax
        exact le_trans (by omega) hmax
      have hint : MachineInt.toInt32 ((m : Int) + 1) = ((m + 1 : Nat) : Int) :=
        MachineInt.toInt32_of_range (by omega) (le_trans (by omega) hmax')
      have hsum : m + 1 + padOf (m + 1) = m + padOf m := by omega
      have hcount : k + 1 + padOf (m + 1) = k + padOf m := by omega
      rw [if_pos (by omega), hint]
      exact (ih (by omega) hmax').trans (by rw [hsum, hcount])

def padding (n : Nat) : List Byte := List.replicate (padOf n) (UInt8.ofNat (padOf n))

def encAll (lib : CamelliaLib) (key iv ys : List Byte) : List Byte :=
  ((chunks maxLen ys).map (lib.cbcEncrypt key iv)).flatten

theorem encAll_nil (lib : CamelliaLib) (key iv : List Byte) : encAll lib key iv [] = [] := by
  simp [encAll, chunks_nil]

theorem encAll_cons (lib : CamelliaLib) (key iv : List Byte) {ys : List Byte} (hne : ys ≠ []) :
    encAll lib key iv ys = lib.cbcEncrypt key iv (ys.take maxLen) ++
      encAll lib key iv (ys.drop maxLen) := by
  rw [encAll, chunks_of_ne (by decide) hne, List.map_cons, List.flatten_cons]
  rfl

theorem encAll_short (lib : CamelliaLib) (key iv : List Byte) {ys : List Byte} (hne : ys ≠ [])
    (hle : ys.length ≤ maxLen) : encAll lib key iv ys = lib.cbcEncrypt key iv ys := by
  rw [encAll_cons lib key iv hne, List.take_of_length_le hle, List.drop_of_length_le hle, encAll_nil,
    List.append_nil]

theorem encAll_full (lib : CamelliaLib) (key iv : List Byte) {xs ys : List Byte}
    (hxs : xs.length = maxLen) :
    encAll lib key iv (xs ++ ys) = lib.cbcEncrypt key iv xs ++ encAll lib key iv ys := by
  have hne : xs ≠ [] := List.ne_nil_of_length_pos (by rw [hxs]; decide)
  rw [encAll_cons lib key iv (List.append_ne_nil_of_left_ne_nil hne ys), List.take_left' hxs,
    List.drop_left' hxs]

theorem dvd_padded (n : Nat) : 16 ∣ n + padOf n := by
  simp only [padOf]
  omega

def encryptedChunks (padCounter : Nat) (rest : List Byte) (eof : Bool) (length : Int) :
    List (List Byte × List Byte) :=
  if _hlen : length > 0 then
    let chunk := nextChunk rest eof
    let eof := eof || decide (chunk.length < maxLen)
    let padded := chunkPadding padCounter chunk
    if _htemp : chunk.length + padded.length = 0 then []
    else
      (chunk, padded) :: encryptedChunks padCounter (if eof then [] else rest.drop maxLen) eof
        (length - (chunk.length + padded.length : Nat))
  else []
termination_by length.toNat
decreasing_by
  simp only [padded, chunk] at _htemp ⊢
  omega

def plainOf (pieces : List (List Byte × List Byte)) : List Byte := (pieces.map Prod.fst).flatten

def paddingOf (pieces : List (List Byte × List Byte)) : List Byte := (pieces.map Prod.snd).flatten

@[simp] theorem plainOf_nil : plainOf [] = [] := rfl
@[simp] theorem paddingOf_nil : paddingOf [] = [] := rfl

theorem plainOf_cons (piece : List Byte × List Byte) (pieces : List (List Byte × List Byte)) :
    plainOf (piece :: pieces) = piece.1 ++ plainOf pieces := by
  rw [plainOf, List.map_cons, List.flatten_cons, plainOf]

theorem paddingOf_cons (piece : List Byte × List Byte) (pieces : List (List Byte × List Byte)) :
    paddingOf (piece :: pieces) = piece.2 ++ paddingOf pieces := by
  rw [paddingOf, List.map_cons, List.flatten_cons, paddingOf]

section Pieces
variable {padCounter : Nat} {xs : List Byte} {length : Int}

theorem encryptedChunks_done (hlen : length ≤ 0) (eof : Bool) :
    encryptedChunks padCounter xs eof length = [] := by
  rw [encryptedChunks, dif_neg (not_lt.mpr hlen)]

theorem chunkPadding_short (hshort : xs.length < maxLen) :
    chunkPadding padCounter xs = List.replicate padCounter (UInt8.ofNat padCounter) := by
  rw [chunkPadding, if_pos hshort.ne]

theorem take_full (hfull : maxLen ≤ xs.length) : (xs.take maxLen).length = maxLen := by
  rw [List.length_take, Nat.min_eq_left hfull]

theorem chunkPadding_full (hfull : maxLen ≤ xs.length) :
    chunkPadding padCounter (xs.take maxLen) = [] := by
  rw [chunkPadding, if_neg (not_not.mpr (take_full hfull))]

theorem encryptedChunks_full (hlen : length > 0) (hfull : maxLen ≤ xs.length) :
    encryptedChunks padCounter xs false length =
      (xs.take maxLen, []) :: encryptedChunks padCounter (xs.drop maxLen) false (length - maxLen) := by
  have htake := take_full hfull
  have hchunk : nextChunk xs false = xs.take maxLen := rfl
  have hne : ¬ maxLen + 0 = 0 := by decide
  rw [encryptedChunks]
  simp only [dif_pos hlen, hchunk, chunkPadding_full hfull, htake, List.length_nil, dif_neg hne,
    lt_self_iff_false, decide_false, Bool.or_self, Bool.false_eq_true, if_false]
  rfl

theorem encryptedChunks_short (hlen : length > 0) (hshort : xs.length < maxLen)
    (hfits : length ≤ (xs.length + padCounter : Nat)) :
    encryptedChunks padCounter xs false length =
      [(xs, List.replicate padCounter (UInt8.ofNat padCounter))] := by
  have hchunk : nextChunk xs false = xs := List.take_of_length_le hshort.le
  have hne : ¬ xs.length + padCounter = 0 := by omega
  rw [encryptedChunks]
  simp only [dif_pos hlen, hchunk, chunkPadding_short hshort, List.length_replicate, dif_neg hne]
  rw [encryptedChunks_done (by omega)]

theorem pieces_all (hdvd : 16 ∣ xs.length + padCounter) (hpad : padCounter < 16) :
    plainOf (encryptedChunks padCounter xs false (xs.length + padCounter : Nat)) = xs ∧
      paddingOf (encryptedChunks padCounter xs false (xs.length + padCounter : Nat)) =
        List.replicate padCounter (UInt8.ofNat padCounter) := by
  induction xs using chunks_induct (show 0 < maxLen by decide) with
  | nil =>
    obtain rfl : padCounter = 0 := by
      simp only [List.length_nil] at hdvd
      omega
    rw [encryptedChunks_done (by simp)]
    exact ⟨rfl, rfl⟩
  | more xs hne ih =>
    have hpos := List.length_pos_iff.mpr hne
    rcases Nat.lt_or_ge xs.length maxLen with hshort | hfull
    · rw [encryptedChunks_short (by omega) hshort le_rfl]
      simp [plainOf_cons, paddingOf_cons]
    · have hdrop : (xs.drop maxLen).length = xs.length - maxLen := List.length_drop
      have hrest : ((xs.length + padCounter : Nat) : Int) - maxLen =
          ((xs.drop maxLen).length + padCounter : Nat) := by omega
      obtain ⟨hplain, hpadding⟩ := ih (by rw [hdrop]; simp only [maxLen] at *; omega)
      rw [encryptedChunks_full (by omega) hfull, hrest, plainOf_cons, paddingOf_cons, hplain, hpadding]
      exact ⟨List.take_append_drop _ _, rfl⟩

theorem pieces_whole (hfar : length ≤ (maxLen * (xs.length / maxLen) : Nat)) :
    paddingOf (encryptedChunks padCounter xs false length) = [] ∧
      16 ∣ (plainOf (encryptedChunks padCounter xs false length)).length ∧
      ((plainOf (encryptedChunks padCounter xs false length)).length : Int) ≤
        max 0 (length + maxLen) := by
  induction xs using chunks_induct (show 0 < maxLen by decide) generalizing length with
  | nil =>
    rw [encryptedChunks_done (by simpa using hfar)]
    simp
  | more xs hne ih =>
    by_cases hlen : length > 0
    · have hfull : maxLen ≤ xs.length := by
        simp only [maxLen] at *
        omega
      have hdrop : (xs.drop maxLen).length = xs.length - maxLen := List.length_drop
      obtain ⟨hpadding, hdvd, hbound⟩ := @ih (length - maxLen) (by
        rw [hdrop]
        simp only [maxLen] at *
        omega)
      rw [encryptedChunks_full hlen hfull, plainOf_cons, paddingOf_cons, hpadding, List.length_append,
        take_full hfull]
      refine ⟨rfl, ?_, ?_⟩
      · simp only [maxLen] at *
        omega
      · simp only [maxLen] at *
        omega
    · rw [encryptedChunks_done (not_lt.mp hlen)]
      simp

end Pieces

section Encrypt
variable {lib : CamelliaLib} (laws : Lawful lib) {fault : CamelliaFault → Bool}
  (hok : ∀ f, fault f = false) {c : ChunkCipher} (halg : c.alg.isCamellia = true)
  (hmode : strncmp c.mode (str "cbc") 3 = 0)
include laws hok halg hmode

theorem encryptLoop_step {padCounter : Nat} {rest input output : List Byte} {length : Int}
    {out : List Byte} {inits : List CipherInit} (hlen : length > 0)
    {chunk padded : List Byte} (hchunk : rest.take maxLen = chunk)
    (hpadded : chunkPadding padCounter chunk = padded) (hdvd : 16 ∣ (chunk ++ padded).length)
    (hne : chunk ++ padded ≠ []) :
    ∃ input' output', camelliaEncryptLoop lib fault c padCounter rest false input output length out
        inits =
      camelliaEncryptLoop lib fault c padCounter
        (if decide (chunk.length < maxLen) then [] else rest.drop maxLen)
        (decide (chunk.length < maxLen)) input' output' (length - (chunk ++ padded).length)
        (out ++ lib.cbcEncrypt (c.init true).key c.iv (chunk ++ padded)) (inits ++ [c.init true]) := by
  have hinput : (blit (blit input 0 chunk) chunk.length padded).take
      (chunk.length + padded.length) = chunk ++ padded := by
    have hb : (blit input 0 chunk).take chunk.length = chunk := by simp [blit]
    rw [blit_take_append (by simp [blit]), hb]
  have hlenc : (lib.cbcEncrypt (c.init true).key c.iv (chunk ++ padded)).length
      = chunk.length + padded.length := by
    rw [laws.encryptLength _ _ hdvd, List.length_append]
  have houtput : (blit output 0 (lib.cbcEncrypt (c.init true).key c.iv (chunk ++ padded))).take
      (chunk.length + padded.length) = lib.cbcEncrypt (c.init true).key c.iv (chunk ++ padded) := by
    rw [← hlenc]
    simp [blit]
  have htemp : ¬ chunk.length + padded.length = 0 := by
    have := List.length_pos_iff.mpr hne
    rw [List.length_append] at this
    omega
  refine ⟨blit (blit input 0 chunk) chunk.length padded,
    blit output 0 (lib.cbcEncrypt (c.init true).key c.iv (chunk ++ padded)), ?_⟩
  rw [camelliaEncryptLoop]
  simp only [dif_pos hlen, hok, nextChunk, Bool.false_eq_true, if_false, hchunk, hpadded, hinput,
    halg, hmode, ne_eq, not_true, and_false, if_true, houtput, dif_neg htemp, Bool.false_or,
    List.length_append]

theorem encryptLoop_pieces {padCounter : Nat} {xs : List Byte} {length : Int}
    (hdvd : 16 ∣ xs.length + padCounter) (hpad : padCounter < 16)
    (hfits : length ≤ (xs.length + padCounter : Nat)) (input output out : List Byte)
    (inits : List CipherInit) :
    ∃ inits', camelliaEncryptLoop lib fault c padCounter xs false input output length out inits =
      some (wolfcluSuccess,
        out ++ encAll lib (c.init true).key c.iv
          (plainOf (encryptedChunks padCounter xs false length) ++
            paddingOf (encryptedChunks padCounter xs false length)), inits') := by
  induction xs using chunks_induct (show 0 < maxLen by decide) generalizing length input output out
    inits with
  | nil =>
    have hdone : length ≤ 0 := by
      simp only [List.length_nil] at hdvd hfits
      omega
    rw [encryptedChunks_done hdone, camelliaEncryptLoop, dif_neg (not_lt.mpr hdone)]
    exact ⟨inits, by simp [encAll_nil]⟩
  | more xs hne ih =>
    by_cases hlen : length > 0
    · rcases Nat.lt_or_ge xs.length maxLen with hshort | hfull
      · have hchunk : xs.take maxLen = xs := List.take_of_length_le hshort.le
        have htotal : (xs ++ List.replicate padCounter (UInt8.ofNat padCounter)).length =
            xs.length + padCounter := by rw [List.length_append, List.length_replicate]
        have hne' : xs ++ List.replicate padCounter (UInt8.ofNat padCounter) ≠ [] :=
          List.append_ne_nil_of_left_ne_nil hne _
        obtain ⟨input', output', hstep⟩ := encryptLoop_step laws hok halg hmode hlen hchunk
          (chunkPadding_short hshort) (by rwa [htotal]) hne'
        have hle : (xs ++ List.replicate padCounter (UInt8.ofNat padCounter)).length ≤ maxLen := by
          rw [htotal]
          simp only [maxLen] at *
          omega
        have hone := encAll_short lib (c.init true).key c.iv hne' hle
        refine ⟨inits ++ [c.init true], ?_⟩
        rw [hstep, encryptedChunks_short hlen hshort hfits, htotal, camelliaEncryptLoop,
          dif_neg (by omega)]
        simp [plainOf_cons, paddingOf_cons, hone]
      · have hmore : decide ((xs.take maxLen).length < maxLen) = false := by
          simp [take_full hfull]
        have hdrop : (xs.drop maxLen).length = xs.length - maxLen := List.length_drop
        obtain ⟨input', output', hstep⟩ := encryptLoop_step laws hok halg hmode hlen rfl
          (chunkPadding_full hfull) (by rw [List.append_nil, take_full hfull]; decide)
          (by rw [List.append_nil]; exact List.ne_nil_of_length_pos (by rw [take_full hfull]; decide))
        obtain ⟨inits', hloop⟩ := @ih (length - maxLen)
          (by rw [hdrop]; simp only [maxLen] at *; omega) (by rw [hdrop]; omega) input' output'
          (out ++ lib.cbcEncrypt (c.init true).key c.iv (xs.take maxLen)) (inits ++ [c.init true])
        refine ⟨inits', ?_⟩
        rw [hstep, hmore, List.append_nil, take_full hfull]
        simp only [Bool.false_eq_true, if_false]
        rw [hloop, encryptedChunks_full hlen hfull, plainOf_cons, paddingOf_cons, List.nil_append,
          List.append_assoc (xs.take maxLen)]
        rw [encAll_full lib _ _ (take_full hfull), ← List.append_assoc]
    · rw [encryptedChunks_done (not_lt.mp hlen), camelliaEncryptLoop, dif_neg hlen]
      exact ⟨inits, by simp [encAll_nil]⟩

theorem encryptLoop_eq (xs input output out : List Byte) (inits : List CipherInit) :
    ∃ inits', camelliaEncryptLoop lib fault c (padOf xs.length) xs false input output
        ((xs.length + padOf xs.length : Nat) : Int) out inits =
      some (wolfcluSuccess,
        out ++ encAll lib (c.init true).key c.iv (xs ++ padding xs.length), inits') := by
  have hpad : padOf xs.length < 16 := Nat.mod_lt _ (by decide)
  obtain ⟨hplain, hpadding⟩ := pieces_all (dvd_padded xs.length) hpad
  have hloop := encryptLoop_pieces laws hok halg hmode (dvd_padded xs.length) hpad le_rfl input output
    out inits
  rw [hplain, hpadding] at hloop
  exact hloop

end Encrypt

section Decrypt
variable {lib : CamelliaLib} (laws : Lawful lib) {fault : CamelliaFault → Bool}
  (hok : ∀ f, fault f = false) {c : ChunkCipher} (halg : c.alg.isCamellia = true)
include laws hok halg

structure LastChunk (st : DecryptState) (out ys : List Byte) : Prop where
  ok : st.ret = 0
  split : ∃ done last, ys = done ++ last ∧ st.out = out ++ done ∧ 16 ∣ last.length ∧
    last ≠ [] ∧ st.tempMax = last.length ∧ st.output.take last.length = last ∧
    st.length = ((saltSize + 16 + last.length : Nat) : Int)

omit hok halg in
theorem encAll_take {ys : List Byte} (hne : ys ≠ []) (hdvd : 16 ∣ ys.length) (key iv : List Byte) :
    (encAll lib key iv ys).take maxLen = lib.cbcEncrypt key iv (ys.take maxLen) ∧
      (encAll lib key iv ys).drop maxLen = encAll lib key iv (ys.drop maxLen) := by
  have hd : 16 ∣ (ys.take maxLen).length := by
    simp only [List.length_take, maxLen]
    omega
  have hlen := laws.encryptLength key iv hd
  rw [encAll_cons lib key iv hne]
  rcases Nat.lt_or_ge ys.length maxLen with hshort | hfull
  · have hnil : ys.drop maxLen = [] := List.drop_of_length_le hshort.le
    have hle : (lib.cbcEncrypt key iv (ys.take maxLen)).length ≤ maxLen := by
      rw [hlen]
      exact List.length_take_le _ _
    rw [hnil, encAll_nil, List.append_nil, List.take_of_length_le hle, List.drop_of_length_le hle]
    exact ⟨rfl, rfl⟩
  · have hl : (lib.cbcEncrypt key iv (ys.take maxLen)).length = maxLen := by
      rw [hlen, List.length_take, Nat.min_eq_left hfull]
    exact ⟨List.take_left' hl, List.drop_left' hl⟩

omit hok halg in
theorem encAll_length {ys : List Byte} (hdvd : 16 ∣ ys.length) (key iv : List Byte) :
    (encAll lib key iv ys).length = ys.length := by
  induction ys using chunks_induct (show 0 < maxLen by decide) with
  | nil => rw [encAll_nil]
  | more ys hne ih =>
    have hd : 16 ∣ (ys.take maxLen).length := by
      simp only [List.length_take, maxLen]
      omega
    have hd' : 16 ∣ (ys.drop maxLen).length := by
      simp only [List.length_drop, maxLen]
      omega
    rw [encAll_cons lib key iv hne, List.length_append, laws.encryptLength key iv hd, ih hd',
      ← List.length_append, List.take_append_drop]

theorem decryptLoop_step {ys : List Byte} (hne : ys ≠ []) (hdvd : 16 ∣ ys.length)
    (curr last : Int) (st : DecryptState) (hlen : st.length > 0) :
    ∃ st', st'.ret = st.ret ∧ st'.out = st.out ∧ st'.length = st.length ∧
      st'.tempMax = (ys.take maxLen).length ∧
      st'.output.take (ys.take maxLen).length = ys.take maxLen ∧
      camelliaDecryptLoop lib fault c (encAll lib (c.init true).key c.iv ys) false curr last st =
        if curr = last then st'
        else
          camelliaDecryptLoop lib fault c (encAll lib (c.init true).key c.iv (ys.drop maxLen))
            (decide ((ys.take maxLen).length < maxLen)) (curr + 1) last
            { st' with
              out := st.out ++ ys.take maxLen
              length := st.length - (ys.take maxLen).length } := by
  have hd : 16 ∣ (ys.take maxLen).length := by
    simp only [List.length_take, maxLen]
    omega
  obtain ⟨htake, hdrop⟩ := encAll_take laws hne hdvd (c.init true).key c.iv
  have henc := laws.encryptLength (c.init true).key c.iv hd
  have hpos : 0 < (ys.take maxLen).length := by
    have := List.length_pos_iff.mpr hne
    simp only [List.length_take, maxLen]
    omega
  have hdec : lib.cbcDecrypt (c.init false).key c.iv
      (lib.cbcEncrypt (c.init true).key c.iv (ys.take maxLen)) = ys.take maxLen :=
    laws.decrypts (c.init true).key c.iv hd
  have houtput : (blit st.output 0 (ys.take maxLen)).take (ys.take maxLen).length
      = ys.take maxLen := by simp [blit]
  refine ⟨{ st with
      output := blit st.output 0 (ys.take maxLen)
      tempMax := (ys.take maxLen).length
      inits := st.inits ++ [c.init false] }, rfl, rfl, rfl, rfl, houtput, ?_⟩
  rw [camelliaDecryptLoop]
  simp only [if_pos hlen, hok, Bool.false_eq_true, if_false, htake, henc,
    dif_neg (Nat.pos_iff_ne_zero.mp hpos), halg, and_false, if_true, hdec, houtput, hdrop]

theorem decryptLoop_last {ys : List Byte} (hne : ys ≠ []) (hdvd : 16 ∣ ys.length)
    (curr last : Int) (st : DecryptState) (hret : st.ret = 0)
    (hlen : st.length = ((saltSize + 16 + ys.length : Nat) : Int))
    (hcount : last = curr + ((ys.length - 1) / maxLen : Nat)) :
    LastChunk (camelliaDecryptLoop lib fault c (encAll lib (c.init true).key c.iv ys) false curr
      last st) st.out ys := by
  induction ys using chunks_induct (show 0 < maxLen by decide) generalizing curr st with
  | nil => exact absurd rfl hne
  | more ys _ ih =>
    obtain ⟨st', hret', hout', hlen', htemp', houtput', hstep⟩ :=
      decryptLoop_step laws hok halg hne hdvd curr last st (by omega)
    rcases Nat.lt_or_ge maxLen ys.length with hmore | hlast
    · have htake : (ys.take maxLen).length = maxLen := by
        rw [List.length_take, Nat.min_eq_left hmore.le]
      have hdrop : (ys.drop maxLen).length = ys.length - maxLen := List.length_drop
      have hquot : (ys.length - 1) / maxLen = (ys.length - maxLen - 1) / maxLen + 1 := by
        simp only [maxLen] at *
        omega
      have hdvd' : 16 ∣ (ys.drop maxLen).length := by
        rw [hdrop]
        simp only [maxLen]
        omega
      have hne' : ys.drop maxLen ≠ [] := List.ne_nil_of_length_pos (by rw [hdrop]; omega)
      have heof : decide ((ys.take maxLen).length < maxLen) = false := by simp [htake]
      have hrec := ih hne' hdvd' (curr + 1)
        { st' with
          out := st.out ++ ys.take maxLen
          length := st.length - (ys.take maxLen).length } (hret'.trans hret)
        (by simp only [hlen, htake, hdrop]; omega) (by rw [hcount, hquot, hdrop]; push_cast; ring)
      have hnext : curr ≠ last := by
        rw [hcount, hquot]
        push_cast
        have : (0 : Int) ≤ ((ys.length - maxLen - 1) / maxLen : Nat) := Int.natCast_nonneg _
        push_cast at this
        omega
      rw [hstep, if_neg hnext, heof]
      obtain ⟨hok', done, tail, hsplit, hdone, hrest⟩ := hrec
      refine ⟨hok', ys.take maxLen ++ done, tail, ?_, ?_, hrest⟩
      · rw [List.append_assoc, ← hsplit, List.take_append_drop]
      · rw [hdone, List.append_assoc]
    · have htake : ys.take maxLen = ys := List.take_of_length_le hlast
      have hzero : (ys.length - 1) / maxLen = 0 := by
        simp only [maxLen] at *
        omega
      rw [htake] at htemp' houtput'
      rw [hstep, if_pos (by rw [hcount, hzero]; omega)]
      exact ⟨hret'.trans hret, [], ys, rfl, by rw [hout', List.append_nil], hdvd, hne, htemp',
        houtput', hlen'.trans hlen⟩

end Decrypt

theorem getLast_padding {p : List Byte} (hpad : padOf p.length ≠ 0) {done last : List Byte}
    (h : p ++ padding p.length = done ++ last) (hne : last ≠ []) :
    last[last.length - 1]? = some (UInt8.ofNat (padOf p.length)) := by
  have hpos := List.length_pos_iff.mpr hne
  have htotal : (p ++ padding p.length).length = done.length + last.length := by
    rw [h, List.length_append]
  have hpadlen : (padding p.length).length = padOf p.length := List.length_replicate
  rw [List.length_append, hpadlen] at htotal
  have hget : (p ++ padding p.length)[done.length + last.length - 1]?
      = some (UInt8.ofNat (padOf p.length)) := by
    rw [List.getElem?_append_right (by omega), padding, List.getElem?_replicate, if_pos (by omega)]
  rw [h, List.getElem?_append_right (by omega)] at hget
  rwa [show done.length + last.length - 1 - done.length = last.length - 1 by omega] at hget

theorem finish_strips {p out : List Byte} {st : DecryptState} {marker : Byte}
    (h : LastChunk st out (p ++ padding p.length)) (hmarker : marker ≠ 0 ↔ padOf p.length ≠ 0) :
    camelliaFinish (saltSize + 16) marker st = (wolfcluSuccess, out ++ p) := by
  obtain ⟨hret, done, last, hsplit, hout, hdvd, hne, htemp, htake, hlen⟩ := h
  have hpos := List.length_pos_iff.mpr hne
  by_cases hpad : padOf p.length = 0
  · have hzero : ¬ marker ≠ 0 := fun hm => hmarker.mp hm hpad
    have hp : p = done ++ last := by
      rw [← hsplit, padding, hpad, List.replicate_zero, List.append_nil]
    simp only [camelliaFinish, hret, ne_eq, not_true, if_false, if_neg hzero, htemp, htake, hout, hp,
      List.append_assoc]
  · have hlt : padOf p.length < 16 := by
      simp only [padOf]
      omega
    have hbyte : (UInt8.ofNat (padOf p.length)).toNat = padOf p.length := by
      rw [UInt8.toNat_ofNat']
      omega
    have hlast : (st.output[last.length - 1]?).getD 0 = UInt8.ofNat (padOf p.length) := by
      have hget := getLast_padding hpad hsplit hne
      rw [← htake, List.getElem?_take_of_lt (by rw [htake]; omega)] at hget
      rw [htake] at hget
      rw [hget, Option.getD_some]
    have hrest : st.output.take (last.length - padOf p.length) = last.take (last.length - padOf p.length)
        := by
      have hcut := congrArg (List.take (last.length - padOf p.length)) htake
      rwa [List.take_take, Nat.min_eq_left (Nat.sub_le _ _)] at hcut
    have hlast16 : padOf p.length ≤ last.length := by omega
    have hp : p = done ++ last.take (last.length - padOf p.length) := by
      have htotal : (done ++ last).length = p.length + padOf p.length := by
        rw [← hsplit, List.length_append, padding, List.length_replicate]
      rw [List.length_append] at htotal
      have hcut : p.length = done.length + (last.length - padOf p.length) := by omega
      have htakep : (done ++ last).take p.length = p := by rw [← hsplit, List.take_left]
      rw [hcut, List.take_length_add_append] at htakep
      exact htakep.symm
    have hnonneg : ¬ ((saltSize + 16 + last.length : Nat) : Int)
        - ((padOf p.length : Int) + (saltSize + 16 : Nat)) < 0 := by omega
    have hcount : (((saltSize + 16 + last.length : Nat) : Int)
        - ((padOf p.length : Int) + (saltSize + 16 : Nat))).toNat
          = last.length - padOf p.length := by omega
    simp only [camelliaFinish, hret, ne_eq, not_true, if_false, hmarker.mpr hpad, not_false_eq_true,
      if_true, htemp, hlast, hbyte, hlen, if_neg hnonneg, hcount, hrest, hout, List.append_assoc]
    rw [← hp]

section Bounds
variable {lib : CamelliaLib} {fault : CamelliaFault → Bool}

theorem chunk_padded_le (padCounter : Nat) (rest : List Byte) (eof : Bool) :
    (nextChunk rest eof).length + (chunkPadding padCounter (nextChunk rest eof)).length
      ≤ maxLen + padCounter := by
  have hchunk : (nextChunk rest eof).length ≤ maxLen := by
    cases eof <;> simp [nextChunk]
  have hpad : (chunkPadding padCounter (nextChunk rest eof)).length ≤ padCounter := by
    rw [chunkPadding]
    split_ifs <;> simp
  omega

theorem encryptLoop_bound {c : ChunkCipher} {padCounter : Nat} {rest input output : List Byte}
    {eof : Bool} {length : Int} {out out' : List Byte} {inits inits' : List CipherInit} {ret : Int}
    (h : camelliaEncryptLoop lib fault c padCounter rest eof input output length out inits
      = some (ret, out', inits')) :
    (out'.length : Int) ≤ out.length + if 0 < length then length + (maxLen + padCounter) else 0 := by
  fun_induction camelliaEncryptLoop lib fault c padCounter rest eof input output length out inits
    with
  | case1 | case2 | case3 | case4 =>
    simp only [Option.some.injEq, Prod.mk.injEq] at h
    obtain ⟨-, rfl, -⟩ := h
    split_ifs <;> omega
  | case5 => cases h
  | case6 rest eof input output length out inits hlen _ chunk _ _ padded _ tempMax _ _ newOutput =>
    rename_i ih
    have hrec := ih h
    have htemp : tempMax ≤ maxLen + padCounter := chunk_padded_le padCounter rest _
    have hwritten : (out ++ newOutput.take tempMax).length ≤ out.length + tempMax := by
      rw [List.length_append]
      have := List.length_take_le tempMax newOutput
      omega
    rw [if_pos hlen]
    split_ifs at hrec <;> omega
  | case7 =>
    simp only [Option.some.injEq, Prod.mk.injEq] at h
    obtain ⟨-, rfl, -⟩ := h
    split_ifs <;> omega

theorem decryptLoop_bound (c : ChunkCipher) (rest : List Byte) (eof : Bool) (curr last : Int)
    (st : DecryptState) :
    (camelliaDecryptLoop lib fault c rest eof curr last st).out.length
        ≤ st.out.length + rest.length ∧
      (camelliaDecryptLoop lib fault c rest eof curr last st).length ≤ st.length ∧
      (camelliaDecryptLoop lib fault c rest eof curr last st).tempMax ≤ max st.tempMax maxLen := by
  have hinput (xs : List Byte) : (if fault .readIn then [] else xs.take maxLen).length ≤ maxLen ∧
      (if fault .readIn then [] else xs.take maxLen).length + (xs.drop maxLen).length
        ≤ xs.length := by
    rw [List.length_drop]
    split_ifs
    · simp
    · rw [List.length_take]
      omega
  fun_induction camelliaDecryptLoop lib fault c rest eof curr last st with
  | case1 | case2 | case6 => exact ⟨Nat.le_add_right _ _, le_rfl, le_max_left _ _⟩
  | case3 rest => exact ⟨Nat.le_add_right _ _, le_rfl, le_max_of_le_right (hinput rest).1⟩
  | case4 rest => exact ⟨Nat.le_add_right _ _, le_rfl, le_max_of_le_right (hinput rest).1⟩
  | case5 rest eof curr st hlen _ input _ _ output inits st' _ =>
    rename_i ih
    obtain ⟨hout, hlength, htemp⟩ := ih
    have hmax : input.length ≤ maxLen := (hinput rest).1
    have hsum : input.length + (rest.drop maxLen).length ≤ rest.length := (hinput rest).2
    refine ⟨?_, ?_, ?_⟩
    · refine hout.trans ?_
      simp only [List.length_append, List.length_take, st']
      omega
    · refine hlength.trans ?_
      simp only [st']
      omega
    · refine htemp.trans (max_le (le_max_of_le_right hmax) (le_max_right _ _))

theorem finish_bound (saltAndIvSize : Nat) (marker : Byte) (st : DecryptState) :
    (camelliaFinish saltAndIvSize marker st).2.length
      ≤ st.out.length + max st.length.toNat st.tempMax := by
  simp only [camelliaFinish]
  split_ifs
  · exact Nat.le_add_right _ _
  · exact Nat.le_add_right _ _
  · rw [List.length_append, List.length_take]
    omega
  · rw [List.length_append, List.length_take]
    omega

theorem camelliaDecrypt_cases (lib : CamelliaLib) (fault : CamelliaFault → Bool) (alg : Algo)
    (mode pwdKey key file iv : List Byte) (size block : Nat) (keyType : KeyType) :
    (∃ ret derivations, ret ≠ wolfcluSuccess ∧
      camelliaDecrypt lib fault alg mode pwdKey key size file iv block keyType =
        ⟨ret, [], derivations, []⟩) ∨
      ((saltSize + block : Nat) < MachineInt.toInt32 file.length ∧ saltSize + block ≤ file.length ∧
        ∃ key' last st, (keyType ≠ .password → key' = key) ∧
          st = camelliaDecryptLoop lib fault
            ⟨alg, mode, key', size, (blit iv 0 ((file.drop saltSize).take block)).take block⟩
            (file.drop (saltSize + block)) false 1 last
            ⟨0, List.replicate maxLen 0, maxLen, MachineInt.toInt32 file.length, [], []⟩ ∧
          camelliaDecrypt lib fault alg mode pwdKey key size file iv block keyType =
            ⟨(camelliaFinish (saltSize + block) ((file.take saltSize).headD 0) st).1,
              (camelliaFinish (saltSize + block) ((file.take saltSize).headD 0) st).2,
              if keyType = .password then 1 else 0, st.inits⟩) := by
  generalize hrun : camelliaDecrypt lib fault alg mode pwdKey key size file iv block keyType = run
  rw [camelliaDecrypt] at hrun
  extract_lets length payload last salt iv' derivations key' st at hrun
  split at hrun
  · exact .inl ⟨_, _, by decide, hrun.symm⟩
  split at hrun
  · exact .inl ⟨_, _, by decide, hrun.symm⟩
  rename_i hlength
  split at hrun
  · exact .inl ⟨_, _, by decide, hrun.symm⟩
  split at hrun
  · exact .inl ⟨_, _, by decide, hrun.symm⟩
  split at hrun
  · exact .inl ⟨_, _, by decide, hrun.symm⟩
  rename_i hfile
  split at hrun
  · exact .inl ⟨_, _, by decide, hrun.symm⟩
  split at hrun
  · exact .inl ⟨_, _, by decide, hrun.symm⟩
  exact .inr ⟨not_le.mp hlength, not_lt.mp hfile, key', last, st, fun hkey => if_neg hkey, rfl,
    hrun.symm⟩

theorem decrypt_bound {alg : Algo} {mode pwdKey key iv file : List Byte} {size block : Nat}
    {keyType : KeyType} (hfile : file.length < 4294967296)
    (hret : (camelliaDecrypt lib fault alg mode pwdKey key size file iv block keyType).ret
      = wolfcluSuccess) :
    saltSize + block < file.length ∧ (file.length : Int) ≤ MachineInt.intMax ∧
      (camelliaDecrypt lib fault alg mode pwdKey key size file iv block keyType).out.length
        ≤ file.length + max file.length maxLen - (saltSize + block) := by
  rcases camelliaDecrypt_cases lib fault alg mode pwdKey key file iv size block keyType with
    ⟨ret, _, hfails, hrun⟩ | ⟨hlength, hle, key', last, st, _, hst, hrun⟩
  · rw [hrun] at hret
    exact absurd hret hfails
  · have hfits : (file.length : Int) ≤ MachineInt.intMax := by
      by_contra hbig
      have := MachineInt.toInt32_le_sub (not_le.mp hbig)
      omega
    have hint : MachineInt.toInt32 file.length = file.length :=
      MachineInt.toInt32_of_range (by omega) hfits
    rw [hint] at hlength hst
    refine ⟨by omega, hfits, ?_⟩
    obtain ⟨hout, hlength, htemp⟩ := @decryptLoop_bound lib fault
      ⟨alg, mode, key', size, (blit iv 0 ((file.drop saltSize).take block)).take block⟩
      (file.drop (saltSize + block)) false 1 last
      ⟨0, List.replicate maxLen 0, maxLen, file.length, [], []⟩
    rw [hrun]
    refine (finish_bound _ _ _).trans ?_
    rw [hst]
    simp only [List.length_nil, List.length_drop, max_self] at hout hlength htemp
    omega

theorem padLength_nonpos {fuel k : Nat} {x : Int} (hlo : -2147483648 ≤ x)
    (hx : x ≤ 0 ∨ 2147483632 < x ∧ x < 2147483648 ∧ 2147483648 ≤ x + fuel) :
    (padLength 16 fuel x k).1 ≤ 0 := by
  induction fuel generalizing x k with
  | zero =>
    rw [padLength]
    omega
  | succ fuel ih =>
    rw [padLength]
    by_cases hmod : x.tmod (16 : Nat) = 0
    · rw [if_neg (not_not.mpr hmod)]
      show x ≤ 0
      rcases hx with hneg | hbig
      · exact hneg
      · rw [Int.tmod_eq_emod_of_nonneg (by omega)] at hmod
        omega
    · rw [if_pos hmod]
      rcases hx with hneg | ⟨hbig, hlt, hfuel⟩
      · have hzero : x ≠ 0 := fun h => hmod (by rw [h]; rfl)
        rw [MachineInt.toInt32_of_range (by omega) (by rw [MachineInt.intMax]; omega)]
        exact ih (by omega) (.inl (by omega))
      · by_cases hwrap : x + 1 = 2147483648
        · have hmin : MachineInt.toInt32 (x + 1) = -2147483648 := by
            rw [hwrap, MachineInt.toInt32]
            norm_num [Int.bmod]
          rw [hmin]
          exact ih (by omega) (.inl (by omega))
        · rw [MachineInt.toInt32_of_range (by omega) (by rw [MachineInt.intMax]; omega)]
          exact ih (by omega) (.inr (by omega))

theorem padLength_wrapped {n : Nat} (hwrap : 2147483632 < n) (hnarrow : n < 4294967296) :
    (padLength 16 16 (MachineInt.toInt32 n) 0).1 ≤ 0 := by
  refine padLength_nonpos (MachineInt.toInt32_range _).1 ?_
  rcases Nat.lt_or_ge n 2147483648 with hpos | hneg
  · rw [MachineInt.toInt32_of_range (by omega) (by rw [MachineInt.intMax]; omega)]
    omega
  · have := MachineInt.toInt32_le_sub (show MachineInt.intMax < (n : Int) by
      rw [MachineInt.intMax]
      omega)
    omega

theorem padLength_count {fuel k : Nat} {x : Int} (hfuel : (-x % 16).toNat ≤ fuel) :
    (padLength 16 fuel x k).2 = k + (-x % 16).toNat := by
  induction fuel generalizing x k with
  | zero =>
    rw [padLength]
    omega
  | succ fuel ih =>
    rw [padLength]
    by_cases hmod : x.tmod (16 : Nat) = 0
    · have hdvd : (16 : Int) ∣ x := Int.dvd_of_tmod_eq_zero hmod
      rw [if_neg (not_not.mpr hmod)]
      omega
    · have hdvd : ¬ (16 : Int) ∣ x := fun h => hmod (Int.tmod_eq_zero_of_dvd h)
      have hnext : MachineInt.toInt32 (x + 1) % 16 = (x + 1) % 16 := by
        simp only [MachineInt.toInt32, Int.bmod]
        split <;> omega
      rw [if_pos hmod, ih (by omega)]
      omega

theorem padLength_padOf (n : Nat) : (padLength 16 16 (MachineInt.toInt32 n) 0).2 = padOf n := by
  have hmod : MachineInt.toInt32 (n : Int) % 16 = (n : Int) % 16 := by
    simp only [MachineInt.toInt32, Int.bmod]
    split <;> omega
  rw [padLength_count (by omega), padOf]
  omega

theorem padLength_le {fuel k : Nat} {x : Int} (hx : x ≤ MachineInt.intMax) :
    (padLength 16 fuel x k).1 ≤ MachineInt.intMax ∧ (padLength 16 fuel x k).2 ≤ k + fuel := by
  induction fuel generalizing x k with
  | zero => exact ⟨hx, Nat.le_refl _⟩
  | succ fuel ih =>
    rw [padLength]
    split
    · obtain ⟨hle, hcount⟩ := @ih (k + 1) _ (MachineInt.toInt32_range (x + 1)).2
      exact ⟨hle, hcount.trans (by omega)⟩
    · exact ⟨hx, Nat.le_add_right _ _⟩

end Bounds

def Restores (lib : CamelliaLib) (fault : CamelliaFault → Bool) (alg : Algo)
    (mode pwdKey key key' : List Byte) (size : Nat) (inName p randomIv randomSalt iv iv' : List Byte)
    : Prop :=
  ∃ e, camelliaEncrypt lib fault alg mode pwdKey key size inName (some p) randomIv randomSalt iv 16
      false = some e ∧
    (camelliaDecrypt lib fault alg mode pwdKey key' size e.out iv' 16 .password).ret
      = wolfcluSuccess ∧
    (camelliaDecrypt lib fault alg mode pwdKey key' size e.out iv' 16 .password).out = p

section RoundTrip
variable {lib : CamelliaLib} {fault : CamelliaFault → Bool} {alg : Algo}
  {mode pwdKey key key' inName p randomIv randomSalt iv iv' : List Byte} {size : Nat}

theorem genKey_salt {pad : Nat} (hsalt : saltSize - 1 ≤ randomSalt.length) :
    (genKeyPwdBased lib pwdKey size randomSalt pad).2.length = saltSize ∧
      ((genKeyPwdBased lib pwdKey size randomSalt pad).2.headD 0 ≠ 0 ↔ pad ≠ 0) := by
  have hlen : (randomSalt.take (saltSize - 1) ++ [0]).length = saltSize := by
    rw [List.length_append, List.length_take, Nat.min_eq_left hsalt]
    rfl
  obtain ⟨b, bs, hcons⟩ : ∃ b bs, randomSalt.take (saltSize - 1) ++ ([0] : List Byte) = b :: bs :=
    List.exists_cons_of_length_pos (by rw [hlen]; decide)
  rw [hcons, List.length_cons] at hlen
  simp only [genKeyPwdBased, hcons]
  by_cases hpad : pad = 0
  · simp [hpad, hlen]
  · by_cases hb : b = 0 <;> simp [hpad, hb, hlen]

theorem genKey_password (laws : Lawful lib) {pad : Nat} :
    (genKeyPwdBased lib pwdKey size randomSalt pad).1.take size
      = lib.pbkdf2 (cstr pwdKey) (genKeyPwdBased lib pwdKey size randomSalt pad).2 clu4kType size
    := by
  have hlen := laws.derivedLength (cstr pwdKey)
    (genKeyPwdBased lib pwdKey size randomSalt pad).2 clu4kType size
  rw [genKeyPwdBased] at hlen ⊢
  simp only [blit, List.take_zero, List.nil_append]
  exact List.take_left' hlen

def headerSalt (lib : CamelliaLib) (pwdKey : List Byte) (size : Nat) (randomSalt : List Byte)
    (padCounter : Nat) (ivCheck : Bool) : List Byte :=
  if ivCheck then List.replicate saltSize 0
  else (genKeyPwdBased lib pwdKey size randomSalt padCounter).2

def headerIv (randomIv iv : List Byte) (block : Nat) (ivCheck : Bool) : List Byte :=
  (if ivCheck then iv else blit iv 0 (randomIv.take block)).take block

def cipherKey (lib : CamelliaLib) (pwdKey key : List Byte) (size : Nat) (randomSalt : List Byte)
    (padCounter : Nat) (ivCheck : Bool) : List Byte :=
  if ivCheck then key
  else blit key 0 ((genKeyPwdBased lib pwdKey size randomSalt padCounter).1.take size)

theorem encrypt_runs (hok : ∀ f, fault f = false) {inFile : Option (List Byte)} {block : Nat}
    {ivCheck : Bool} {length : Int} {padCounter : Nat}
    (hpad : padLength block block (MachineInt.toInt32 (inFile.getD inName).length) 0
      = (length, padCounter)) :
    camelliaEncrypt lib fault alg mode pwdKey key size inName inFile randomIv randomSalt iv block
        ivCheck =
      (camelliaEncryptLoop lib fault
        ⟨alg, mode, cipherKey lib pwdKey key size randomSalt padCounter ivCheck, size,
          headerIv randomIv iv block ivCheck⟩ padCounter (inFile.getD inName) false
        (List.replicate maxLen 0) (List.replicate maxLen 0) length
        (headerSalt lib pwdKey size randomSalt padCounter ivCheck ++
          headerIv randomIv iv block ivCheck) []).map
        fun r => ⟨r.1, r.2.1, if ivCheck then 0 else 1, r.2.2⟩ := by
  cases ivCheck <;>
    simp only [camelliaEncrypt, hok, hpad, cipherKey, headerIv, headerSalt, Bool.false_eq_true,
      and_false, or_self, if_false, if_true, not_false_eq_true]

theorem iv_written (hiv : randomIv.length = 16) : headerIv randomIv iv 16 false = randomIv := by
  simp [headerIv, blit, hiv]

def UsedKey (lib : CamelliaLib) (keyType : KeyType) (pwdKey key' : List Byte) (size : Nat)
    (salt used : List Byte) : Prop :=
  match keyType with
  | .password => used = blit key' 0 (lib.pbkdf2 (cstr pwdKey) salt clu4kType size)
  | .user => used = key' ∧ (key'.take size).all (· = 0) = false
  | .none => False

theorem decrypt_runs (hok : ∀ f, fault f = false) {keyType : KeyType} {block : Nat}
    {file : List Byte} {len : Int}
    (hint : MachineInt.toInt32 file.length = len) (hlarge : (saltSize + block : Nat) < len)
    (hlen : saltSize + block ≤ file.length) {last : Int}
    (hlast : (if (len - (saltSize + block : Nat)) % maxLen > 0
      then (len - (saltSize + block : Nat)) / maxLen + 1
      else (len - (saltSize + block : Nat)) / maxLen) = last) {used : List Byte}
    (hused : UsedKey lib keyType pwdKey key' size (file.take saltSize) used)
    {c : ChunkCipher} (hc : c = ⟨alg, mode, used, size,
      (blit iv' 0 ((file.drop saltSize).take block)).take block⟩)
    {st : DecryptState}
    (hst : camelliaDecryptLoop lib fault c (file.drop (saltSize + block)) false 1 last
      ⟨0, List.replicate maxLen 0, maxLen, len, [], []⟩ = st)
    {ret : Int} {out : List Byte}
    (hfinish : camelliaFinish (saltSize + block) ((file.take saltSize).headD 0) st = (ret, out)) :
    camelliaDecrypt lib fault alg mode pwdKey key' size file iv' block keyType
      = ⟨ret, out, if keyType = .password then 1 else 0, st.inits⟩ := by
  cases keyType with
  | password =>
    obtain rfl := hused
    simp only [camelliaDecrypt, hok, hint, Bool.false_eq_true, or_self, and_false, if_false, if_true,
      if_neg (not_le.mpr hlarge), if_neg (not_lt.mpr hlen), reduceCtorEq, false_and, hlast, ← hc, hst,
      hfinish]
  | user =>
    obtain ⟨rfl, hzero⟩ := hused
    simp only [camelliaDecrypt, hok, hint, Bool.false_eq_true, or_self, and_false, if_false,
      if_neg (not_le.mpr hlarge), if_neg (not_lt.mpr hlen), reduceCtorEq, hzero, hlast, ← hc, hst,
      hfinish]
  | none => cases hused

theorem lastChunk_count {n : Nat} (hpos : 0 < n) :
    (if (n : Int) % maxLen > 0 then (n : Int) / maxLen + 1 else (n : Int) / maxLen)
      = 1 + ((n - 1) / maxLen : Nat) := by
  simp only [maxLen]
  split_ifs <;> omega

theorem decrypt_restores (laws : Lawful lib) (hok : ∀ f, fault f = false)
    (halg : alg.isCamellia = true) {salt header : List Byte} (hsalt : salt.length = saltSize)
    (hmarker : salt.headD 0 ≠ 0 ↔ padOf p.length ≠ 0) (hheader : header.length = 16)
    {keyType : KeyType} {used : List Byte}
    (hused : UsedKey lib keyType pwdKey key' size salt used)
    {c : ChunkCipher} (hc : c = ⟨alg, mode, used, size, header⟩) (hne : p ≠ [])
    (hmax : ((saltSize + 16 + (p.length + padOf p.length) : Nat) : Int) ≤ MachineInt.intMax)
    {file : List Byte}
    (hfile : file = salt ++ header ++ encAll lib (c.init true).key c.iv (p ++ padding p.length)) :
    (camelliaDecrypt lib fault alg mode pwdKey key' size file iv' 16 keyType).ret = wolfcluSuccess ∧
      (camelliaDecrypt lib fault alg mode pwdKey key' size file iv' 16 keyType).out = p := by
  have hpos := List.length_pos_iff.mpr hne
  have hys : (p ++ padding p.length).length = p.length + padOf p.length := by
    rw [List.length_append, padding, List.length_replicate]
  have hyne : p ++ padding p.length ≠ [] := List.append_ne_nil_of_left_ne_nil hne _
  have hdvd : 16 ∣ (p ++ padding p.length).length := by
    rw [hys]
    exact dvd_padded _
  have hlen : file.length = saltSize + 16 + (p ++ padding p.length).length := by
    rw [hfile, List.length_append, List.length_append, hsalt, hheader, encAll_length laws hdvd]
  have hint : MachineInt.toInt32 file.length = file.length :=
    MachineInt.toInt32_of_range (by omega) (by rw [hlen, hys]; exact hmax)
  have htake : file.take saltSize = salt := by
    rw [hfile, List.append_assoc, List.take_left' hsalt]
  have hhead : (file.drop saltSize).take 16 = header := by
    rw [hfile, List.append_assoc, List.drop_left' hsalt, List.take_left' hheader]
  have hrest : file.drop (saltSize + 16)
      = encAll lib (c.init true).key c.iv (p ++ padding p.length) := by
    rw [hfile, List.drop_left' (by rw [List.length_append, hsalt, hheader])]
  have hivwritten : (blit iv' 0 header).take 16 = header := by simp [blit, hheader]
  have hpayload : (file.length : Int) - (saltSize + 16 : Nat)
      = ((p ++ padding p.length).length : Nat) := by omega
  have hcipher : c = ⟨alg, mode, used, size,
      (blit iv' 0 ((file.drop saltSize).take 16)).take 16⟩ := by
    rw [hhead, hivwritten]
    exact hc
  have hcount := @lastChunk_count (p ++ padding p.length).length (by omega)
  rw [← hpayload] at hcount
  have halgc : c.alg.isCamellia = true := by rw [hc]; exact halg
  have hlast := decryptLoop_last laws hok halgc hyne hdvd 1 _
    ⟨0, List.replicate maxLen 0, maxLen, file.length, [], []⟩ rfl (by rw [hlen]) rfl
  have hfinish := finish_strips hlast hmarker
  rw [← hrest] at hfinish
  rw [← htake] at hfinish
  rw [← htake] at hused
  have hrun := decrypt_runs hok hint (by omega) (by omega) hcount hused hcipher rfl hfinish
  rw [hrun]
  exact ⟨rfl, List.nil_append _⟩

theorem init_key {derived : List Byte} (hlen : derived.length = size) (header : List Byte) :
    (ChunkCipher.mk alg mode (blit key 0 derived) size header).init true
      = ⟨derived.take (size / 8), header, true⟩ := by
  have htake : (blit key 0 derived).take (size / 8) = derived.take (size / 8) := by
    have hle : size / 8 ≤ derived.length := hlen ▸ Nat.div_le_self size 8
    rw [blit, List.take_zero, List.nil_append, List.take_append_of_le_length hle]
  rw [ChunkCipher.init, htake]

theorem restores_of_le (laws : Lawful lib) (hok : ∀ f, fault f = false)
    (halg : alg.isCamellia = true) (hmode : strncmp mode (str "cbc") 3 = 0)
    (hiv : randomIv.length = 16) (hsalt : saltSize - 1 ≤ randomSalt.length) (hne : p ≠ [])
    (hle : p.length ≤ 2147483616) :
    Restores lib fault alg mode pwdKey key key' size inName p randomIv randomSalt iv iv' := by
  have hpadle : p.length + padOf p.length ≤ 2147483616 := by
    simp only [padOf]
    omega
  have hmax : ((saltSize + 16 + (p.length + padOf p.length) : Nat) : Int) ≤ MachineInt.intMax := by
    simp only [MachineInt.intMax, saltSize]
    omega
  have hint : MachineInt.toInt32 p.length = p.length :=
    MachineInt.toInt32_of_range (by omega) (le_trans (by omega) hmax)
  have hpad := @padLength_eq 16 p.length 0 (by simp only [padOf]; omega) (le_trans (by omega) hmax)
  rw [← hint, Nat.zero_add] at hpad
  have hrun := @encrypt_runs lib fault alg mode pwdKey key inName randomIv randomSalt iv size hok
    (some p) 16 false _ _ hpad
  simp only [iv_written hiv, headerSalt, cipherKey, Bool.false_eq_true, if_false,
    genKey_password laws, Option.getD_some] at hrun
  obtain ⟨hsaltlen, hmarker⟩ := @genKey_salt lib pwdKey randomSalt size (padOf p.length) hsalt
  generalize (genKeyPwdBased lib pwdKey size randomSalt (padOf p.length)).2 = salt at *
  have hderived := laws.derivedLength (cstr pwdKey) salt clu4kType size
  obtain ⟨inits, hloop⟩ := encryptLoop_eq laws hok
    (show (ChunkCipher.mk alg mode (blit key 0 (lib.pbkdf2 (cstr pwdKey) salt clu4kType size)) size
      randomIv).alg.isCamellia = true from halg) hmode p (List.replicate maxLen 0)
    (List.replicate maxLen 0) (salt ++ randomIv) []
  rw [hloop, Option.map_some] at hrun
  refine ⟨_, hrun, ?_⟩
  refine decrypt_restores laws hok halg hsaltlen hmarker hiv
    (show UsedKey lib .password pwdKey key' size salt _ from rfl) rfl hne hmax ?_
  rw [init_key hderived, init_key hderived]

theorem restores_bound (hiv : randomIv.length = 16) (hsalt : saltSize - 1 ≤ randomSalt.length)
    (hok : ∀ f, fault f = false) {length : Int} {padCounter : Nat}
    (hpad : padLength 16 16 (MachineInt.toInt32 p.length) 0 = (length, padCounter))
    (h : Restores lib fault alg mode pwdKey key key' size inName p randomIv randomSalt iv iv') :
    ∃ header ret out inits, header.length = saltSize + 16 ∧
      camelliaEncryptLoop lib fault
        ⟨alg, mode, blit key 0 ((genKeyPwdBased lib pwdKey size randomSalt padCounter).1.take size),
          size, randomIv⟩ padCounter p false (List.replicate maxLen 0) (List.replicate maxLen 0)
        length header [] = some (ret, out, inits) ∧
      (out.length < 4294967296 → saltSize + 16 < out.length ∧
        (out.length : Int) ≤ MachineInt.intMax ∧
        p.length ≤ out.length + max out.length maxLen - (saltSize + 16)) := by
  obtain ⟨e, henc, hret, hout⟩ := h
  rw [@encrypt_runs lib fault alg mode pwdKey key inName randomIv randomSalt iv size hok (some p) 16
    false _ _ hpad, iv_written hiv] at henc
  obtain ⟨⟨ret, out, inits⟩, hloop, rfl⟩ := Option.map_eq_some_iff.mp henc
  refine ⟨_, ret, out, inits, ?_, hloop, fun hfile => ?_⟩
  · rw [List.length_append, hiv]
    exact congrArg (· + 16) (genKey_salt hsalt).1
  · obtain ⟨hlarge, hfits, hbound⟩ := decrypt_bound hfile hret
    rw [hout] at hbound
    exact ⟨hlarge, hfits, hbound⟩

theorem not_restores_of_empty (hiv : randomIv.length = 16)
    (hsalt : saltSize - 1 ≤ randomSalt.length) (hok : ∀ f, fault f = false)
    (hwrap : (padLength 16 16 (MachineInt.toInt32 p.length) 0).1 ≤ 0) :
    ¬ Restores lib fault alg mode pwdKey key key' size inName p randomIv randomSalt iv iv' := by
  intro h
  obtain ⟨length, padCounter, hpad⟩ : ∃ length padCounter,
      padLength 16 16 (MachineInt.toInt32 p.length) 0 = (length, padCounter) := ⟨_, _, Prod.mk.eta.symm⟩
  rw [hpad] at hwrap
  obtain ⟨header, ret, out, inits, hheader, hloop, hbound⟩ := restores_bound hiv hsalt hok hpad h
  rw [camelliaEncryptLoop, dif_neg (not_lt.mpr hwrap), Option.some.injEq, Prod.mk.injEq,
    Prod.mk.injEq] at hloop
  obtain ⟨-, hout, -⟩ := hloop
  rw [← hout, hheader] at hbound
  have hlarge := (hbound (by simp only [saltSize]; omega)).1
  omega

theorem not_restores_of_lt (laws : Lawful lib) (hok : ∀ f, fault f = false)
    (halg : alg.isCamellia = true) (hmode : strncmp mode (str "cbc") 3 = 0)
    (hiv : randomIv.length = 16) (hsalt : saltSize - 1 ≤ randomSalt.length)
    (hlt : 2147483616 < p.length) :
    ¬ Restores lib fault alg mode pwdKey key key' size inName p randomIv randomSalt iv iv' := by
  rcases Nat.lt_or_ge 2147483632 p.length with hwrap | hfits
  · rcases Nat.lt_or_ge p.length 4294967296 with hnarrow | hwide
    · exact not_restores_of_empty hiv hsalt hok (padLength_wrapped hwrap hnarrow)
    · intro h
      obtain ⟨length, padCounter, hpad⟩ : ∃ length padCounter,
          padLength 16 16 (MachineInt.toInt32 p.length) 0 = (length, padCounter) :=
        ⟨_, _, Prod.mk.eta.symm⟩
      obtain ⟨header, ret, out, inits, hheader, hloop, hbound⟩ := restores_bound hiv hsalt hok hpad h
      obtain ⟨hlen, hcount⟩ := @padLength_le 16 0 _ (MachineInt.toInt32_range (p.length : Int)).2
      rw [hpad] at hlen hcount
      have hwritten := encryptLoop_bound hloop
      simp only [MachineInt.intMax, saltSize, maxLen] at *
      split_ifs at hwritten <;> omega
  · intro h
    have hsum : p.length + padOf p.length = 2147483632 := by
      simp only [padOf]
      omega
    have hint : MachineInt.toInt32 p.length = p.length :=
      MachineInt.toInt32_of_range (by omega) (by rw [MachineInt.intMax]; omega)
    have hpad := @padLength_eq 16 p.length 0 (by simp only [padOf]; omega)
      (by rw [hsum, MachineInt.intMax]; omega)
    rw [← hint, Nat.zero_add] at hpad
    obtain ⟨header, ret, out, inits, hheader, hloop, hbound⟩ := restores_bound hiv hsalt hok hpad h
    obtain ⟨inits', hloop'⟩ := encryptLoop_eq laws hok
      (show (ChunkCipher.mk alg mode
        (blit key 0 ((genKeyPwdBased lib pwdKey size randomSalt (padOf p.length)).1.take size)) size
        randomIv).alg.isCamellia = true from halg) hmode p (List.replicate maxLen 0)
      (List.replicate maxLen 0) header []
    rw [hloop', Option.some.injEq, Prod.mk.injEq, Prod.mk.injEq] at hloop
    obtain ⟨-, hout, -⟩ := hloop
    have hys : (p ++ padding p.length).length = 2147483632 := by
      rw [List.length_append, padding, List.length_replicate, hsum]
    have hlen : out.length = saltSize + 16 + 2147483632 := by
      rw [← hout, List.length_append, hheader, encAll_length laws (by rw [hys]; omega), hys]
    have hover := (hbound (by rw [hlen, saltSize]; omega)).2.1
    rw [hlen, saltSize, MachineInt.intMax] at hover
    omega

theorem decrypt_restores_iff (laws : Lawful lib) (hok : ∀ f, fault f = false)
    (halg : alg.isCamellia = true) (hmode : strncmp mode (str "cbc") 3 = 0)
    (hiv : randomIv.length = 16) (hsalt : saltSize - 1 ≤ randomSalt.length) (hne : p ≠ []) :
    Restores lib fault alg mode pwdKey key key' size inName p randomIv randomSalt iv iv' ↔
      p.length ≤ 2147483616 :=
  ⟨fun h => not_lt.mp fun hlt => not_restores_of_lt laws hok halg hmode hiv hsalt hlt h,
    fun hle => restores_of_le laws hok halg hmode hiv hsalt hne hle⟩

end RoundTrip

def xorLib : CamelliaLib where
  pbkdf2 password salt iterations size :=
    (password ++ salt ++ List.replicate size (UInt8.ofNat iterations)).take size
  cbcEncrypt key iv xs := xs.map (· ^^^ (key.headD 0 ^^^ iv.headD 0))
  cbcDecrypt key iv xs := xs.map (· ^^^ (key.headD 0 ^^^ iv.headD 0))

theorem xorLib_lawful : Lawful xorLib where
  decrypts key iv xs _ := by
    simp only [xorLib, List.map_map]
    refine (List.map_congr_left fun b _ => ?_).trans (List.map_id _)
    exact (UInt8.xor_assoc _ _ _).trans (by rw [UInt8.xor_self, UInt8.xor_zero, id])
  encryptLength key iv xs _ := List.length_map _
  derivedLength password salt iterations size := by
    simp only [xorLib, List.length_take, List.length_append, List.length_replicate]
    omega

theorem decrypt_restores_short :
    Restores xorLib (fun _ => false) .camellia128cbc (str "cbc") (str "secret") [] [] 128 []
      (str "hello") (List.replicate 16 3) (List.replicate 7 0) [] [] :=
  (decrypt_restores_iff xorLib_lawful (fun _ => rfl) rfl (by decide) (by decide) (by decide)
    (by decide)).mpr (by decide)

theorem plaintext_2147483617_lost :
    ¬ Restores xorLib (fun _ => false) .camellia128cbc (str "cbc") (str "secret") [] [] 128 []
      (List.replicate 2147483617 65) (List.replicate 16 3) (List.replicate 7 0) [] [] :=
  not_restores_of_lt xorLib_lawful (fun _ => rfl) rfl (by decide) (by decide) (by decide)
    (by rw [List.length_replicate]; omega)

end WolfCLU.Cbc
