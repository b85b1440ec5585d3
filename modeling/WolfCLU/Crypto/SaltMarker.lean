import WolfCLU.Crypto.CamelliaRoundTrip

namespace WolfCLU.Cbc
open Buffer Chunks CString

def inputPieces (p : List Byte) : List (List Byte × List Byte) :=
  let padded := padLength 16 16 (MachineInt.toInt32 p.length) 0
  encryptedChunks padded.2 p false padded.1

def readBytes (p : List Byte) : List Byte := plainOf (inputPieces p)

def addedPadding (p : List Byte) : List Byte := paddingOf (inputPieces p)

section Lengths
variable {p : List Byte}

theorem inputPieces_eq (p : List Byte) :
    inputPieces p = encryptedChunks (padOf p.length) p false
      (padLength 16 16 (MachineInt.toInt32 p.length) 0).1 := by
  rw [← padLength_padOf]
  exact inputPieces.eq_1 p

theorem exists_of_snd {padded : Int × Nat} {n : Nat} (h : padded.2 = n) :
    ∃ length, padded = (length, n) := ⟨padded.1, Prod.ext rfl h⟩

theorem padLength_pair (n : Nat) :
    ∃ length, padLength 16 16 (MachineInt.toInt32 n) 0 = (length, padOf n) :=
  exists_of_snd (padLength_padOf n)

theorem padLength_fits (hle : p.length ≤ 2147483632) :
    (padLength 16 16 (MachineInt.toInt32 p.length) 0).1 = (p.length + padOf p.length : Nat) := by
  have hpad : padOf p.length < 16 := Nat.mod_lt _ (by decide)
  have hsum : p.length + padOf p.length ≤ 2147483632 := by
    simp only [padOf]
    omega
  have hmax : ((p.length + padOf p.length : Nat) : Int) ≤ MachineInt.intMax := by
    rw [MachineInt.intMax]
    omega
  rw [MachineInt.toInt32_of_range (by omega) (le_trans (by omega) hmax), padLength_eq hpad.le hmax]

theorem padLength_far (hlt : 2147483632 < p.length) :
    (padLength 16 16 (MachineInt.toInt32 p.length) 0).1 ≤ (maxLen * (p.length / maxLen) : Nat) ∧
      (padLength 16 16 (MachineInt.toInt32 p.length) 0).1 ≤ MachineInt.intMax := by
  have hmax := (@padLength_le 16 0 _ (MachineInt.toInt32_range (p.length : Int)).2).1
  refine ⟨?_, hmax⟩
  rcases Nat.lt_or_ge p.length 4294967296 with hnarrow | hwide
  · exact (padLength_wrapped hlt hnarrow).trans (Int.natCast_nonneg _)
  · simp only [MachineInt.intMax, maxLen] at *
    omega

theorem pieces_fit (hle : p.length ≤ 2147483632) :
    readBytes p = p ∧ addedPadding p = padding p.length := by
  rw [readBytes, addedPadding, inputPieces_eq, padLength_fits hle]
  exact pieces_all (dvd_padded _) (Nat.mod_lt _ (by decide))

theorem pieces_far (hlt : 2147483632 < p.length) :
    addedPadding p = [] ∧ 16 ∣ (readBytes p).length ∧ (readBytes p).length ≤ 2147484671 := by
  obtain ⟨hfar, hmax⟩ := padLength_far hlt
  rw [readBytes, addedPadding, inputPieces_eq]
  obtain ⟨hpadding, hdvd, hbound⟩ := @pieces_whole (padOf p.length) _ _ hfar
  refine ⟨hpadding, hdvd, ?_⟩
  simp only [MachineInt.intMax, maxLen] at *
  omega

theorem padding_eq_nil_iff {n : Nat} : padding n = [] ↔ padOf n = 0 := by
  rw [padding, List.replicate_eq_nil_iff]

theorem addedPadding_nil_iff :
    addedPadding p = [] ↔ (padOf p.length = 0 ∨ 2147483632 < p.length) := by
  rcases Nat.lt_or_ge 2147483632 p.length with hlt | hle
  · simp only [(pieces_far hlt).1, hlt, or_true]
  · rw [(pieces_fit hle).2, padding_eq_nil_iff]
    omega

theorem addedPadding_eq (p : List Byte) : addedPadding p = padding (readBytes p).length := by
  rcases Nat.lt_or_ge 2147483632 p.length with hlt | hle
  · obtain ⟨hpadding, hdvd, -⟩ := pieces_far hlt
    have hzero : padOf (readBytes p).length = 0 := by
      simp only [padOf]
      omega
    rw [hpadding, padding_eq_nil_iff.mpr hzero]
  · obtain ⟨hread, hpadding⟩ := pieces_fit hle
    rw [hread, hpadding]

theorem readBytes_length (p : List Byte) : (readBytes p).length ≤ 2147484671 := by
  rcases Nat.lt_or_ge 2147483632 p.length with hlt | hle
  · exact (pieces_far hlt).2.2
  · rw [(pieces_fit hle).1]
    omega

end Lengths

section Faults
variable {lib : CamelliaLib} {fault : CamelliaFault → Bool} {c : ChunkCipher}

theorem encryptLoop_faultless {padCounter : Nat} {rest input output : List Byte} {eof : Bool}
    {length : Int} {out out' : List Byte} {inits inits' : List CipherInit}
    (h : camelliaEncryptLoop lib fault c padCounter rest eof input output length out inits
      = some (wolfcluSuccess, out', inits')) :
    camelliaEncryptLoop lib (fun _ => false) c padCounter rest eof input output length out inits
      = some (wolfcluSuccess, out', inits') := by
  fun_induction camelliaEncryptLoop lib fault c padCounter rest eof input output length out inits with
  | case1 | case2 | case3 | case4 =>
    have hcode := (Prod.mk.inj (Option.some.inj h)).1
    exact absurd hcode (by decide)
  | case5 => cases h
  | case6 rest eof input output length out inits hlen hread chunk _ _ padded _ tempMax hkey hmode
      newOutput newInits happend htemp ih =>
    rw [camelliaEncryptLoop]
    simp only [dif_pos hlen, Bool.false_eq_true, if_false, and_false, hmode]
    exact (dif_neg htemp).trans (ih h)
  | case7 rest eof input output length out inits hlen =>
    rw [camelliaEncryptLoop, dif_neg hlen]
    exact h

theorem of_success {run failed : CamelliaRun} {cond : Prop} [Decidable cond]
    {rest : Option CamelliaRun} (hret : run.ret = wolfcluSuccess)
    (hfailed : failed.ret ≠ wolfcluSuccess) (h : (if cond then some failed else rest) = some run) :
    rest = some run := by
  by_cases hcond : cond
  · rw [if_pos hcond] at h
    obtain rfl := Option.some.inj h
    exact absurd hret hfailed
  · rwa [if_neg hcond] at h

theorem encrypt_faultless {alg : Algo} {mode pwdKey key inName randomIv randomSalt iv : List Byte}
    {size block : Nat} {inFile : Option (List Byte)} {ivCheck : Bool} {run : CamelliaRun}
    (h : camelliaEncrypt lib fault alg mode pwdKey key size inName inFile randomIv randomSalt iv block
      ivCheck = some run) (hret : run.ret = wolfcluSuccess) :
    camelliaEncrypt lib (fun _ => false) alg mode pwdKey key size inName inFile randomIv randomSalt iv
      block ivCheck = some run := by
  have hfatal : wolfcluFatalError ≠ wolfcluSuccess := by decide
  have hmemory : memoryE ≠ wolfcluSuccess := by decide
  simp only [camelliaEncrypt] at h ⊢
  generalize padLength block block _ 0 = padded at h ⊢
  simp only [Bool.false_eq_true, if_false, and_false, or_self]
  have hopened := of_success hret hfatal h
  have hstarted := of_success hret hfatal hopened
  have hiv := of_success hret hfatal hstarted
  have hsalt := of_success hret hfatal hiv
  have hout := of_success hret hfatal hsalt
  have halloc := of_success hret hmemory hout
  obtain ⟨⟨ret, out, inits⟩, hloop, rfl⟩ := Option.map_eq_some_iff.mp halloc
  obtain rfl : ret = wolfcluSuccess := hret
  exact Option.map_eq_some_iff.mpr ⟨_, encryptLoop_faultless hloop, rfl⟩

theorem decryptLoop_codes (rest : List Byte) (eof : Bool) (curr last : Int) (st : DecryptState)
    (hst : st.ret = 0) :
    (camelliaDecryptLoop lib fault c rest eof curr last st).ret = 0 ∨
      (camelliaDecryptLoop lib fault c rest eof curr last st).ret < 0 := by
  have hread : freadError < 0 := by decide
  have hfatal : wolfcluFatalError < 0 := by decide
  fun_induction camelliaDecryptLoop lib fault c rest eof curr last st with
  | case1 | case2 => exact .inr hread
  | case3 => exact .inr hfatal
  | case4 => exact .inl hst
  | case5 rest eof curr st hlen heof input hin hkey output inits st' hlast ih => exact ih hst
  | case6 => exact .inl hst

def decryptedChunk (lib : CamelliaLib) (c : ChunkCipher) (input : List Byte) (st : DecryptState) :
    DecryptState :=
  { st with
    output :=
      if c.alg.isCamellia then blit st.output 0 (lib.cbcDecrypt (c.init false).key c.iv input)
      else st.output
    tempMax := input.length
    inits := if c.alg.isCamellia then st.inits ++ [c.init false] else st.inits }

theorem decryptLoop_next {rest : List Byte} {curr last : Int} {st : DecryptState}
    (hlen : st.length > 0) (hread : fault .readIn = false) (hin : (rest.take maxLen).length ≠ 0)
    (hkey : ¬ (c.alg.isCamellia ∧ fault .setKey)) :
    camelliaDecryptLoop lib fault c rest false curr last st =
      if curr = last then decryptedChunk lib c (rest.take maxLen) st
      else
        camelliaDecryptLoop lib fault c (rest.drop maxLen)
          (decide ((rest.take maxLen).length < maxLen)) (curr + 1) last
          { decryptedChunk lib c (rest.take maxLen) st with
            out := st.out ++ (decryptedChunk lib c (rest.take maxLen) st).output.take
              (rest.take maxLen).length
            length := st.length - (rest.take maxLen).length } := by
  rw [camelliaDecryptLoop]
  simp only [if_pos hlen, hread, Bool.false_eq_true, if_false, dif_neg hin, if_neg hkey]
  rfl

theorem decryptLoop_faultless (rest : List Byte) (eof : Bool) (curr last : Int) (st : DecryptState)
    (h : (camelliaDecryptLoop lib fault c rest eof curr last st).ret = 0) :
    camelliaDecryptLoop lib fault c rest eof curr last st =
      camelliaDecryptLoop lib (fun _ => false) c rest eof curr last st := by
  have hreadErr : freadError ≠ 0 := by decide
  have hfatal : wolfcluFatalError ≠ 0 := by decide
  have hnokey : ¬ (c.alg.isCamellia ∧ (fun _ : CamelliaFault => false) .setKey) := by simp
  induction rest using chunks_induct (show 0 < maxLen by decide) generalizing eof curr st with
  | nil =>
    rw [camelliaDecryptLoop, camelliaDecryptLoop]
    simp only [List.take_nil, ite_self, List.length_nil, dif_pos]
  | more rest _ ih =>
    by_cases hlen : st.length > 0
    · cases eof with
      | true =>
        rw [camelliaDecryptLoop, camelliaDecryptLoop]
        simp only [if_true]
      | false =>
        cases hread : fault .readIn with
        | true =>
          rw [camelliaDecryptLoop] at h
          simp only [if_pos hlen, hread, Bool.false_eq_true, if_false, if_true, List.length_nil,
            dif_pos] at h
          exact absurd h hreadErr
        | false =>
          by_cases hin : (rest.take maxLen).length = 0
          · rw [camelliaDecryptLoop, camelliaDecryptLoop]
            simp only [hread, Bool.false_eq_true, if_false, dif_pos hin]
          · by_cases hkey : c.alg.isCamellia ∧ fault .setKey
            · rw [camelliaDecryptLoop] at h
              simp only [if_pos hlen, hread, Bool.false_eq_true, if_false, dif_neg hin,
                if_pos hkey] at h
              exact absurd h hfatal
            · rw [decryptLoop_next hlen hread hin hkey] at h ⊢
              rw [decryptLoop_next hlen rfl hin hnokey]
              by_cases hlast : curr = last
              · rw [if_pos hlast, if_pos hlast]
              · rw [if_neg hlast] at h
                rw [if_neg hlast, if_neg hlast]
                exact ih _ _ _ h
    · rw [camelliaDecryptLoop, camelliaDecryptLoop, if_neg hlen, if_neg hlen]

theorem passes {run failed : CamelliaRun} {cond : Prop} [Decidable cond]
    (hfailed : failed.ret ≠ wolfcluSuccess)
    (h : (if cond then failed else run).ret = wolfcluSuccess) :
    ¬ cond ∧ run.ret = wolfcluSuccess := by
  by_cases hcond : cond
  · rw [if_pos hcond] at h
    exact absurd h hfailed
  · rw [if_neg hcond] at h
    exact ⟨hcond, h⟩

theorem finish_code {saltAndIvSize : Nat} {marker : Byte} {st : DecryptState}
    (hcode : st.ret = 0 ∨ st.ret < 0)
    (h : (camelliaFinish saltAndIvSize marker st).1 = wolfcluSuccess) : st.ret = 0 := by
  by_contra hne
  rw [camelliaFinish, if_pos hne] at h
  have hsuccess : 0 < wolfcluSuccess := by decide
  omega

theorem decrypt_accepted {alg : Algo} {mode pwdKey key file iv : List Byte} {size block : Nat}
    {keyType : KeyType}
    (h : (camelliaDecrypt lib fault alg mode pwdKey key size file iv block keyType).ret
      = wolfcluSuccess) :
    camelliaDecrypt lib fault alg mode pwdKey key size file iv block keyType =
        camelliaDecrypt lib (fun _ => false) alg mode pwdKey key size file iv block keyType ∧
      (keyType = .user → (key.take size).all (· = 0) = false) := by
  have hcodes : decryptError ≠ wolfcluSuccess ∧ memoryE ≠ wolfcluSuccess ∧
      wolfcluFatalError ≠ wolfcluSuccess ∧ freadError ≠ wolfcluSuccess ∧
      encryptError ≠ wolfcluSuccess := by decide
  obtain ⟨hdecrypt, hmemory, hfatal, hreads, hencrypt⟩ := hcodes
  simp only [camelliaDecrypt] at h ⊢
  obtain ⟨hopen, h⟩ := passes hdecrypt h
  obtain ⟨hlen, h⟩ := passes hdecrypt h
  obtain ⟨halloc, h⟩ := passes hmemory h
  obtain ⟨hrng, h⟩ := passes hfatal h
  obtain ⟨hshort, h⟩ := passes hreads h
  obtain ⟨hpbkdf2, h⟩ := passes hencrypt h
  obtain ⟨hzero, h⟩ := passes hencrypt h
  have hloop := finish_code (decryptLoop_codes _ _ _ _ _ rfl) h
  simp only [if_neg hopen, if_neg hlen, if_neg halloc, if_neg hrng, if_neg hshort, if_neg hpbkdf2,
    if_neg hzero, decryptLoop_faultless _ _ _ _ _ hloop, Bool.false_eq_true, or_self, and_false,
    if_false, true_and]
  intro huser
  simpa [huser] using hzero

end Faults

section Marker
variable {lib : CamelliaLib} {alg : Algo} {mode pwdKey key inName randomIv randomSalt iv : List Byte}
  {size padCounter : Nat} {inFile : Option (List Byte)} {ivCheck : Bool}

theorem headerSalt_length (hsalt : saltSize - 1 ≤ randomSalt.length) :
    (headerSalt lib pwdKey size randomSalt padCounter ivCheck).length = saltSize := by
  cases ivCheck with
  | true => exact List.length_replicate
  | false => exact (genKey_salt hsalt).1

theorem headerSalt_marker (hsalt : saltSize - 1 ≤ randomSalt.length) :
    (headerSalt lib pwdKey size randomSalt padCounter ivCheck).headD 0 ≠ 0 ↔
      ivCheck = false ∧ padCounter ≠ 0 := by
  cases ivCheck with
  | true => simp [headerSalt, saltSize]
  | false =>
    exact ⟨fun h => ⟨rfl, (genKey_salt hsalt).2.mp h⟩, fun h => (genKey_salt hsalt).2.mpr h.2⟩

theorem headerIv_length (hiv : (if ivCheck then iv else randomIv).length = 16) :
    (headerIv randomIv iv 16 ivCheck).length = 16 := by
  cases ivCheck with
  | true =>
    have hlen : iv.length = 16 := hiv
    simp [headerIv, hlen]
  | false =>
    have hlen : randomIv.length = 16 := hiv
    rw [iv_written hlen, hlen]

theorem encrypt_written (laws : Lawful lib) (halg : alg.isCamellia = true)
    (hmode : strncmp mode (str "cbc") 3 = 0) :
    ∃ run, camelliaEncrypt lib (fun _ => false) alg mode pwdKey key size inName inFile randomIv
        randomSalt iv 16 ivCheck = some run ∧ run.ret = wolfcluSuccess ∧
      run.out = headerSalt lib pwdKey size randomSalt (padOf (inFile.getD inName).length) ivCheck ++
        headerIv randomIv iv 16 ivCheck ++
        encAll lib ((ChunkCipher.mk alg mode
            (cipherKey lib pwdKey key size randomSalt (padOf (inFile.getD inName).length) ivCheck) size
            (headerIv randomIv iv 16 ivCheck)).init true).key (headerIv randomIv iv 16 ivCheck)
          (readBytes (inFile.getD inName) ++ addedPadding (inFile.getD inName)) := by
  generalize hp : inFile.getD inName = p
  obtain ⟨length, hpad⟩ := padLength_pair p.length
  have hlength : (padLength 16 16 (MachineInt.toInt32 p.length) 0).1 = length := by rw [hpad]
  have hfits : length ≤ (p.length + padOf p.length : Nat) := by
    rw [← hlength]
    rcases Nat.lt_or_ge 2147483632 p.length with hlt | hle
    · refine (padLength_far hlt).1.trans ?_
      simp only [maxLen]
      omega
    · exact (padLength_fits hle).le
  rw [readBytes, addedPadding, inputPieces_eq, hlength]
  rw [← hp] at hpad
  have hrun := @encrypt_runs lib (fun _ => false) alg mode pwdKey key inName randomIv randomSalt iv
    size (fun _ => rfl) inFile 16 ivCheck _ _ hpad
  rw [hp] at hrun
  obtain ⟨inits, hloop⟩ := encryptLoop_pieces laws (fun _ => rfl)
    (show (ChunkCipher.mk alg mode
      (cipherKey lib pwdKey key size randomSalt (padOf p.length) ivCheck) size
      (headerIv randomIv iv 16 ivCheck)).alg.isCamellia = true from halg) hmode (dvd_padded p.length)
    (Nat.mod_lt _ (by decide)) hfits (List.replicate maxLen 0) (List.replicate maxLen 0)
    (headerSalt lib pwdKey size randomSalt (padOf p.length) ivCheck ++
      headerIv randomIv iv 16 ivCheck) []
  rw [hloop, Option.map_some] at hrun
  exact ⟨_, hrun, rfl, rfl⟩

end Marker

section Exact
variable (lib : CamelliaLib) (alg : Algo) (mode pwdKey key : List Byte) (size : Nat)
  (inName : List Byte) (inFile : Option (List Byte)) (randomIv randomSalt iv : List Byte)
  (ivCheck : Bool)

def decryptSame (fault : CamelliaFault → Bool) (file other iv' : List Byte) : CamelliaRun :=
  if ivCheck then camelliaDecrypt lib fault alg mode other key size file iv' 16 .user
  else camelliaDecrypt lib fault alg mode pwdKey other size file iv' 16 .password

def MarkerExact : Prop :=
  ∀ fault run, camelliaEncrypt lib fault alg mode pwdKey key size inName inFile randomIv randomSalt
      iv 16 ivCheck = some run → run.ret = wolfcluSuccess →
    (run.out.headD 0 = 0 ↔ addedPadding (inFile.getD inName) = []) ∧
    ∀ fault' other iv',
      (decryptSame lib alg mode pwdKey key size ivCheck fault' run.out other iv').ret
        = wolfcluSuccess →
      (decryptSame lib alg mode pwdKey key size ivCheck fault' run.out other iv').out
        = readBytes (inFile.getD inName)

end Exact

section Same
variable {lib : CamelliaLib} {alg : Algo} {mode pwdKey key randomIv randomSalt iv : List Byte}
  {size pad : Nat} {ivCheck : Bool} {fault : CamelliaFault → Bool} {file other iv' q : List Byte}

theorem same_key (laws : Lawful lib) (header : List Byte)
    (hret : (decryptSame lib alg mode pwdKey key size ivCheck fault file other iv').ret
      = wolfcluSuccess) :
    ∃ keyType pwd key' used,
      decryptSame lib alg mode pwdKey key size ivCheck fault file other iv' =
          camelliaDecrypt lib (fun _ => false) alg mode pwd key' size file iv' 16 keyType ∧
        UsedKey lib keyType pwd key' size (headerSalt lib pwdKey size randomSalt pad ivCheck) used ∧
        ((ChunkCipher.mk alg mode used size header).init true).key =
          ((ChunkCipher.mk alg mode (cipherKey lib pwdKey key size randomSalt pad ivCheck) size
            header).init true).key := by
  cases ivCheck with
  | true =>
    simp only [decryptSame, if_true] at hret ⊢
    obtain ⟨hfaultless, hnonzero⟩ := decrypt_accepted hret
    exact ⟨.user, other, key, key, hfaultless, ⟨rfl, hnonzero rfl⟩, rfl⟩
  | false =>
    simp only [decryptSame, Bool.false_eq_true, if_false] at hret ⊢
    obtain ⟨hfaultless, -⟩ := decrypt_accepted hret
    have hderived := laws.derivedLength (cstr pwdKey)
      (genKeyPwdBased lib pwdKey size randomSalt pad).2 clu4kType size
    refine ⟨.password, pwdKey, other, _, hfaultless, rfl, ?_⟩
    have hcipher : cipherKey lib pwdKey key size randomSalt pad false =
        blit key 0 (lib.pbkdf2 (cstr pwdKey)
          (genKeyPwdBased lib pwdKey size randomSalt pad).2 clu4kType size) :=
      congrArg (blit key 0) (genKey_password laws)
    rw [hcipher]
    exact (congrArg CipherInit.key (init_key hderived header)).trans
      (congrArg CipherInit.key (init_key hderived header)).symm

theorem decryptSame_restores (laws : Lawful lib) (halg : alg.isCamellia = true)
    (hsalt : saltSize - 1 ≤ randomSalt.length) (hiv : (if ivCheck then iv else randomIv).length = 16)
    (hsize : q.length ≤ 2147484671)
    (hmarker : (headerSalt lib pwdKey size randomSalt pad ivCheck).headD 0 ≠ 0 ↔ padOf q.length ≠ 0)
    (hfile : file = headerSalt lib pwdKey size randomSalt pad ivCheck ++
      headerIv randomIv iv 16 ivCheck ++
      encAll lib ((ChunkCipher.mk alg mode (cipherKey lib pwdKey key size randomSalt pad ivCheck) size
        (headerIv randomIv iv 16 ivCheck)).init true).key (headerIv randomIv iv 16 ivCheck)
        (q ++ padding q.length))
    (hret : (decryptSame lib alg mode pwdKey key size ivCheck fault file other iv').ret
      = wolfcluSuccess) :
    (decryptSame lib alg mode pwdKey key size ivCheck fault file other iv').out = q := by
  obtain ⟨keyType, pwd, key', used, hrun, hused, hkey⟩ :=
    @same_key lib alg mode pwdKey key randomSalt size pad ivCheck fault file other iv' laws
      (headerIv randomIv iv 16 ivCheck) hret
  have hpadlt : padOf q.length < 16 := Nat.mod_lt _ (by decide)
  have hlen : file.length = saltSize + 16 + (q.length + padOf q.length) := by
    rw [hfile, List.length_append, List.length_append, headerSalt_length hsalt, headerIv_length hiv,
      encAll_length laws (by rw [List.length_append, padding, List.length_replicate]
                             exact dvd_padded _), List.length_append, padding,
      List.length_replicate]
  rw [hrun] at hret ⊢
  obtain ⟨hlarge, hmax, -⟩ := decrypt_bound (by rw [hlen, saltSize]; omega) hret
  have hne : q ≠ [] := by
    rintro rfl
    rw [hlen] at hlarge
    exact absurd hlarge (by decide)
  rw [hlen] at hmax
  exact (decrypt_restores laws (fun _ => rfl) halg (headerSalt_length hsalt) hmarker
    (headerIv_length hiv) hused rfl hne hmax (by rw [hkey]; exact hfile)).2

end Same

section Claim
variable {lib : CamelliaLib} {alg : Algo} {mode pwdKey key inName randomIv randomSalt iv : List Byte}
  {size : Nat} {inFile : Option (List Byte)} {ivCheck : Bool}

def MarkedLength (ivCheck : Bool) (n : Nat) : Prop :=
  16 ∣ n ∨ if ivCheck then 2147483632 < n else n ≤ 2147483632

instance (ivCheck : Bool) (n : Nat) : Decidable (MarkedLength ivCheck n) :=
  inferInstanceAs (Decidable (16 ∣ n ∨ if ivCheck then 2147483632 < n else n ≤ 2147483632))

theorem marker_tells_iff {p : List Byte} (hsalt : saltSize - 1 ≤ randomSalt.length) :
    ((headerSalt lib pwdKey size randomSalt (padOf p.length) ivCheck).headD 0 = 0 ↔
        addedPadding p = []) ↔ MarkedLength ivCheck p.length := by
  have hmarker := @headerSalt_marker lib pwdKey randomSalt size (padOf p.length) ivCheck hsalt
  have hdvd : 16 ∣ p.length ↔ padOf p.length = 0 := by
    simp only [padOf]
    omega
  rw [addedPadding_nil_iff, MarkedLength, hdvd, ← not_iff_comm.mp hmarker]
  cases ivCheck with
  | true =>
    simp only [Bool.true_eq_false, false_and, not_false_eq_true, true_iff, if_true]
  | false =>
    simp only [true_and, Bool.false_eq_true, if_false]
    omega

theorem markerExact_forward (laws : Lawful lib) (halg : alg.isCamellia = true)
    (hmode : strncmp mode (str "cbc") 3 = 0) (hsalt : saltSize - 1 ≤ randomSalt.length)
    (h : MarkerExact lib alg mode pwdKey key size inName inFile randomIv randomSalt iv ivCheck) :
    MarkedLength ivCheck (inFile.getD inName).length := by
  obtain ⟨run, hrun, hret, hout⟩ := @encrypt_written lib alg mode pwdKey key inName randomIv randomSalt
    iv size inFile ivCheck laws halg hmode
  have hmarker := (h _ run hrun hret).1
  have hhead := List.length_pos_iff.mp (show 0 < (headerSalt lib pwdKey size randomSalt
    (padOf (inFile.getD inName).length) ivCheck).length by rw [headerSalt_length hsalt]; decide)
  obtain ⟨b, bs, hcons⟩ := List.exists_cons_of_ne_nil hhead
  refine (@marker_tells_iff lib pwdKey randomSalt size ivCheck _ hsalt).mp ?_
  rw [hout, hcons] at hmarker
  rw [hcons]
  exact hmarker

theorem salt_marker_iff (laws : Lawful lib) (halg : alg.isCamellia = true)
    (hmode : strncmp mode (str "cbc") 3 = 0) (hsalt : saltSize - 1 ≤ randomSalt.length)
    (hiv : (if ivCheck then iv else randomIv).length = 16) :
    MarkerExact lib alg mode pwdKey key size inName inFile randomIv randomSalt iv ivCheck ↔
      MarkedLength ivCheck (inFile.getD inName).length := by
  refine ⟨markerExact_forward laws halg hmode hsalt, fun h fault run hrun hret => ?_⟩
  obtain ⟨run', hrun', -, hout⟩ := @encrypt_written lib alg mode pwdKey key inName randomIv randomSalt
    iv size inFile ivCheck laws halg hmode
  obtain rfl := Option.some.inj ((encrypt_faultless hrun hret).symm.trans hrun')
  have hhead := List.length_pos_iff.mp (show 0 < (headerSalt lib pwdKey size randomSalt
    (padOf (inFile.getD inName).length) ivCheck).length by rw [headerSalt_length hsalt]; decide)
  obtain ⟨b, bs, hcons⟩ := List.exists_cons_of_ne_nil hhead
  have hmarker := (@marker_tells_iff lib pwdKey randomSalt size ivCheck _ hsalt).mpr h
  rw [addedPadding_eq] at hout
  refine ⟨?_, fun fault' other iv' hdecrypted => ?_⟩
  · rw [hout, hcons]
    rw [hcons] at hmarker
    exact hmarker
  · refine decryptSame_restores laws halg hsalt hiv (readBytes_length _) ?_ hout hdecrypted
    rw [addedPadding_eq, padding_eq_nil_iff] at hmarker
    exact not_congr hmarker

end Claim

theorem salt_marker_password :
    MarkerExact xorLib .camellia128cbc (str "cbc") (str "secret") [] 128 [] (some (str "hello"))
      (List.replicate 16 3) (List.replicate 7 0) [] false :=
  (salt_marker_iff xorLib_lawful rfl (by decide) (by decide) (by decide)).mpr (by decide)

theorem explicit_key_marks_nothing :
    ¬ MarkerExact xorLib .camellia128cbc (str "cbc") [] (List.replicate 16 5) 128 []
      (some (str "hello")) [] (List.replicate 7 0) (List.replicate 16 3) true := fun h =>
  absurd (markerExact_forward xorLib_lawful rfl (by decide) (by decide) h) (by decide)

end WolfCLU.Cbc
