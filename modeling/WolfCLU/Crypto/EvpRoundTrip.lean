import WolfCLU.Crypto.EvpCrypto
import WolfCLU.Foundation.Base64

namespace WolfCLU.Evp
open Buffer Chunks CString

section Loop
variable {σ H : Type} {lib : EvpLib σ H} {fault : EvpFault → Bool} (hok : ∀ f, fault f = false)
include hok

theorem cryptLoop_end (ctx : σ) (kind : BioKind) (out : List Byte) (i : Nat) :
    evpCryptLoop lib fault ctx ⟨kind, []⟩ out i = (wolfcluSuccess, ctx, out) := by
  rw [evpCryptLoop]
  cases kind <;> simp [hok, Bio.read]

theorem cryptLoop_more (ctx : σ) (kind : BioKind) {xs : List Byte} (hne : xs ≠ [])
    (out : List Byte) (i : Nat) :
    evpCryptLoop lib fault ctx ⟨kind, xs⟩ out i =
      match lib.cipher.update ctx (xs.take maxBuffer) with
      | none => (wolfcluFatalError, ctx, out)
      | some (ctx, output) =>
        evpCryptLoop lib fault ctx ⟨kind, xs.drop maxBuffer⟩ (out ++ output) (i + 1) := by
  have hlen : 0 < (xs.take maxBuffer).length := by
    have := List.length_pos_iff.mpr hne
    simp only [List.length_take, maxBuffer]
    omega
  rw [evpCryptLoop]
  simp only [hok, Bio.read_of_ne kind hne, Bool.false_eq_true, if_false]
  exact (dif_neg (by omega)).trans (dif_neg (by omega))

theorem cryptLoop_run (ctx : σ) (kind : BioKind) (xs out : List Byte) (i : Nat) {r : List Byte}
    (h : lib.cipher.run ctx (chunks maxBuffer xs) = some r) :
    ∃ ctx' out' o, evpCryptLoop lib fault ctx ⟨kind, xs⟩ out i = (wolfcluSuccess, ctx', out') ∧
      lib.cipher.final ctx' = some o ∧ out' ++ o = out ++ r := by
  induction xs using chunks_induct (show 0 < maxBuffer by decide) generalizing ctx out i r with
  | nil =>
    rw [chunks_nil] at h
    exact ⟨ctx, out, r, cryptLoop_end hok ctx kind out i, h, rfl⟩
  | more xs hne ih =>
    rw [chunks_of_ne (by decide) hne] at h
    rw [cryptLoop_more hok ctx kind hne]
    simp only [Transformer.run] at h
    cases hu : lib.cipher.update ctx (xs.take maxBuffer) with
    | none =>
      rw [hu] at h
      cases h
    | some next =>
      obtain ⟨ctx1, o1⟩ := next
      rw [hu] at h
      obtain ⟨r1, hr1, rfl⟩ := Option.map_eq_some_iff.mp h
      obtain ⟨ctx', out', o, hloop, hfinal, happ⟩ := ih ctx1 (out ++ o1) (i + 1) hr1
      exact ⟨ctx', out', o, hloop, hfinal, by rw [happ, List.append_assoc]⟩

theorem cryptLoop_stuck (ctx : σ) (kind : BioKind) (xs out : List Byte) (i : Nat)
    (h : lib.cipher.run ctx (chunks maxBuffer xs) = none) :
    (evpCryptLoop lib fault ctx ⟨kind, xs⟩ out i).1 ≠ wolfcluSuccess ∨
      lib.cipher.final (evpCryptLoop lib fault ctx ⟨kind, xs⟩ out i).2.1 = none := by
  induction xs using chunks_induct (show 0 < maxBuffer by decide) generalizing ctx out i with
  | nil =>
    rw [chunks_nil] at h
    rw [cryptLoop_end hok]
    exact Or.inr h
  | more xs hne ih =>
    rw [chunks_of_ne (by decide) hne] at h
    rw [cryptLoop_more hok ctx kind hne]
    simp only [Transformer.run] at h
    cases hu : lib.cipher.update ctx (xs.take maxBuffer) with
    | none => exact Or.inl (show wolfcluFatalError ≠ wolfcluSuccess by decide)
    | some next =>
      obtain ⟨ctx1, o1⟩ := next
      rw [hu] at h
      exact ih ctx1 (out ++ o1) (i + 1) (Option.map_eq_none_iff.mp h)

theorem evpCrypt_run (args : EvpArgs H) (enc : Bool) (ctx : σ) (kind : BioKind)
    (xs header : List Byte) {r : List Byte}
    (h : lib.cipher.run ctx (chunks maxBuffer xs) = some r) :
    evpCrypt lib fault args enc ctx ⟨kind, xs⟩ header =
      if enc ∧ args.isBase64 then evpFlushBase64 lib fault (header ++ r)
      else (wolfcluSuccess, header ++ r) := by
  obtain ⟨ctx', out', o, hloop, hfinal, happ⟩ := cryptLoop_run hok ctx kind xs header 0 h
  simp only [evpCrypt, hloop, hfinal, hok, happ, ne_eq, not_true, if_false, Bool.false_eq_true]

theorem evpCrypt_stuck (args : EvpArgs H) (enc : Bool) (ctx : σ) (kind : BioKind)
    (xs header : List Byte) (h : lib.cipher.run ctx (chunks maxBuffer xs) = none) :
    (evpCrypt lib fault args enc ctx ⟨kind, xs⟩ header).1 ≠ wolfcluSuccess := by
  have hfatal : wolfcluFatalError ≠ wolfcluSuccess := by decide
  rcases cryptLoop_stuck hok ctx kind xs header 0 h with hret | hfinal
  · simp only [evpCrypt, if_pos hret]
    exact hret
  · by_cases hret : (evpCryptLoop lib fault ctx ⟨kind, xs⟩ header 0).1 ≠ wolfcluSuccess
    · simp only [evpCrypt, if_pos hret]
      exact hret
    · simp only [evpCrypt, if_neg hret, hfinal]
      exact hfatal

end Loop

structure Lawful {σ H : Type} (lib : EvpLib σ H) (ctLength b64Length : Nat → Nat) (maxFile : Nat) :
    Prop where
  decrypts : ∀ key iv cs, ∃ c, lib.cipher.run (lib.init key iv true) cs = some c ∧
    ∀ cs', cs'.flatten = c → lib.cipher.run (lib.init key iv false) cs' = some cs.flatten
  ctLength_eq : ∀ {key iv cs c}, lib.cipher.run (lib.init key iv true) cs = some c →
    c.length = ctLength cs.flatten.length
  padding : ∀ n, ctLength n ≤ n + 16
  shrinks : ∀ {key iv cs p}, lib.cipher.run (lib.init key iv false) cs = some p →
    p.length ≤ cs.flatten.length
  decodes : ∀ xs, lib.base64Decode (lib.base64Encode xs) = some xs
  b64Length_eq : ∀ xs, (lib.base64Encode xs).length = b64Length xs.length
  b64Length_ge : ∀ n, n ≤ b64Length n
  fileLength_eq : ∀ n, n ≤ maxFile → lib.fileLength n = n
  fileLength_over : ∀ n, maxFile < n → lib.fileLength n ≤ 0
  maxFile_le : (maxFile : Int) ≤ MachineInt.intMax

section Stages
variable {σ H : Type} {lib : EvpLib σ H} {fault : EvpFault → Bool} (args : EvpArgs H)

def effectiveNoSalt : Bool := args.noSalt || decide (args.keyType = .user)

def material (lib : EvpLib σ H) (salt : List Byte) : List Byte × List Byte :=
  if args.keyType = .user then (args.key, args.iv)
  else evpDeriveKey lib args (effectiveNoSalt args) salt

theorem material_noSalt (h : effectiveNoSalt args = true) (salt salt' : List Byte) :
    material args lib salt = material args lib salt' := by
  simp only [material, evpDeriveKey, h, if_true]

def header (salt : List Byte) : List Byte :=
  if effectiveNoSalt args then [] else isSalted ++ salt

def start (lib : EvpLib σ H) (salt : List Byte) (enc : Bool) : σ :=
  lib.init ((material args lib salt).1.take lib.keyLength)
    ((material args lib salt).2.take lib.ivLength) enc

theorem evpCrypto_runs (hok : ∀ f, fault f = false) (enc : Bool) (generated fileIn salt : List Byte)
    (bio input : Bio) (hopen : evpOpenInput lib fault args enc fileIn = .ok bio)
    (hsalt : evpReadSalt fault (effectiveNoSalt args) enc generated bio = .ok (salt, input)) :
    (evpCrypto lib fault args enc generated fileIn).ret =
        (evpCrypt lib fault args enc (start args lib salt enc) input
          (if enc then header args salt else [])).1 ∧
      (evpCrypto lib fault args enc generated fileIn).out =
        (evpCrypt lib fault args enc (start args lib salt enc) input
          (if enc then header args salt else [])).2 := by
  have hns : (args.noSalt || decide (args.keyType = .user)) = effectiveNoSalt args := rfl
  have hheader : (if enc = true ∧ ¬ effectiveNoSalt args = true then isSalted ++ salt else [])
      = if enc then header args salt else [] := by
    cases enc <;> cases hns : effectiveNoSalt args <;> simp [header, hns]
  simp only [evpCrypto, hok, Bool.false_eq_true, if_false, hopen, hns, hsalt, and_false, or_false,
    hheader, start, material, and_self]

theorem evpCrypto_open_fails (enc : Bool) (generated fileIn : List Byte) {ret : Int}
    (hret : ret ≠ wolfcluSuccess) (hopen : evpOpenInput lib fault args enc fileIn = .error ret) :
    (evpCrypto lib fault args enc generated fileIn).ret ≠ wolfcluSuccess := by
  have hfatal : wolfcluFatalError ≠ wolfcluSuccess := by decide
  simp only [evpCrypto, hopen]
  split_ifs
  · exact hfatal
  · exact hret

theorem readSalt_encrypt (hok : ∀ f, fault f = false) (noSalt : Bool) (salt : List Byte)
    (bio : Bio) : evpReadSalt fault noSalt true salt bio = .ok (salt, bio) := by
  simp [evpReadSalt, hok]

theorem readSalt_header {salt : List Byte} (hsalt : salt.length = saltSize) (kind : BioKind)
    (generated ct : List Byte) :
    ∃ salt', evpReadSalt fault (effectiveNoSalt args) false generated
        ⟨kind, header args salt ++ ct⟩ = .ok (salt', ⟨kind, ct⟩) ∧
      start args lib salt' false = start args lib salt false := by
  cases hns : effectiveNoSalt args with
  | true =>
    refine ⟨List.replicate saltSize 0, by simp [evpReadSalt, header, hns], ?_⟩
    rw [start, start, material_noSalt args hns]
  | false =>
    have hne : salt ≠ [] := by
      intro h
      rw [h] at hsalt
      cases hsalt
    have hmagic := Bio.read_append kind (show isSalted ≠ [] by decide) (salt ++ ct)
    have hread := Bio.read_append kind hne ct
    rw [hsalt] at hread
    refine ⟨salt, ?_, rfl⟩
    simp only [evpReadSalt, header, hns, Bool.false_eq_true, if_false, List.append_assoc, hmagic,
      hread]
    rw [if_neg (by decide), if_neg (by simp), if_neg (by simp)]

theorem readSalt_error {noSalt enc : Bool} {generated : List Byte} {bio : Bio} {ret : Int}
    (h : evpReadSalt fault noSalt enc generated bio = .error ret) : ret = wolfcluFatalError := by
  simp only [evpReadSalt] at h
  split_ifs at h <;> exact (Except.error.inj h).symm

theorem evpCrypto_salt_fails (enc : Bool) (generated fileIn : List Byte) {bio : Bio} {ret : Int}
    (hopen : evpOpenInput lib fault args enc fileIn = .ok bio)
    (hsalt : evpReadSalt fault (effectiveNoSalt args) enc generated bio = .error ret) :
    (evpCrypto lib fault args enc generated fileIn).ret ≠ wolfcluSuccess := by
  have hfatal : wolfcluFatalError ≠ wolfcluSuccess := by decide
  have hns : (args.noSalt || decide (args.keyType = .user)) = effectiveNoSalt args := rfl
  simp only [evpCrypto, hopen, hns, hsalt, readSalt_error hsalt]
  split_ifs
  · exact hfatal
  · decide
  · exact hfatal

theorem readSalt_shrinks {noSalt : Bool} {generated salt : List Byte} {bio input : Bio}
    (h : evpReadSalt fault noSalt false generated bio = .ok (salt, input)) :
    input.rest.length ≤ bio.rest.length := by
  have hread (b : Bio) (n : Nat) : (b.read n).2.2.rest.length ≤ b.rest.length := by
    obtain ⟨kind, xs⟩ := b
    by_cases hne : xs = []
    · subst hne
      cases kind <;> simp [Bio.read]
    · simp only [Bio.read_of_ne kind hne, List.length_drop]
      omega
  simp only [evpReadSalt, Bool.false_eq_true, if_false] at h
  split_ifs at h
  · cases h
    exact le_rfl
  · cases h
    exact (hread _ _).trans (hread _ _)

end Stages

section RoundTrip
variable {σ H : Type} {lib : EvpLib σ H} {ctLength b64Length : Nat → Nat} {maxFile : Nat}
  (laws : Lawful lib ctLength b64Length maxFile) {fault : EvpFault → Bool}
  (hok : ∀ f, fault f = false) (args : EvpArgs H)
include laws hok

def base64File (lib : EvpLib σ H) (out : List Byte) : List Byte :=
  if MachineInt.toInt32 out.length ≤ 0 then []
  else lib.base64Encode (out.take (MachineInt.toInt32 out.length).toNat)

theorem encrypt_writes (salt p : List Byte) :
    ∃ ct, ct.length = ctLength p.length ∧
      (∀ cs, cs.flatten = ct → lib.cipher.run (start args lib salt false) cs = some p) ∧
      (evpCrypto lib fault args true salt p).out =
        if args.isBase64 then base64File lib (header args salt ++ ct) else header args salt ++ ct := by
  have hflat : (chunks maxBuffer p).flatten = p := flatten_chunks (by decide) p
  obtain ⟨ct, hrun, hinv⟩ := laws.decrypts ((material args lib salt).1.take lib.keyLength)
    ((material args lib salt).2.take lib.ivLength) (chunks maxBuffer p)
  have hlen := laws.ctLength_eq hrun
  rw [hflat] at hinv hlen
  refine ⟨ct, hlen, hinv, ?_⟩
  have hopen : evpOpenInput lib fault args true p = .ok ⟨.file, p⟩ := by simp [evpOpenInput, hok]
  rw [(evpCrypto_runs args hok true salt p salt _ _ hopen (readSalt_encrypt hok _ salt _)).2,
    evpCrypt_run hok args true (start args lib salt true) .file p _ hrun]
  cases args.isBase64 with
  | false => simp
  | true =>
    simp only [evpFlushBase64, hok, base64File, and_self, if_true, Bool.false_eq_true, if_false,
      or_false]
    split_ifs <;> rfl

omit laws in
theorem decrypt_restores {salt p ct file generated : List Byte} (hsalt : salt.length = saltSize)
    (hinv : ∀ cs, cs.flatten = ct → lib.cipher.run (start args lib salt false) cs = some p)
    {kind : BioKind}
    (hopen : evpOpenInput lib fault args false file = .ok ⟨kind, header args salt ++ ct⟩) :
    (evpCrypto lib fault args false generated file).ret = wolfcluSuccess ∧
      (evpCrypto lib fault args false generated file).out = p := by
  obtain ⟨salt', hread, hstart⟩ : ∃ salt', evpReadSalt fault (effectiveNoSalt args) false generated
      ⟨kind, header args salt ++ ct⟩ = .ok (salt', ⟨kind, ct⟩) ∧
        start args lib salt' false = start args lib salt false :=
    readSalt_header args hsalt kind generated ct
  obtain ⟨hret, hout⟩ := evpCrypto_runs args hok false generated file salt' _ _ hopen hread
  have hrun : lib.cipher.run (start args lib salt false) (chunks maxBuffer ct) = some p :=
    hinv _ (flatten_chunks (by decide) ct)
  rw [hstart, evpCrypt_run hok args false _ kind ct _ hrun] at hret hout
  rw [hret, hout]
  simp

theorem decrypt_bounded {file generated : List Byte} {bio : Bio}
    (hopen : evpOpenInput lib fault args false file = .ok bio)
    (hret : (evpCrypto lib fault args false generated file).ret = wolfcluSuccess) :
    (evpCrypto lib fault args false generated file).out.length ≤ bio.rest.length := by
  cases hread : evpReadSalt fault (effectiveNoSalt args) false generated bio with
  | error ret => exact absurd hret (evpCrypto_salt_fails args false generated file hopen hread)
  | ok r =>
    obtain ⟨salt, kind, xs⟩ := r
    obtain ⟨hr, ho⟩ := evpCrypto_runs args hok false generated file salt _ _ hopen hread
    rw [hr] at hret
    rw [ho]
    cases hrun : lib.cipher.run (start args lib salt false) (chunks maxBuffer xs) with
    | none => exact absurd hret (evpCrypt_stuck hok args false _ kind xs _ hrun)
    | some out =>
      rw [evpCrypt_run hok args false _ kind xs _ hrun]
      have hle := laws.shrinks hrun
      rw [flatten_chunks (by decide)] at hle
      have := readSalt_shrinks hread
      simp only [Bool.false_eq_true, false_and, if_false, List.nil_append]
      exact hle.trans this

theorem base64File_opens {out : List Byte} (hne : out ≠ [])
    (hfit : b64Length out.length ≤ maxFile) (hbase64 : args.isBase64 = true) :
    evpOpenInput lib fault args false (base64File lib out) = .ok ⟨.mem, out⟩ := by
  have hpos := List.length_pos_iff.mpr hne
  have hgrow := laws.b64Length_ge out.length
  have hmax := laws.maxFile_le
  have hint : MachineInt.toInt32 out.length = out.length :=
    MachineInt.toInt32_of_range (by omega) (by omega)
  have hfile : base64File lib out = lib.base64Encode out := by
    rw [base64File, hint, if_neg (by omega), Int.toNat_natCast, List.take_length]
  have hlen := laws.b64Length_eq out
  have hsz := laws.fileLength_eq _ (hlen.trans_le hfit)
  simp only [evpOpenInput, hok, hbase64, hfile, hsz, Bool.false_eq_true, if_false, not_false_eq_true,
    and_self, if_true, false_or, lt_self_iff_false, Int.toNat_natCast, List.take_length,
    laws.decodes]
  rw [if_neg (by omega)]

theorem base64File_truncated {out : List Byte} (hover : maxFile < b64Length out.length)
    (hbase64 : args.isBase64 = true) :
    (∃ ret, ret ≠ wolfcluSuccess ∧
        evpOpenInput lib fault args false (base64File lib out) = .error ret) ∨
      ∃ input, (input.length : Int) ≤ out.length - 4294967296 ∧
        evpOpenInput lib fault args false (base64File lib out) = .ok ⟨.mem, input⟩ := by
  have hfatal : wolfcluFatalError ≠ wolfcluSuccess := by decide
  have hmax := laws.maxFile_le
  have hfail (file : List Byte) (hle : lib.fileLength file.length ≤ 0) :
      evpOpenInput lib fault args false file = .error wolfcluFatalError := by
    simp [evpOpenInput, hok, hbase64, hle]
  by_cases hneg : MachineInt.toInt32 out.length ≤ 0
  · refine Or.inl ⟨_, hfatal, hfail _ ?_⟩
    rw [base64File, if_pos hneg, List.length_nil, laws.fileLength_eq 0 (Nat.zero_le _)]
    exact le_rfl
  · rw [base64File, if_neg hneg]
    set input := out.take (MachineInt.toInt32 out.length).toNat with hinput
    have hlen := laws.b64Length_eq input
    by_cases hfit : (lib.base64Encode input).length ≤ maxFile
    · right
      have hwrap : MachineInt.intMax < out.length := by
        by_contra hsmall
        have hint : MachineInt.toInt32 out.length = out.length :=
          MachineInt.toInt32_of_range (by omega) (by omega)
        rw [hint, Int.toNat_natCast, List.take_length] at hinput
        rw [hlen, hinput] at hfit
        omega
      have hpos : 0 < input.length := by
        have hcut : 0 < (MachineInt.toInt32 out.length).toNat := by omega
        have hall : 0 < out.length := by omega
        rw [hinput, List.length_take]
        exact lt_min hcut hall
      refine ⟨input, ?_, ?_⟩
      · have hle := MachineInt.toInt32_le_sub hwrap
        rw [hinput, List.length_take]
        omega
      · have hsz := laws.fileLength_eq _ hfit
        have hgrow := laws.b64Length_ge input.length
        simp only [evpOpenInput, hok, hbase64, hsz, Bool.false_eq_true, if_false,
          not_false_eq_true, and_self, if_true, false_or, lt_self_iff_false, Int.toNat_natCast,
          List.take_length, laws.decodes]
        rw [if_neg (by omega)]
    · exact Or.inl ⟨_, hfatal, hfail _ (laws.fileLength_over _ (not_le.mp hfit))⟩

def Restores (lib : EvpLib σ H) (fault : EvpFault → Bool) (args : EvpArgs H)
    (salt generated p : List Byte) : Prop :=
  (evpCrypto lib fault args false generated (evpCrypto lib fault args true salt p).out).ret
      = wolfcluSuccess ∧
    (evpCrypto lib fault args false generated (evpCrypto lib fault args true salt p).out).out = p

theorem restores_of_fits {salt p : List Byte} (hsalt : salt.length = saltSize) (hne : p ≠ [])
    (generated : List Byte)
    (hfit : args.isBase64 = true →
      b64Length ((header args salt).length + ctLength p.length) ≤ maxFile) :
    Restores lib fault args salt generated p := by
  obtain ⟨ct, hlen, hinv, hout⟩ := encrypt_writes laws hok args salt p
  rw [Restores, hout]
  cases hbase64 : args.isBase64 with
  | false =>
    have hopen : evpOpenInput lib fault args false (header args salt ++ ct)
        = .ok ⟨.file, header args salt ++ ct⟩ := by simp [evpOpenInput, hok, hbase64]
    simp only [Bool.false_eq_true, if_false]
    exact decrypt_restores hok args hsalt hinv hopen
  | true =>
    have hfit' := hfit hbase64
    rw [← hlen, ← List.length_append] at hfit'
    have hct : header args salt ++ ct ≠ [] := by
      have hle := laws.shrinks (hinv (chunks maxBuffer ct) (flatten_chunks (by decide) ct))
      rw [flatten_chunks (by decide)] at hle
      have := List.length_pos_iff.mpr hne
      exact List.append_ne_nil_of_right_ne_nil _ (List.ne_nil_of_length_pos (by omega))
    simp only [if_true]
    exact decrypt_restores hok args hsalt hinv (base64File_opens laws hok args hct hfit' hbase64)

theorem not_restores_of_over {salt p : List Byte} (hsalt : salt.length = saltSize)
    (generated : List Byte) (hbase64 : args.isBase64 = true)
    (hover : maxFile < b64Length ((header args salt).length + ctLength p.length)) :
    ¬ Restores lib fault args salt generated p := by
  obtain ⟨ct, hlen, hinv, hout⟩ := encrypt_writes laws hok args salt p
  rw [← hlen, ← List.length_append] at hover
  rw [Restores, hout]
  simp only [hbase64, if_true]
  rintro ⟨hret, heq⟩
  rcases base64File_truncated laws hok args hover hbase64 with
    ⟨ret, hbad, hopen⟩ | ⟨input, hshort, hopen⟩
  · exact evpCrypto_open_fails args false generated _ hbad hopen hret
  · have hle := decrypt_bounded laws hok args hopen hret
    have hpad := laws.padding p.length
    have hhdr : (header args salt).length ≤ 16 := by
      rw [header]
      split_ifs
      · simp
      · rw [List.length_append, hsalt]
        decide
    rw [heq] at hle
    rw [List.length_append, hlen] at hshort
    simp only at hle
    omega

theorem evpCrypto_roundTrip_iff {salt p : List Byte} (hsalt : salt.length = saltSize)
    (hne : p ≠ []) (generated : List Byte) :
    Restores lib fault args salt generated p ↔
      (args.isBase64 = true →
        b64Length ((header args salt).length + ctLength p.length) ≤ maxFile) := by
  constructor
  · intro h hbase64
    by_contra hover
    exact not_restores_of_over laws hok args hsalt generated hbase64 (not_le.mp hover) h
  · intro hfit
    exact restores_of_fits laws hok args hsalt hne generated hfit

end RoundTrip

def keystream : Chunks.Transformer Byte Byte where
  update s c := some (s, c.map (· ^^^ s))
  final _ := some []

theorem keystream_run (s : Byte) (cs : List (List Byte)) :
    keystream.run s cs = some (cs.flatten.map (· ^^^ s)) := by
  induction cs with
  | nil => rfl
  | cons c cs ih =>
    simp only [Transformer.run, keystream, List.flatten_cons, List.map_append] at ih ⊢
    rw [ih]
    rfl

def streamLib : EvpLib Byte Unit where
  keyLength := 16
  ivLength := 16
  pbkdf2 password salt _ _ len := (List.replicate len (password ++ salt.getD [])).flatten.take len
  bytesToKey _ salt password _ := (password ++ salt.getD [], password)
  init key iv _ := key.headD 0 ^^^ iv.headD 0
  cipher := keystream
  base64Encode xs := Base64.encode xs ++ [10]
  base64Decode xs := Base64.decode xs.dropLast
  fileLength n := if n ≤ 2147483647 then n else -1

theorem streamLib_lawful :
    Lawful streamLib (fun n => n) (fun n => 4 * ((n + 2) / 3) + 1) 2147483647 where
  decrypts key iv cs := by
    refine ⟨_, keystream_run _ cs, fun cs' h => ?_⟩
    have hrun := keystream_run (streamLib.init key iv false) cs'
    have hcancel (x s : Byte) : x ^^^ s ^^^ s = x := by
      rw [UInt8.xor_assoc, UInt8.xor_self, UInt8.xor_zero]
    rw [h, List.map_map] at hrun
    refine hrun.trans ?_
    congr 1
    exact (List.map_congr_left fun x _ => hcancel x _).trans (List.map_id _)
  ctLength_eq h := by
    rw [show streamLib.cipher = keystream from rfl, keystream_run] at h
    rw [← Option.some.inj h, List.length_map]
  padding n := by omega
  shrinks h := by
    rw [show streamLib.cipher = keystream from rfl, keystream_run] at h
    rw [← Option.some.inj h, List.length_map]
  decodes xs := by
    simp only [streamLib, List.dropLast_concat, Base64.decode_encode]
  b64Length_eq xs := by
    simp only [streamLib, List.length_append, Base64.encode_length, List.length_singleton]
  b64Length_ge n := by omega
  fileLength_eq n h := by simp only [streamLib, if_pos h]
  fileLength_over n h := by
    simp only [streamLib, if_neg (not_le.mpr h)]
    decide
  maxFile_le := by decide

def base64Args : EvpArgs Unit where
  pwdKey := str "secret" ++ List.replicate 26 0
  key := List.replicate 32 0
  keySz := 16
  iv := List.replicate 16 0
  pbkdf2 := true
  hashType := ()
  isBase64 := true
  noSalt := false
  keyType := .password

theorem evpCrypto_roundTrip_short :
    Restores streamLib (fun _ => false) base64Args (str "saltsalt") [] (str "hi") :=
  (evpCrypto_roundTrip_iff streamLib_lawful (fun _ => rfl) base64Args (by decide) (by decide)
    []).mpr (by decide)

theorem evpCrypto_base64_lost :
    ¬ ∀ (args : EvpArgs Unit) (salt generated p : List Byte), salt.length = saltSize → p ≠ [] →
      Restores streamLib (fun _ => false) args salt generated p := by
  intro h
  obtain ⟨p, hlen⟩ : ∃ p : List Byte, p.length = 2147483648 :=
    ⟨List.replicate 2147483648 0, List.length_replicate⟩
  have hne : p ≠ [] := List.ne_nil_of_length_pos (by omega)
  have hheader : (header base64Args (str "saltsalt")).length = 16 := by decide
  refine not_restores_of_over streamLib_lawful (fun _ => rfl) base64Args
    (show (str "saltsalt").length = saltSize by decide) [] rfl ?_ (h base64Args (str "saltsalt") [] p (by decide) hne)
  rw [hheader, hlen]
  omega

end WolfCLU.Evp
