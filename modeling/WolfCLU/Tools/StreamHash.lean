import WolfCLU.ErrorCodes
import WolfCLU.Foundation.CheckedMemory
import WolfCLU.Foundation.Incremental
import WolfCLU.Tools.Forms

namespace WolfCLU
open CString CheckedMemory Buffer Incremental

def maxIoChunkSz : Nat := 4096

structure IoChunk where
  bytes : List Byte
  nonempty : bytes ≠ []
  fits : bytes.length ≤ maxIoChunkSz

inductive BioRead where
  | data (chunk : IoChunk)
  | failed

structure DigestOut where
  area : Option (List Byte)
  size : Option Nat

structure HashLib (κ σ : Type) where
  digestSize : κ → Int
  init : κ → Option σ
  digester : κ → Digester σ

structure HmacLib (σ : Type) where
  init : HashType → List Byte → Option σ
  digester : Digester σ

section Stream
variable {κ σ : Type}

def readLoop (update : σ → List Byte → Option σ) (chunk : List Byte) (s : σ) :
    List BioRead → Option (Int × σ)
  | [] => some (wolfcluSuccess, s)
  | .failed :: _ => some (wolfcluFatalError, s)
  | .data c :: reads => do
    let chunk ← store chunk 0 c.bytes
    let bytes ← area chunk 0 c.bytes.length
    match update s bytes with
    | none => some (wolfcluFatalError, s)
    | some s => readLoop update chunk s reads

def zeroChunk : List Byte := List.replicate maxIoChunkSz 0

def streamHashBio (L : HashLib κ σ) (bioIn : Option (List BioRead)) (hashType : κ)
    (out : DigestOut) : Option (Int × DigestOut) :=
  match bioIn, out.area, out.size with
  | some reads, some outDigest, some outDigestSz =>
    let dsz := L.digestSize hashType
    if dsz ≤ 0 ∨ dsz > outDigestSz then some (wolfcluFatalError, out)
    else
      match L.init hashType with
      | none => some (wolfcluFatalError, out)
      | some hashAlg => do
        let (ret, hashAlg) ← readLoop (L.digester hashType).update zeroChunk hashAlg reads
        if ret = wolfcluSuccess then
          match (L.digester hashType).final hashAlg with
          | none => some (wolfcluFatalError, out)
          | some digest => do
            let outDigest ← store outDigest 0 digest
            some (ret, { area := some outDigest, size := some dsz.toNat })
        else some (ret, out)
  | _, _, _ => some (badFuncArg, out)

def hmacMd (noMd5 : Bool) : HashType → Except Int HashType
  | .md5 => if noMd5 then .error notCompiledIn else .ok .md5
  | .sha => .ok .sha
  | .sha224 => .ok .sha224
  | .sha256 => .ok .sha256
  | .sha384 => .ok .sha384
  | .sha512 => .ok .sha512
  | .none => .error wolfcluFatalError

def hmacHash (M : HmacLib σ) (noMd5 : Bool) (key : Option (List Byte)) (len : Nat)
    (alg : HashType) (bioIn : Option (List BioRead)) (out : DigestOut) :
    Option (Int × DigestOut) :=
  match key, bioIn, out.area, out.size with
  | some key, some reads, some outArea, some outSz =>
    match hmacMd noMd5 alg with
    | .error e => some (e, out)
    | .ok md => do
      let keyBytes ← area key 0 len
      match M.init md keyBytes with
      | none => some (wolfcluFatalError, out)
      | some ctx => do
        let (ret, ctx) ← readLoop M.digester.update zeroChunk ctx reads
        if ret = wolfcluSuccess then
          match M.digester.final ctx with
          | none => some (wolfcluFatalError, out)
          | some mac => do
            let chunk ← store zeroChunk 0 mac
            if mac.length ≤ outSz then do
              let mac ← area chunk 0 mac.length
              let outArea ← store outArea 0 mac
              some (ret, { area := some outArea, size := some mac.length })
            else some (wolfcluFatalError, out)
        else some (ret, out)
  | _, _, _, _ => some (badFuncArg, out)

structure HashLib.Computes (L : HashLib κ σ) (absorbed : κ → σ → List Byte → Prop)
    (hash : κ → List Byte → List Byte) : Prop where
  init : ∀ {t s}, L.init t = some s → absorbed t s []
  digest : ∀ t, (L.digester t).Computes (absorbed t) (hash t)
  size : ∀ t data, 0 < L.digestSize t → ((hash t data).length : Int) = L.digestSize t

structure HmacLib.Computes (M : HmacLib σ)
    (absorbed : HashType → List Byte → σ → List Byte → Prop)
    (hmac : HashType → List Byte → List Byte → List Byte) : Prop where
  init : ∀ {md key s}, M.init md key = some s → absorbed md key s []
  digest : ∀ md key, M.digester.Computes (absorbed md key) (hmac md key)
  size : ∀ md key data, (hmac md key data).length ≤ maxIoChunkSz

def wholeInput : List BioRead → List Byte
  | [] => []
  | .data c :: reads => c.bytes ++ wholeInput reads
  | .failed :: reads => wholeInput reads

def Takes (D : Digester σ) (start : σ) (reads : List BioRead) (s : σ) : Prop :=
  ∃ chunks : List IoChunk, reads = chunks.map .data ∧ D.Absorbs (chunks.map (·.bytes)) start s

def HashDelivers (L : HashLib κ σ) (reads : List BioRead) (hashType : κ) (capacity : Nat)
    (digest : List Byte) : Prop :=
  0 < L.digestSize hashType ∧ L.digestSize hashType ≤ capacity ∧
    ∃ start s, L.init hashType = some start ∧ Takes (L.digester hashType) start reads s ∧
      (L.digester hashType).final s = some digest

def HmacDelivers (M : HmacLib σ) (noMd5 : Bool) (key : List Byte) (alg : HashType)
    (reads : List BioRead) (capacity : Nat) (mac : List Byte) : Prop :=
  ∃ md start s, hmacMd noMd5 alg = .ok md ∧ M.init md key = some start ∧
    Takes M.digester start reads s ∧ M.digester.final s = some mac ∧ mac.length ≤ capacity

theorem wholeInput_data (chunks : List IoChunk) :
    wholeInput (chunks.map .data) = (chunks.map (·.bytes)).flatten := by
  induction chunks with
  | nil => rfl
  | cons c chunks ih => rw [List.map_cons, wholeInput, ih, List.map_cons, List.flatten_cons]

theorem takes_nil (D : Digester σ) (s : σ) : Takes D s [] s := ⟨[], rfl, absorbs_nil.mpr rfl⟩

theorem not_takes_failed {D : Digester σ} {s s' : σ} {reads : List BioRead} :
    ¬ Takes D s (.failed :: reads) s' := by
  rintro ⟨chunks, hreads, _⟩
  cases chunks with
  | nil => cases hreads
  | cons c chunks => cases hreads

theorem takes_cons {D : Digester σ} {s s' : σ} {c : IoChunk} {reads : List BioRead} :
    Takes D s (.data c :: reads) s' ↔ ∃ t, D.update s c.bytes = some t ∧ Takes D t reads s' := by
  constructor
  · rintro ⟨chunks, hreads, habsorbs⟩
    cases chunks with
    | nil => cases hreads
    | cons d chunks =>
      simp only [List.map_cons, List.cons.injEq, BioRead.data.injEq] at hreads
      obtain ⟨rfl, rfl⟩ := hreads
      obtain ⟨t, hupdate, hrest⟩ := absorbs_cons.mp habsorbs
      exact ⟨t, hupdate, chunks, rfl, hrest⟩
  · rintro ⟨t, hupdate, chunks, rfl, habsorbs⟩
    exact ⟨c :: chunks, rfl, absorbs_cons.mpr ⟨t, hupdate, habsorbs⟩⟩

theorem Takes.unique {D : Digester σ} {start s s' : σ} {reads : List BioRead}
    (h : Takes D start reads s) (h' : Takes D start reads s') : s = s' := by
  obtain ⟨chunks, rfl, habsorbs⟩ := h
  obtain ⟨chunks', hreads, habsorbs'⟩ := h'
  have hchunks : chunks = chunks' :=
    (List.map_injective_iff.mpr fun _ _ heq => BioRead.data.inj heq) hreads
  subst hchunks
  exact Option.some.inj (habsorbs.symm.trans habsorbs')

theorem Takes.digest {D : Digester σ} {absorbed : σ → List Byte → Prop}
    {hash : List Byte → List Byte} (hD : D.Computes absorbed hash) {start s : σ}
    {reads : List BioRead} {d : List Byte} (hstart : absorbed start [])
    (h : Takes D start reads s) (hfinal : D.final s = some d) : d = hash (wholeInput reads) := by
  obtain ⟨chunks, rfl, habsorbs⟩ := h
  rw [wholeInput_data]
  exact hD.digest hstart habsorbs hfinal

theorem zeroChunk_length : zeroChunk.length = maxIoChunkSz := List.length_replicate

theorem readLoop_spec {D : Digester σ} {chunk : List Byte} (hchunk : chunk.length = maxIoChunkSz)
    (s : σ) (reads : List BioRead) :
    (∃ s', Takes D s reads s' ∧
        readLoop D.update chunk s reads = some (wolfcluSuccess, s')) ∨
      ((∀ s', ¬ Takes D s reads s') ∧
        ∃ s', readLoop D.update chunk s reads = some (wolfcluFatalError, s')) := by
  induction reads generalizing chunk s with
  | nil => exact Or.inl ⟨s, takes_nil D s, rfl⟩
  | cons r reads ih =>
    cases r with
    | failed => exact Or.inr ⟨fun s' => not_takes_failed, s, rfl⟩
    | data c =>
      have hbound : 0 + c.bytes.length ≤ chunk.length := by
        rw [hchunk, Nat.zero_add]
        exact c.fits
      have hlen := blit_length hbound
      have hread : ((blit chunk 0 c.bytes).drop 0).take c.bytes.length = c.bytes :=
        blit_window (Nat.zero_le _)
      simp only [readLoop, store_of_le hbound, area_of_le (hlen ▸ hbound), hread,
        Option.bind_eq_bind, Option.bind_some, takes_cons]
      rcases hupdate : D.update s c.bytes with _ | t
      · refine Or.inr ⟨?_, s, rfl⟩
        rintro s' ⟨t, ht, _⟩
        cases ht
      · simp only [Option.some.injEq, exists_eq_left']
        exact ih (hlen.trans hchunk) t

theorem streamHashBio_spec {L : HashLib κ σ} {absorbed : κ → σ → List Byte → Prop}
    {hash : κ → List Byte → List Byte} (hL : L.Computes absorbed hash) (reads : List BioRead)
    (hashType : κ) {area : List Byte} {capacity : Nat} (hfits : capacity ≤ area.length) :
    (HashDelivers L reads hashType capacity (hash hashType (wholeInput reads)) ∧
        streamHashBio L (some reads) hashType { area := some area, size := some capacity } =
          some (wolfcluSuccess, { area := some (blit area 0 (hash hashType (wholeInput reads))),
                                  size := some (hash hashType (wholeInput reads)).length })) ∨
      ((∀ digest, ¬ HashDelivers L reads hashType capacity digest) ∧
        ∃ ret, Fails ret ∧
          streamHashBio L (some reads) hashType { area := some area, size := some capacity } =
            some (ret, { area := some area, size := some capacity })) := by
  have hfatal : wolfcluFatalError ≠ wolfcluSuccess := by decide
  simp only [streamHashBio]
  by_cases hsize : L.digestSize hashType ≤ 0 ∨ L.digestSize hashType > capacity
  · refine Or.inr ⟨?_, wolfcluFatalError, fails_fatal, by rw [if_pos hsize]⟩
    rintro digest ⟨hpos, hle, _⟩
    omega
  · rw [if_neg hsize]
    have hpos : 0 < L.digestSize hashType := by omega
    rcases hinit : L.init hashType with _ | start
    · refine Or.inr ⟨?_, wolfcluFatalError, fails_fatal, rfl⟩
      rintro digest ⟨_, _, start, s, hstart, _⟩
      rw [hinit] at hstart
      cases hstart
    · simp only
      rcases @readLoop_spec σ (L.digester hashType) _ zeroChunk_length start reads with
        ⟨s, htakes, hrun⟩ | ⟨hnone, s, hrun⟩
      · rcases hfinal : (L.digester hashType).final s with _ | digest
        · refine Or.inr ⟨?_, wolfcluFatalError, fails_fatal, ?_⟩
          · rintro digest ⟨_, _, start', s', hstart, htakes', hdigest⟩
            rw [hinit, Option.some.injEq] at hstart
            subst hstart
            rw [htakes'.unique htakes, hfinal] at hdigest
            cases hdigest
          · simp only [hrun, Option.bind_eq_bind, Option.bind_some, if_pos, hfinal]
        · have hdigest := htakes.digest (hL.digest hashType) (hL.init hinit) hfinal
          subst hdigest
          have hlen := hL.size hashType (wholeInput reads) hpos
          have hstore : 0 + (hash hashType (wholeInput reads)).length ≤ area.length := by omega
          refine Or.inl ⟨⟨hpos, by omega, start, s, hinit, htakes, hfinal⟩, ?_⟩
          simp only [hrun, Option.bind_eq_bind, Option.bind_some, if_pos, hfinal,
            store_of_le hstore, ← hlen, Int.toNat_natCast]
      · refine Or.inr ⟨?_, wolfcluFatalError, fails_fatal, ?_⟩
        · rintro digest ⟨_, _, start', s', hstart, htakes, _⟩
          rw [hinit, Option.some.injEq] at hstart
          subst hstart
          exact hnone s' htakes
        · simp only [hrun, Option.bind_eq_bind, Option.bind_some, if_neg hfatal]

theorem hmacMd_ok {noMd5 : Bool} {alg md : HashType} (h : hmacMd noMd5 alg = .ok md) :
    alg = md := by
  cases alg with
  | none => cases h
  | md5 =>
    cases noMd5 with
    | true => cases h
    | false => exact Except.ok.inj h
  | sha | sha224 | sha256 | sha384 | sha512 => exact Except.ok.inj h

theorem hmacMd_fails {noMd5 : Bool} {alg : HashType} {e : Int} (h : hmacMd noMd5 alg = .error e) :
    Fails e := by
  cases alg with
  | none =>
    cases h
    exact fails_fatal
  | md5 =>
    cases noMd5 with
    | true =>
      cases h
      exact fails_of_neg (by decide)
    | false => cases h
  | sha | sha224 | sha256 | sha384 | sha512 => cases h

theorem HmacDelivers.start {M : HmacLib σ} {noMd5 : Bool} {key : List Byte} {alg : HashType}
    {reads : List BioRead} {capacity : Nat} {mac : List Byte}
    (h : HmacDelivers M noMd5 key alg reads capacity mac) :
    ∃ start s, M.init alg key = some start ∧ Takes M.digester start reads s ∧
      M.digester.final s = some mac ∧ mac.length ≤ capacity := by
  obtain ⟨md, start, s, hmd, hrest⟩ := h
  rw [← hmacMd_ok hmd] at hrest
  exact ⟨start, s, hrest⟩

theorem hmacHash_spec {M : HmacLib σ} {absorbed : HashType → List Byte → σ → List Byte → Prop}
    {hmac : HashType → List Byte → List Byte → List Byte} (hM : M.Computes absorbed hmac)
    (noMd5 : Bool) {key : List Byte} {len : Nat} (hkey : len ≤ key.length) (alg : HashType)
    (reads : List BioRead) {area : List Byte} {capacity : Nat} (hfits : capacity ≤ area.length) :
    (HmacDelivers M noMd5 (key.take len) alg reads capacity
          (hmac alg (key.take len) (wholeInput reads)) ∧
        hmacHash M noMd5 (some key) len alg (some reads)
            { area := some area, size := some capacity } =
          some (wolfcluSuccess,
            { area := some (blit area 0 (hmac alg (key.take len) (wholeInput reads))),
              size := some (hmac alg (key.take len) (wholeInput reads)).length })) ∨
      ((∀ mac, ¬ HmacDelivers M noMd5 (key.take len) alg reads capacity mac) ∧
        ∃ ret, Fails ret ∧
          hmacHash M noMd5 (some key) len alg (some reads)
              { area := some area, size := some capacity } =
            some (ret, { area := some area, size := some capacity })) := by
  have hfatal : wolfcluFatalError ≠ wolfcluSuccess := by decide
  simp only [hmacHash]
  rcases hmd : hmacMd noMd5 alg with e | md
  · refine Or.inr ⟨?_, e, hmacMd_fails hmd, rfl⟩
    rintro mac ⟨md, start, s, hok, _⟩
    rw [hmd] at hok
    cases hok
  · have hsame := hmacMd_ok hmd
    subst hsame
    simp only [area_of_le (show 0 + len ≤ key.length by omega), List.drop_zero,
      Option.bind_eq_bind, Option.bind_some]
    rcases hinit : M.init alg (key.take len) with _ | start
    · refine Or.inr ⟨?_, wolfcluFatalError, fails_fatal, rfl⟩
      intro mac h
      obtain ⟨start, s, hstart, _⟩ := h.start
      rw [hinit] at hstart
      cases hstart
    · simp only
      rcases @readLoop_spec σ M.digester _ zeroChunk_length start reads with
        ⟨s, htakes, hrun⟩ | ⟨hnone, s, hrun⟩
      · simp only [hrun, Option.bind_some, if_pos]
        rcases hfinal : M.digester.final s with _ | mac
        · refine Or.inr ⟨?_, wolfcluFatalError, fails_fatal, rfl⟩
          intro mac h
          obtain ⟨start', s', hstart, htakes', hmac, _⟩ := h.start
          rw [hinit, Option.some.injEq] at hstart
          subst hstart
          rw [htakes'.unique htakes, hfinal] at hmac
          cases hmac
        · have hmac := htakes.digest (hM.digest alg (key.take len)) (hM.init hinit) hfinal
          have hchunk : 0 + mac.length ≤ zeroChunk.length := by
            rw [hmac, zeroChunk_length, Nat.zero_add]
            exact hM.size alg (key.take len) (wholeInput reads)
          have hback : ((blit zeroChunk 0 mac).drop 0).take mac.length = mac :=
            blit_window (Nat.zero_le _)
          simp only [store_of_le hchunk, Option.bind_some]
          by_cases hroom : mac.length ≤ capacity
          · have hcopy : 0 + mac.length ≤ (blit zeroChunk 0 mac).length := by
              rw [blit_length hchunk]
              exact hchunk
            have hstore : 0 + mac.length ≤ area.length := by omega
            rw [if_pos hroom, area_of_le hcopy, hback, Option.bind_some, store_of_le hstore,
              Option.bind_some, ← hmac]
            exact Or.inl ⟨⟨alg, start, s, hmd, hinit, htakes, hfinal, hroom⟩, rfl⟩
          · refine Or.inr ⟨?_, wolfcluFatalError, fails_fatal, by rw [if_neg hroom]⟩
            intro mac' h
            obtain ⟨start', s', hstart, htakes', hmac', hle⟩ := h.start
            rw [hinit, Option.some.injEq] at hstart
            subst hstart
            rw [htakes'.unique htakes, hfinal, Option.some.injEq] at hmac'
            exact hroom (hmac' ▸ hle)
      · refine Or.inr ⟨?_, wolfcluFatalError, fails_fatal, ?_⟩
        · intro mac h
          obtain ⟨start', s', hstart, htakes, _⟩ := h.start
          rw [hinit, Option.some.injEq] at hstart
          subst hstart
          exact hnone s' htakes
        · simp only [hrun, Option.bind_some, if_neg hfatal]

def Delivers (delivers : List Byte → Prop) (value area : List Byte) (capacity : Nat)
    (result : Option (Int × DigestOut)) : Prop :=
  ∃ ret out, result = some (ret, out) ∧ (ret = wolfcluSuccess ↔ ∃ d, delivers d) ∧
    (ret = wolfcluSuccess → delivers value ∧
      out = { area := some (blit area 0 value), size := some value.length }) ∧
    (ret ≠ wolfcluSuccess → out = { area := some area, size := some capacity })

theorem delivers_of_cases {delivers : List Byte → Prop} {value area : List Byte} {capacity : Nat}
    {result : Option (Int × DigestOut)}
    (h : (delivers value ∧ result = some (wolfcluSuccess,
          { area := some (blit area 0 value), size := some value.length })) ∨
      ((∀ d, ¬ delivers d) ∧ ∃ ret, Fails ret ∧
        result = some (ret, { area := some area, size := some capacity }))) :
    Delivers delivers value area capacity result := by
  rcases h with ⟨hd, hrun⟩ | ⟨hnone, ret, hret, hrun⟩
  · refine ⟨_, _, hrun, iff_of_true rfl ⟨value, hd⟩, fun _ => ⟨hd, rfl⟩, ?_⟩
    intro h
    exact absurd rfl h
  · refine ⟨_, _, hrun, iff_of_false hret ?_, fun h => absurd h hret, fun _ => rfl⟩
    rintro ⟨d, hd⟩
    exact hnone d hd

theorem streamed_digests_exact {τ : Type} (L : HashLib κ σ)
    (absorbed : κ → σ → List Byte → Prop) (hash : κ → List Byte → List Byte)
    (hL : L.Computes absorbed hash) (M : HmacLib τ)
    (macAbsorbed : HashType → List Byte → τ → List Byte → Prop)
    (hmac : HashType → List Byte → List Byte → List Byte) (hM : M.Computes macAbsorbed hmac)
    (reads : List BioRead) (area : List Byte) (capacity : Nat) (hfits : capacity ≤ area.length) :
    (∀ hashType, Delivers (HashDelivers L reads hashType capacity)
        (hash hashType (wholeInput reads)) area capacity
        (streamHashBio L (some reads) hashType { area := some area, size := some capacity })) ∧
      ∀ noMd5 key len alg, len ≤ key.length →
        Delivers (HmacDelivers M noMd5 (key.take len) alg reads capacity)
          (hmac alg (key.take len) (wholeInput reads)) area capacity
          (hmacHash M noMd5 (some key) len alg (some reads)
            { area := some area, size := some capacity }) := by
  constructor
  · intro hashType
    exact delivers_of_cases (streamHashBio_spec hL reads hashType hfits)
  · intro noMd5 key len alg hkey
    exact delivers_of_cases (hmacHash_spec hM noMd5 hkey alg reads hfits)

end Stream

def gathering (hash : List Byte → List Byte) : Digester (List Byte) where
  update data chunk := some (data ++ chunk)
  final data := some (hash data)

theorem gathering_computes (hash : List Byte → List Byte) :
    (gathering hash).Computes (fun s data => s = data) hash where
  update := by
    rintro s s' data chunk rfl h
    exact (Option.some.inj h).symm
  final := by
    rintro s data d rfl h
    exact (Option.some.inj h).symm

def greeting : List Byte := [72, 105, 32, 84, 104, 101, 114, 101]

def greetingMd5 (data : List Byte) : List Byte :=
  if data = greeting then
    [91, 73, 181, 21, 243, 23, 62, 69, 64, 183, 211, 155, 181, 122, 68, 130]
  else List.replicate 16 0

def greetingHmac (key data : List Byte) : List Byte :=
  if key = List.replicate 16 11 ∧ data = greeting then
    [146, 148, 114, 122, 54, 56, 187, 28, 19, 244, 142, 248, 21, 139, 252, 157]
  else List.replicate 16 0

def greetingHashLib : HashLib HashType (List Byte) where
  digestSize _ := 16
  init _ := some []
  digester _ := gathering greetingMd5

def greetingHmacLib : HmacLib (List Byte × List Byte) where
  init _ key := some (key, [])
  digester :=
    { update := fun s chunk => some (s.1, s.2 ++ chunk)
      final := fun s => some (greetingHmac s.1 s.2) }

theorem greetingHashLib_computes :
    greetingHashLib.Computes (fun _ s data => s = data) (fun _ => greetingMd5) where
  init h := (Option.some.inj h).symm
  digest _ := gathering_computes greetingMd5
  size _ data _ := by
    unfold greetingMd5
    split <;> rfl

theorem greetingHmacLib_computes :
    greetingHmacLib.Computes (fun _ key s data => s = (key, data)) (fun _ => greetingHmac) where
  init h := (Option.some.inj h).symm
  digest _ key :=
    { update := by
        rintro s s' data chunk rfl h
        exact (Option.some.inj h).symm
      final := by
        rintro s data d rfl h
        exact (Option.some.inj h).symm }
  size _ key data := by
    unfold greetingHmac
    split <;> decide

def greetingReads : List BioRead :=
  [.data ⟨[72, 105], by decide, by decide⟩, .data ⟨[32, 84, 104, 101, 114, 101], by decide, by decide⟩]

theorem streamed_digests_exact_greeting :
    wholeInput greetingReads = greeting ∧
      streamHashBio greetingHashLib (some greetingReads) .md5
          { area := some (List.replicate 64 0), size := some 64 } =
        some (wolfcluSuccess,
          { area := some (greetingMd5 greeting ++ List.replicate 48 0), size := some 16 }) ∧
      hmacHash greetingHmacLib false (some (List.replicate 16 11)) 16 .md5 (some greetingReads)
          { area := some (List.replicate 64 0), size := some 64 } =
        some (wolfcluSuccess,
          { area := some (greetingHmac (List.replicate 16 11) greeting ++ List.replicate 48 0),
            size := some 16 }) := by
  have h := streamed_digests_exact greetingHashLib _ _ greetingHashLib_computes greetingHmacLib _ _
    greetingHmacLib_computes greetingReads (List.replicate 64 0) 64 (by decide)
  obtain ⟨ret, out, hrun, hiff, hok, _⟩ := h.1 .md5
  obtain ⟨ret', out', hrun', hiff', hok', _⟩ := h.2 false (List.replicate 16 11) 16 .md5 (by decide)
  have hsucceeds : ret = wolfcluSuccess := hiff.mpr ⟨_, by decide, by decide, _, _, rfl,
    takes_cons.mpr ⟨_, rfl, takes_cons.mpr ⟨_, rfl, takes_nil _ _⟩⟩, rfl⟩
  have hsucceeds' : ret' = wolfcluSuccess := hiff'.mpr ⟨_, .md5, _, _, rfl, rfl,
    takes_cons.mpr ⟨_, rfl, takes_cons.mpr ⟨_, rfl, takes_nil _ _⟩⟩, rfl, by decide⟩
  refine ⟨rfl, ?_, ?_⟩
  · rw [hrun, (hok hsucceeds).2, hsucceeds]
    rfl
  · rw [hrun', (hok' hsucceeds').2, hsucceeds']
    rfl

end WolfCLU
