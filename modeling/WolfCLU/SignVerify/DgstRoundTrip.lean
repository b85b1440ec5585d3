import WolfCLU.SignVerify.DgstSign

namespace WolfCLU
open CString CheckedMemory Buffer

section Outcome
variable {ρ κ σ τ : Type} {env : DgstEnv τ} {lib : DgstLib ρ κ σ}
  {absorbed : HashType → σ → List Byte → Prop} {hash : HashType → List Byte → List Byte}

theorem streamDigest_spec (hL : lib.hash.Computes absorbed hash) (data : List BioRead)
    (hashType : HashType) :
    (HashDelivers lib.hash data hashType wcMaxDigestSize (hash hashType (wholeInput data)) ∧
        streamDigest env lib data hashType =
          step (.ok (blit (env.fresh lib.maxDerDigestSz) 0 (hash hashType (wholeInput data)),
            (hash hashType (wholeInput data)).length))) ∨
      ((∀ digest, ¬ HashDelivers lib.hash data hashType wcMaxDigestSize digest) ∧
        ∃ ret, Fails ret ∧ streamDigest env lib data hashType = step (.error ret)) := by
  have hfits : wcMaxDigestSize ≤ (env.fresh lib.maxDerDigestSz).length := by
    rw [env.fresh_length]
    exact lib.digest_fits
  rcases streamHashBio_spec hL data hashType hfits with ⟨hdelivers, hrun⟩ | ⟨hnone, ret, hret, hrun⟩
  · exact .inl ⟨hdelivers, by simp only [streamDigest, hrun, if_pos]⟩
  · exact .inr ⟨hnone, ret, hret, by simp only [streamDigest, hrun, if_neg hret]⟩

variable (lib) in
def wrapped (hashType : HashType) (sigType : SigType) (digest : List Byte) :
    Except Int (List Byte) :=
  match sigType with
  | .ecc => .ok digest
  | .rsaWEnc =>
    if lib.hashOid hashType < 0 ∨ lib.encodeSignature digest (lib.hashOid hashType) = [] then
      .error wolfcluFatalError
    else .ok (lib.encodeSignature digest (lib.hashOid hashType))

theorem blit_read {buffer bs : List Byte} (h : bs.length ≤ buffer.length) :
    ((blit buffer 0 bs).drop 0).take bs.length = bs ∧
      0 + bs.length ≤ (blit buffer 0 bs).length := by
  have hfits : 0 + bs.length ≤ buffer.length := by omega
  exact ⟨blit_window (Nat.zero_le _), by rw [blit_length hfits]; exact hfits⟩

theorem wrapDigest_eq {buffer digest : List Byte} (hsize : buffer.length = lib.maxDerDigestSz)
    (hdigest : digest.length ≤ wcMaxDigestSize) (hashType : HashType) (sigType : SigType) :
    wrapDigest lib hashType sigType (blit buffer 0 digest) digest.length =
      step (wrapped lib hashType sigType digest) := by
  have hbuffer : digest.length ≤ buffer.length := hsize ▸ hdigest.trans lib.digest_fits
  obtain ⟨hread, hfits⟩ := blit_read hbuffer
  cases sigType with
  | ecc => rw [wrapDigest, read_inside hfits, hread, wrapped]
  | rsaWEnc =>
    by_cases hoid : lib.hashOid hashType < 0
    · simp only [wrapDigest, wrapped, hoid, true_or, if_true]
    · simp only [wrapDigest, wrapped, hoid, false_or, if_false, read_bind_inside hfits, hread]
      by_cases henc : lib.encodeSignature digest (lib.hashOid hashType) = []
      · rw [if_pos henc, if_pos henc]
      · have hroom : (lib.encodeSignature digest (lib.hashOid hashType)).length ≤
            (blit buffer 0 digest).length := by
          rw [blit_length (by omega), hsize]
          exact lib.encoded_fits digest _ hdigest
        obtain ⟨hback, hinside⟩ := blit_read hroom
        rw [if_neg henc, if_neg henc, write_bind_inside (by omega), read_inside hinside, hback]

variable (env lib) in
def preparedFrom (request : DgstRequest) (sigText : Option (List Byte)) (digest : List Byte) :
    Except Int (Prepared κ) := do
  let sig ← signatureIn env request sigText
  let pkey ← readKey lib request.signing request.inForm request.keyText
  let (sigType, key) ← extractKey env lib pkey request.signing
  let digest ← wrapped lib request.hashType sigType digest
  .ok ⟨sigType, key, digest, sig⟩

theorem HashDelivers.fits {digest : List Byte} {data : List BioRead} {hashType : HashType}
    (hL : lib.hash.Computes absorbed hash)
    (h : HashDelivers lib.hash data hashType wcMaxDigestSize digest) :
    (hash hashType (wholeInput data)).length ≤ wcMaxDigestSize := by
  obtain ⟨hpos, hle, -⟩ := h
  have hsize := hL.size hashType (wholeInput data) hpos
  omega

theorem prepare_spec (hL : lib.hash.Computes absorbed hash) (request : DgstRequest)
    (sigText : Option (List Byte)) :
    (HashDelivers lib.hash request.data request.hashType wcMaxDigestSize
          (hash request.hashType (wholeInput request.data)) ∧
        prepare env lib request sigText = step (preparedFrom env lib request sigText
          (hash request.hashType (wholeInput request.data)))) ∨
      ((∀ digest, ¬ HashDelivers lib.hash request.data request.hashType wcMaxDigestSize digest) ∧
        ∃ ret, Fails ret ∧ prepare env lib request sigText = step (.error ret)) := by
  rcases @streamDigest_spec _ _ _ _ env lib _ _ hL request.data request.hashType with
    ⟨hdelivers, hrun⟩ | ⟨hnone, ret, hret, hrun⟩
  · refine .inl ⟨hdelivers, ?_⟩
    rw [prepare, hrun, step_ok_bind, preparedFrom]
    dsimp only
    refine step_bind_congr fun sig _ => step_bind_congr fun pkey _ => step_bind_congr ?_
    rintro ⟨sigType, key⟩ -
    simp only [wrapDigest_eq (env.fresh_length _) (hdelivers.fits hL)]
    exact step_bind_congr fun signed _ => rfl
  · refine .inr ⟨hnone, ret, hret, ?_⟩
    rw [prepare, hrun, step_error_bind]

theorem readSig_errors (sigText : Option (List Byte)) : Errors Fails (readSig env sigText) := by
  cases sigText with
  | none => exact errors_error fails_fatal
  | some contents =>
    simp only [readSig]
    split_ifs
    · exact errors_error fails_fatal
    · exact errors_error (fails_of_neg (by decide))
    · exact errors_error fails_fatal
    · exact errors_ok _

theorem readKey_errors (signing : Bool) (inForm : Form) (keyText : List Byte) :
    Errors Fails (readKey lib signing inForm keyText) := by
  simp only [readKey]
  split
  · exact errors_error fails_fatal
  · exact errors_ok _

theorem extractAs_errors (sigType : SigType) (signing : Bool) (der : Except Int (List Byte)) :
    Errors Fails (extractAs lib sigType signing der) := by
  rcases der with e | der
  · exact errors_error fails_fatal
  · simp only [extractAs]
    split_ifs
    · exact errors_error fails_fatal
    · split
      · exact errors_error fails_fatal
      · exact errors_ok _

theorem extractKey_errors (pkey : ρ) (signing : Bool) :
    Errors Fails (extractKey env lib pkey signing) := by
  simp only [extractKey]
  split
  · exact extractAs_errors _ _ _
  · exact extractAs_errors _ _ _
  · exact errors_error fails_fatal
  · exact errors_error fails_fatal

theorem wrapped_errors (hashType : HashType) (sigType : SigType) (digest : List Byte) :
    Errors Fails (wrapped lib hashType sigType digest) := by
  cases sigType with
  | ecc => exact errors_ok _
  | rsaWEnc =>
    simp only [wrapped]
    split_ifs
    · exact errors_error fails_fatal
    · exact errors_ok _

theorem preparedFrom_errors (request : DgstRequest) (sigText : Option (List Byte))
    (digest : List Byte) : Errors Fails (preparedFrom env lib request sigText digest) := by
  refine Errors.bind ?_ fun sig => (readKey_errors _ _ _).bind fun pkey =>
    (extractKey_errors pkey _).bind fun extracted =>
      (wrapped_errors _ extracted.1 digest).bind fun signed => errors_ok _
  unfold signatureIn
  split_ifs
  · exact errors_ok _
  · exact readSig_errors sigText

variable (env lib) in
def LoadsKey (signing : Bool) (inForm : Form) (keyText : List Byte) (sigType : SigType) (key : κ) :
    Prop :=
  ∃ pkey, readKey lib signing inForm keyText = .ok pkey ∧
    extractKey env lib pkey signing = .ok (sigType, key)

theorem preparedFrom_iff {request : DgstRequest} {sigText : Option (List Byte)}
    {digest : List Byte} {p : Prepared κ} :
    preparedFrom env lib request sigText digest = .ok p ↔
      signatureIn env request sigText = .ok p.sig ∧
        LoadsKey env lib request.signing request.inForm request.keyText p.sigType p.key ∧
        wrapped lib request.hashType p.sigType digest = .ok p.digest := by
  simp only [preparedFrom, bind_eq_ok, LoadsKey]
  constructor
  · rintro ⟨sig, hsig, pkey, hpkey, ⟨sigType, key⟩, hkey, signed, hsigned, hp⟩
    cases hp
    exact ⟨hsig, ⟨pkey, hpkey, hkey⟩, hsigned⟩
  · rintro ⟨hsig, ⟨pkey, hpkey, hkey⟩, hsigned⟩
    exact ⟨p.sig, hsig, pkey, hpkey, (p.sigType, p.key), hkey, p.digest, hsigned, rfl⟩

variable (env lib) in
def SignatureVerifies (request : DgstRequest) (sigText : Option (List Byte)) (digest : List Byte) :
    Prop :=
  ∃ sig sigType key signed, readSig env sigText = .ok sig ∧
    LoadsKey env lib false request.inForm request.keyText sigType key ∧
    wrapped lib request.hashType sigType digest = .ok signed ∧
    lib.verifyHash request.hashType sigType signed sig key = 0

variable (env lib) in
def SignatureMade (request : DgstRequest) (digest sig : List Byte) : Prop :=
  ∃ sigType key signed, LoadsKey env lib true request.inForm request.keyText sigType key ∧
    wrapped lib request.hashType sigType digest = .ok signed ∧ env.initRng = true ∧
    0 < lib.signatureSize sigType key ∧
    env.alloc (lib.signatureSize sigType key).toNat = true ∧
    lib.generateHash request.hashType sigType signed (lib.signatureSize sigType key).toNat key =
      .ok sig

theorem LoadsKey.unique {signing : Bool} {inForm : Form} {keyText : List Byte}
    {sigType sigType' : SigType} {key key' : κ}
    (h : LoadsKey env lib signing inForm keyText sigType key)
    (h' : LoadsKey env lib signing inForm keyText sigType' key') :
    sigType = sigType' ∧ key = key' := by
  obtain ⟨pkey, hpkey, hkey⟩ := h
  obtain ⟨pkey', hpkey', hkey'⟩ := h'
  rw [hpkey] at hpkey'
  cases hpkey'
  rw [hkey] at hkey'
  cases hkey'
  exact ⟨rfl, rfl⟩

section Prepared
variable {request : DgstRequest} {sigText : Option (List Byte)} {digest : List Byte}
  {p : Prepared κ}

theorem signatureMade_iff (hsigning : request.signing = true)
    (hp : preparedFrom env lib request sigText digest = .ok p) {sig : List Byte} :
    SignatureMade env lib request digest sig ↔
      env.initRng = true ∧ 0 < lib.signatureSize p.sigType p.key ∧
        env.alloc (lib.signatureSize p.sigType p.key).toNat = true ∧
        lib.generateHash request.hashType p.sigType p.digest
          (lib.signatureSize p.sigType p.key).toNat p.key = .ok sig := by
  obtain ⟨-, hloads, hwrapped⟩ := preparedFrom_iff.mp hp
  rw [hsigning] at hloads
  constructor
  · rintro ⟨sigType, key, signed, hkey, hsigned, hmade⟩
    obtain ⟨rfl, rfl⟩ := hloads.unique hkey
    rw [hwrapped] at hsigned
    cases hsigned
    exact hmade
  · intro hmade
    exact ⟨p.sigType, p.key, p.digest, hloads, hwrapped, hmade⟩

theorem signatureVerifies_iff (hsigning : request.signing = false)
    (hp : preparedFrom env lib request sigText digest = .ok p) :
    SignatureVerifies env lib request sigText digest ↔
      lib.verifyHash request.hashType p.sigType p.digest p.sig p.key = 0 := by
  obtain ⟨hsig, hloads, hwrapped⟩ := preparedFrom_iff.mp hp
  simp only [signatureIn, hsigning, Bool.false_eq_true, if_false] at hsig
  rw [hsigning] at hloads
  constructor
  · rintro ⟨sig, sigType, key, signed, hread, hkey, hsigned, hverify⟩
    obtain ⟨rfl, rfl⟩ := hloads.unique hkey
    rw [hwrapped] at hsigned
    cases hsigned
    rw [hsig] at hread
    cases hread
    exact hverify
  · intro hverify
    exact ⟨p.sig, p.sigType, p.key, p.digest, hsig, hloads, hwrapped, hverify⟩

theorem not_signatureMade {e : Int} (hsigning : request.signing = true)
    (hp : preparedFrom env lib request sigText digest = .error e) (sig : List Byte) :
    ¬ SignatureMade env lib request digest sig := by
  rintro ⟨sigType, key, signed, hkey, hsigned, -⟩
  have hok : preparedFrom env lib request sigText digest = .ok ⟨sigType, key, signed, []⟩ :=
    preparedFrom_iff.mpr ⟨by simp only [signatureIn, hsigning, if_true], hsigning ▸ hkey, hsigned⟩
  rw [hp] at hok
  cases hok

theorem not_signatureVerifies {e : Int} (hsigning : request.signing = false)
    (hp : preparedFrom env lib request sigText digest = .error e) :
    ¬ SignatureVerifies env lib request sigText digest := by
  rintro ⟨sig, sigType, key, signed, hread, hkey, hsigned, -⟩
  have hok : preparedFrom env lib request sigText digest = .ok ⟨sigType, key, signed, sig⟩ :=
    preparedFrom_iff.mpr ⟨by simpa only [signatureIn, hsigning, Bool.false_eq_true, if_false],
      hsigning ▸ hkey, hsigned⟩
  rw [hp] at hok
  cases hok

end Prepared

inductive Created (env : DgstEnv τ) (lib : DgstLib ρ κ σ) (request : DgstRequest)
    (digest : List Byte) (disk : Disk) : DgstRun → Prop
  | refused {ret : Int} :
      Fails ret → (∀ sig, SignatureMade env lib request digest sig →
        env.openFile request.outFile = false) →
      Created env lib request digest disk (dgstFailed ret disk)
  | written {sig : List Byte} :
      SignatureMade env lib request digest sig → env.openFile request.outFile = true →
      Created env lib request digest disk
        ⟨if env.bioWrite sig ≤ 0 then wolfcluFatalError else wolfcluSuccess, [],
          Function.update disk request.outFile (some (sig.take (env.bioWrite sig).toNat))⟩

theorem createSignature_created {request : DgstRequest} {sigText : Option (List Byte)}
    {digest : List Byte} {p : Prepared κ} (hsigning : request.signing = true)
    (hp : preparedFrom env lib request sigText digest = .ok p) (disk : Disk) :
    Created env lib request digest disk (createSignature env lib request p disk) := by
  have hmade := fun sig => @signatureMade_iff _ _ _ _ env lib _ _ _ _ hsigning hp sig
  by_cases hrng : env.initRng = false
  · rw [createSignature, if_pos hrng]
    refine .refused fails_fatal fun sig h => ?_
    rw [((hmade sig).mp h).1] at hrng
    cases hrng
  rw [createSignature, if_neg hrng]
  by_cases hsize : lib.signatureSize p.sigType p.key ≤ 0
  · simp only [if_pos hsize]
    refine .refused fails_fatal fun sig h => ?_
    exact absurd ((hmade sig).mp h).2.1 (not_lt.mpr hsize)
  simp only [if_neg hsize]
  by_cases halloc : env.alloc (lib.signatureSize p.sigType p.key).toNat = false
  · rw [if_pos halloc]
    refine .refused (fails_of_neg (by decide)) fun sig h => ?_
    rw [((hmade sig).mp h).2.2.1] at halloc
    cases halloc
  rw [if_neg halloc]
  rcases hsig : lib.generateHash request.hashType p.sigType p.digest
      (lib.signatureSize p.sigType p.key).toNat p.key with e | sig
  · refine .refused fails_fatal fun sig h => ?_
    rw [((hmade sig).mp h).2.2.2] at hsig
    cases hsig
  · by_cases hopen : env.openFile request.outFile = false
    · simp only [if_pos hopen]
      exact .refused fails_fatal fun _ _ => hopen
    · simp only [if_neg hopen]
      exact .written ((hmade sig).mpr ⟨Bool.eq_true_of_not_eq_false hrng, not_le.mp hsize,
        Bool.eq_true_of_not_eq_false halloc, hsig⟩) (Bool.eq_true_of_not_eq_false hopen)

def Delivered (lib : DgstLib ρ κ σ) (hash : HashType → List Byte → List Byte)
    (request : DgstRequest) : Prop :=
  HashDelivers lib.hash request.data request.hashType wcMaxDigestSize
    (hash request.hashType (wholeInput request.data))

theorem dgstSignVerify_undelivered (hL : lib.hash.Computes absorbed hash) {request : DgstRequest}
    (h : ¬ Delivered lib hash request) (disk : Disk) :
    ∃ ret, Fails ret ∧ dgstSignVerify env lib request disk = some (dgstFailed ret disk) := by
  rcases @prepare_spec _ _ _ _ env lib _ _ hL request (disk request.sigFile) with
    ⟨hdelivers, -⟩ | ⟨-, ret, hret, hrun⟩
  · exact absurd hdelivers h
  · exact ⟨ret, hret, by simp only [dgstSignVerify, hrun]; rfl⟩

theorem dgstSignVerify_verifies (hL : lib.hash.Computes absorbed hash) {request : DgstRequest}
    (hsigning : request.signing = false) (hdelivered : Delivered lib hash request) (disk : Disk) :
    ∃ ret, dgstSignVerify env lib request disk = some ⟨ret, [], disk⟩ ∧
      (ret = wolfcluSuccess ↔ SignatureVerifies env lib request (disk request.sigFile)
        (hash request.hashType (wholeInput request.data))) := by
  rcases @prepare_spec _ _ _ _ env lib _ _ hL request (disk request.sigFile) with
    ⟨-, hrun⟩ | ⟨hnone, -⟩
  swap
  · exact absurd hdelivered (hnone _)
  rcases hp : preparedFrom env lib request (disk request.sigFile)
      (hash request.hashType (wholeInput request.data)) with e | p
  · refine ⟨e, by simp only [dgstSignVerify, hrun, hp]; rfl, ?_⟩
    exact iff_of_false (preparedFrom_errors _ _ _ _ hp) (not_signatureVerifies hsigning hp)
  · rw [signatureVerifies_iff hsigning hp]
    by_cases hverify : lib.verifyHash request.hashType p.sigType p.digest p.sig p.key = 0
    · refine ⟨wolfcluSuccess, ?_, iff_of_true rfl hverify⟩
      simp only [dgstSignVerify, hrun, hp, hsigning, step, ExceptT.run, ExceptT.mk, if_pos hverify,
        Bool.false_eq_true, if_false]
    · refine ⟨wolfcluFatalError, ?_, iff_of_false fails_fatal hverify⟩
      simp only [dgstSignVerify, hrun, hp, hsigning, step, ExceptT.run, ExceptT.mk, if_neg hverify,
        Bool.false_eq_true, if_false, dgstFailed]

theorem dgstSignVerify_creates (hL : lib.hash.Computes absorbed hash) {request : DgstRequest}
    (hsigning : request.signing = true) (hdelivered : Delivered lib hash request) (disk : Disk) :
    ∃ run, dgstSignVerify env lib request disk = some run ∧
      Created env lib request (hash request.hashType (wholeInput request.data)) disk run := by
  rcases @prepare_spec _ _ _ _ env lib _ _ hL request (disk request.sigFile) with
    ⟨-, hrun⟩ | ⟨hnone, -⟩
  swap
  · exact absurd hdelivered (hnone _)
  rcases hp : preparedFrom env lib request (disk request.sigFile)
      (hash request.hashType (wholeInput request.data)) with e | p
  · refine ⟨dgstFailed e disk, by simp only [dgstSignVerify, hrun, hp]; rfl, ?_⟩
    exact .refused (preparedFrom_errors _ _ _ _ hp) fun sig h =>
      absurd h (not_signatureMade hsigning hp sig)
  · refine ⟨createSignature env lib request p disk, ?_, createSignature_created hsigning hp disk⟩
    simp only [dgstSignVerify, hrun, hp, hsigning, step, ExceptT.run, ExceptT.mk, if_true]

variable {macAbsorbed : HashType → List Byte → τ → List Byte → Prop}
  {hmac : HashType → List Byte → List Byte → List Byte}

theorem macKeyBytes_cases (laws : DgstHmacLaws env.toDgstHmacEnv macAbsorbed hmac)
    (hmacKey : List Byte) :
    (∃ V, KeyDenotes hmacKey V ∧ macKeyBytes env.toDgstHmacEnv hmacKey = .ok V) ∨
      ∃ ret, Fails ret ∧ macKeyBytes env.toDgstHmacEnv hmacKey = .error ret := by
  by_cases hdenotes : ∃ V, KeyDenotes hmacKey V
  · obtain ⟨V, hV⟩ := hdenotes
    cases hV with
    | text hne => exact .inl ⟨V, .text hne, macKeyBytes_key hne⟩
    | @hex hex V hne hspells =>
      by_cases halloc : env.alloc V.length = true
      · exact .inl ⟨V, .hex hne hspells, macKeyBytes_spelled laws hne hspells halloc⟩
      · have hlen := hexPairs_length (hexPairs_iff.mpr hspells)
        have hhex : hex ≠ [] := by
          rintro rfl
          cases hspells
          exact hne rfl
        refine .inr ⟨memoryE, fails_memory, ?_⟩
        rw [macKeyBytes_hexkey hhex, hexToBytes, show hex.length / 2 = V.length by omega,
          if_neg halloc]
  · exact .inr (macKeyBytes_malformed laws fun V hV => hdenotes ⟨V, hV⟩)

variable (hmac) in
def MacPrinted (env : DgstEnv τ) (data : List BioRead) (V : List Byte) (hashType : HashType)
    (outFile : Option (List Byte)) (disk : Disk) (run : DgstRun) : Prop :=
  match outFile with
  | none =>
    run.stdout = (hmac hashType V (wholeInput data)).flatMap Hex.lowerByte ++ [10] ∧ run.disk = disk
  | some name =>
    run.stdout = [] ∧ 0 < env.bioWrite (hmac hashType V (wholeInput data)) ∧
      run.disk = Function.update disk name (some ((hmac hashType V (wholeInput data)).take
        (env.bioWrite (hmac hashType V (wholeInput data))).toNat))

theorem hmacRun_disk (disk : Disk) (run : DgstHmacRun) (outFile : Option (List Byte))
    {name : List Byte} (h : (hmacRun disk run outFile).disk name ≠ disk name) :
    outFile = some name := by
  rcases outFile with _ | out
  · exact absurd rfl h
  · rcases hfile : run.file with _ | contents
    · simp only [hmacRun, hfile, ne_eq, not_true_eq_false] at h
    · by_cases hname : name = out
      · rw [hname]
      · simp only [hmacRun, hfile, Function.update_of_ne hname, ne_eq, not_true_eq_false] at h

theorem outputMac_printed {data : List BioRead} {V : List Byte} {hashType : HashType}
    {outFile : Option (List Byte)} {disk : Disk}
    (h : (outputMac env.toDgstHmacEnv outFile (hmac hashType V (wholeInput data))).ret =
      wolfcluSuccess) :
    MacPrinted hmac env data V hashType outFile disk
      (hmacRun disk (outputMac env.toDgstHmacEnv outFile (hmac hashType V (wholeInput data)))
        outFile) := by
  rcases outFile with _ | name
  · by_cases hopen : env.openStdout = true
    · simp only [outputMac, if_pos hopen]
      exact ⟨rfl, rfl⟩
    · simp only [outputMac, if_neg hopen] at h
      exact absurd h fails_fatal
  · by_cases hopen : env.openFile name = true
    · by_cases hwrite : env.bioWrite (hmac hashType V (wholeInput data)) ≤ 0
      · simp only [outputMac, if_pos hopen, if_pos hwrite] at h
        exact absurd h fails_fatal
      · simp only [outputMac, if_pos hopen]
        exact ⟨rfl, not_le.mp hwrite, rfl⟩
    · simp only [outputMac, if_neg hopen] at h
      exact absurd h fails_fatal

theorem dgstHmac_printed (laws : DgstHmacLaws env.toDgstHmacEnv macAbsorbed hmac)
    (data : List BioRead) (hmacKey : Option (List Byte)) (hashType : HashType)
    (outFile : Option (List Byte)) (disk : Disk) :
    ∃ run, dgstHmac env.toDgstHmacEnv data hmacKey hashType outFile = some run ∧
      (run.ret = wolfcluSuccess → ∃ text V, hmacKey = some text ∧ KeyDenotes text V ∧
        MacPrinted hmac env data V hashType outFile disk (hmacRun disk run outFile)) := by
  rcases hmacKey with _ | text
  · exact ⟨hmacFailed wolfcluFatalError, rfl, fun h => absurd h fails_fatal⟩
  · rcases macKeyBytes_cases laws text with ⟨V, hdenotes, hkey⟩ | ⟨ret, hret, hkey⟩
    · rcases dgstHmac_keyed laws hkey data hashType outFile with
        ⟨-, -, hrun⟩ | ⟨-, ret, hret, hrun⟩
      · exact ⟨_, hrun, fun h => ⟨text, V, rfl, hdenotes, outputMac_printed h⟩⟩
      · exact ⟨_, hrun, fun h => absurd h hret⟩
    · exact ⟨hmacFailed ret, by simp only [dgstHmac, hkey], fun h => absurd h hret⟩

variable (env lib hash hmac) in
def CallOutcome (disk : Disk) (run : DgstRun) : DgstCall → Prop
  | .hmac data hmacKey hashType outFile =>
    (∀ name, run.disk name ≠ disk name → outFile = some name) ∧
      (run.ret = wolfcluSuccess → ∃ text V, hmacKey = some text ∧ KeyDenotes text V ∧
        MacPrinted hmac env data V hashType outFile disk run)
  | .signVerify request =>
    if request.signing then
      (Delivered lib hash request → Created env lib request
        (hash request.hashType (wholeInput request.data)) disk run) ∧
      (¬ Delivered lib hash request → Fails run.ret ∧ run.disk = disk)
    else
      run.disk = disk ∧ (run.ret = wolfcluSuccess ↔ Delivered lib hash request ∧
        SignatureVerifies env lib request (disk request.sigFile)
          (hash request.hashType (wholeInput request.data)))

theorem dgstSignVerify_outcome (hL : lib.hash.Computes absorbed hash) (request : DgstRequest)
    (disk : Disk) :
    ∃ run, dgstSignVerify env lib request disk = some run ∧
      CallOutcome env lib hash hmac disk run (.signVerify request) := by
  by_cases hdelivered : Delivered lib hash request
  · by_cases hsigning : request.signing = true
    · obtain ⟨run, hrun, hcreated⟩ := @dgstSignVerify_creates _ _ _ _ env lib _ _ hL _ hsigning
        hdelivered disk
      refine ⟨run, hrun, ?_⟩
      simp only [CallOutcome, if_pos hsigning]
      exact ⟨fun _ => hcreated, fun h => absurd hdelivered h⟩
    · obtain ⟨ret, hrun, hiff⟩ := @dgstSignVerify_verifies _ _ _ _ env lib _ _ hL _
        (Bool.eq_false_of_not_eq_true hsigning) hdelivered disk
      refine ⟨_, hrun, ?_⟩
      simp only [CallOutcome, if_neg hsigning, hdelivered, true_and]
      exact hiff
  · obtain ⟨ret, hret, hrun⟩ := @dgstSignVerify_undelivered _ _ _ _ env lib _ _ hL _ hdelivered disk
    refine ⟨_, hrun, ?_⟩
    simp only [CallOutcome, hdelivered, false_implies, true_and, false_and, iff_false,
      not_false_eq_true, forall_const]
    split_ifs
    · exact ⟨hret, rfl⟩
    · exact ⟨rfl, hret⟩

theorem dgstSetup_outcome (hL : lib.hash.Computes absorbed hash)
    (laws : DgstHmacLaws env.toDgstHmacEnv macAbsorbed hmac) (argv : Args) (disk : Disk) :
    ∃ run, dgstSetup env disk lib argv = some run ∧
      (∀ ret, dgstCall env disk argv = .error ret → run = dgstFailed ret disk) ∧
      ∀ call, dgstCall env disk argv = .ok call → CallOutcome env lib hash hmac disk run call := by
  rcases hcall : dgstCall env disk argv with ret | ⟨data, hmacKey, hashType, outFile⟩ | request
  · refine ⟨dgstFailed ret disk, by simp only [dgstSetup, hcall], ?_, nofun⟩
    rintro ret' heq
    cases heq
    rfl
  · obtain ⟨run, hrun, hprinted⟩ := dgstHmac_printed laws data hmacKey hashType outFile disk
    refine ⟨hmacRun disk run outFile, by simp only [dgstSetup, hcall, hrun, Option.map_some],
      nofun, ?_⟩
    rintro call heq
    cases heq
    exact ⟨fun name => hmacRun_disk disk run outFile, hprinted⟩
  · obtain ⟨run, hrun, houtcome⟩ := @dgstSignVerify_outcome _ _ _ _ env lib _ _ hmac hL request disk
    refine ⟨run, by simp only [dgstSetup, hcall, hrun], nofun, ?_⟩
    rintro call heq
    cases heq
    exact houtcome

end Outcome

theorem one_le_chunk : ([0] : List Byte).length ≤ maxIoChunkSz := by decide

def byteChunk (b : Byte) : IoChunk := ⟨[b], List.cons_ne_nil b [], one_le_chunk⟩

def byteRead (b : Byte) : BioRead := .data (byteChunk b)

def greetingDgstEnv : DgstEnv (List Byte × List Byte) where
  toDgstHmacEnv := greetingHmacEnv
  stdin := some greetingReads
  deliver contents := contents.map byteRead
  fresh n := List.replicate n 0
  bioLen contents := contents.length
  bioRead _ n := n
  initRng := true
  fresh_length _ := List.length_replicate

def sampleDerDigestSz : Nat := 83

theorem sampleDigest_fits : wcMaxDigestSize ≤ sampleDerDigestSz := by decide

def sampleDgstLib : DgstLib (List Byte) (List Byte) (List Byte) where
  hash := greetingHashLib
  maxDerDigestSz := sampleDerDigestSz
  readPub _ text := some text
  readPriv _ text := some text
  pkeyId _ := .rsa
  rsaPublicDer key := .ok key
  rsaPrivateDer key := .ok key
  ecKey key := some key
  eccDerSize _ key := key.length
  eccToDer _ key _ := .ok key
  keyInit _ := true
  keyDecode _ _ der := some der
  hashOid _ := 649
  encodeSignature digest _ := ([48, 32] ++ digest).take sampleDerDigestSz
  signatureSize _ _ := 64
  generateHash _ _ digest _ key := .ok (key ++ digest)
  verifyHash _ _ digest sig key := if sig = key ++ digest then 0 else -1
  digest_fits := sampleDigest_fits
  encoded_fits _ _ _ := List.length_take_le _ _

def sampleDisk : Disk
  | [107] => some (str "RSA")
  | [100] => some greeting
  | _ => none

def signArgs : Args :=
  [str "wolfssl", str "dgst", str "-md5", str "-sign", str "k", str "-out", str "s"]

theorem dgstSetup_outcome_sign :
    ∃ run, dgstSetup greetingDgstEnv sampleDisk sampleDgstLib signArgs = some run ∧
      (∀ ret, dgstCall greetingDgstEnv sampleDisk signArgs = .error ret →
        run = dgstFailed ret sampleDisk) ∧
      ∀ call, dgstCall greetingDgstEnv sampleDisk signArgs = .ok call →
        CallOutcome greetingDgstEnv sampleDgstLib (fun _ => greetingMd5) (fun _ => greetingHmac)
          sampleDisk run call :=
  dgstSetup_outcome greetingHashLib_computes greetingHmacEnv_laws signArgs sampleDisk

section RoundTrip
variable {ρ κ σ τ : Type} {env env' : DgstEnv τ} {lib : DgstLib ρ κ σ}
  {absorbed : HashType → σ → List Byte → Prop} {hash : HashType → List Byte → List Byte}
  {Matches : κ → κ → Prop} {request request' : DgstRequest} {disk : Disk} {run : DgstRun}

def ReadsBack (env : DgstEnv τ) (contents : List Byte) : Prop :=
  env.bioLen contents = contents.length ∧ env.alloc contents.length = true ∧
    env.bioRead contents contents.length = contents.length

theorem readSig_whole {contents : List Byte} (hne : contents ≠ [])
    (h : ReadsBack env contents) : readSig env (some contents) = .ok contents := by
  obtain ⟨hlen, halloc, hread⟩ := h
  have hpos := List.length_pos_iff.mpr hne
  have hrest : (env.fresh contents.length).drop contents.length = [] :=
    List.drop_eq_nil_of_le (env.fresh_length _).le
  simp only [readSig, hlen, Int.toNat_natCast, halloc, Bool.true_eq_false, if_false, hread,
    List.take_length, hrest, List.append_nil]
  rw [if_neg (by omega), if_neg (by omega)]

theorem Created.written_of_success {digest : List Byte}
    (h : Created env lib request digest disk run) (hret : run.ret = wolfcluSuccess) :
    ∃ sig, SignatureMade env lib request digest sig ∧ 0 < env.bioWrite sig ∧
      run.disk = Function.update disk request.outFile
        (some (sig.take (env.bioWrite sig).toNat)) := by
  cases h with
  | refused hfails => exact absurd hret hfails
  | @written sig hmade hopen =>
    by_cases hwrite : env.bioWrite sig ≤ 0
    · simp only [if_pos hwrite] at hret
      exact absurd hret fails_fatal
    · exact ⟨sig, hmade, not_le.mp hwrite, rfl⟩

theorem dgstSignVerify_signed (hL : lib.hash.Computes absorbed hash)
    (hsigning : request.signing = true)
    (hrun : dgstSignVerify env lib request disk = some run) (hret : run.ret = wolfcluSuccess) :
    Created env lib request (hash request.hashType (wholeInput request.data)) disk run := by
  by_cases hdelivered : Delivered lib hash request
  · obtain ⟨run', hrun', hcreated⟩ := dgstSignVerify_creates hL hsigning hdelivered disk
    rw [hrun] at hrun'
    cases hrun'
    exact hcreated
  · obtain ⟨ret, hfails, hrun'⟩ :=
      @dgstSignVerify_undelivered _ _ _ _ env _ _ _ hL _ hdelivered disk
    rw [hrun] at hrun'
    cases hrun'
    exact absurd hret hfails

theorem dgst_sign_verify (hL : lib.hash.Computes absorbed hash)
    (hcomplete : ∀ hashType sigType digest n priv pub sig, Matches priv pub →
      lib.generateHash hashType sigType digest n priv = .ok sig →
      lib.verifyHash hashType sigType digest sig pub = 0)
    {argv argv' : Args} (hsign : dgstCall env disk argv = .ok (.signVerify request))
    (hsigning : request.signing = true) (hrun : dgstSetup env disk lib argv = some run)
    (hret : run.ret = wolfcluSuccess) (hstored : ∀ sig, env.bioWrite sig = sig.length)
    (hverify : dgstCall env' run.disk argv' = .ok (.signVerify request'))
    (hverifying : request'.signing = false) (hfile : request'.sigFile = request.outFile)
    (hhash : request'.hashType = request.hashType)
    (hdata : wholeInput request'.data = wholeInput request.data)
    (hdelivered : Delivered lib hash request')
    (hkeys : ∀ sigType priv, LoadsKey env lib true request.inForm request.keyText sigType priv →
      ∃ pub, LoadsKey env' lib false request'.inForm request'.keyText sigType pub ∧
        Matches priv pub)
    (hback : ∀ contents, run.disk request'.sigFile = some contents → ReadsBack env' contents) :
    dgstSetup env' run.disk lib argv' = some ⟨wolfcluSuccess, [], run.disk⟩ := by
  simp only [dgstSetup, hsign] at hrun
  simp only [dgstSetup, hverify]
  obtain ⟨sig, ⟨sigType, priv, signed, hpriv, hsigned, -, -, -, hgenerate⟩, hwrite, hdisk⟩ :=
    (dgstSignVerify_signed hL hsigning hrun hret).written_of_success hret
  obtain ⟨pub, hpub, hmatches⟩ := hkeys sigType priv hpriv
  rw [hstored] at hwrite
  have hne : sig ≠ [] := List.length_pos_iff.mp (by omega)
  have hsig : run.disk request'.sigFile = some sig := by
    rw [hfile, hdisk, Function.update_self, hstored, Int.toNat_natCast, List.take_length]
  obtain ⟨ret, hrun', hiff⟩ := @dgstSignVerify_verifies _ _ _ _ env' _ _ _ hL _ hverifying
    hdelivered run.disk
  have hverifies : SignatureVerifies env' lib request' (run.disk request'.sigFile)
      (hash request'.hashType (wholeInput request'.data)) := by
    refine ⟨sig, sigType, pub, signed, ?_, hpub, ?_, ?_⟩
    · rw [hsig]
      exact readSig_whole hne (hback sig hsig)
    · rw [hhash, hdata]
      exact hsigned
    · rw [hhash]
      exact hcomplete _ _ _ _ _ _ _ hmatches hgenerate
  rw [hrun', hiff.mpr hverifies]

end RoundTrip

def verifyArgs : Args :=
  [str "wolfssl", str "dgst", str "-md5", str "-verify", str "k", str "-signature", str "s",
    str "d"]

def dgstSignRequest : DgstRequest := ⟨true, greetingReads, str "RSA", [], str "s", .md5, .pem⟩

def dgstVerifyRequest : DgstRequest :=
  ⟨false, greeting.map byteRead, str "RSA", str "s", [], .md5, .pem⟩

def sampleSig : List Byte := str "RSA" ++ ([48, 32] ++ greetingMd5 greeting)

def signedDisk : Disk := Function.update sampleDisk (str "s") (some sampleSig)

deriving instance DecidableEq for IoChunk, BioRead, DgstRequest, DgstCall

theorem signArgs_call : dgstCall greetingDgstEnv sampleDisk signArgs =
    .ok (.signVerify dgstSignRequest) := by decide +kernel

theorem verifyArgs_call : dgstCall greetingDgstEnv signedDisk verifyArgs =
    .ok (.signVerify dgstVerifyRequest) := by decide +kernel

set_option maxRecDepth 20000 in
theorem dgst_sign_verify_chunks :
    dgstSetup greetingDgstEnv sampleDisk sampleDgstLib signArgs =
        some ⟨wolfcluSuccess, [], signedDisk⟩ ∧
      dgstSetup greetingDgstEnv signedDisk sampleDgstLib verifyArgs =
        some ⟨wolfcluSuccess, [], signedDisk⟩ := by
  have hrun : dgstSetup greetingDgstEnv sampleDisk sampleDgstLib signArgs =
      some ⟨wolfcluSuccess, [], signedDisk⟩ := by
    simp only [dgstSetup, signArgs_call]
    rfl
  refine ⟨hrun, ?_⟩
  refine @dgst_sign_verify _ _ _ _ greetingDgstEnv greetingDgstEnv sampleDgstLib _
    (fun _ => greetingMd5) Eq dgstSignRequest dgstVerifyRequest sampleDisk
    ⟨wolfcluSuccess, [], signedDisk⟩
    greetingHashLib_computes ?_ signArgs verifyArgs signArgs_call rfl hrun rfl (fun _ => rfl)
    verifyArgs_call rfl rfl rfl rfl ?_ ?_ ?_
  · rintro hashType sigType digest n priv pub sig rfl hsig
    cases hsig
    exact if_pos rfl
  · exact ⟨by decide, by decide, _, _, rfl, ⟨greeting.map byteChunk, rfl, rfl⟩, rfl⟩
  · intro sigType priv hpriv
    exact ⟨priv, hpriv, rfl⟩
  · intro contents _
    exact ⟨rfl, rfl, rfl⟩

end WolfCLU
