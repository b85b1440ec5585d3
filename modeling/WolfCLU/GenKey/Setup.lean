import WolfCLU.GenKey.GenKeySign
import WolfCLU.Tools.GetOpt
import WolfCLU.X509.Config

namespace WolfCLU
open CString

inductive GenKeyOption where
  | outfile
  | outform
  | output
  | curveName
  | size
  | exponent
  | level
  | height
  | layer
  | help
  deriving DecidableEq, Repr

def genKeyOptions : List (LongOption GenKeyOption) :=
  [⟨str "-out", true, .outfile⟩, ⟨str "-outform", true, .outform⟩, ⟨str "-output", true, .output⟩,
    ⟨str "-name", true, .curveName⟩, ⟨str "-size", true, .size⟩,
    ⟨str "-exponent", true, .exponent⟩, ⟨str "-level", true, .level⟩,
    ⟨str "-height", true, .height⟩, ⟨str "-layer", true, .layer⟩, ⟨str "-h", false, .help⟩,
    ⟨str "-help", false, .help⟩]

structure GenKeyState where
  stopped : Option Int
  outFile : Option (List Byte)
  format : List Byte
  output : Option (List Byte)
  name : Option (List Byte)
  sizeStr : Option (List Byte)
  expStr : Option (List Byte)
  levelStr : Option (List Byte)
  heightStr : Option (List Byte)
  layerStr : Option (List Byte)
  deriving DecidableEq, Repr

def GenKeyState.handle : Opt GenKeyOption → Option (List Byte) → GenKeyState → GenKeyState
  | .foundTwice, _, s => { s with stopped := some wolfcluFatalError }
  | .found .outfile, optarg, s => { s with outFile := optarg }
  | .found .outform, optarg, s => { s with format := optarg.getD s.format }
  | .found .output, optarg, s => { s with output := optarg }
  | .found .curveName, optarg, s => { s with name := optarg }
  | .found .size, optarg, s => { s with sizeStr := optarg }
  | .found .exponent, optarg, s => { s with expStr := optarg }
  | .found .level, optarg, s => { s with levelStr := optarg }
  | .found .height, optarg, s => { s with heightStr := optarg }
  | .found .layer, optarg, s => { s with layerStr := optarg }
  | .found .help, _, s => { s with stopped := some wolfcluSuccess }

def genKeyReader (argv : Args) : OptReader GenKeyOption GenKeyState where
  argv := fun _ => argv
  running := fun s => s.stopped.isNone
  handle := GenKeyState.handle

def readGenKeyOptions (argv : Args) : GenKeyState :=
  (genKeyReader argv).run 1 genKeyOptions
    ⟨none, none, str "der", none, none, none, none, none, none, none⟩

def maxFilenameSz : Nat := 256

def strncasecmp (a b : List Byte) (n : Nat) : Int := strncmp (a.map toLower) (b.map toLower) n

def genKeyDirective (output : Option (List Byte)) : Directive :=
  match output with
  | none => .privAndPub
  | some output =>
    if strncasecmp output (str "pub") 3 = 0 then .pubOnly
    else if strncasecmp output (str "priv") 4 = 0 then .privOnly
    else .privAndPub

def GenKeyState.form (s : GenKeyState) : Form := checkInform (some (s.format.map toLower))

def numberOr (default : Int) (arg : Option (List Byte)) : Int :=
  match arg with
  | none => default
  | some arg => if arg ≠ [] ∧ arg.all isDigit then atoi arg else default

structure LevelConsts where
  dilithiumPrvSize : Int → Nat
  mlDsaBothSize : Int → Nat
  dilithiumK : Int → Int
  mlDsaK : Int → Int

def dilithiumRequest (consts : LevelConsts) (levelStr : Option (List Byte)) : KeyRequest :=
  match levelStr with
  | none => .dilithium (consts.dilithiumPrvSize 2) 2 (consts.dilithiumK 2)
  | some levelStr =>
    let level := atoi levelStr
    if level ∈ [2, 3, 5] then
      .dilithium (consts.dilithiumPrvSize level) level (consts.dilithiumK level)
    else .dilithium (consts.dilithiumPrvSize 2) level (consts.dilithiumK 2)

def mlDsaRequest (consts : LevelConsts) (levelStr : Option (List Byte)) : KeyRequest :=
  match levelStr with
  | none => .mlDsa (consts.mlDsaBothSize 2) 2 (consts.dilithiumK 2)
  | some levelStr =>
    let level := atoi levelStr
    if level ∈ [2, 3, 5] then
      .mlDsa (consts.mlDsaBothSize level) level (consts.mlDsaK level)
    else .mlDsa (consts.mlDsaBothSize 2) level (consts.dilithiumK 2)

def isStr (arg : Option (List Byte)) (text : String) (n : Nat) : Bool :=
  arg.any fun arg => strncmp arg (str text) n = 0

def xmssmtHeight (heightStr : Option (List Byte)) : Int :=
  match heightStr with
  | none => 20
  | some height =>
    if isStr heightStr "20" 2 ∨ isStr heightStr "40" 2 ∨ isStr heightStr "60" 2 then atoi height
    else 20

def xmssmtParam (heightStr layerStr : Option (List Byte)) : List Byte :=
  let height := xmssmtHeight heightStr
  str "XMSSMT-SHA2_" ++
    if height = 20 then
      if isStr layerStr "2" 1 then str "20/2_256"
      else if isStr layerStr "4" 1 then str "20/4_256"
      else str "20/2_256"
    else if height = 40 then
      if isStr layerStr "2" 1 then str "40/2_256"
      else if isStr layerStr "4" 1 then str "40/4_256"
      else if isStr layerStr "8" 1 then str "40/8_256"
      else str "40/2_256"
    else if height = 60 then
      if isStr layerStr "3" 1 then str "60/3_256"
      else if isStr layerStr "6" 1 then str "60/6_256"
      else if isStr layerStr "12" 2 then str "60/12_256"
      else str "60/3_256"
    else str "20/2_256"

def xmssParam (heightStr : Option (List Byte)) : List Byte :=
  str "XMSS-SHA2_" ++
    if isStr heightStr "10" 2 then str "10_256"
    else if isStr heightStr "16" 2 then str "16_256"
    else if isStr heightStr "20" 2 then str "20_256"
    else str "10_256"

def requestOf (consts : LevelConsts) (s : GenKeyState) (keyType : List Byte) :
    Except Int KeyRequest :=
  if strncmp keyType (str "ed25519") 7 = 0 then .ok .ed25519
  else if strncmp keyType (str "ecc") 3 = 0 then .ok (.ecc (s.name.map (·.map toUpper)))
  else if strncmp keyType (str "rsa") 3 = 0 then
    .ok (.rsa (numberOr 2048 s.sizeStr) (numberOr 65537 s.expStr))
  else if strncmp keyType (str "dilithium") 9 = 0 then .ok (dilithiumRequest consts s.levelStr)
  else if strncmp keyType (str "ml-dsa") 6 = 0 then .ok (mlDsaRequest consts s.levelStr)
  else if strncmp keyType (str "xmssmt") 6 = 0 then
    let param := xmssmtParam s.heightStr s.layerStr
    if param.length = xmssmtNameMinLen ∨ param.length = xmssmtNameMaxLen then .ok (.xmss param)
    else .error userInputError
  else if strncmp keyType (str "xmss") 4 = 0 then
    let param := xmssParam s.heightStr
    if param.length ≠ xmssNameLen then .error wolfcluFatalError else .ok (.xmss param)
  else .error userInputError

structure GenKeyCall where
  request : KeyRequest
  fName : List Byte
  directive : Directive
  fmt : Form
  deriving DecidableEq, Repr

def genKeyCall (consts : LevelConsts) (initRng : Int) (argv : Args) : Except Int GenKeyCall :=
  let s := readGenKeyOptions argv
  match s.stopped, argv[2]?, s.outFile with
  | some ret, _, _ => .error ret
  | none, none, _ => .error userInputError
  | none, some _, none => .error userInputError
  | none, some keyType, some outFile =>
    if maxFilenameSz ≤ outFile.length then .error userInputError
    else if s.form = .invalid then .error userInputError
    else if initRng ≠ 0 then .error initRng
    else do
      let request ← requestOf consts s keyType
      .ok ⟨request, outFile, genKeyDirective s.output, s.form⟩

def genKeySetup {κ : Type} (lib : GenKeyLib κ) (env : GenKeyEnv) (consts : LevelConsts)
    (initRng : Int) (argv : Args) (disk : Disk) : GenKeyRun :=
  match genKeyCall consts initRng argv with
  | .error ret => ⟨ret, disk⟩
  | .ok call => genKeyDispatch lib env call.request call.fName call.directive call.fmt disk

section Params
variable {consts : LevelConsts} {heightStr layerStr : Option (List Byte)}

theorem xmssParam_known (heightStr : Option (List Byte)) :
    ∃ set ∈ xmssSets, set.param = xmssParam heightStr := by
  unfold xmssParam
  split_ifs <;> decide +kernel

theorem xmssmtParam_known (heightStr layerStr : Option (List Byte)) :
    ∃ set ∈ xmssmtSets, set.param = xmssmtParam heightStr layerStr := by
  simp only [xmssmtParam]
  split_ifs <;> decide +kernel

theorem dilithiumRequest_kind (levelStr : Option (List Byte)) :
    (dilithiumRequest consts levelStr).kind = some .dilithium := by
  unfold dilithiumRequest
  split
  · rfl
  · simp only
    split_ifs <;> rfl

theorem mlDsaRequest_kind (levelStr : Option (List Byte)) :
    (mlDsaRequest consts levelStr).kind = some .mlDsa := by
  unfold mlDsaRequest
  split
  · rfl
  · simp only
    split_ifs <;> rfl

theorem requestOf_xmss {s : GenKeyState} {keyType param : List Byte}
    (h : requestOf consts s keyType = .ok (.xmss param)) :
    ∃ alg, ∃ set ∈ paramSets alg, set.param = param := by
  have hother {request : KeyRequest} {kind : KeyKind} (hkind : request.kind = some kind)
      (heq : (.ok request : Except Int KeyRequest) = .ok (.xmss param)) : False := by
    cases heq
    cases hkind
  simp only [requestOf] at h
  split_ifs at h
  · exact (hother rfl h).elim
  · exact (hother rfl h).elim
  · exact (hother rfl h).elim
  · exact (hother (dilithiumRequest_kind _) h).elim
  · exact (hother (mlDsaRequest_kind _) h).elim
  · cases h
    exact ⟨.xmssmt, xmssmtParam_known _ _⟩
  · cases h
    exact ⟨.xmss, xmssParam_known _⟩

theorem genKeyCall_xmss {initRng : Int} {argv : Args} {call : GenKeyCall} {param : List Byte}
    (h : genKeyCall consts initRng argv = .ok call) (hrequest : call.request = .xmss param) :
    ∃ alg, ∃ set ∈ paramSets alg, set.param = param := by
  simp only [genKeyCall] at h
  split at h
  · cases h
  · cases h
  · cases h
  · split_ifs at h
    simp only [bind_eq_ok, Except.ok.injEq] at h
    obtain ⟨request, hread, rfl⟩ := h
    exact requestOf_xmss (hread.trans (congrArg Except.ok hrequest))

end Params

section Commands
variable {κ : Type} {lib : GenKeyLib κ} {env : GenKeyEnv} {consts : LevelConsts} {initRng : Int}
  {argv : Args} {call : GenKeyCall} {disk : Disk} {kind : KeyKind}

def GenKeyCall.baseName (call : GenKeyCall) : List Byte :=
  match call.request with
  | .xmss _ => slashToDash call.fName
  | _ => call.fName

def GenKeyCall.askedFiles (call : GenKeyCall) : List (List Byte) :=
  call.directive.parts.map fun part => call.baseName ++ part.append

def GenKeyCall.Written (lib : GenKeyLib κ) (env : GenKeyEnv) (call : GenKeyCall) (disk : Disk)
    (key : κ) (part : KeyPart) : Prop :=
  match call.request.kind, part with
  | some kind, part => PartWritten lib env call.fmt kind call.fName disk key part
  | none, .priv => ∃ fresh state, lib.xmssMake fresh = .ok (state, key) ∧
      Holds (disk (call.baseName ++ KeyPart.priv.append)) state
  | none, .pub => ∃ n pub, lib.xmssExportPub key n = .ok pub ∧
      disk (call.baseName ++ KeyPart.pub.append) = some (pub.take (env.stored .pub pub.length))

structure GenKeyCall.Outcome (lib : GenKeyLib κ) (env : GenKeyEnv) (call : GenKeyCall) (disk : Disk)
    (run : GenKeyRun) : Prop where
  others : ∀ name, name ∉ call.askedFiles → run.disk name ≠ disk name →
    call.request.kind = none ∧ call.directive = .pubOnly ∧
      name = call.baseName ++ KeyPart.priv.append
  written : run.ret = wolfcluSuccess → ∃ key, ∀ part,
    part ∈ call.directive.parts ∨ call.request.kind = none ∧ part = .priv →
      call.Written lib env run.disk key part
  private_first : call.directive = .privAndPub ∨ call.request.kind = none →
    run.disk (call.baseName ++ KeyPart.pub.append) ≠ disk (call.baseName ++ KeyPart.pub.append) →
      ∃ key, call.Written lib env run.disk key .priv

theorem genKeySetup_call (h : genKeyCall consts initRng argv = .ok call) :
    genKeySetup lib env consts initRng argv disk =
      genKeyDispatch lib env call.request call.fName call.directive call.fmt disk := by
  rw [genKeySetup, h]

theorem genKeyDispatch_outcome {request : KeyRequest} {fName : List Byte} {directive : Directive}
    {fmt : Form} (hkind : request.kind = some kind) :
    GenKeyCall.Outcome lib env ⟨request, fName, directive, fmt⟩ disk
      (genKeyDispatch lib env request fName directive fmt disk) := by
  have hbase : (GenKeyCall.mk request fName directive fmt).baseName = fName := by
    cases request with
    | xmss param => cases hkind
    | _ => rfl
  obtain ⟨hsame, hwritten, htouched⟩ := @genKeyDispatch_files κ lib env fName directive fmt disk
    request kind hkind
  have hdone {disk' : Disk} {key : κ} {part : KeyPart}
      (h : PartWritten lib env fmt kind fName disk' key part) :
      (GenKeyCall.mk request fName directive fmt).Written lib env disk' key part := by
    simp only [GenKeyCall.Written, hkind]
    exact h
  constructor
  · intro name hname hchanged
    simp only [GenKeyCall.askedFiles, hbase] at hname
    exact absurd (hsame name hname) hchanged
  · intro hret
    obtain ⟨key, hparts⟩ := hwritten hret
    refine ⟨key, fun part hpart => hdone (hparts part ?_)⟩
    rcases hpart with hpart | ⟨hnone, -⟩
    · exact hpart
    · rw [hkind] at hnone
      cases hnone
  · intro hpair hchanged
    rw [hbase] at hchanged
    rcases hpair with hdirective | hnone
    · obtain ⟨key, hpriv⟩ := htouched hdirective hchanged
      exact ⟨key, hdone hpriv⟩
    · rw [hkind] at hnone
      cases hnone

theorem genKeyXMSS_outcome (laws : XmssMakeLaws lib) {param fName : List Byte}
    {directive : Directive} {fmt : Form} :
    GenKeyCall.Outcome lib env ⟨.xmss param, fName, directive, fmt⟩ disk
      (genKeyXMSS lib env fName directive param disk) := by
  constructor
  · intro name hname hchanged
    simp only [GenKeyCall.askedFiles, GenKeyCall.baseName] at hname ⊢
    have hpriv : name = slashToDash fName ++ KeyPart.priv.append := by
      by_contra hother
      refine hchanged (genKeyXMSS_same hother ?_)
      cases directive with
      | privOnly => exact .inl rfl
      | pubOnly | privAndPub =>
        refine .inr fun hpub => hname ?_
        rw [hpub]
        simp [Directive.parts]
    refine ⟨rfl, ?_, hpriv⟩
    cases directive with
    | pubOnly => rfl
    | privOnly | privAndPub =>
      rw [hpriv] at hname
      simp [Directive.parts] at hname
  · intro hret
    obtain ⟨fresh, state, key, hmade⟩ := genKeyXMSS_made hret
    have hholds := keeps_of_saved (laws.state hmade.made) (laws.made hmade.saved)
    rw [← hmade.private_file] at hholds
    refine ⟨key, fun part hpart => ?_⟩
    cases part with
    | priv => exact ⟨fresh, state, hmade.made, hholds⟩
    | pub =>
      refine hmade.public_file fun hdirective => ?_
      rcases hpart with hpart | ⟨-, hpart⟩
      · simp only at hpart
        rw [hdirective] at hpart
        cases List.mem_singleton.mp hpart
      · cases hpart
  · rintro - hchanged
    obtain ⟨fresh, state, key, hmade, hsaved, hfile⟩ := genKeyXMSS_pub_touched hchanged
    have hholds := keeps_of_saved (laws.state hmade) (laws.made hsaved)
    rw [← hfile] at hholds
    exact ⟨key, fresh, state, hmade, hholds⟩

def sampleConsts : LevelConsts :=
  ⟨fun _ => 4000, fun _ => 4000, fun level => level, fun level => 10 + level⟩

def xmssPubArgs : Args :=
  [str "wolfssl", str "genkey", str "xmss", str "-height", str "10", str "-output", str "pub",
    str "-out", str "k"]

variable {sig : SignatureLib κ} {Matches : SigAlg → κ → κ → Prop} {senv : SignatureEnv}
  {venv : VerifyEnv} {param : List Byte}

theorem genKeySetup_xmss_sign_verify (laws : SignatureLaws sig Matches)
    (codec : ∀ alg, XmssCodec lib sig Matches alg)
    (h : genKeyCall consts initRng argv = .ok call) (hrequest : call.request = .xmss param)
    (hcomplete : ∀ n, senv.written n = n) (hworking : Working venv) (fmt : Form) :
    ∃ alg, ∃ set ∈ paramSets alg, set.param = param ∧
      (call.directive = .privAndPub → slashToDash call.fName = set.stem →
        (∀ n, n ≤ env.stored .pub n) →
        (genKeySetup lib env consts initRng argv disk).ret = wolfcluSuccess → ∃ priv pub,
          (genKeySetup lib env consts initRng argv disk).disk
            (set.stem ++ KeyPart.priv.append) = some priv ∧
          (genKeySetup lib env consts initRng argv disk).disk
            (set.stem ++ KeyPart.pub.append) = some pub ∧
          (priv.length ≤ MachineInt.intMax →
            PairWorks sig senv venv alg fmt (set.stem ++ KeyPart.priv.append) priv pub)) := by
  obtain ⟨alg, set, hset, hparam⟩ := genKeyCall_xmss h hrequest
  refine ⟨alg, set, hset, hparam, fun hdirective hname hstored hret => ?_⟩
  have hrun : genKeySetup lib env consts initRng argv disk =
      genKeyXMSS lib env call.fName .privAndPub set.param disk := by
    rw [genKeySetup_call h, hrequest, hdirective, hparam]
    rfl
  rw [hrun] at hret ⊢
  exact genKeyXMSS_sign_verify laws (codec alg) hstored hset hname hret hcomplete hworking fmt

def xmssmtArgs : Args :=
  [str "wolfssl", str "genkey", str "xmssmt", str "-height", str "40", str "-layer", str "8",
    str "-out", str "XMSSMT-SHA2_40/8_256"]

def xmssmtCall : GenKeyCall :=
  ⟨.xmss (str "XMSSMT-SHA2_40/8_256"), str "XMSSMT-SHA2_40/8_256", .privAndPub, .der⟩

theorem xmssmtArgs_call : genKeyCall sampleConsts 0 xmssmtArgs = .ok xmssmtCall := by
  decide +kernel

theorem genKeySetup_xmss_sign_verify_layers :
    ∃ alg, ∃ set ∈ paramSets alg, set.param = str "XMSSMT-SHA2_40/8_256" ∧
      (xmssmtCall.directive = .privAndPub → slashToDash xmssmtCall.fName = set.stem →
        (∀ n, n ≤ plainKeyEnv.stored .pub n) →
        (genKeySetup bytesKeyLib plainKeyEnv sampleConsts 0 xmssmtArgs fun _ => none).ret =
          wolfcluSuccess → ∃ priv pub,
          (genKeySetup bytesKeyLib plainKeyEnv sampleConsts 0 xmssmtArgs fun _ => none).disk
            (set.stem ++ KeyPart.priv.append) = some priv ∧
          (genKeySetup bytesKeyLib plainKeyEnv sampleConsts 0 xmssmtArgs fun _ => none).disk
            (set.stem ++ KeyPart.pub.append) = some pub ∧
          (priv.length ≤ MachineInt.intMax →
            PairWorks echoLib echoEnv echoEnv.toVerifyEnv alg .raw
              (set.stem ++ KeyPart.priv.append) priv pub)) :=
  genKeySetup_xmss_sign_verify echo_laws bytesKey_xmssCodec xmssmtArgs_call rfl
    (show ∀ n, echoEnv.written n = n from fun _ => rfl) echoEnv_working .raw

end Commands

end WolfCLU
