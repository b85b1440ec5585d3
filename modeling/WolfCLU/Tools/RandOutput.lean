import WolfCLU.Foundation.Hex
import WolfCLU.Tools.Rand

namespace WolfCLU
open Buffer CString

section Texts
variable {bytes data : List Byte}

structure HexText (digits bytes : List Byte) : Prop where
  length : digits.length = 2 * bytes.length
  chars : ∀ c ∈ digits, c ∈ hexChars
  value : Hex.value digits = bytes.foldl (fun v b => 256 * v + b.toNat) 0

def Base64Lines (text bytes : List Byte) : Prop :=
  text.filter (fun c => c ≠ 10) = Base64.encode bytes

theorem Base64Lines.decode (h : Base64Lines data bytes) :
    Base64.decode (data.filter fun c => c ≠ 10) = some bytes := by
  rw [h, Base64.decode_encode]

theorem high_digit (b : Byte) : ((b >>> 4) &&& 0x0F).toNat = b.toNat / 16 := by
  have hb := b.toNat_lt
  have hmask : (0x0F : Byte).toNat = 2 ^ 4 - 1 := rfl
  have hshift : (4 : Byte).toNat % 8 = 4 := rfl
  rw [UInt8.toNat_and, UInt8.toNat_shiftRight, hmask, hshift, Nat.and_two_pow_sub_one_eq_mod,
    Nat.shiftRight_eq_div_pow]
  omega

theorem low_digit (b : Byte) : (b &&& 0x0F).toNat = b.toNat % 16 := by
  have hmask : (0x0F : Byte).toNat = 2 ^ 4 - 1 := rfl
  rw [UInt8.toNat_and, hmask, Nat.and_two_pow_sub_one_eq_mod]

theorem hexChars_digit {i : Nat} (h : i < 16) :
    hexChars.getD i 0 ∈ hexChars ∧ Hex.digitValue (hexChars.getD i 0) = i := by
  have hall : ∀ j : Fin 16, hexChars.getD j.val 0 ∈ hexChars ∧
      Hex.digitValue (hexChars.getD j.val 0) = j.val := by decide
  exact hall ⟨i, h⟩

theorem hexDigits_byte (b : Byte) :
    (∀ c ∈ hexDigits b, c ∈ hexChars) ∧
      ∀ v, Hex.valueFrom v (hexDigits b) = 256 * v + b.toNat := by
  have hb := b.toNat_lt
  obtain ⟨hhigh, hhighValue⟩ := hexChars_digit (show b.toNat / 16 < 16 by omega)
  obtain ⟨hlow, hlowValue⟩ := hexChars_digit (show b.toNat % 16 < 16 by omega)
  rw [hexDigits, high_digit, low_digit]
  refine ⟨?_, fun v => ?_⟩
  · intro c hc
    rcases List.mem_pair.mp hc with rfl | rfl
    · exact hhigh
    · exact hlow
  · simp only [Hex.valueFrom, List.foldl_cons, List.foldl_nil, hhighValue, hlowValue]
    omega

theorem hexText (bytes : List Byte) : HexText (bytes.flatMap hexDigits) bytes where
  length := by
    induction bytes with
    | nil => rfl
    | cons b bytes ih =>
      simp only [List.flatMap_cons, List.length_append, ih, hexDigits, List.length_cons,
        List.length_nil]
      omega
  chars := by
    intro c hc
    obtain ⟨b, -, hcb⟩ := List.mem_flatMap.mp hc
    exact (hexDigits_byte b).1 c hcb
  value := by
    rw [Hex.value]
    generalize 0 = v
    induction bytes generalizing v with
    | nil => rfl
    | cons b bytes ih =>
      have hfront := (hexDigits_byte b).2 v
      simp only [Hex.valueFrom] at hfront ih ⊢
      rw [List.flatMap_cons, List.foldl_append, hfront, List.foldl_cons, ih]

end Texts

section Output
variable {ρ : Type} {lib : RandLib ρ} {env : RandEnv} {request : RandRequest} {rng : ρ}

variable (lib) in
structure RandLaws : Prop where
  blockLength : ∀ rng n rng' block, lib.generateBlock rng n = some (rng', block) → block.length = n
  base64Lines : ∀ buf text, lib.base64Encode buf = some text → Base64Lines text buf

variable (lib) in
inductive Draws : ρ → List (List Byte) → Prop where
  | nil (rng : ρ) : Draws rng []
  | cons (rng rng' : ρ) (n : Nat) (block : List Byte) (blocks : List (List Byte)) (hpos : 0 < n)
      (hmax : n ≤ lib.rngMaxBlockLen) (hdraw : lib.generateBlock rng n = some (rng', block))
      (hrest : Draws rng' blocks) : Draws rng (block :: blocks)

theorem randFill_draws (laws : RandLaws lib) {size generated : Nat} {buf out : List Byte}
    (hle : generated ≤ size) (hbuf : buf.length = size)
    (h : randFill lib size rng generated buf = .ok out) :
    ∃ blocks, Draws lib rng blocks ∧ (blocks.map List.length).sum = size - generated ∧
      out = buf.take generated ++ blocks.flatten := by
  fun_induction randFill lib size rng generated buf with
  | case1 => cases h
  | case2 rng generated buf hlt chunk rng' block hdraw ih =>
    have hlen := laws.blockLength _ _ _ _ hdraw
    have hpos := lib.rngMaxBlockLen_pos
    have hchunk : chunk ≤ size - generated := min_le_left _ _
    have hfit : generated + block.length ≤ buf.length := by omega
    obtain ⟨blocks, hblocks, hsum, hout⟩ :=
      ih (by omega) ((blit_length hfit).trans hbuf) h
    refine ⟨block :: blocks, .cons _ _ _ _ _ (by omega) (min_le_right _ _) hdraw hblocks, ?_, ?_⟩
    · rw [List.map_cons, List.sum_cons, hsum]
      omega
    · rw [hout, ← hlen, blit_take_append (by omega), List.flatten_cons, List.append_assoc]
  | case3 rng generated buf hdone =>
    cases h
    refine ⟨[], .nil _, ?_, ?_⟩
    · simp only [List.map_nil, List.sum_nil]
      omega
    · rw [List.take_of_length_le (by omega), List.flatten_nil, List.append_nil]

structure Renders (request : RandRequest) (bytes data : List Byte) : Prop where
  raw : request.useHex = false → request.useBase64 = false → data = bytes
  hex : request.useHex = true → HexText data bytes
  base64 : request.useBase64 = true → Base64Lines data bytes

theorem randHex_ok {buf data : List Byte} (h : randHex env buf = .ok data) : HexText data buf := by
  rw [randHex] at h
  split at h
  · cases h
    exact hexText buf
  · cases h

theorem randBase64_ok (laws : RandLaws lib) {buf data : List Byte}
    (h : randBase64 lib env buf = .ok data) : Base64Lines data buf := by
  rw [randBase64] at h
  split at h
  · cases h
  · split at h
    · split at h
      · cases h
      · rename_i text htext
        cases h
        exact laws.base64Lines _ _ htext
    · cases h

variable (lib) in
structure RandomData (request : RandRequest) (data : List Byte) : Prop where
  drawn : ∃ rng blocks, lib.initRng = some rng ∧ Draws lib rng blocks ∧
    (blocks.map List.length).sum = request.size.toNat ∧ Renders request blocks.flatten data

theorem randData_ok (laws : RandLaws lib) {data : List Byte}
    (h : randData lib env request = .ok data) : RandomData lib request data := by
  simp only [randData] at h
  split at h
  · cases hrng : lib.initRng with
    | none =>
      rw [hrng] at h
      cases h
    | some rng =>
      rw [hrng] at h
      obtain ⟨buf, hfill, h⟩ := bind_eq_ok.mp h
      obtain ⟨blocks, hdraws, hsum, rfl⟩ := randFill_draws laws (Nat.zero_le _) (by simp) hfill
      refine ⟨rng, blocks, hrng, hdraws, hsum, ?_⟩
      rw [List.take_zero, List.nil_append] at h
      split_ifs at h with hstdout hhex hbase64
      · exact ⟨fun hno => by simp [hno] at hhex, fun _ => randHex_ok h,
          fun hyes => absurd ⟨hyes, hhex⟩ request.exclusive⟩
      · exact ⟨fun _ hno => by simp [hno] at hbase64, fun hyes => absurd hyes hhex,
          fun _ => randBase64_ok laws h⟩
      · cases h
        exact ⟨fun _ _ => rfl, fun hyes => absurd hyes hhex, fun hyes => absurd hyes hbase64⟩
  · cases h

def lineEnd (env : RandEnv) (request : RandRequest) : List Byte :=
  if request.useHex = true ∧ request.outFile = none then taken env (str "\n") else []

def ShortWrite (env : RandEnv) (run : RandRun) : Prop :=
  ∃ data, env.bioWrite data ≠ data.length ∧ run.written = taken env data

theorem error_fails (e : RandError) (opened : Option (List Byte)) (written : List Byte) :
    Fails (e.run opened written).ret := fails_fatal

theorem randWrite_cases (data : List Byte) :
    (Fails (randWrite env request data).ret ∧ ShortWrite env (randWrite env request data)) ∨
      ((randWrite env request data).ret = wolfcluSuccess ∧
        (randWrite env request data).written = data ++ lineEnd env request ∧
        (randWrite env request data).opened = request.outFile) := by
  rw [randWrite, lineEnd]
  split
  · rename_i hshort
    exact .inl ⟨error_fails _ _ _, data, hshort, rfl⟩
  · split
    · exact .inr ⟨rfl, rfl, rfl⟩
    · exact .inr ⟨rfl, (List.append_nil data).symm, rfl⟩

theorem randGenerate_cases (laws : RandLaws lib) (env : RandEnv) (request : RandRequest) :
    (Fails (randGenerate lib env request).ret ∧ ((randGenerate lib env request).written = [] ∨
        ShortWrite env (randGenerate lib env request))) ∨
      ((randGenerate lib env request).ret = wolfcluSuccess ∧
        ∃ data, RandomData lib request data ∧
          (randGenerate lib env request).written = data ++ lineEnd env request ∧
          (randGenerate lib env request).opened = request.outFile) := by
  rw [randGenerate]
  rcases hdata : randData lib env request with e | data
  · exact .inl ⟨error_fails _ _ _, .inl rfl⟩
  · rcases @randWrite_cases env request data with ⟨hfails, hshort⟩ | ⟨hret, hwritten⟩
    · exact .inl ⟨hfails, .inr hshort⟩
    · exact .inr ⟨hret, data, randData_ok laws hdata, hwritten⟩

end Output

section Exact
variable {ρ : Type} {lib : RandLib ρ} {argv line : Args} {haveOcsp : Bool}

structure CountRead (argv : Args) (request : RandRequest) (token : List Byte) : Prop where
  accepted : randArgs argv = .ok request
  found : argv[request.countIdx]? = some token
  positive : 0 < request.size
  size : request.size = atoi token
  decimal : ∀ n : Nat, IsNumeral token n → (n : Int) ≤ MachineInt.intMax → request.size = n

theorem countRead_of_ok {request : RandRequest} (hrand : main haveOcsp line = (.rand, argv))
    (h : randArgs argv = .ok request) : ∃ token, CountRead argv request token := by
  obtain ⟨prog, args, rfl⟩ := main_rand hrand
  obtain ⟨-, -, hsize, -⟩ := randArgs_ok h
  obtain ⟨-, token, htoken, -⟩ := (randArgs_positional h request.countIdx).mp rfl
  rw [List.getD_eq_getElem?_getD, htoken, Option.getD_some] at hsize
  refine ⟨token, h, htoken, request.positive, hsize, fun n hn hmax => ?_⟩
  have hvalue := @atoi_numeral token [] n hn hmax (by simp)
  rw [List.append_nil] at hvalue
  rw [hsize, hvalue]

def RandOutputExact (lib : RandLib ρ) (env : RandEnv) (argv : Args) : Prop :=
  (Fails (rand lib env argv).ret ∧ (rand lib env argv).written = []) ∨
    ∃ request token n, CountRead argv request token ∧ IsNumeral token n ∧
      (n : Int) ≤ MachineInt.intMax ∧ RandomData lib request (rand lib env argv).written

theorem rand_cases (lib : RandLib ρ) (env : RandEnv) (hhelp : argv.getLast?.any isHelp = false) :
    (∃ e opened, rand lib env argv = RandError.run e opened []) ∨
      ∃ request, randArgs argv = .ok request ∧ rand lib env argv = randGenerate lib env request := by
  rw [rand, hhelp, if_neg Bool.false_ne_true]
  rcases randArgs argv with e | request
  · exact .inl ⟨e, none, rfl⟩
  · dsimp only
    split
    · exact .inr ⟨request, rfl, rfl⟩
    · rename_i name _
      split
      · exact .inr ⟨request, rfl, rfl⟩
      · exact .inl ⟨.fileNotOpened name, some name, rfl⟩

theorem rand_writes_count (laws : RandLaws lib) (env : RandEnv)
    (hrand : main haveOcsp line = (.rand, argv)) (hhelp : argv.getLast?.any isHelp = false) :
    (Fails (rand lib env argv).ret ∧
        ((rand lib env argv).written = [] ∨ ShortWrite env (rand lib env argv))) ∨
      ((rand lib env argv).ret = wolfcluSuccess ∧
        ∃ request token data, CountRead argv request token ∧ RandomData lib request data ∧
          (rand lib env argv).written = data ++ lineEnd env request ∧
          (rand lib env argv).opened = request.outFile) := by
  rcases rand_cases lib env hhelp with ⟨e, opened, hrun⟩ | ⟨request, hargs, hrun⟩
  · rw [hrun]
    exact .inl ⟨error_fails _ _ _, .inl rfl⟩
  · rw [hrun]
    obtain ⟨token, hread⟩ := countRead_of_ok hrand hargs
    rcases randGenerate_cases laws env request with hfails | ⟨hret, data, hdata, hwritten⟩
    · exact .inl hfails
    · exact .inr ⟨hret, request, token, data, hread, hdata, hwritten⟩

theorem counterLib_laws : RandLaws counterLib where
  blockLength := by
    intro rng n rng' block h
    cases h
    simp
  base64Lines := by
    intro buf text h
    cases h
    rw [Base64Lines, List.filter_append, List.filter_eq_self.mpr, (by decide : (str "\n").filter _ = []),
      List.append_nil]
    intro c hc
    have hne : c ≠ 10 := fun heq => Base64.newline_not_mem_encode buf (heq ▸ hc)
    simp [hne]

def hexLine : Args := [str "wolfssl", str "rand", str "-hex", str "2"]

theorem rand_writes_hex_line :
    ∃ request token data, CountRead hexLine request token ∧ RandomData counterLib request data ∧
      (rand counterLib grantingEnv hexLine).written = data ++ lineEnd grantingEnv request ∧
      (rand counterLib grantingEnv hexLine).opened = request.outFile := by
  have hmain : main true hexLine = (.rand, hexLine) := by decide
  have hret : (rand counterLib grantingEnv hexLine).ret = wolfcluSuccess := by decide +kernel
  rcases rand_writes_count counterLib_laws grantingEnv hmain (by decide) with hfails | hwrites
  · exact absurd hret hfails.1
  · exact hwrites.2

theorem rand_hex_line_end :
    ¬ RandOutputExact counterLib grantingEnv hexLine := by
  have hargs : ((randArgs hexLine).toOption.map RandRequest.useHex) = some true := by decide
  have hrun : (rand counterLib grantingEnv hexLine).ret = wolfcluSuccess ∧
      (rand counterLib grantingEnv hexLine).written = str "0001\n" := by decide +kernel
  rintro (⟨hfails, -⟩ | ⟨request, token, n, hread, -, -, ⟨rng, blocks, -, -, -, hrenders⟩⟩)
  · exact hfails hrun.1
  · rw [hread.accepted] at hargs
    have htext := (hrenders.hex (Option.some.inj hargs)).length
    rw [hrun.2, (by decide : (str "0001\n").length = 5)] at htext
    omega

end Exact

end WolfCLU
