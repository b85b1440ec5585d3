import WolfCLU.X509.SignConfigOwners

namespace WolfCLU.SignConfig
open Handles CString

abbrev Settings := CertSign × Option X509 × Option PKey

def State.view (s : State) : Option Settings :=
  s.ret.map fun signer => (signer.csign, s.ca.map Prod.snd, s.caKey.map Prod.snd)

def filesView (env : CaEnv) (conf : Conf) (sect : List Byte) (v : Settings) : Option Settings := do
  let dir ← (value conf sect "new_certs_dir").or (value conf sect "certs")
  let signer ← (v.1.appendOut env.outAlloc (some dir)).toOption
  let dataBase ← openIfGiven env.dataBaseOpens (value conf sect "database")
  let ca ← loadIfGiven env.certificatePem (value conf sect "certificate")
  let serialFile ← openIfGiven env.serialOpens (value conf sect "serial")
  some
    ({ signer with
      dataBase := signer.dataBase || dataBase
      unique := (value conf sect "unique_subject").any fun value => strncmp value (str "yes") 3 = 0
      serialFile := signer.serialFile || serialFile
      ext := value conf sect "x509_extensions"
      days := ((env.confNumber conf (caSection conf sect) (str "default_days")).map
        MachineInt.toInt32).getD signer.days
      hashType := ((value conf sect "default_md").map stringToHashType).getD signer.hashType },
      ca.or v.2.1, v.2.2)

def settingsView (env : CaEnv) (conf : Conf) (sect : List Byte) (v : Settings) : Option Settings :=
  (filesView env conf sect v).bind fun v =>
    (configKey env (value conf sect "private_key")).map fun key =>
      ({ v.1 with
        policy := ((value conf sect "policy").map (parsePolicy conf)).getD v.1.policy }, v.2.1, key)

section Views
variable {env : SignConfigEnv} {sect : List Byte} {s : State} {conf : Conf} {h : Handle}
open State

theorem whenConf_view {f : Conf → Signer → State → State} {g : Settings → Option Settings}
    (hconf : s.conf = some (h, conf))
    (hf : ∀ signer, s.ret = some signer → (f conf signer s).view =
      g (signer.csign, s.ca.map Prod.snd, s.caKey.map Prod.snd)) :
    (s.whenConf f).view = s.view.bind g := by
  unfold whenConf
  split
  · rename_i signer h' conf' hret hconf'
    obtain ⟨rfl, rfl⟩ := Prod.mk.inj (Option.some.inj (hconf.symm.trans hconf'))
    rw [hf signer hret, view, hret]
    rfl
  · rename_i hnone
    cases hret : s.ret with
    | none => simp [view, hret]
    | some signer => exact absurd hconf (hnone signer h conf hret)

theorem setOutDir_view (hconf : s.conf = some (h, conf)) :
    (setOutDir env sect s).view = s.view.bind fun v =>
      ((value conf sect "new_certs_dir").or (value conf sect "certs")).bind fun dir =>
        (v.1.appendOut env.outAlloc (some dir)).toOption.map fun signer => (signer, v.2) := by
  apply whenConf_view hconf
  intro signer hret
  cases (value conf sect "new_certs_dir").or (value conf sect "certs") with
  | none => rfl
  | some dir =>
    dsimp only [Option.bind_some]
    cases signer.csign.appendOut env.outAlloc (some dir) with
    | error e => rfl
    | ok csign => rfl

theorem openDataBase_view (hconf : s.conf = some (h, conf)) :
    (openDataBase env sect s).view = s.view.bind fun v =>
      (openIfGiven env.dataBaseOpens (value conf sect "database")).map fun opened =>
        ({ v.1 with dataBase := v.1.dataBase || opened }, v.2) := by
  apply whenConf_view hconf
  intro signer hret
  cases value conf sect "database" with
  | none => simp [view, hret, openIfGiven]
  | some name =>
    dsimp only [openIfGiven]
    split
    · simp [view, State.acquire, setSigner]
    · rfl

theorem loadCertificate_view (hconf : s.conf = some (h, conf)) :
    (loadCertificate env sect s).view = s.view.bind fun v =>
      (loadIfGiven env.certificatePem (value conf sect "certificate")).map fun ca =>
        (v.1, ca.or v.2.1, v.2.2) := by
  apply whenConf_view hconf
  intro signer hret
  cases value conf sect "certificate" with
  | none => simp [view, hret, loadIfGiven]
  | some name =>
    dsimp only [loadIfGiven]
    cases env.certificatePem name with
    | none => rfl
    | some ca => simp [view, State.acquire, hret]

theorem setUnique_view (hconf : s.conf = some (h, conf)) :
    (setUnique sect s).view = s.view.bind fun v => some
      ({ v.1 with
        unique := (value conf sect "unique_subject").any fun value =>
          strncmp value (str "yes") 3 = 0 }, v.2) :=
  whenConf_view hconf fun _ _ => rfl

theorem openSerial_view (hconf : s.conf = some (h, conf)) :
    (openSerial env sect s).view = s.view.bind fun v =>
      (openIfGiven env.serialOpens (value conf sect "serial")).map fun opened =>
        ({ v.1 with serialFile := v.1.serialFile || opened }, v.2) := by
  apply whenConf_view hconf
  intro signer hret
  cases value conf sect "serial" with
  | none => simp [view, hret, openIfGiven]
  | some name =>
    dsimp only [openIfGiven]
    split
    · simp [view, State.acquire, setSigner]
    · rfl

theorem openRandFile_view (hconf : s.conf = some (h, conf)) :
    (openRandFile env sect s).view = s.view := by
  have hsame : (openRandFile env sect s).view = s.view.bind some := by
    apply whenConf_view hconf
    intro signer hret
    cases value conf sect "RANDFILE" with
    | none => simp [view, hret]
    | some name =>
      dsimp only
      split <;> rfl
  rw [hsame, Option.bind_fun_some]

theorem setDefaults_view (hconf : s.conf = some (h, conf)) :
    (setDefaults env sect s).view = s.view.bind fun v => some
      ({ v.1 with
        ext := value conf sect "x509_extensions"
        days := ((env.confNumber conf (caSection conf sect) (str "default_days")).map
          MachineInt.toInt32).getD v.1.days
        hashType := ((value conf sect "default_md").map stringToHashType).getD v.1.hashType }, v.2) :=
  whenConf_view hconf fun _ _ => rfl

theorem setPolicy_view (hconf : s.conf = some (h, conf)) :
    (setPolicy sect s).view = s.view.bind fun v => some
      ({ v.1 with
        policy := ((value conf sect "policy").map (parsePolicy conf)).getD v.1.policy }, v.2) :=
  whenConf_view hconf fun _ _ => rfl

theorem closeKeyFile_view (s : State) : (closeKeyFile s).view = s.view := rfl

theorem loadKey_view (hconf : s.conf = some (h, conf)) (hfile : s.keyFile = none)
    (hkey : s.caKey = none) :
    (readKey env sect (openKeyFile env sect s)).view = s.view.bind fun v =>
      (configKey env.toCaEnv (value conf sect "private_key")).map fun key => (v.1, v.2.1, key) := by
  cases hret : s.ret with
  | none => simp [openKeyFile, readKey, whenConf, view, hret]
  | some signer =>
    cases hname : value conf sect "private_key" with
    | none => simp [openKeyFile, readKey, whenConf, view, hret, hconf, hname, hfile, hkey, configKey]
    | some name =>
      by_cases hopens : env.fileOpens name = true
      · cases hread : env.privateKey name with
        | none =>
          simp [openKeyFile, readKey, whenConf, view, hret, hconf, hname, hkey, configKey, hopens, hread,
            State.acquire]
        | some key =>
          simp [openKeyFile, readKey, whenConf, view, hret, hconf, hname, configKey, hopens, hread,
            State.acquire]
      · simp [openKeyFile, readKey, whenConf, view, hret, hconf, hname, configKey, hopens, free]

end Views

section Run
variable {env : SignConfigEnv} {config sect : List Byte} {s : State} {c : Option (Handle × Conf)}

theorem readFiles_spec (h : Ready c afterConfig s) :
    Ready c [.keyFile, .caKey] (readFiles env sect s) ∧
      ∀ k conf, c = some (k, conf) →
        (readFiles env sect s).view = s.view.bind (filesView env.toCaEnv conf sect) := by
  have hOutDir := h.move (@setOutDir_move env sect _) (by decide)
  have hDataBase := hOutDir.move (@openDataBase_move env sect _) (by decide)
  have hCa := hDataBase.move (@loadCertificate_move env sect _) (by decide)
  have hUnique := hCa.keep (@setUnique_move sect _ .certSign) (by decide)
  have hSerial := hUnique.move (@openSerial_move env sect _) (by decide)
  have hRand := hSerial.move (@openRandFile_move env sect _) (by decide)
  have hDefaults := hRand.keep (@setDefaults_move env sect _ .certSign) (by decide)
  refine ⟨hDefaults, ?_⟩
  rintro k conf rfl
  rw [readFiles, setDefaults_view hRand.conf, openRandFile_view hSerial.conf,
    openSerial_view hUnique.conf, setUnique_view hCa.conf, loadCertificate_view hDataBase.conf,
    openDataBase_view hOutDir.conf, setOutDir_view h.conf]
  cases s.view with
  | none => rfl
  | some v =>
    simp only [Option.bind_some, filesView, Option.bind_eq_bind]
    cases (value conf sect "new_certs_dir").or (value conf sect "certs") with
    | none => rfl
    | some dir =>
      cases happend : v.1.appendOut env.outAlloc (some dir) with
      | error e => simp [happend, Except.toOption]
      | ok signer =>
        cases openIfGiven env.dataBaseOpens (value conf sect "database") with
        | none => simp [happend, Except.toOption]
        | some dataBase =>
          cases loadIfGiven env.certificatePem (value conf sect "certificate") with
          | none => simp [happend, Except.toOption]
          | some ca =>
            cases openIfGiven env.serialOpens (value conf sect "serial") with
            | none => simp [happend, Except.toOption]
            | some serialFile => simp [happend, Except.toOption]

theorem readSettings_spec (h : Ready c afterConfig s) :
    Ready c [.keyFile] (readSettings env sect s) ∧
      ∀ k conf, c = some (k, conf) →
        (readSettings env sect s).view = s.view.bind (settingsView env.toCaEnv conf sect) := by
  obtain ⟨hfiles, hview⟩ := @readFiles_spec env sect s c h
  have hOpened := hfiles.move (@openKeyFile_move env sect _) (by decide)
  have hKey := hOpened.move (@readKey_move env sect _) (by decide)
  have hClosed : Ready c [.keyFile] (closeKeyFile (readKey env sect (openKeyFile env sect
      (readFiles env sect s)))) :=
    ⟨closeKeyFile_inv hKey.inv, hKey.conf, by simp [closeKeyFile, State.slot]⟩
  refine ⟨hClosed.keep (@setPolicy_move sect _ .certSign) (by decide), ?_⟩
  rintro k conf rfl
  have hfile : (readFiles env sect s).keyFile = none := hfiles.pending .keyFile (by decide)
  have hcaKey : (readFiles env sect s).caKey = none :=
    Option.map_eq_none_iff.mp (hfiles.pending .caKey (by decide))
  rw [readSettings, setPolicy_view hClosed.conf, closeKeyFile_view,
    loadKey_view hfiles.conf hfile hcaKey, hview k conf rfl, Option.bind_assoc, Option.bind_assoc]
  congr 1
  funext v
  rw [settingsView]
  congr 1
  funext v
  cases configKey env.toCaEnv (value conf sect "private_key") <;> rfl

theorem whenConf_null {f : Conf → Signer → State → State} (h : s.conf = none) :
    s.whenConf f = s := by
  unfold State.whenConf
  split
  · rename_i hconf
    rw [h] at hconf
    cases hconf
  · rfl

theorem readSettings_null (h : s.conf = none) :
    (readSettings env sect s).ret = s.ret := by
  have hclosed : (closeKeyFile s).conf = none := h
  simp only [readSettings, readFiles, setOutDir, openDataBase, loadCertificate, setUnique, openSerial,
    openRandFile, setDefaults, openKeyFile, readKey, setPolicy, whenConf_null h, whenConf_null hclosed]
  rfl

structure Loads (env : SignConfigEnv) (config : List Byte) (conf : Conf) : Prop where
  signer : env.signerAlloc = true
  memory : env.confAlloc = true
  file : env.loadConf config = some conf

theorem openConfig_loads {conf : Conf} (h : Loads env config conf) :
    ∃ k, (openConfig env config).conf = some (k, conf) ∧
      (openConfig env config).view =
        some (CertSign.new.setConfig (confFile env.toCaEnv conf), none, none) := by
  refine ⟨1, ?_⟩
  simp [openConfig, certSignNew, newConfig, loadConfig, State.whenSigner, h.signer, h.memory, h.file,
    State.acquire, State.setSigner, State.view, State.null, Heap.empty]

theorem openConfig_refused (h : ∀ conf, ¬ Loads env config conf) :
    (openConfig env config).ret = none ∧ (openConfig env config).conf = none := by
  by_cases hsigner : env.signerAlloc = true
  · by_cases hconfig : env.confAlloc = true
    · cases hfile : env.loadConf config with
      | some conf => exact absurd ⟨hsigner, hconfig, hfile⟩ (h conf)
      | none =>
        simp [openConfig, certSignNew, newConfig, loadConfig, State.whenSigner, hsigner, hconfig, hfile,
          State.acquire, State.setSigner, State.free, State.null]
    · simp [openConfig, certSignNew, newConfig, loadConfig, State.whenSigner, hsigner, hconfig,
        State.acquire, State.setSigner, State.free, State.null]
  · simp [openConfig, certSignNew, newConfig, loadConfig, State.whenSigner, hsigner, State.null]

structure SettingsAccepted (env : CaEnv) (conf : Conf) (sect : List Byte) : Prop where
  dir : (value conf sect "new_certs_dir").or (value conf sect "certs") ≠ none
  memory : env.outAlloc = true
  dataBase : ∀ name, value conf sect "database" = some name → env.dataBaseOpens name = true
  certificate : ∀ name, value conf sect "certificate" = some name → env.certificatePem name ≠ none
  serial : ∀ name, value conf sect "serial" = some name → env.serialOpens name = true
  keyFile : ∀ name, value conf sect "private_key" = some name → env.fileOpens name = true

theorem openIfGiven_none {opens : List Byte → Bool} {name : Option (List Byte)} :
    openIfGiven opens name ≠ none ↔ ∀ n, name = some n → opens n = true := by
  cases name with
  | none => simp [openIfGiven]
  | some n => simp [openIfGiven]

theorem loadIfGiven_none {α : Type} {load : List Byte → Option α} {name : Option (List Byte)} :
    loadIfGiven load name ≠ none ↔ ∀ n, name = some n → load n ≠ none := by
  cases name with
  | none => simp [loadIfGiven]
  | some n => simp [loadIfGiven]

theorem configKey_none {env : CaEnv} {name : Option (List Byte)} :
    configKey env name ≠ none ↔ ∀ n, name = some n → env.fileOpens n = true := by
  cases name with
  | none => simp [configKey]
  | some n => simp [configKey]

theorem configKey_some {env : CaEnv} {name : Option (List Byte)} {key : Option PKey}
    (h : configKey env name = some key) : key = name.bind env.privateKey := by
  cases name with
  | none => exact (Option.some.inj h).symm
  | some n =>
    simp only [configKey] at h
    split at h
    · exact (Option.some.inj h).symm
    · cases h

theorem appendOut_none {alloc : Bool} {csign : CertSign} {dir : List Byte} :
    (csign.appendOut alloc (some dir)).toOption ≠ none ↔ alloc = true := by
  cases alloc <;> simp [CertSign.appendOut, Except.toOption]

theorem settingsView_accepted {env : CaEnv} {conf : Conf} {v : Settings} :
    settingsView env conf sect v ≠ none ↔ SettingsAccepted env conf sect := by
  constructor
  · intro h
    obtain ⟨v', hv'⟩ := Option.ne_none_iff_exists'.mp h
    simp only [settingsView, filesView, Option.bind_eq_bind, Option.bind_eq_some_iff,
      Option.map_eq_some_iff] at hv'
    obtain ⟨_, ⟨dir, hdir, signer, hsigner, dataBase, hdataBase, ca, hca, serial, hserial, _⟩, key,
      hkey, _⟩ := hv'
    refine ⟨?_, (@appendOut_none _ v.1 dir).mp ?_, openIfGiven_none.mp ?_, loadIfGiven_none.mp ?_,
      openIfGiven_none.mp ?_, configKey_none.mp ?_⟩
    · simp [hdir]
    · simp [hsigner]
    · simp [hdataBase]
    · simp [hca]
    · simp [hserial]
    · simp [hkey]
  · intro h
    obtain ⟨dir, hdir⟩ := Option.ne_none_iff_exists'.mp h.dir
    obtain ⟨signer, hsigner⟩ := Option.ne_none_iff_exists'.mp
      ((@appendOut_none env.outAlloc v.1 dir).mpr h.memory)
    obtain ⟨dataBase, hdataBase⟩ := Option.ne_none_iff_exists'.mp (openIfGiven_none.mpr h.dataBase)
    obtain ⟨ca, hca⟩ := Option.ne_none_iff_exists'.mp (loadIfGiven_none.mpr h.certificate)
    obtain ⟨serial, hserial⟩ := Option.ne_none_iff_exists'.mp (openIfGiven_none.mpr h.serial)
    obtain ⟨key, hkey⟩ := Option.ne_none_iff_exists'.mp (configKey_none.mpr h.keyFile)
    simp [settingsView, filesView, hdir, hsigner, hdataBase, hca, hserial, hkey]

theorem settingsView_key {env : CaEnv} {conf : Conf} {v v' : Settings}
    (h : settingsView env conf sect v = some v') :
    v'.2.2 = (value conf sect "private_key").bind env.privateKey := by
  simp only [settingsView, Option.bind_eq_some_iff, Option.map_eq_some_iff] at h
  obtain ⟨_, _, key, hkey, rfl⟩ := h
  exact configKey_some hkey

theorem setCA_value (s : State) : (setCA s).ret.map Signer.csign =
    s.view.map fun v => v.1.setCA v.2.1 v.2.2 (getTypeFromPKey v.2.2) := by
  cases hret : s.ret with
  | none => simp [setCA, State.whenSigner, State.view, hret]
  | some signer => simp [setCA, State.whenSigner, State.view, hret]

theorem cleanup_ret (s : State) : (cleanup s).ret = s.ret := by
  unfold cleanup
  split
  · rfl
  · rfl

theorem appendOut_files {alloc : Bool} {csign signer : CertSign} {out : Option (List Byte)}
    (h : csign.appendOut alloc out = .ok signer) :
    signer.dataBase = csign.dataBase ∧ signer.serialFile = csign.serialFile := by
  simp only [CertSign.appendOut] at h
  split at h
  · cases h
    exact ⟨rfl, rfl⟩
  · split at h
    · cases h
      exact ⟨rfl, rfl⟩
    · cases h

theorem settingsView_value {env : CaEnv} {conf : Conf} (hsigner : env.signerAlloc = true)
    (hfile : env.loadConf config = some conf) :
    WolfCLU.readSignConfig env config sect =
      (settingsView env conf sect (CertSign.new.setConfig (confFile env conf), none, none)).map fun v =>
        v.1.setCA v.2.1 v.2.2 (getTypeFromPKey v.2.2) := by
  have hget : ∀ key, conf ((conf sect (str "default_ca")).getD sect) (str key) = value conf sect key :=
    fun _ => rfl
  simp only [WolfCLU.readSignConfig, hsigner, if_true, hfile, Option.bind_eq_bind, Option.bind_some,
    settingsView, filesView, hget]
  cases (value conf sect "new_certs_dir").or (value conf sect "certs") with
  | none => rfl
  | some dir =>
    cases happend : (CertSign.new.setConfig (confFile env conf)).appendOut env.outAlloc (some dir) with
    | error e => simp [happend, Except.toOption]
    | ok signer =>
      obtain ⟨hdataBase, hserialFile⟩ := appendOut_files happend
      have hdb : signer.dataBase = false := hdataBase
      have hsf : signer.serialFile = false := hserialFile
      have hsome : ((CertSign.new.setConfig (confFile env conf)).appendOut env.outAlloc (some dir)).toOption =
          some signer := by
        rw [happend]
        rfl
      simp only [hsome, Option.bind_some]
      cases openIfGiven env.dataBaseOpens (value conf sect "database") with
      | none => rfl
      | some dataBase =>
        cases loadIfGiven env.certificatePem (value conf sect "certificate") with
        | none => rfl
        | some ca =>
          cases openIfGiven env.serialOpens (value conf sect "serial") with
          | none => rfl
          | some serialFile =>
            cases configKey env (value conf sect "private_key") with
            | none => rfl
            | some key =>
              simp [CertSign.configure, hdb, hsf, value, caSection]

theorem readSignConfig_refines (env : SignConfigEnv) (config sect : List Byte) :
    (readSignConfig env config sect).ret.map Signer.csign =
      if env.confAlloc then WolfCLU.readSignConfig env.toCaEnv config sect else none := by
  rw [readSignConfig, cleanup_ret, setCA_value]
  by_cases hloads : ∃ conf, Loads env config conf
  · obtain ⟨conf, hloads⟩ := hloads
    obtain ⟨k, hconf, hview⟩ := openConfig_loads hloads
    have hready := openConfig_ready env config
    rw [(@readSettings_spec env sect _ _ hready).2 k conf hconf, hview, Option.bind_some,
      if_pos hloads.memory, settingsView_value hloads.signer hloads.file]
  · obtain ⟨hret, hconf⟩ := openConfig_refused fun conf h => hloads ⟨conf, h⟩
    have hnone : (readSettings env sect (openConfig env config)).view = none := by
      rw [State.view, readSettings_null hconf, hret]
      rfl
    rw [hnone, Option.map_none]
    split
    · rename_i hmemory
      cases hfile : env.loadConf config with
      | none => simp [WolfCLU.readSignConfig, hfile]
      | some conf =>
        have hsigner : ¬ env.signerAlloc = true := fun hsigner => hloads ⟨conf, hsigner, hmemory, hfile⟩
        simp [WolfCLU.readSignConfig, hsigner]
    · rfl

end Run

end WolfCLU.SignConfig
