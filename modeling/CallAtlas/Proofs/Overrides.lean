import CallAtlas.Command
import CallAtlas.Proofs.EnvFiles
import Mathlib

/-!
Settings that the command line and the environment both speak about. A flag goes before its
variable only once the variable has been read: the value of the variable is not used, but a value
that cannot be read makes the settings fail all the same. A file of settings that refers to the
variable may carry its value into other settings, where no flag stops it.
-/

set_option autoImplicit false

namespace CallAtlas

open CommandLine (Request)
open Command (override settingsFor)

/-- The environment that settings are read from, once a file of settings is taken in. -/
def TakesIn (loader : Loader) (fs : FileSystem) (request : Request) (env seen : Environment) :
    Prop :=
  (loader fs env request.envFile).environment = .ok seen

/-- The settings of a request in an environment that has the file of settings in it. -/
def Settings.within (request : Request) (env : Environment) : Except SettingsError Settings :=
  (ofEnvironment env).bind (override request)

theorem settingsFor_of_takesIn {loader : Loader} {fs : FileSystem} {request : Request}
    {env seen : Environment} (h : TakesIn loader fs request env seen) :
    (settingsFor loader fs env request).2 = Settings.within request seen := by
  have hload : (loader fs env request.envFile).environment = .ok seen := h
  simp only [settingsFor, Settings.load, hload]
  rfl

theorem settingsFor_of_fault {loader : Loader} {fs : FileSystem} {request : Request}
    {env : Environment} {fault : LoadFault}
    (h : (loader fs env request.envFile).environment = .error fault) :
    (settingsFor loader fs env request).2 = .error (.file fault) := by
  simp only [settingsFor, Settings.load, h]
  rfl

def Environment.without (env : Environment) (name : String) : Environment :=
  env.filter (fun e => e.1 != name)

theorem Environment.get?_without_self (env : Environment) (name : String) :
    (env.without name).get? name = none := by
  simp [Environment.without, Environment.get?, List.find?_filter]

theorem Environment.agreesExcept_without (env : Environment) (name : String) :
    env.AgreesExcept name (env.without name) := by
  intro other hother
  have hsame : (fun e : String × String => decide ((e.1 != name) = true ∧ (e.1 == other) = true)) =
      fun e => e.1 == other := by
    funext e
    by_cases h : e.1 = other
    · simp [h, hother]
    · simp [h]
  simp only [Environment.without, Environment.get?, List.find?_filter, hsame]

/-- A setting with a flag and a variable of its own. -/
inductive Overridable where
  | variant
  | workers
  | logLevel

namespace Overridable

def variableName : Overridable → String
  | .variant => "FUNCGRAPH_VARIANT"
  | .workers => "FUNCGRAPH_WORKERS"
  | .logLevel => "FUNCGRAPH_LOG_LEVEL"

/-- The flag is there, with a value that is not empty. -/
def IsGiven (request : Request) : Overridable → Prop
  | .variant => (present? request.variant).isSome = true
  | .workers => request.workers.isSome = true
  | .logLevel => (present? request.logLevel).isSome = true

/-- The variable has a value that settings can be made of, or none. -/
def Accepts : Overridable → Option String → Prop
  | _, none => True
  | .variant, some text => (Detail.ofName? text).isSome = true
  | .workers, some text => ∃ n, Text.readInteger text = .ok n ∧ 1 ≤ n
  | .logLevel, some _ => True

end Overridable

namespace Settings

theorem integerOr_congr {env env' : Environment} {name : String}
    (h : env.get? name = env'.get? name) (default : Int) :
    integerOr env name default = integerOr env' name default := by
  unfold integerOr
  rw [h]

theorem accepts_workers_iff (env : Environment) :
    Overridable.workers.Accepts (env.get? "FUNCGRAPH_WORKERS") ↔
      ∃ n, integerOr env "FUNCGRAPH_WORKERS" 1 = .ok n ∧ 1 ≤ n := by
  unfold integerOr
  cases env.get? "FUNCGRAPH_WORKERS" with
  | none => simp [Overridable.Accepts]
  | some text =>
    cases hread : Text.readInteger text with
    | ok n => simp [Overridable.Accepts, hread]
    | error e => simp [Overridable.Accepts, hread]

theorem accepts_variant_iff (env : Environment) :
    Overridable.variant.Accepts (env.get? "FUNCGRAPH_VARIANT") ↔
      ∃ d, Detail.ofName? ((env.get? "FUNCGRAPH_VARIANT").getD "rich") = some d := by
  cases env.get? "FUNCGRAPH_VARIANT" with
  | none => simp [Overridable.Accepts, Detail.ofName?]
  | some text => simp [Overridable.Accepts, Option.isSome_iff_exists]

theorem within_eq (request : Request) (env : Environment) :
    within request env =
      (integerOr env "FUNCGRAPH_MAX_FILE_SIZE" 5000000).bind (fun maxFileSize =>
        (integerOr env "FUNCGRAPH_WORKERS" 1).bind (fun workers =>
          (make ((env.get? "FUNCGRAPH_VARIANT").getD "rich") maxFileSize workers
            (Text.upper ((env.get? "FUNCGRAPH_LOG_LEVEL").getD "WARNING"))
            (ignoreList ((env.get? "FUNCGRAPH_IGNORE").getD ""))).bind (override request))) := by
  unfold within ofEnvironment
  cases integerOr env "FUNCGRAPH_MAX_FILE_SIZE" 5000000 with
  | error e => rfl
  | ok size =>
    cases integerOr env "FUNCGRAPH_WORKERS" 1 with
    | error e => rfl
    | ok workers => rfl

theorem make_eq_ok_iff (detail : String) (maxFileSize workers : Int) (logLevel : String)
    (ignore : List String) (s : Settings) :
    make detail maxFileSize workers logLevel ignore = .ok s ↔
      ∃ d, Detail.ofName? detail = some d ∧ 1 ≤ workers ∧
        s = ⟨d, maxFileSize, workers, logLevel, ignore⟩ := by
  unfold make
  cases Detail.ofName? detail with
  | none => simp
  | some d =>
    by_cases hlow : workers < 1
    · simp only [hlow, if_true, reduceCtorEq, false_iff]
      rintro ⟨_, _, hone, _⟩
      omega
    · have hone : 1 ≤ workers := by omega
      simp [hlow, hone, eq_comm]

/-- The environment gives settings by itself, and the flags change nothing but what they name. -/
theorem within_eq_ok_iff (request : Request) (env : Environment) (s : Settings) :
    within request env = .ok s ↔
      ∃ size workers d d', integerOr env "FUNCGRAPH_MAX_FILE_SIZE" 5000000 = .ok size ∧
        integerOr env "FUNCGRAPH_WORKERS" 1 = .ok workers ∧ 1 ≤ workers ∧
        Detail.ofName? ((env.get? "FUNCGRAPH_VARIANT").getD "rich") = some d ∧
        Detail.ofName? ((present? request.variant).getD d.name) = some d' ∧
        1 ≤ request.workers.getD workers ∧
        s = ⟨d', size, request.workers.getD workers,
          Text.upper ((present? request.logLevel).getD
            (Text.upper ((env.get? "FUNCGRAPH_LOG_LEVEL").getD "WARNING"))),
          ignoreList ((env.get? "FUNCGRAPH_IGNORE").getD "")⟩ := by
  rw [within_eq]
  cases integerOr env "FUNCGRAPH_MAX_FILE_SIZE" 5000000 with
  | error e => simp [Except.bind]
  | ok size =>
    cases integerOr env "FUNCGRAPH_WORKERS" 1 with
    | error e => simp [Except.bind]
    | ok workers =>
      simp only [Except.bind, Except.ok.injEq]
      cases hmake : make ((env.get? "FUNCGRAPH_VARIANT").getD "rich") size workers
          (Text.upper ((env.get? "FUNCGRAPH_LOG_LEVEL").getD "WARNING"))
          (ignoreList ((env.get? "FUNCGRAPH_IGNORE").getD "")) with
      | error e =>
        simp only [reduceCtorEq, false_iff]
        rintro ⟨_, _, d, d', rfl, rfl, hone, hd, _⟩
        rw [(make_eq_ok_iff ..).mpr ⟨d, hd, hone, rfl⟩] at hmake
        cases hmake
      | ok t =>
        obtain ⟨d, hd, hone, rfl⟩ := (make_eq_ok_iff ..).mp hmake
        simp only [override, make_eq_ok_iff]
        constructor
        · rintro ⟨d', hd', hflag, rfl⟩
          exact ⟨_, _, d, d', rfl, rfl, hone, hd, hd', hflag, rfl⟩
        · rintro ⟨_, _, _, d', rfl, rfl, _, hsame, hd', hflag, rfl⟩
          obtain rfl := Option.some.inj (hd.symm.trans hsame)
          exact ⟨d', hd', hflag, rfl⟩

/-- Settings come only from variables that are all accepted, whatever the flags say. -/
theorem accepts_of_within {request : Request} {env : Environment} {s : Settings}
    (h : within request env = .ok s) (setting : Overridable) :
    setting.Accepts (env.get? setting.variableName) := by
  obtain ⟨_, workers, d, _, _, hworkers, hone, hdetail, _⟩ := (within_eq_ok_iff ..).mp h
  cases setting with
  | variant => exact (accepts_variant_iff env).mpr ⟨d, hdetail⟩
  | workers => exact (accepts_workers_iff env).mpr ⟨workers, hworkers, hone⟩
  | logLevel =>
    cases env.get? Overridable.logLevel.variableName with
    | none => trivial
    | some text => trivial

section Given

variable {request : Request}

theorem make_override_workers (hgiven : request.workers.isSome = true) {workers workers' : Int}
    (h : 1 ≤ workers) (h' : 1 ≤ workers') (detail : String) (maxFileSize : Int)
    (logLevel : String) (ignore : List String) :
    (make detail maxFileSize workers logLevel ignore).bind (override request) =
      (make detail maxFileSize workers' logLevel ignore).bind (override request) := by
  obtain ⟨n, hn⟩ := Option.isSome_iff_exists.mp hgiven
  have hlow : ¬ workers < 1 := by omega
  have hlow' : ¬ workers' < 1 := by omega
  cases hd : Detail.ofName? detail with
  | none => simp [make, hd, Except.bind]
  | some d => simp [make, hd, hlow, hlow', Except.bind, override, hn]

theorem make_override_variant (hgiven : (present? request.variant).isSome = true)
    {detail detail' : String} {d d' : Detail} (h : Detail.ofName? detail = some d)
    (h' : Detail.ofName? detail' = some d') (maxFileSize workers : Int) (logLevel : String)
    (ignore : List String) :
    (make detail maxFileSize workers logLevel ignore).bind (override request) =
      (make detail' maxFileSize workers logLevel ignore).bind (override request) := by
  obtain ⟨name, hname⟩ := Option.isSome_iff_exists.mp hgiven
  by_cases hlow : workers < 1
  · simp [make, h, h', hlow, Except.bind]
  · simp [make, h, h', hlow, Except.bind, override, hname]

theorem make_override_logLevel (hgiven : (present? request.logLevel).isSome = true)
    (detail : String) (maxFileSize workers : Int) (logLevel logLevel' : String)
    (ignore : List String) :
    (make detail maxFileSize workers logLevel ignore).bind (override request) =
      (make detail maxFileSize workers logLevel' ignore).bind (override request) := by
  obtain ⟨name, hname⟩ := Option.isSome_iff_exists.mp hgiven
  cases hd : Detail.ofName? detail with
  | none => simp [make, hd, Except.bind]
  | some d =>
    by_cases hlow : workers < 1
    · simp [make, hd, hlow, Except.bind]
    · simp [make, hd, hlow, Except.bind, override, hname]

end Given

/-- Where both values of a variable are accepted, its flag decides alone. -/
theorem within_eq_of_accepts {setting : Overridable} {request : Request}
    (hgiven : setting.IsGiven request) {env env' : Environment}
    (hagrees : env.AgreesExcept setting.variableName env')
    (haccepts : setting.Accepts (env.get? setting.variableName))
    (haccepts' : setting.Accepts (env'.get? setting.variableName)) :
    within request env = within request env' := by
  rw [within_eq, within_eq]
  cases setting with
  | variant =>
    obtain ⟨d, hd⟩ := (accepts_variant_iff env).mp haccepts
    obtain ⟨d', hd'⟩ := (accepts_variant_iff env').mp haccepts'
    rw [integerOr_congr (hagrees "FUNCGRAPH_MAX_FILE_SIZE" (by decide)),
      integerOr_congr (hagrees "FUNCGRAPH_WORKERS" (by decide)),
      hagrees "FUNCGRAPH_LOG_LEVEL" (by decide), hagrees "FUNCGRAPH_IGNORE" (by decide)]
    simp only [make_override_variant hgiven hd hd']
  | workers =>
    obtain ⟨n, hn, hone⟩ := (accepts_workers_iff env).mp haccepts
    obtain ⟨n', hn', hone'⟩ := (accepts_workers_iff env').mp haccepts'
    rw [integerOr_congr (hagrees "FUNCGRAPH_MAX_FILE_SIZE" (by decide)), hn, hn',
      hagrees "FUNCGRAPH_VARIANT" (by decide), hagrees "FUNCGRAPH_LOG_LEVEL" (by decide),
      hagrees "FUNCGRAPH_IGNORE" (by decide)]
    have hread : ∀ (k : Int) (next : Int → Except SettingsError Settings),
        (Except.ok k).bind next = next k := fun _ _ => rfl
    simp only [hread, make_override_workers hgiven hone hone']
  | logLevel =>
    rw [integerOr_congr (hagrees "FUNCGRAPH_MAX_FILE_SIZE" (by decide)),
      integerOr_congr (hagrees "FUNCGRAPH_WORKERS" (by decide)),
      hagrees "FUNCGRAPH_VARIANT" (by decide), hagrees "FUNCGRAPH_IGNORE" (by decide)]
    simp only [make_override_logLevel hgiven _ _ _
      (Text.upper ((env.get? "FUNCGRAPH_LOG_LEVEL").getD "WARNING"))
      (Text.upper ((env'.get? "FUNCGRAPH_LOG_LEVEL").getD "WARNING"))]

end Settings

/-- The value of the variable is accepted where the settings are read: its own value in the
environment, or else what a file of settings gives it. -/
def Overridable.AcceptedIn (setting : Overridable) (loader : Loader) (fs : FileSystem)
    (request : Request) (env : Environment) : Prop :=
  ∀ seen, TakesIn loader fs request env seen →
    setting.Accepts (seen.get? setting.variableName)

section Overriding

variable {loader : Loader} {fs : FileSystem} {setting : Overridable} {request : Request}

theorem settingsFor_eq_within_without (hgiven : setting.IsGiven request) {env seen : Environment}
    (hseen : TakesIn loader fs request env seen)
    (haccepts : setting.Accepts (seen.get? setting.variableName)) :
    (settingsFor loader fs env request).2 =
      Settings.within request (seen.without setting.variableName) := by
  rw [settingsFor_of_takesIn hseen]
  apply Settings.within_eq_of_accepts hgiven (seen.agreesExcept_without _) haccepts
  rw [Environment.get?_without_self]
  cases setting with
  | _ => trivial

theorem accepts_of_settingsFor {env seen : Environment} {s : Settings}
    (hseen : TakesIn loader fs request env seen)
    (h : (settingsFor loader fs env request).2 = .ok s) (setting : Overridable) :
    setting.Accepts (seen.get? setting.variableName) := by
  rw [settingsFor_of_takesIn hseen] at h
  exact Settings.accepts_of_within h setting

/-- A file that overlooks the variable leaves the say to the flag. -/
theorem settingsFor_eq_of_overlooks (hgiven : setting.IsGiven request) {env env' : Environment}
    (hagrees : env.AgreesExcept setting.variableName env')
    (hoverlooks : loader.Overlooks fs request.envFile setting.variableName)
    (haccepted : setting.AcceptedIn loader fs request env)
    (haccepted' : setting.AcceptedIn loader fs request env') :
    (settingsFor loader fs env request).2 = (settingsFor loader fs env' request).2 := by
  cases hload : (loader fs env request.envFile).environment with
  | error fault =>
    rw [settingsFor_of_fault hload, settingsFor_of_fault (hoverlooks.fails hagrees hload)]
  | ok seen =>
    cases hload' : (loader fs env' request.envFile).environment with
    | error fault =>
      rw [hoverlooks.fails hagrees.symm hload'] at hload
      cases hload
    | ok seen' =>
      rw [settingsFor_of_takesIn hload, settingsFor_of_takesIn hload']
      exact Settings.within_eq_of_accepts hgiven (hoverlooks.agrees hagrees hload hload')
        (haccepted seen hload) (haccepted' seen' hload')

end Overriding

/-- What a flag makes of its variable. The value that is judged is the one in the environment or,
without any, the one in the file of settings. A value that is accepted is then forgotten, and one
that is not makes the settings fail. So for two environments that differ in the variable only and a
file that overlooks it, accepted values give one outcome, and where one environment gives settings,
the other gives the same if and only if its value is accepted. A file that refers to the variable
may carry it into other settings: the outcomes are then the same exactly if the settings are that
are read without the variable. -/
theorem flag_overrides_iff_accepted {loader : Loader} (hkeeps : loader.KeepsVariables)
    {setting : Overridable} {request : Request} (hgiven : setting.IsGiven request)
    {fs : FileSystem} {env env' : Environment}
    (hagrees : env.AgreesExcept setting.variableName env') :
    (∀ seen, TakesIn loader fs request env seen →
      (∀ value, env.get? setting.variableName = some value →
        seen.get? setting.variableName = some value) ∧
      (setting.Accepts (seen.get? setting.variableName) →
        (settingsFor loader fs env request).2 =
          Settings.within request (seen.without setting.variableName)) ∧
      (¬ setting.Accepts (seen.get? setting.variableName) →
        ∃ e, (settingsFor loader fs env request).2 = .error e)) ∧
    (loader.Overlooks fs request.envFile setting.variableName →
      (setting.AcceptedIn loader fs request env → setting.AcceptedIn loader fs request env' →
        (settingsFor loader fs env request).2 = (settingsFor loader fs env' request).2) ∧
      ∀ s, (settingsFor loader fs env' request).2 = .ok s →
        ((settingsFor loader fs env request).2 = (settingsFor loader fs env' request).2 ↔
          setting.AcceptedIn loader fs request env)) ∧
    ∀ seen seen', TakesIn loader fs request env seen → TakesIn loader fs request env' seen' →
      setting.Accepts (seen.get? setting.variableName) →
      setting.Accepts (seen'.get? setting.variableName) →
      ((settingsFor loader fs env request).2 = (settingsFor loader fs env' request).2 ↔
        Settings.within request (seen.without setting.variableName) =
          Settings.within request (seen'.without setting.variableName)) := by
  refine ⟨?_, ?_, ?_⟩
  · intro seen hseen
    refine ⟨hkeeps fs env _ seen hseen _, settingsFor_eq_within_without hgiven hseen, ?_⟩
    intro hrefused
    cases houtcome : (settingsFor loader fs env request).2 with
    | error e => exact ⟨e, rfl⟩
    | ok s => exact absurd (accepts_of_settingsFor hseen houtcome setting) hrefused
  · intro hoverlooks
    have hsame := settingsFor_eq_of_overlooks hgiven hagrees hoverlooks
    refine ⟨hsame, fun s hs => ⟨fun heq seen hseen => ?_, fun haccepted => ?_⟩⟩
    · exact accepts_of_settingsFor hseen (heq.trans hs) setting
    · exact hsame haccepted (fun seen' hseen' => accepts_of_settingsFor hseen' hs setting)
  · intro seen seen' hseen hseen' haccepts haccepts'
    rw [settingsFor_eq_within_without hgiven hseen haccepts,
      settingsFor_eq_within_without hgiven hseen' haccepts']

theorem Text.upper_of_capitals {s : String}
    (h : ∀ c ∈ s.toList, 0x41 ≤ c.toNat ∧ c.toNat ≤ 0x5A) : Text.upper s = s := by
  have hexpansions : ∀ e ∈ Text.caseExpansions.toList, 0x5A < e.1 := by decide +kernel
  have hruns : ∀ r ∈ Text.caseRuns.toList, 0x5A < r.first := by decide +kernel
  have hkept : ∀ c ∈ s.toList, Text.upperChar c = [c] := by
    intro c hc
    have hc := h c hc
    have hnone : Text.caseExpansions.find? (fun e => e.1 == c.toNat) = none := by
      rw [Array.find?_eq_none]
      intro e he
      have := hexpansions e (Array.mem_toList_iff.mpr he)
      simp
      omega
    have hnone' : Text.caseRuns.find? (fun r => r.holds c.toNat) = none := by
      rw [Array.find?_eq_none]
      intro r hr
      have := hruns r (Array.mem_toList_iff.mpr hr)
      simp [Text.CaseRun.holds]
      omega
    simp [Text.upperChar, hnone, hnone']
  have hflat : s.toList.flatMap Text.upperChar = s.toList.flatMap (fun c => [c]) :=
    List.flatMap_congr hkept
  rw [Text.upper, hflat, List.flatMap_singleton', String.ofList_toList]

/-- With nothing in the environment and no file, the command line alone makes the settings. -/
theorem settingsFor_nil {loader : Loader} {fs : FileSystem} {request : Request}
    (h : loader.FindsNoFile fs [] request.envFile) :
    (settingsFor loader fs [] request).2 =
      Settings.make ((present? request.variant).getD "rich") 5000000 (request.workers.getD 1)
        (Text.upper ((present? request.logLevel).getD "WARNING")) [] := by
  have hupper : Text.upper "WARNING" = "WARNING" := Text.upper_of_capitals (by simp)
  have hignore : Settings.ignoreList "" = [] := by cbv
  have htaken : TakesIn loader fs request [] [] := congrArg Loaded.environment h
  rw [settingsFor_of_takesIn htaken]
  simp [Settings.within_eq, Settings.integerOr, Environment.get?, Settings.make, Detail.ofName?,
    Except.bind, override, hupper, hignore, Detail.name]

/-- One file of settings speaks of a level, and the other one refers to the number of workers. -/
def settingsFiles : FileSystem :=
  ⟨.directory
    [("level.env", .file "FUNCGRAPH_LOG_LEVEL=DEBUG".toUTF8),
      ("ignore.env", .file "FUNCGRAPH_IGNORE=$\x7bFUNCGRAPH_WORKERS\x7d".toUTF8)], [], []⟩

def twoWorkersRequest (envFile : Option String) : Request :=
  { path := "a.js", workers := some 2, envFile }

theorem agreesExcept_workers (count count' : String) :
    Environment.AgreesExcept Overridable.workers.variableName
      [("FUNCGRAPH_WORKERS", count)] [("FUNCGRAPH_WORKERS", count')] := by
  intro name hname
  have hne : ("FUNCGRAPH_WORKERS" == name) = false := beq_eq_false_iff_ne.mpr (Ne.symm hname)
  simp [Environment.get?, hne]

theorem loader_overlooks_level :
    EnvFile.loader.Overlooks settingsFiles (some "level.env") "FUNCGRAPH_WORKERS" := by
  have hread : settingsFiles.read "level.env" = .ok "FUNCGRAPH_LOG_LEVEL=DEBUG".toUTF8 := by cbv
  have hlevel : EnvFile.read "FUNCGRAPH_LOG_LEVEL=DEBUG".toUTF8.data.toList =
      .ok ⟨[("FUNCGRAPH_LOG_LEVEL", some "DEBUG")], []⟩ := by decide +kernel
  have hcontents := EnvFile.contentsAt_of_read (by decide) hread hlevel
  apply EnvFile.loader_overlooks
  intro contents h
  obtain rfl := Except.ok.inj (hcontents.symm.trans h)
  decide +kernel

theorem takesIn_ignore {count : String} {seen : Environment}
    (h : EnvFile.apply [("FUNCGRAPH_WORKERS", count)]
      [("FUNCGRAPH_IGNORE", some "$\x7bFUNCGRAPH_WORKERS\x7d")] = .ok seen) :
    TakesIn EnvFile.loader settingsFiles (twoWorkersRequest (some "ignore.env"))
      [("FUNCGRAPH_WORKERS", count)] seen := by
  have hread : settingsFiles.read "ignore.env" =
      .ok "FUNCGRAPH_IGNORE=$\x7bFUNCGRAPH_WORKERS\x7d".toUTF8 := by cbv
  have hignore : EnvFile.read "FUNCGRAPH_IGNORE=$\x7bFUNCGRAPH_WORKERS\x7d".toUTF8.data.toList =
      .ok ⟨[("FUNCGRAPH_IGNORE", some "$\x7bFUNCGRAPH_WORKERS\x7d")], []⟩ := by decide +kernel
  have hcontents := EnvFile.contentsAt_of_read (by decide) hread hignore
  simp [TakesIn, twoWorkersRequest, EnvFile.loader, hcontents, EnvFile.takeIn, h]

theorem exists_within_ignore (envFile : Option String) (ignored : String) :
    ∃ s, Settings.within (twoWorkersRequest envFile) [("FUNCGRAPH_IGNORE", ignored)] = .ok s ∧
      s.ignore = Settings.ignoreList ignored := by
  refine ⟨_, (Settings.within_eq_ok_iff ..).mpr ⟨5000000, 1, .rich, .rich, ?_, ?_, by decide, ?_,
    rfl, (by decide : (1 : Int) ≤ 2), rfl⟩, ?_⟩
  · simp [Settings.integerOr, Environment.get?]
  · simp [Settings.integerOr, Environment.get?]
  · simp [Environment.get?, Detail.ofName?]
  · simp [Environment.get?]

/-- The number of workers in the environment gives way to the one on the command line, but a file
that refers to it makes it a name to ignore. -/
theorem flag_overrides_three_workers :
    (settingsFor EnvFile.loader settingsFiles [("FUNCGRAPH_WORKERS", "3")]
        (twoWorkersRequest (some "level.env"))).2 =
      (settingsFor EnvFile.loader settingsFiles [("FUNCGRAPH_WORKERS", "4")]
        (twoWorkersRequest (some "level.env"))).2 ∧
    (settingsFor EnvFile.loader settingsFiles [("FUNCGRAPH_WORKERS", "3")]
        (twoWorkersRequest (some "ignore.env"))).2 ≠
      (settingsFor EnvFile.loader settingsFiles [("FUNCGRAPH_WORKERS", "4")]
        (twoWorkersRequest (some "ignore.env"))).2 := by
  have hgiven : ∀ file, Overridable.workers.IsGiven (twoWorkersRequest file) := fun _ => rfl
  have hagrees := agreesExcept_workers "3" "4"
  have hthree : Overridable.workers.Accepts (some "3") := ⟨3, by cbv, by decide⟩
  have hfour : Overridable.workers.Accepts (some "4") := ⟨4, by cbv, by decide⟩
  constructor
  · obtain ⟨_, hoverlooked, _⟩ :=
      flag_overrides_iff_accepted EnvFile.loader_keepsVariables (hgiven (some "level.env")) hagrees
    apply (hoverlooked loader_overlooks_level).1
    · intro seen hseen
      rw [EnvFile.loader_keepsVariables _ _ _ _ hseen _ "3" rfl]
      exact hthree
    · intro seen hseen
      rw [EnvFile.loader_keepsVariables _ _ _ _ hseen _ "4" rfl]
      exact hfour
  · have hseen := takesIn_ignore (show EnvFile.apply [("FUNCGRAPH_WORKERS", "3")] _ =
        .ok [("FUNCGRAPH_WORKERS", "3"), ("FUNCGRAPH_IGNORE", "3")] by decide +kernel)
    have hseen' := takesIn_ignore (show EnvFile.apply [("FUNCGRAPH_WORKERS", "4")] _ =
        .ok [("FUNCGRAPH_WORKERS", "4"), ("FUNCGRAPH_IGNORE", "4")] by decide +kernel)
    obtain ⟨_, _, hreferring⟩ :=
      flag_overrides_iff_accepted EnvFile.loader_keepsVariables (hgiven (some "ignore.env")) hagrees
    rw [ne_eq, hreferring _ _ hseen hseen' hthree hfour]
    obtain ⟨t, ht, hignore⟩ := exists_within_ignore (some "ignore.env") "3"
    obtain ⟨t', ht', hignore'⟩ := exists_within_ignore (some "ignore.env") "4"
    intro hsame
    obtain rfl := Except.ok.inj (ht.symm.trans (hsame.trans ht'))
    have hdiffer : Settings.ignoreList "3" ≠ Settings.ignoreList "4" := by decide +kernel
    exact hdiffer (hignore.symm.trans hignore')

/-- The command line asks for two workers, and a variable that is no number keeps it from having
them. -/
theorem flag_not_overrides_unreadable_workers :
    CommandLine.read ["a.js", "--workers", "2"] = .ok (twoWorkersRequest none) ∧
    (settingsFor EnvFile.loader settingsFiles [] (twoWorkersRequest none)).2 =
      .ok { workers := 2 } ∧
    (settingsFor EnvFile.loader settingsFiles [("FUNCGRAPH_WORKERS", "many")]
        (twoWorkersRequest none)).2 = .error (.integer (.notInteger "many")) := by
  have hupper : Text.upper "WARNING" = "WARNING" := Text.upper_of_capitals (by simp)
  refine ⟨by cbv, ?_, by cbv⟩
  rw [settingsFor_nil (EnvFile.loader_findsNoFile (by simp [twoWorkersRequest]) [])]
  simp [twoWorkersRequest, present?, Settings.make, Detail.ofName?, hupper]

end CallAtlas
