import CallAtlas.Proofs.Overrides

/-!
What can fail on the way. Settings are made exactly if every variable and every flag they look at
is accepted. A path that leads to no directory is scanned exactly if its file can be read, is no
larger than allowed and can be parsed. Whether a file can be written does not depend on what is
written.
-/

set_option autoImplicit false

namespace CallAtlas

open CommandLine (Request)

/-- Nothing can be written at the path, whatever it is. -/
def FileSystem.Refuses (fs : FileSystem) (path : String) (cause : FileCause) : Prop :=
  ∀ content, fs.write path content = .error cause

/-- Whether a file can be written is decided before its content is looked at. -/
theorem FileSystem.refuses_of_write_eq_error {fs : FileSystem} {path : String}
    {content : ByteArray} {cause : FileCause} (h : fs.write path content = .error cause) :
    fs.Refuses path cause := by
  intro other
  unfold write at h ⊢
  split
  · rename_i hempty
    simpa [hempty] using h
  · rename_i hempty
    cases hplace : writable fs.root linkLimit (fs.origin path) (Path.pieces path) with
    | error c => simpa [hempty, hplace, bind, Except.bind] using h
    | ok place =>
      by_cases hlocked : place ∈ fs.locked
      · simpa [hempty, hplace, hlocked, bind, Except.bind] using h
      · simp [hempty, hplace, hlocked, bind, Except.bind] at h

theorem FileSystem.exists_write {fs : FileSystem} {path : String}
    (h : ∀ cause, ¬ fs.Refuses path cause) (content : ByteArray) :
    ∃ after, fs.write path content = .ok after := by
  cases hwrite : fs.write path content with
  | error cause => exact absurd (refuses_of_write_eq_error hwrite) (h cause)
  | ok after => exact ⟨after, rfl⟩

/-- What makes settings of a request and an environment: the size limit is a number, the values of
the other variables are accepted, and so are the flags. -/
structure Acceptable (request : Request) (env : Environment) : Prop where
  size : ∀ text, env.get? "FUNCGRAPH_MAX_FILE_SIZE" = some text →
    ∃ n, Text.readInteger text = .ok n
  accepts : ∀ setting : Overridable, setting.Accepts (env.get? setting.variableName)
  workers : ∀ n, request.workers = some n → 1 ≤ n
  variant : ∀ name, present? request.variant = some name → (Detail.ofName? name).isSome = true

namespace Settings

theorem exists_integerOr_iff (env : Environment) (name : String) (default : Int) :
    (∃ n, integerOr env name default = .ok n) ↔
      ∀ text, env.get? name = some text → ∃ n, Text.readInteger text = .ok n := by
  unfold integerOr
  cases env.get? name with
  | none => simp
  | some text =>
    cases hread : Text.readInteger text with
    | ok n => simp [hread]
    | error e => simp [hread]

theorem exists_within_iff (request : Request) (env : Environment) :
    (∃ s, within request env = .ok s) ↔ Acceptable request env := by
  constructor
  · rintro ⟨s, hs⟩
    refine ⟨?_, accepts_of_within hs, ?_, ?_⟩
    all_goals obtain ⟨size, workers, d, d', hsize, _, _, _, hd', hflag, _⟩ :=
      (within_eq_ok_iff ..).mp hs
    · exact (exists_integerOr_iff ..).mp ⟨size, hsize⟩
    · intro n hn
      simpa [hn] using hflag
    · intro name hname
      rw [hname] at hd'
      exact Option.isSome_iff_exists.mpr ⟨d', hd'⟩
  · intro h
    obtain ⟨size, hsize⟩ := (exists_integerOr_iff env _ 5000000).mpr h.size
    obtain ⟨workers, hworkers, hone⟩ := (accepts_workers_iff env).mp (h.accepts .workers)
    obtain ⟨d, hd⟩ := (accepts_variant_iff env).mp (h.accepts .variant)
    have hflag : 1 ≤ request.workers.getD workers := by
      cases hn : request.workers with
      | none => exact hone
      | some n => exact h.workers n hn
    obtain ⟨d', hd'⟩ : ∃ d', Detail.ofName? ((present? request.variant).getD d.name) = some d' := by
      cases hname : present? request.variant with
      | none => exact ⟨d, Detail.ofName?_name d⟩
      | some name => exact Option.isSome_iff_exists.mp (h.variant name hname)
    exact ⟨_, (within_eq_ok_iff ..).mpr
      ⟨size, workers, d, d', hsize, hworkers, hone, hd, hd', hflag, rfl⟩⟩

theorem integerOr_ne_file {env : Environment} {name : String} {default : Int}
    {e : SettingsError} (h : integerOr env name default = .error e) (fault : LoadFault) :
    e ≠ .file fault := by
  rintro rfl
  unfold integerOr at h
  split at h
  · cases h
  · split at h
    · cases h
    · cases h

theorem make_ne_file {detail : String} {maxFileSize workers : Int} {logLevel : String}
    {ignore : List String} {e : SettingsError}
    (h : make detail maxFileSize workers logLevel ignore = .error e) (fault : LoadFault) :
    e ≠ .file fault := by
  rintro rfl
  unfold make at h
  split at h
  · cases h
  · split at h
    · cases h
    · cases h

/-- Settings that are read from an environment fail for what stands in it. -/
theorem within_ne_file {request : Request} {env : Environment} {e : SettingsError}
    (h : within request env = .error e) (fault : LoadFault) : e ≠ .file fault := by
  rw [within_eq] at h
  cases hsize : integerOr env "FUNCGRAPH_MAX_FILE_SIZE" 5000000 with
  | error e' =>
    rw [hsize] at h
    exact Except.error.inj h ▸ integerOr_ne_file hsize fault
  | ok size =>
    cases hworkers : integerOr env "FUNCGRAPH_WORKERS" 1 with
    | error e' =>
      rw [hsize, hworkers] at h
      exact Except.error.inj h ▸ integerOr_ne_file hworkers fault
    | ok workers =>
      simp only [hsize, hworkers, Except.bind] at h
      split at h
      · rename_i hmake
        exact Except.error.inj h ▸ make_ne_file hmake fault
      · exact make_ne_file h fault

end Settings

/-- Why a path that leads to no directory cannot be scanned. -/
inductive PathFails (parser : Parser) (fs : FileSystem) (limit : Int) (path file : String) :
    Error → Prop where
  | zero (hzero : Path.holdsZero path = true) : PathFails parser fs limit path file .zeroInPath
  | missing {cause : FileCause} (hzero : Path.holdsZero path = false)
      (hsize : fs.size path = .error cause) :
      PathFails parser fs limit path file (.access cause path)
  | large {size : Nat} (hzero : Path.holdsZero path = false) (hsize : fs.size path = .ok size)
      (hlarge : limit < size) : PathFails parser fs limit path file (.tooLarge path size limit)
  | unread {size : Nat} {cause : FileCause} (hzero : Path.holdsZero path = false)
      (hsize : fs.size path = .ok size) (hsmall : size ≤ limit)
      (hread : fs.read path = .error cause) :
      PathFails parser fs limit path file (.access cause path)
  | unparsed {size : Nat} {source : Source} {reason : String}
      (hzero : Path.holdsZero path = false) (hsize : fs.size path = .ok size)
      (hsmall : size ≤ limit) (hread : fs.read path = .ok source)
      (hparse : parser.parse source = .error reason) :
      PathFails parser fs limit path file (.unreadable file reason)

theorem PathFails.isExpected {parser : Parser} {fs : FileSystem} {limit : Int}
    {path file : String} {e : Error} (h : PathFails parser fs limit path file e)
    (hzero : e ≠ .zeroInPath) : Command.isExpected e = true := by
  cases h with
  | zero => exact absurd rfl hzero
  | missing => rfl
  | large => rfl
  | unread => rfl
  | unparsed => rfl

theorem PathFails.holdsZero {parser : Parser} {fs : FileSystem} {limit : Int}
    {path file : String} (h : PathFails parser fs limit path file .zeroInPath) :
    Path.holdsZero path = true := by
  cases h with
  | zero hzero => exact hzero

theorem pathFails_of_extractFile {parser : Parser} {fs : FileSystem} {settings : Settings}
    {path file : String} {e : Error} (h : extractFile parser fs settings path file = .error e) :
    PathFails parser fs settings.maxFileSize path file e := by
  unfold extractFile readSource at h
  cases hzero : Path.holdsZero path with
  | true =>
    simp only [hzero, if_true] at h
    cases h
    exact .zero hzero
  | false =>
    simp only [hzero, Bool.false_eq_true, if_false] at h
    cases hsize : fs.size path with
    | error cause =>
      rw [hsize] at h
      cases h
      exact .missing hzero hsize
    | ok size =>
      simp only [hsize] at h
      split at h
      · rename_i hlarge
        cases h
        exact .large hzero hsize hlarge
      · rename_i hnotLarge
        have hsmall : (size : Int) ≤ settings.maxFileSize := by omega
        cases hread : fs.read path with
        | error cause =>
          rw [hread] at h
          cases h
          exact .unread hzero hsize hsmall hread
        | ok source =>
          simp only [hread, bind, Except.bind, analyze, parseGiven] at h
          cases hparse : parser.parse source with
          | error reason =>
            rw [hparse] at h
            cases h
            exact .unparsed hzero hsize hsmall hread hparse
          | ok parsed =>
            rw [hparse] at h
            cases h

theorem extractFile_eq_error_iff (parser : Parser) (fs : FileSystem) (settings : Settings)
    (path file : String) (e : Error) :
    extractFile parser fs settings path file = .error e ↔
      PathFails parser fs settings.maxFileSize path file e := by
  refine ⟨pathFails_of_extractFile, ?_⟩
  intro h
  cases h with
  | zero hzero => simp [extractFile, readSource, hzero, bind, Except.bind]
  | missing hzero hsize => simp [extractFile, readSource, hzero, hsize, bind, Except.bind]
  | large hzero hsize hlarge =>
    simp [extractFile, readSource, hzero, hsize, hlarge, bind, Except.bind]
  | unread hzero hsize hsmall hread =>
    simp [extractFile, readSource, hzero, hsize, Int.not_lt.mpr hsmall, hread, bind, Except.bind]
  | unparsed hzero hsize hsmall hread hparse =>
    simp [extractFile, readSource, hzero, hsize, Int.not_lt.mpr hsmall, hread, bind, Except.bind,
      analyze, parseGiven, hparse, fileLabel]

namespace Command

/-- The name that a single file goes by. -/
def ownName (path : String) : String :=
  (present? (some (Path.basename path))).getD path

/-- A scan of a directory goes on after files that fail, and a scan of anything else stops. -/
theorem scanPath_eq_error_iff (parser : Parser) (fs : FileSystem) (settings : Settings)
    (least : Nat) (path : String) (e : Error) :
    scanPath parser fs settings least path = .error e ↔
      fs.isDirectory path = false ∧
        PathFails parser fs settings.maxFileSize path (ownName path) e := by
  rw [← extractFile_eq_error_iff, ownName]
  cases hdir : fs.isDirectory path with
  | true => simp [scanPath, hdir]
  | false =>
    simp only [scanPath, hdir, Scanner.scanFile, Scanner.fresh]
    cases extractFile parser fs settings path
        ((present? (some (Path.basename path))).getD path) with
    | error e => simp [bind, Except.bind]
    | ok e => simp [bind, Except.bind, pure, Except.pure]

end Command

end CallAtlas
