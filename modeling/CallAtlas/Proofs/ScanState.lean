import CallAtlas.Proofs.LastOfKey
import CallAtlas.Proofs.OutermostFunctions
import CallAtlas.Proofs.ScanHistory

/-!
The state of a scanner after any calls. All records stand in the order of the scans that succeeded,
a file is listed with those of its most recent one, a key names the last record that has it, and a
call that fails has changed nothing by the time it fails.
-/

set_option autoImplicit false

namespace CallAtlas

section Latest

variable {α β : Type}

/-- The entry is the most recent one with its key. -/
def IsMostRecent (l : List (α × β)) (m : α × β) : Prop :=
  ∃ earlier later, l = earlier ++ m :: later ∧ ∀ n ∈ later, n.1 ≠ m.1

theorem isMostRecent_cons (a : α × β) (rest : List (α × β)) (m : α × β) :
    IsMostRecent (a :: rest) m ↔ (m = a ∧ ∀ n ∈ rest, n.1 ≠ a.1) ∨ IsMostRecent rest m := by
  constructor
  · rintro ⟨earlier, later, heq, hlater⟩
    cases earlier with
    | nil =>
      obtain ⟨rfl, rfl⟩ := List.cons.inj heq
      exact .inl ⟨rfl, hlater⟩
    | cons b earlier =>
      obtain ⟨rfl, rfl⟩ := List.cons.inj heq
      exact .inr ⟨earlier, later, rfl, hlater⟩
  · rintro (⟨rfl, hlater⟩ | ⟨earlier, later, rfl, hlater⟩)
    · exact ⟨[], rest, rfl, hlater⟩
    · exact ⟨a :: earlier, later, rfl, hlater⟩

theorem mem_latest_iff [DecidableEq α] (l : List (α × β)) (m : α × β) :
    m ∈ latest l ↔ IsMostRecent l m := by
  induction l with
  | nil => simp [latest, IsMostRecent]
  | cons a rest ih =>
    rw [isMostRecent_cons, ← ih]
    simp only [latest]
    split
    · rename_i hagain
      obtain ⟨n, hn, hkey⟩ := List.any_eq_true.mp hagain
      constructor
      · exact .inr
      · rintro (⟨_, hlast⟩ | hmem)
        · exact absurd (of_decide_eq_true hkey) (hlast n hn)
        · exact hmem
    · rename_i hlast
      have hlast : ∀ n ∈ rest, n.1 ≠ a.1 := by
        intro n hn hkey
        exact hlast (List.any_eq_true.mpr ⟨n, hn, decide_eq_true hkey⟩)
      rw [List.mem_cons]
      exact or_congr_left ⟨fun h => ⟨h, hlast⟩, And.left⟩

end Latest

theorem extract_records_file (survey : Survey) (root : Node) :
    ∀ r ∈ (extract survey root).records, r.file = survey.file := by
  intro r hr
  rw [extract_records] at hr
  obtain ⟨p, _, hp⟩ := List.mem_filterMap.mp hr
  exact (Place.describes_of_record? hp).file

theorem analyze_extracts {parser : Parser} {detail : Detail} {file : Option String}
    {given : Given} {e : Extraction} (h : analyze parser detail file given = .ok e) :
    ∃ source root, e.records = (extract ⟨source, detail, file⟩ root).records := by
  unfold analyze at h
  cases hp : parseGiven parser file given with
  | error err => simp [hp, bind, Except.bind] at h
  | ok p =>
    simp only [hp, bind, Except.bind, pure, Except.pure, Except.ok.injEq] at h
    subst h
    exact ⟨p.source, p.root, rfl⟩

theorem extractFile_extracts {parser : Parser} {fs : FileSystem} {settings : Settings}
    {path file : String} {e : Extraction} (h : extractFile parser fs settings path file = .ok e) :
    ∃ source root, e.records = (extract ⟨source, settings.detail, some file⟩ root).records := by
  unfold extractFile at h
  cases hs : readSource fs settings path with
  | error err => simp [hs, bind, Except.bind] at h
  | ok source =>
    simp only [hs, bind, Except.bind] at h
    exact analyze_extracts h

/-- The records that a call merges for a file were extracted from a tree. -/
theorem Scan.merged_extracted (parser : Parser) (settings : Settings) (scan : Scan) :
    ∀ m ∈ scan.merged parser settings, ∃ source root,
      m.2 = (extract ⟨source, settings.detail, m.1⟩ root).records := by
  intro m hm
  obtain ⟨⟨file, outcome⟩, hmem, hm⟩ := List.mem_filterMap.mp hm
  obtain ⟨e, he, rfl⟩ := Option.map_eq_some_iff.mp hm
  cases outcome with
  | error err => simp [Except.toOption] at he
  | ok e' =>
    obtain rfl : e' = e := by simpa [Except.toOption] using he
    cases scan with
    | source file' given =>
      simp only [Scan.outcomes, List.mem_singleton, Prod.mk.injEq] at hmem
      obtain ⟨rfl, h⟩ := hmem
      exact analyze_extracts h.symm
    | oneFile fs path relative =>
      simp only [Scan.outcomes, List.mem_singleton, Prod.mk.injEq] at hmem
      obtain ⟨rfl, h⟩ := hmem
      exact extractFile_extracts h.symm
    | repository fs path =>
      simp only [Scan.outcomes, List.mem_map, Prod.mk.injEq] at hmem
      obtain ⟨f, _, rfl, h⟩ := hmem
      exact extractFile_extracts h

theorem Scan.merged_records_file (parser : Parser) (settings : Settings) (scan : Scan) :
    ∀ m ∈ scan.merged parser settings, ∀ r ∈ m.2, r.file = m.1 := by
  intro m hm r hr
  obtain ⟨source, root, hrecords⟩ := scan.merged_extracted parser settings m hm
  rw [hrecords] at hr
  exact extract_records_file ⟨source, settings.detail, m.1⟩ root r hr

/-- A call in the making. What it has done to the scanner is not undone if it fails. -/
abbrev Scanning := ExceptT Error (StateM Scanner)

namespace Scanning

variable {α β : Type}

/-- How a call ends, and the scanner then. -/
def exec (m : Scanning α) (s : Scanner) : Except Error α × Scanner :=
  (ExceptT.run m).run s

theorem exec_bind (m : Scanning α) (f : α → Scanning β) (s : Scanner) :
    exec (m >>= f) s =
      match exec m s with
      | (.ok a, next) => exec (f a) next
      | (.error e, next) => (.error e, next) := by
  unfold exec
  simp only [ExceptT.run_bind, StateT.run_bind]
  cases h : StateT.run (ExceptT.run m) s with
  | mk outcome next =>
    cases outcome with
    | ok a => rfl
    | error e => rfl

theorem exec_ofExcept (outcome : Except Error α) (s : Scanner) :
    exec (MonadExcept.ofExcept outcome) s = (outcome, s) := by
  cases outcome with
  | ok a => rfl
  | error e => rfl

def parsing (file : Option String) (given : Given) : Scanning Parsing := do
  MonadExcept.ofExcept (parseGiven (← get).parser file given)

/-- Parses, then extracts. -/
def extracting (file : Option String) (given : Given) : Scanning Extraction := do
  let parsed ← parsing file given
  return parsed.extraction (← get).settings.detail file

def reading (fs : FileSystem) (path : String) : Scanning Source := do
  MonadExcept.ofExcept (readSource fs (← get).settings path)

/-- Reads, then parses and extracts. -/
def extractingFile (fs : FileSystem) (path file : String) : Scanning Extraction := do
  extracting (some file) (.octets (← reading fs path))

def merging (file : Option String) (e : Extraction) : Scanning Unit :=
  modify (fun s => s.merge file e)

end Scanning

/-- A call, one step after the other. -/
def Scan.perform : Scan → Scanning Unit
  | .source file given => do
    let e ← Scanning.extracting file given
    Scanning.merging file e
  | .oneFile fs path relative => do
    let file := (present? relative).getD path
    let e ← Scanning.extractingFile fs path file
    Scanning.merging (some file) e
  | .repository fs path => do
    let all := (← get).outcomes fs path
    forM all (fun o => modify (fun s => s.absorb o.1.relative o.2))

/-- How a call ends. Only calls about a single file fail. -/
def Scan.ending (parser : Parser) (settings : Settings) : Scan → Except Error Unit
  | .source file given => (analyze parser settings.detail file given).map (fun _ => ())
  | .oneFile fs path relative =>
    (extractFile parser fs settings path ((present? relative).getD path)).map (fun _ => ())
  | .repository _ _ => .ok ()

namespace Scanning

theorem exec_parsing (file : Option String) (given : Given) (s : Scanner) :
    exec (parsing file given) s = (parseGiven s.parser file given, s) :=
  exec_ofExcept (parseGiven s.parser file given) s

theorem exec_extracting (file : Option String) (given : Given) (s : Scanner) :
    exec (extracting file given) s = (analyze s.parser s.settings.detail file given, s) := by
  rw [extracting, exec_bind, exec_parsing, analyze]
  cases parseGiven s.parser file given with
  | error e => rfl
  | ok p => rfl

theorem exec_reading (fs : FileSystem) (path : String) (s : Scanner) :
    exec (reading fs path) s = (readSource fs s.settings path, s) :=
  exec_ofExcept (readSource fs s.settings path) s

theorem exec_extractingFile (fs : FileSystem) (path file : String) (s : Scanner) :
    exec (extractingFile fs path file) s = (extractFile s.parser fs s.settings path file, s) := by
  rw [extractingFile, exec_bind, exec_reading, extractFile]
  cases readSource fs s.settings path with
  | error e => rfl
  | ok source => exact exec_extracting (some file) (.octets source) s

theorem exec_absorbing (all : List (Found × Except Error Extraction)) (s : Scanner) :
    exec (forM all (fun o => modify (fun s => s.absorb o.1.relative o.2))) s =
      (.ok (), s.absorbAll all) := by
  induction all generalizing s with
  | nil => rfl
  | cons o rest ih =>
    rw [List.forM_cons, exec_bind]
    exact ih (s.absorb o.1.relative o.2)

end Scanning

namespace Scanner

/-- A call about a single file merges the outcome, or fails and does nothing. -/
def takeIn (s : Scanner) (file : Option String) : Except Error Extraction → Scanner
  | .ok e => s.merge file e
  | .error _ => s

theorem after_source (s : Scanner) (file : Option String) (given : Given) :
    s.after (.source file given) =
      s.takeIn file (analyze s.parser s.settings.detail file given) := by
  simp only [Scanner.after, Scanner.scanSource]
  cases analyze s.parser s.settings.detail file given with
  | error e => rfl
  | ok e => rfl

theorem after_oneFile (s : Scanner) (fs : FileSystem) (path : String) (relative : Option String) :
    s.after (.oneFile fs path relative) =
      s.takeIn (some ((present? relative).getD path))
        (extractFile s.parser fs s.settings path ((present? relative).getD path)) := by
  simp only [Scanner.after, Scanner.scanFile]
  cases extractFile s.parser fs s.settings path ((present? relative).getD path) with
  | error e => rfl
  | ok e => rfl

theorem takeIn_of_error {s : Scanner} {file : Option String} {outcome : Except Error Extraction}
    {e : Error} (h : outcome.map (fun _ => ()) = .error e) : s.takeIn file outcome = s := by
  cases outcome with
  | error e => rfl
  | ok e => simp [Except.map] at h

theorem after_of_ending_error {s : Scanner} {scan : Scan} {e : Error}
    (h : scan.ending s.parser s.settings = .error e) : s.after scan = s := by
  cases scan with
  | source file given =>
    rw [after_source]
    exact takeIn_of_error h
  | oneFile fs path relative =>
    rw [after_oneFile]
    exact takeIn_of_error h
  | repository fs path => simp [Scan.ending] at h

end Scanner

namespace Scanning

theorem exec_taking (m : Scanning Extraction) (file : Option String) {s : Scanner}
    {outcome : Except Error Extraction} (h : exec m s = (outcome, s)) :
    exec (m >>= merging file) s = (outcome.map (fun _ => ()), s.takeIn file outcome) := by
  rw [exec_bind, h]
  cases outcome with
  | error e => rfl
  | ok e => rfl

end Scanning

theorem Scan.exec_perform (scan : Scan) (s : Scanner) :
    Scanning.exec scan.perform s = (scan.ending s.parser s.settings, s.after scan) := by
  cases scan with
  | source file given =>
    rw [Scanner.after_source]
    exact Scanning.exec_taking _ file (Scanning.exec_extracting file given s)
  | oneFile fs path relative =>
    rw [Scanner.after_oneFile]
    exact Scanning.exec_taking _ _ (Scanning.exec_extractingFile fs path _ s)
  | repository fs path =>
    rw [Scan.perform, Scanning.exec_bind]
    exact Scanning.exec_absorbing (s.outcomes fs path) s

namespace Scanner

section Keeps

variable {P : Scanner → Prop} (hmerge : ∀ s file e, P s → P (s.merge file e))
  (hfailure : ∀ s : Scanner, P s → P { s with errorCount := s.errorCount + 1 })

include hmerge

theorem takeIn_keeps {s : Scanner} (h : P s) (file : Option String)
    (outcome : Except Error Extraction) : P (s.takeIn file outcome) := by
  cases outcome with
  | error e => exact h
  | ok e => exact hmerge s file e h

include hfailure

theorem absorbAll_keeps {s : Scanner} (h : P s) (all : List (Found × Except Error Extraction)) :
    P (s.absorbAll all) := by
  unfold Scanner.absorbAll
  induction all generalizing s with
  | nil => exact h
  | cons o rest ih =>
    obtain ⟨f, outcome⟩ := o
    cases outcome with
    | error e => exact ih (hfailure s h)
    | ok e => exact ih (hmerge s (some f.relative) e h)

theorem after_keeps {s : Scanner} (h : P s) (scan : Scan) : P (s.after scan) := by
  cases scan with
  | source file given =>
    rw [after_source]
    exact takeIn_keeps hmerge h file _
  | oneFile fs path relative =>
    rw [after_oneFile]
    exact takeIn_keeps hmerge h _ _
  | repository fs path => exact absorbAll_keeps hmerge hfailure h (s.outcomes fs path)

/-- What merging a file keeps, and counting a failure, is kept by any calls. -/
theorem run_keeps {s : Scanner} (h : P s) (scans : List Scan) : P (s.run scans) := by
  unfold Scanner.run
  induction scans generalizing s with
  | nil => exact h
  | cons scan rest ih => exact ih (after_keeps hmerge hfailure h scan)

end Keeps

theorem namesLast_run (parser : Parser) (settings : Settings) (scans : List Scan) :
    let s := (fresh parser settings).run scans
    s.catalog.keys.NamesLast s.records := by
  apply run_keeps (P := fun s => s.catalog.keys.NamesLast s.records)
  · intro s file e h
    have hmore := h.extend e.records
    simpa [Scanner.merge, Scanner.records, Catalog.merge] using hmore
  · exact fun s h => h
  · exact KeyMap.namesLast_ofRecords []

/-- What a scanner holds after any calls, and that the next call changes nothing if it fails. -/
theorem state_of_run (parser : Parser) (settings : Settings) (scans : List Scan) :
    let s := (fresh parser settings).run scans
    let merged := scans.flatMap (Scan.merged parser settings)
    s.records = merged.flatMap Prod.snd ∧
    (∀ key i, s.catalog.keys[key]? = some i ↔ IsLastOf s.records key i) ∧
    (s.catalog.byFile.map Prod.fst).Nodup ∧
    (∀ p, p ∈ s.catalog.byFile ↔ IsMostRecent merged p) ∧
    (∀ p ∈ s.catalog.byFile, ∀ r ∈ p.2, r.file = p.1) ∧
    (∀ file e, ∀ key : String, (s.merge file e).catalog.keys[key]? =
      (e.keys[key]?.map (s.records.length + ·)).or s.catalog.keys[key]?) ∧
    ∀ scan, Scanning.exec scan.perform s = (scan.ending parser settings, s.after scan) ∧
      ∀ e, scan.ending parser settings = .error e → s.after scan = s := by
  intro s merged
  have h : s.Reflects parser settings merged := reflects_fresh parser settings scans
  have hlisted : ∀ p, p ∈ s.catalog.byFile ↔ IsMostRecent merged p := by
    intro p
    rw [h.catalog.byFile.mem_iff, mem_latest_iff]
  refine ⟨h.catalog.records, namesLast_run parser settings scans, ?_, hlisted, ?_, ?_, ?_⟩
  · exact (h.catalog.byFile.map Prod.fst).nodup_iff.mpr (nodup_latest merged)
  · intro p hp
    obtain ⟨earlier, later, hmerged, _⟩ := (hlisted p).mp hp
    have hmem : p ∈ merged := by
      rw [hmerged]
      exact List.mem_append_right _ List.mem_cons_self
    obtain ⟨scan, _, hscan⟩ := List.mem_flatMap.mp hmem
    exact Scan.merged_records_file parser settings scan p hscan
  · intro file e key
    exact KeyMap.getElem?_extend s.catalog.keys s.catalog.records.size e.records key
  · intro scan
    rw [← h.parser, ← h.settings]
    exact ⟨scan.exec_perform s, fun e => Scanner.after_of_ending_error⟩

def scansWithFailure : List Scan :=
  [.source (some "a.js") (.ofText "function f() {}"), .source (some "a.js") .nothing,
    .source (some "a.js") (.ofText "function g() {} function f() {}")]

/-- The second call fails, and so would another one like it at the end. -/
theorem state_of_scansWithFailure :
    let s := (fresh JavaScript.parser {}).run scansWithFailure
    s.records.map Record.name = ["f", "g", "f"] ∧
    (Scan.source (some "a.js") .nothing).ending JavaScript.parser {} =
      .error (.unreadable "a.js" "source must be a bytestring or a callable, not NoneType") ∧
    s.after (.source (some "a.js") .nothing) = s := by
  intro s
  have hrecords : s.records.map Record.name = ["f", "g", "f"] := by decide +kernel
  obtain ⟨_, _, _, _, _, _, hcalls⟩ := state_of_run JavaScript.parser {} scansWithFailure
  exact ⟨hrecords, rfl, (hcalls _).2 _ rfl⟩

end Scanner

end CallAtlas
