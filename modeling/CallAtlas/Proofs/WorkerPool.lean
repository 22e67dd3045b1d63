import CallAtlas.Proofs.RelativePaths
import CallAtlas.Proofs.ScanHistory
import Mathlib

/-!
A scan with several workers. Files are taken up and finished in any order, and one worker at a time
has the parser. A step of a task changes neither the scanner nor what any task will come to, so
whatever the order, the outcomes are those of a scan by one worker, and so is the scanner that has
taken them in. No order of steps gets stuck, and none goes on for ever. A fresh scanner lists the
files that could be read in the order in which they were found.
-/

set_option autoImplicit false

namespace CallAtlas

/-- How far the task of one file has come. -/
inductive Task where
  | waiting
  | begun
  /-- The file is read and has to wait for the parser. -/
  | loaded (source : Source)
  | parsing (source : Source)
  | parsed (parsing : Parsing)
  | done (outcome : Except Error Extraction)

namespace Task

/-- A worker has the task in hand. -/
def isRunning : Task → Bool
  | .waiting => false
  | .done _ => false
  | _ => true

def holdsParser : Task → Bool
  | .parsing _ => true
  | _ => false

def isDone : Task → Bool
  | .done _ => true
  | _ => false

/-- The next step of the task of the file `f`. It is taken on the scanner that all tasks share. -/
def advance (fs : FileSystem) (f : Found) : Task → StateM Scanner Task
  | .waiting => return .begun
  | .begun => do
    match readSource fs (← get).settings f.path with
    | .ok source => return .loaded source
    | .error e => return .done (.error e)
  | .loaded source => return .parsing source
  | .parsing source => do
    match parseGiven (← get).parser (some f.relative) (.octets source) with
    | .ok p => return .parsed p
    | .error e => return .done (.error e)
  | .parsed p => do
    return .done (.ok (p.extraction (← get).settings.detail (some f.relative)))
  | .done outcome => return .done outcome

/-- The outcome a task will have, whenever its steps are taken. -/
def outcome (fs : FileSystem) (s : Scanner) (f : Found) : Task → Except Error Extraction
  | .waiting => extractFile s.parser fs s.settings f.path f.relative
  | .begun => extractFile s.parser fs s.settings f.path f.relative
  | .loaded source => analyze s.parser s.settings.detail (some f.relative) (.octets source)
  | .parsing source => analyze s.parser s.settings.detail (some f.relative) (.octets source)
  | .parsed p => .ok (p.extraction s.settings.detail (some f.relative))
  | .done outcome => outcome

/-- The most steps a task can still take. -/
def stepsLeft : Task → Nat
  | .waiting => 5
  | .begun => 4
  | .loaded _ => 3
  | .parsing _ => 2
  | .parsed _ => 1
  | .done _ => 0

/-- A step leaves the scanner alone and keeps what the task will come to. -/
theorem run_advance (fs : FileSystem) (f : Found) (t : Task) (s : Scanner) :
    ∃ next, (t.advance fs f).run s = (next, s) ∧
      next.outcome fs s f = t.outcome fs s f ∧
      (t.isDone = false → next.stepsLeft < t.stepsLeft) := by
  cases t with
  | waiting => exact ⟨.begun, rfl, rfl, by simp [stepsLeft]⟩
  | begun =>
    simp only [advance, outcome, extractFile, StateT.run_bind, StateT.run_get, pure_bind]
    cases readSource fs s.settings f.path with
    | ok source => exact ⟨.loaded source, rfl, rfl, by simp [stepsLeft]⟩
    | error e => exact ⟨.done (.error e), rfl, rfl, by simp [stepsLeft]⟩
  | loaded source => exact ⟨.parsing source, rfl, rfl, by simp [stepsLeft]⟩
  | parsing source =>
    simp only [advance, outcome, analyze, StateT.run_bind, StateT.run_get, pure_bind]
    cases parseGiven s.parser (some f.relative) (.octets source) with
    | ok p => exact ⟨.parsed p, rfl, rfl, by simp [stepsLeft]⟩
    | error e => exact ⟨.done (.error e), rfl, rfl, by simp [stepsLeft]⟩
  | parsed p => exact ⟨.done _, rfl, rfl, by simp [stepsLeft]⟩
  | done outcome => exact ⟨.done outcome, rfl, rfl, by simp [isDone]⟩

end Task

/-- The scanner that the workers share, and the tasks in the order in which they were given out. -/
structure Pool where
  scanner : Scanner
  tasks : List (Found × Task)

namespace Pool

def start (s : Scanner) (fs : FileSystem) (path : String) : Pool :=
  ⟨s, (findFiles fs s.settings path).map (fun f => (f, .waiting))⟩

def isFinished (p : Pool) : Bool :=
  p.tasks.all (fun x => x.2.isDone)

/-- What the tasks have come to, in the order in which they were given out. -/
def collected (p : Pool) : List (Found × Except Error Extraction) :=
  p.tasks.filterMap (fun x =>
    match x.2 with
    | .done outcome => some (x.1, outcome)
    | _ => none)

/-- A waiting task needs a worker that is free, and a loaded one the parser. -/
def Allows (workers : Int) (p : Pool) : Task → Prop
  | .waiting => p.tasks.countP (fun x => x.2.isRunning) < workers
  | .loaded _ => p.tasks.all (fun x => !x.2.holdsParser) = true
  | .done _ => False
  | _ => True

/-- Any one task takes its next step. -/
inductive Step (fs : FileSystem) (workers : Int) : Pool → Pool → Prop where
  | advance {s s' : Scanner} {t t' : Task} (before after : List (Found × Task)) (f : Found) :
      Allows workers ⟨s, before ++ (f, t) :: after⟩ t →
      (t.advance fs f).run s = (t', s') →
      Step fs workers ⟨s, before ++ (f, t) :: after⟩ ⟨s', before ++ (f, t') :: after⟩

/-- A number of steps. -/
inductive Run (fs : FileSystem) (workers : Int) : Nat → Pool → Pool → Prop where
  | none (p : Pool) : Run fs workers 0 p p
  | step {n : Nat} {p q r : Pool} :
      Run fs workers n p q → Step fs workers q r → Run fs workers (n + 1) p r

def outcomes (fs : FileSystem) (p : Pool) : List (Found × Except Error Extraction) :=
  p.tasks.map (fun x => (x.1, x.2.outcome fs p.scanner x.1))

def stepsLeft (p : Pool) : Nat :=
  (p.tasks.map (fun x => x.2.stepsLeft)).sum

section Steps

variable {fs : FileSystem} {workers : Int} {p q : Pool}

/-- All that a step of the pool does. -/
structure Follows (fs : FileSystem) (p q : Pool) : Prop where
  scanner : q.scanner = p.scanner
  outcomes : q.outcomes fs = p.outcomes fs
  stepsLeft : q.stepsLeft < p.stepsLeft

theorem Step.follows (h : Step fs workers p q) : Follows fs p q := by
  cases h with
  | @advance s s' t t' before after f hallows hrun =>
    obtain ⟨next, hnext, houtcome, hless⟩ := t.run_advance fs f s
    obtain ⟨rfl, rfl⟩ := Prod.mk.inj (hnext.symm.trans hrun)
    have hopen : t.isDone = false := by
      cases t with
      | done outcome => exact hallows.elim
      | _ => rfl
    have hless := hless hopen
    refine ⟨rfl, ?_, ?_⟩
    · simp [Pool.outcomes, houtcome]
    · simp only [Pool.stepsLeft, List.map_append, List.map_cons, List.sum_append, List.sum_cons]
      omega

theorem Run.scanner {n : Nat} (h : Run fs workers n p q) : q.scanner = p.scanner := by
  induction h with
  | none => rfl
  | step _ hstep ih => exact hstep.follows.scanner.trans ih

theorem Run.outcomes {n : Nat} (h : Run fs workers n p q) : q.outcomes fs = p.outcomes fs := by
  induction h with
  | none => rfl
  | step _ hstep ih => exact hstep.follows.outcomes.trans ih

theorem Run.stepsLeft {n : Nat} (h : Run fs workers n p q) : q.stepsLeft + n ≤ p.stepsLeft := by
  induction h with
  | none => omega
  | step _ hstep ih =>
    have hless := hstep.follows.stepsLeft
    omega

theorem Step.of_allows {x : Found × Task} (hx : x ∈ p.tasks) (h : Allows workers p x.2) :
    ∃ q, Step fs workers p q := by
  obtain ⟨s, tasks⟩ := p
  obtain ⟨f, t⟩ := x
  obtain ⟨before, after, rfl⟩ := List.append_of_mem hx
  exact ⟨_, .advance before after f h rfl⟩

/-- Where no task can go on nobody has the parser, so none waits for it; then all workers are free,
so none waits for a worker. -/
theorem isFinished_of_stuck (hworkers : 1 ≤ workers)
    (hstuck : ∀ x ∈ p.tasks, ¬ Allows workers p x.2) : p.isFinished = true := by
  have hparser : p.tasks.all (fun x => !x.2.holdsParser) = true := by
    apply List.all_eq_true.mpr
    rintro ⟨f, t⟩ hx
    cases t with
    | parsing source => exact absurd trivial (hstuck _ hx)
    | _ => rfl
  have hquiet : ∀ x ∈ p.tasks, x.2 = .waiting ∨ ∃ outcome, x.2 = .done outcome := by
    rintro ⟨f, t⟩ hx
    have hallows := hstuck _ hx
    cases t with
    | waiting => exact .inl rfl
    | begun => exact absurd trivial hallows
    | loaded source => exact absurd hparser hallows
    | parsing source => exact absurd trivial hallows
    | parsed parsing => exact absurd trivial hallows
    | done outcome => exact .inr ⟨outcome, rfl⟩
  have hidle : p.tasks.countP (fun x => x.2.isRunning) = 0 := by
    apply List.countP_eq_zero.mpr
    intro x hx
    rcases hquiet x hx with hwaiting | ⟨outcome, hdone⟩
    · simp [hwaiting, Task.isRunning]
    · simp [hdone, Task.isRunning]
  apply List.all_eq_true.mpr
  intro x hx
  rcases hquiet x hx with hwaiting | ⟨outcome, hdone⟩
  · have hallows := hstuck x hx
    simp only [hwaiting, Allows, hidle] at hallows
    omega
  · simp [hdone, Task.isDone]

theorem progress (hworkers : 1 ≤ workers) (p : Pool) :
    p.isFinished = true ∨ ∃ q, Step fs workers p q := by
  by_cases hstuck : ∀ x ∈ p.tasks, ¬ Allows workers p x.2
  · exact .inl (isFinished_of_stuck hworkers hstuck)
  · push Not at hstuck
    obtain ⟨x, hx, hallows⟩ := hstuck
    exact .inr (Step.of_allows hx hallows)

/-- Every run can be carried on until all is done. -/
theorem Run.finish (hworkers : 1 ≤ workers) {n : Nat} (h : Run fs workers n p q) :
    ∃ m r, Run fs workers m p r ∧ r.isFinished = true := by
  induction hleft : q.stepsLeft using Nat.strongRecOn generalizing n q with
  | ind left ih =>
    rcases progress hworkers q with hfinished | ⟨next, hstep⟩
    · exact ⟨n, q, h, hfinished⟩
    · exact ih next.stepsLeft (hleft ▸ hstep.follows.stepsLeft) (.step h hstep) rfl

theorem collected_of_isFinished (h : p.isFinished = true) : p.collected = p.outcomes fs := by
  rw [Pool.outcomes, ← List.filterMap_eq_map]
  apply List.filterMap_congr
  rintro ⟨f, t⟩ hx
  have hdone := List.all_eq_true.mp h _ hx
  cases t with
  | done outcome => rfl
  | _ => simp [Task.isDone] at hdone

end Steps

theorem outcomes_start (s : Scanner) (fs : FileSystem) (path : String) :
    (start s fs path).outcomes fs = s.outcomes fs path := by
  simp [start, Pool.outcomes, Scanner.outcomes, Task.outcome, Function.comp_def]

theorem stepsLeft_start (s : Scanner) (fs : FileSystem) (path : String) :
    (start s fs path).stepsLeft = 5 * (findFiles fs s.settings path).length := by
  simp [start, Pool.stepsLeft, Task.stepsLeft, Function.comp_def, Nat.mul_comm]

end Pool

section Settings

variable {settings settings' : Settings}

theorem filesHere_congr (h : settings.leavesOut = settings'.leavesOut) (fs : FileSystem)
    (site : Site) (entries : List (String × Entry)) :
    filesHere fs settings site entries = filesHere fs settings' site entries := by
  simp only [filesHere, h]

mutual
theorem filesBelow_congr (h : settings.leavesOut = settings'.leavesOut) (fs : FileSystem)
    (site : Site) (e : Entry) : filesBelow fs settings site e = filesBelow fs settings' site e := by
  cases e with
  | file content => simp only [filesBelow]
  | link target => simp only [filesBelow]
  | directory entries =>
    simp only [filesBelow, filesHere_congr h, filesOfEntries_congr h fs site entries]

theorem filesOfEntries_congr (h : settings.leavesOut = settings'.leavesOut) (fs : FileSystem)
    (site : Site) (entries : List (String × Entry)) :
    filesOfEntries fs settings site entries = filesOfEntries fs settings' site entries := by
  cases entries with
  | nil => simp only [filesOfEntries]
  | cons e rest =>
    obtain ⟨name, entry⟩ := e
    simp only [filesOfEntries, filesOfEntry, h, filesBelow_congr h fs (site.below name) entry,
      filesOfEntries_congr h fs site rest]
end

/-- Which files are found depends on the names to leave out only. -/
theorem findFiles_congr (h : settings.leavesOut = settings'.leavesOut) (fs : FileSystem)
    (path : String) : findFiles fs settings path = findFiles fs settings' path := by
  simp only [findFiles, filesBelow_congr h]

end Settings

theorem putFile_of_not_mem {file : Option String} {files : List (Option String × List Nat)}
    (h : file ∉ files.map Prod.fst) (positions : List Nat) :
    putFile file positions files = files ++ [(file, positions)] := by
  induction files with
  | nil => rfl
  | cons p rest ih =>
    rw [List.map_cons, List.mem_cons, not_or] at h
    simp [putFile, ih h.2, Ne.symm h.1]

theorem Catalog.Holds.byFile_merge {c : Catalog} {merged : List (Option String × List Record)}
    (h : c.Holds merged) {file : Option String} (hnew : file ∉ c.byFile.map Prod.fst)
    (records : List Record) : (c.merge file records).byFile = c.byFile ++ [(file, records)] := by
  rw [map_fst_byFile] at hnew
  have hfiles : (c.merge file records).files =
      c.files ++ [(file, List.range' c.records.size records.length)] :=
    putFile_of_not_mem hnew _
  have hold : c.files.map (fun p => (p.1, (c.merge file records).pick p.2)) = c.byFile := by
    apply List.map_congr_left
    intro p hp
    rw [pick_merge_old c file records (h.inside p hp)]
  have hlast := pick_merge_new c file records
  simpa [Catalog.byFile, hfiles, hlast] using hold

namespace Scanner

/-- Files that are not listed yet, and differ, are listed in the order in which they come. -/
theorem Reflects.byFile_absorbAll {s : Scanner} {parser : Parser} {settings : Settings}
    {merged : List (Option String × List Record)} (h : s.Reflects parser settings merged)
    (hlisted : s.catalog.byFile = merged) (all : List (Found × Except Error Extraction))
    (hnew : (merged.map Prod.fst ++ all.map (fun o => some o.1.relative)).Nodup) :
    (s.absorbAll all).catalog.byFile =
      merged ++ all.filterMap (fun o =>
        o.2.toOption.map (fun e => (some o.1.relative, e.records))) := by
  unfold Scanner.absorbAll
  induction all generalizing s merged with
  | nil => simpa using hlisted
  | cons o rest ih =>
    obtain ⟨f, outcome⟩ := o
    rw [List.map_cons] at hnew
    cases outcome with
    | error e =>
      have hsame : (s.absorb f.relative (.error e)).Reflects parser settings merged :=
        ⟨h.parser, h.settings, h.catalog, h.fileCount⟩
      have hrest := hnew.sublist ((List.sublist_cons_self _ _).append_left _)
      simpa [Except.toOption] using ih hsame hlisted hrest
    | ok e =>
      have hfile : some f.relative ∉ s.catalog.byFile.map Prod.fst := by
        rw [hlisted]
        intro hmem
        exact (List.nodup_append'.mp hnew).2.2 hmem List.mem_cons_self
      have hmerge : (s.merge (some f.relative) e).catalog.byFile =
          merged ++ [(some f.relative, e.records)] := by
        rw [← hlisted]
        exact h.catalog.byFile_merge hfile e.records
      have hrest := ih (h.merge (some f.relative) e) hmerge (by simpa using hnew)
      simpa [Except.toOption, Scanner.absorb] using hrest

theorem absorbAll_cons (s : Scanner) (f : Found) (outcome : Except Error Extraction)
    (rest : List (Found × Except Error Extraction)) :
    s.absorbAll ((f, outcome) :: rest) = (s.absorb f.relative outcome).absorbAll rest :=
  rfl

/-- A file that is taken in counts once, as a file or as a failure. -/
theorem count_absorb (s : Scanner) (file : String) (outcome : Except Error Extraction) :
    (s.absorb file outcome).fileCount + (s.absorb file outcome).errorCount =
      s.fileCount + s.errorCount + 1 := by
  cases outcome with
  | error e => rfl
  | ok e => exact Nat.add_right_comm s.fileCount 1 s.errorCount

theorem count_absorbAll (s : Scanner) (all : List (Found × Except Error Extraction)) :
    (s.absorbAll all).fileCount + (s.absorbAll all).errorCount =
      s.fileCount + s.errorCount + all.length := by
  induction all generalizing s with
  | nil => rfl
  | cons o rest ih =>
    obtain ⟨f, outcome⟩ := o
    rw [absorbAll_cons, ih, count_absorb, List.length_cons]
    omega

def withWorkers (s : Scanner) (n : Int) : Scanner :=
  { s with settings := { s.settings with workers := n } }

theorem absorb_withWorkers (s : Scanner) (n : Int) (file : String)
    (outcome : Except Error Extraction) :
    (s.withWorkers n).absorb file outcome = (s.absorb file outcome).withWorkers n := by
  cases outcome with
  | error e => rfl
  | ok e => rfl

theorem absorbAll_withWorkers (s : Scanner) (n : Int)
    (all : List (Found × Except Error Extraction)) :
    (s.withWorkers n).absorbAll all = (s.absorbAll all).withWorkers n := by
  induction all generalizing s with
  | nil => rfl
  | cons o rest ih =>
    obtain ⟨f, outcome⟩ := o
    rw [absorbAll_cons, absorb_withWorkers, ih, absorbAll_cons]

theorem scanRepository_withWorkers (s : Scanner) (n : Int) (fs : FileSystem) (path : String) :
    (s.withWorkers n).scanRepository fs path = (s.scanRepository fs path).withWorkers n := by
  have hnames : (s.withWorkers n).settings.leavesOut = s.settings.leavesOut := rfl
  have houtcomes : (s.withWorkers n).outcomes fs path = s.outcomes fs path := by
    rw [Scanner.outcomes, findFiles_congr hnames]
    rfl
  rw [Scanner.scanRepository, houtcomes, absorbAll_withWorkers, Scanner.scanRepository]

/-- The ways a scan of a directory can end. One worker takes the files one after the other; several
share them, and the scanner takes the outcomes in once all are there. -/
inductive Ends (s : Scanner) (fs : FileSystem) (path : String) : Scanner → Prop where
  | alone : s.settings.workers ≤ 1 → Ends s fs path (s.scanRepository fs path)
  | shared {n : Nat} {p : Pool} : 1 < s.settings.workers →
      Pool.Run fs s.settings.workers n (Pool.start s fs path) p → p.isFinished = true →
      Ends s fs path (p.scanner.absorbAll p.collected)

theorem Ends.eq_scanRepository {s t : Scanner} {fs : FileSystem} {path : String}
    (h : s.Ends fs path t) : t = s.scanRepository fs path := by
  cases h with
  | alone => rfl
  | shared _ hrun hfinished =>
    rw [Pool.collected_of_isFinished hfinished, hrun.outcomes, Pool.outcomes_start, hrun.scanner]
    rfl

theorem exists_ends (s : Scanner) (fs : FileSystem) (path : String) :
    ∃ t, s.Ends fs path t := by
  by_cases hshared : 1 < s.settings.workers
  · have hstart : Pool.Run fs s.settings.workers 0 (Pool.start s fs path)
        (Pool.start s fs path) := .none _
    obtain ⟨n, p, hrun, hfinished⟩ := hstart.finish (Int.le_of_lt hshared)
    exact ⟨_, .shared hshared hrun hfinished⟩
  · exact ⟨_, .alone (Int.not_lt.mp hshared)⟩

/-- On a fresh scanner the files come in the order in which they were found. -/
theorem scanRepository_fresh {fs : FileSystem} (h : fs.root.Proper) (parser : Parser)
    (settings : Settings) (path : String) :
    let t := (fresh parser settings).scanRepository fs path
    let merged := (Scan.repository fs path).merged parser settings
    t.catalog.byFile = merged ∧ t.records = merged.flatMap Prod.snd := by
  intro t merged
  let s := fresh parser settings
  have hfresh : s.Reflects parser settings [] := ⟨rfl, rfl, Catalog.Holds.empty, rfl⟩
  have hnew : ((s.outcomes fs path).map (fun o => some o.1.relative)).Nodup := by
    have hdistinct := (findFiles_distinct h settings path).map (fun a b h => Option.some.inj h)
    simpa [Scanner.outcomes, s, fresh, Function.comp_def] using hdistinct
  have hmerged : merged = (s.outcomes fs path).filterMap (fun o =>
      o.2.toOption.map (fun e => (some o.1.relative, e.records))) := by
    simp [merged, Scan.merged, Scan.outcomes, Scanner.outcomes, s, fresh, List.filterMap_map]
  constructor
  · rw [hmerged]
    exact hfresh.byFile_absorbAll rfl _ hnew
  · rw [hmerged]
    exact (hfresh.absorbAll (s.outcomes fs path)).catalog.records

/-- However many workers there are, and in whatever order their tasks begin and end, a scan of a
directory ends, and ends as with one worker. -/
theorem ends_as_with_one_worker (s : Scanner) (hworkers : 1 ≤ s.settings.workers) (fs : FileSystem)
    (path : String) :
    let found := findFiles fs s.settings path
    let single := (s.withWorkers 1).scanRepository fs path
    let merged := (Scan.repository fs path).merged s.parser s.settings
    (∃ t, s.Ends fs path t) ∧
    (∀ t, s.Ends fs path t →
      t.catalog = single.catalog ∧ t.fileCount = single.fileCount ∧
      t.errorCount = single.errorCount ∧ t.skippedCount = single.skippedCount ∧
      t.fileCount + t.errorCount = s.fileCount + s.errorCount + found.length) ∧
    (∀ n p, Pool.Run fs s.settings.workers n (Pool.start s fs path) p →
      n ≤ 5 * found.length ∧
      (p.isFinished = true ∨ ∃ q, Pool.Step fs s.settings.workers p q)) ∧
    (fs.root.Proper → ∀ t, (fresh s.parser s.settings).Ends fs path t →
      t.catalog.byFile = merged ∧ t.records = merged.flatMap Prod.snd) := by
  intro found single merged
  refine ⟨exists_ends s fs path, ?_, ?_, ?_⟩
  · intro t ht
    rw [ht.eq_scanRepository]
    have hsingle : single = (s.scanRepository fs path).withWorkers 1 :=
      scanRepository_withWorkers s 1 fs path
    have hcount := count_absorbAll s (s.outcomes fs path)
    rw [Scanner.outcomes, List.length_map] at hcount
    rw [hsingle]
    exact ⟨rfl, rfl, rfl, rfl, hcount⟩
  · intro n p hrun
    have hleft := hrun.stepsLeft
    rw [Pool.stepsLeft_start] at hleft
    exact ⟨Nat.le_of_add_left_le hleft, Pool.progress hworkers p⟩
  · intro hproper t ht
    rw [ht.eq_scanRepository]
    exact scanRepository_fresh hproper s.parser s.settings path

theorem readSource_of_read {fs : FileSystem} {settings : Settings} {path : String} {size : Nat}
    {source : Source} (hzero : Path.holdsZero path = false) (hsize : fs.size path = .ok size)
    (hsmall : size ≤ settings.maxFileSize) (hread : fs.read path = .ok source) :
    readSource fs settings path = .ok source := by
  simp [readSource, hzero, hsize, Int.not_lt.mpr hsmall, hread]

/-- Two files, of which one cannot be read. -/
def halfReadable : List (String × Entry) :=
  [("a.js", .file "function f() {}".toUTF8), ("b.js", .link "nowhere")]

def halfReadableFiles : FileSystem :=
  ⟨.directory halfReadable, [], []⟩

def twoWorkers : Scanner :=
  fresh JavaScript.parser { workers := 2 }

theorem filesHere_halfReadable :
    filesHere halfReadableFiles twoWorkers.settings ⟨[], ".", []⟩ halfReadable =
      [⟨"./a.js", "a.js"⟩, ⟨"./b.js", "b.js"⟩] := by
  have hlink : halfReadableFiles.linksToDirectory [] "nowhere" = false := by cbv
  have hnames : (halfReadable.filter (fun e =>
      isFileEntry halfReadableFiles ⟨[], ".", []⟩ e.2)).map Prod.fst = ["a.js", "b.js"] := by
    simp [halfReadable, isFileEntry, hlink]
  have hkept : ["a.js", "b.js"].filter (fun n =>
      !twoWorkers.settings.leavesOut (Site.relativeTo ⟨[], ".", []⟩ n) &&
        (Language.ofPath? (Path.join "." n)).isSome) = ["a.js", "b.js"] := by decide +kernel
  rw [filesHere, hnames, hkept, List.mergeSort_of_pairwise (by decide)]
  decide +kernel

theorem findFiles_halfReadable :
    findFiles halfReadableFiles twoWorkers.settings "." =
      [⟨"./a.js", "a.js"⟩, ⟨"./b.js", "b.js"⟩] := by
  have hlocate : halfReadableFiles.locate "." = .ok [] := by cbv
  have hroot : halfReadableFiles.root.get? [] = some (.directory halfReadable) := rfl
  have hinner : filesOfEntries halfReadableFiles twoWorkers.settings ⟨[], ".", []⟩ halfReadable =
      [("a.js", []), ("b.js", [])] := by
    simp [halfReadable, filesOfEntries, filesOfEntry, filesBelow]
  simp only [findFiles, hlocate, hroot, filesBelow, filesHere_halfReadable, hinner]
  rw [List.mergeSort_of_pairwise (by decide)]
  rfl

theorem merged_halfReadable :
    ((Scan.repository halfReadableFiles ".").merged twoWorkers.parser twoWorkers.settings).map
      (fun m => (m.1, m.2.map Record.name)) = [(some "a.js", ["f"])] := by
  have hgood : readSource halfReadableFiles twoWorkers.settings "./a.js" =
      .ok "function f() {}".toUTF8 :=
    readSource_of_read (by decide) (by cbv : halfReadableFiles.size "./a.js" = .ok 15) (by decide)
      (by cbv)
  have hbad : readSource halfReadableFiles twoWorkers.settings "./b.js" =
      .error (.access .notFound "./b.js") := by
    have hzero : Path.holdsZero "./b.js" = false := by decide
    have hsize : halfReadableFiles.size "./b.js" = .error .notFound := by cbv
    simp [readSource, hzero, hsize]
  simp only [Scan.merged, Scan.outcomes, findFiles_halfReadable, extractFile, List.map_cons,
    List.map_nil, hgood, hbad]
  decide +kernel

/-- Both workers have a file, one of them without success. -/
theorem twoWorkers_end_as_one :
    ∃ t, twoWorkers.Ends halfReadableFiles "." t ∧
      t.catalog = ((twoWorkers.withWorkers 1).scanRepository halfReadableFiles ".").catalog ∧
      t.fileCount + t.errorCount = 2 ∧
      t.catalog.byFile.map (fun m => (m.1, m.2.map Record.name)) = [(some "a.js", ["f"])] := by
  have hworkers : 1 ≤ twoWorkers.settings.workers := by decide
  have hproper : halfReadableFiles.root.Proper := by
    refine ⟨by decide, ⟨by decide, trivial⟩, ⟨by decide, trivial⟩, trivial⟩
  obtain ⟨⟨t, ht⟩, hends, _, hfresh⟩ :=
    ends_as_with_one_worker twoWorkers hworkers halfReadableFiles "."
  obtain ⟨hcatalog, _, _, _, hcount⟩ := hends t ht
  rw [findFiles_halfReadable] at hcount
  refine ⟨t, ht, hcatalog, hcount, ?_⟩
  rw [(hfresh hproper t ht).1]
  exact merged_halfReadable

end Scanner

end CallAtlas
