import CallAtlas.JavaScript.Program
import CallAtlas.Scanner
import Mathlib.Data.List.Perm.Basic

/-!
A scanner after any number of calls. What it holds is decided by the scans that succeeded: all
their records stay, but a file is listed with the records of its latest scan only.
-/

set_option autoImplicit false

namespace CallAtlas

section Latest

variable {α β : Type} [DecidableEq α]

/-- The entries whose key no later entry has; the others are `superseded`. -/
def latest : List (α × β) → List (α × β)
  | [] => []
  | m :: rest => if rest.any (fun n => n.1 = m.1) then latest rest else m :: latest rest

def superseded : List (α × β) → List (α × β)
  | [] => []
  | m :: rest => if rest.any (fun n => n.1 = m.1) then m :: superseded rest else superseded rest

theorem latest_snoc (l : List (α × β)) (m : α × β) :
    latest (l ++ [m]) = (latest l).filter (fun n => n.1 ≠ m.1) ++ [m] := by
  induction l with
  | nil => simp [latest]
  | cons a rest ih =>
    cases hrest : rest.any (fun n => n.1 = a.1) with
    | true => simp [latest, hrest, ih]
    | false =>
      by_cases hkey : m.1 = a.1
      · simp [latest, hrest, hkey, ih]
      · have hkey' : ¬ a.1 = m.1 := fun h => hkey h.symm
        simp [latest, hrest, hkey, hkey', ih]

theorem mem_of_mem_latest {l : List (α × β)} {m : α × β} (h : m ∈ latest l) : m ∈ l := by
  induction l with
  | nil => simp [latest] at h
  | cons a rest ih =>
    simp only [latest] at h
    split at h
    · exact List.mem_cons_of_mem a (ih h)
    · rcases List.mem_cons.mp h with rfl | hrest
      · exact List.mem_cons_self
      · exact List.mem_cons_of_mem a (ih hrest)

theorem nodup_latest (l : List (α × β)) : ((latest l).map Prod.fst).Nodup := by
  induction l with
  | nil => exact List.nodup_nil
  | cons a rest ih =>
    simp only [latest]
    split
    · exact ih
    · rename_i hrest
      rw [List.map_cons, List.nodup_cons]
      refine ⟨?_, ih⟩
      intro hmem
      obtain ⟨n, hn, hkey⟩ := List.mem_map.mp hmem
      exact hrest (List.any_eq_true.mpr ⟨n, mem_of_mem_latest hn, by simpa using hkey⟩)

theorem perm_latest_append_superseded (l : List (α × β)) :
    l.Perm (latest l ++ superseded l) := by
  induction l with
  | nil => exact .nil
  | cons a rest ih =>
    simp only [latest, superseded]
    split
    · exact (ih.cons a).trans List.perm_middle.symm
    · exact ih.cons a

theorem superseded_eq_nil_iff (l : List (α × β)) :
    superseded l = [] ↔ (l.map Prod.fst).Nodup := by
  induction l with
  | nil => simp [superseded]
  | cons a rest ih =>
    have hany : rest.any (fun n => n.1 = a.1) = true ↔ a.1 ∈ rest.map Prod.fst := by
      simp
    rw [List.map_cons, List.nodup_cons, ← ih, ← hany]
    simp only [superseded]
    cases rest.any (fun n => n.1 = a.1) with
    | true => simp
    | false => simp

end Latest

theorem putFile_perm (file : Option String) (positions : List Nat)
    {files : List (Option String × List Nat)} (h : (files.map Prod.fst).Nodup) :
    (putFile file positions files).Perm
      ((file, positions) :: files.filter (fun p => p.1 ≠ file)) := by
  induction files with
  | nil => exact .refl _
  | cons p rest ih =>
    obtain ⟨f, ps⟩ := p
    rw [List.map_cons, List.nodup_cons] at h
    simp only [putFile]
    split
    · rename_i hf
      subst hf
      have hrest : rest.filter (fun p => p.1 ≠ f) = rest := by
        apply List.filter_eq_self.mpr
        intro p hp
        have hne : p.1 ≠ f := by
          intro he
          exact h.1 (List.mem_map.mpr ⟨p, hp, he⟩)
        simpa using hne
      rw [List.filter_cons_of_neg (by simp), hrest]
    · rename_i hf
      have hstep := (ih h.2).cons (f, ps)
      simpa [hf] using hstep.trans (.swap _ _ _)

/-- The catalog is what merging these records, file by file, makes of an empty one. -/
structure Catalog.Holds (c : Catalog) (merged : List (Option String × List Record)) : Prop where
  records : c.records.toList = merged.flatMap Prod.snd
  inside : ∀ p ∈ c.files, ∀ i ∈ p.2, i < c.records.size
  byFile : c.byFile.Perm (latest merged)

namespace Catalog

theorem map_fst_byFile (c : Catalog) : c.byFile.map Prod.fst = c.files.map Prod.fst := by
  simp [byFile]

theorem filterMap_getElem?_range (records : List Record) :
    (List.range records.length).filterMap (fun i => records[i]?) = records := by
  induction records with
  | nil => rfl
  | cons r rest ih =>
    rw [List.length_cons, List.range_succ_eq_map, List.filterMap_cons]
    simpa [List.filterMap_map, Function.comp_def] using ih

theorem pick_merge_new (c : Catalog) (file : Option String) (records : List Record) :
    (c.merge file records).pick (List.range' c.records.size records.length) = records := by
  have hget : ∀ i, (c.merge file records).get? (c.records.size + i) = records[i]? := by
    intro i
    simp [Catalog.get?, Catalog.merge, Array.getElem?_append_right]
  rw [List.range'_eq_map_range, pick, List.filterMap_map]
  simpa only [Function.comp_def, hget] using filterMap_getElem?_range records

theorem pick_merge_old (c : Catalog) (file : Option String) (records : List Record)
    {positions : List Nat} (h : ∀ i ∈ positions, i < c.records.size) :
    (c.merge file records).pick positions = c.pick positions := by
  apply List.filterMap_congr
  intro i hi
  simp [Catalog.get?, Catalog.merge, Array.getElem?_append, h i hi]

theorem Holds.empty : Holds {} [] := by
  refine ⟨rfl, ?_, .nil⟩
  intro p hp
  simp at hp

theorem Holds.merge {c : Catalog} {merged : List (Option String × List Record)} (h : c.Holds merged)
    (file : Option String) (records : List Record) :
    (c.merge file records).Holds (merged ++ [(file, records)]) := by
  have hnodup : (c.files.map Prod.fst).Nodup := by
    rw [← map_fst_byFile]
    exact (h.byFile.map Prod.fst).nodup_iff.mpr (nodup_latest merged)
  have hfiles := putFile_perm file (List.range' c.records.size records.length) hnodup
  refine ⟨?_, ?_, ?_⟩
  · simp [Catalog.merge, h.records]
  · intro p hp i hi
    have hsize : (c.merge file records).records.size = c.records.size + records.length := by
      simp [Catalog.merge]
    rw [hsize]
    rcases List.mem_cons.mp (hfiles.mem_iff.mp hp) with rfl | hold
    · exact (List.mem_range'_1.mp hi).2
    · have hi := h.inside p (List.mem_of_mem_filter hold) i hi
      omega
  · have hrest : (c.files.filter (fun p => p.1 ≠ file)).map
        (fun p => (p.1, (c.merge file records).pick p.2)) =
        c.byFile.filter (fun p => p.1 ≠ file) := by
      rw [Catalog.byFile, List.filter_map]
      apply List.map_congr_left
      intro p hp
      rw [pick_merge_old c file records (h.inside p (List.mem_of_mem_filter hp))]
    have hmap := hfiles.map (fun p => (p.1, (c.merge file records).pick p.2))
    rw [List.map_cons, hrest, pick_merge_new] at hmap
    rw [latest_snoc]
    exact hmap.trans (((h.byFile.filter _).cons _).trans (List.perm_append_singleton _ _).symm)

end Catalog

theorem countFunctions_add_countMethods (records : List Record) :
    countFunctions records + countMethods records = records.length := by
  induction records with
  | nil => rfl
  | cons r rest ih =>
    simp only [countFunctions, countMethods] at ih ⊢
    cases hr : r.isMethod with
    | true =>
      simp [hr]
      omega
    | false =>
      simp [hr]
      omega

/-- A call to a scanner. Each call may find other files. -/
inductive Scan where
  | source (file : Option String) (given : Given)
  | oneFile (fs : FileSystem) (path : String) (relative : Option String)
  | repository (fs : FileSystem) (path : String)

def Scan.outcomes (parser : Parser) (settings : Settings) :
    Scan → List (Option String × Except Error Extraction)
  | .source file given => [(file, analyze parser settings.detail file given)]
  | .oneFile fs path relative =>
    let file := (present? relative).getD path
    [(some file, extractFile parser fs settings path file)]
  | .repository fs path =>
    (findFiles fs settings path).map (fun f =>
      (some f.relative, extractFile parser fs settings f.path f.relative))

/-- The files that a call scans with success, each with its records. -/
def Scan.merged (parser : Parser) (settings : Settings) (scan : Scan) :
    List (Option String × List Record) :=
  (scan.outcomes parser settings).filterMap (fun o => o.2.toOption.map (fun e => (o.1, e.records)))

namespace Scanner

/-- The scanner after a call, which is the old one if the call fails as a whole. -/
def after (s : Scanner) : Scan → Scanner
  | .source file given =>
    match s.scanSource file given with
    | .ok (_, next) => next
    | .error _ => s
  | .oneFile fs path relative =>
    match s.scanFile fs path relative with
    | .ok (_, next) => next
    | .error _ => s
  | .repository fs path => s.scanRepository fs path

def run (s : Scanner) (scans : List Scan) : Scanner :=
  scans.foldl after s

/-- The scanner is what a fresh one becomes when these scans succeed, in this order. -/
structure Reflects (s : Scanner) (parser : Parser) (settings : Settings)
    (merged : List (Option String × List Record)) : Prop where
  parser : s.parser = parser
  settings : s.settings = settings
  catalog : s.catalog.Holds merged
  fileCount : s.fileCount = merged.length

variable {s : Scanner} {parser : Parser} {settings : Settings}
  {merged : List (Option String × List Record)}

theorem Reflects.merge (h : s.Reflects parser settings merged) (file : Option String)
    (e : Extraction) :
    (s.merge file e).Reflects parser settings (merged ++ [(file, e.records)]) := by
  refine ⟨h.parser, h.settings, h.catalog.merge file e.records, ?_⟩
  simp [Scanner.merge, h.fileCount]

theorem Reflects.absorbAll (h : s.Reflects parser settings merged)
    (all : List (Found × Except Error Extraction)) :
    (s.absorbAll all).Reflects parser settings
      (merged ++ all.filterMap (fun o =>
        o.2.toOption.map (fun e => (some o.1.relative, e.records)))) := by
  unfold Scanner.absorbAll
  induction all generalizing s merged with
  | nil => simpa using h
  | cons o rest ih =>
    obtain ⟨f, outcome⟩ := o
    cases outcome with
    | error e =>
      have hsame : (s.absorb f.relative (.error e)).Reflects parser settings merged :=
        ⟨h.parser, h.settings, h.catalog, h.fileCount⟩
      simpa [Except.toOption] using ih hsame
    | ok e =>
      have hmerge := ih (h.merge (some f.relative) e)
      simpa [Except.toOption, Scanner.absorb] using hmerge

theorem Reflects.after (h : s.Reflects parser settings merged) (scan : Scan) :
    (s.after scan).Reflects parser settings (merged ++ scan.merged parser settings) := by
  cases scan with
  | source file given =>
    simp only [Scanner.after, Scanner.scanSource, Scan.merged, Scan.outcomes, h.parser, h.settings]
    cases analyze parser settings.detail file given with
    | error e => simpa [bind, Except.bind, Except.toOption] using h
    | ok e =>
      simpa [bind, Except.bind, pure, Except.pure, Except.toOption] using h.merge file e
  | oneFile fs path relative =>
    simp only [Scanner.after, Scanner.scanFile, Scan.merged, Scan.outcomes, h.parser, h.settings]
    cases extractFile parser fs settings path ((present? relative).getD path) with
    | error e => simpa [bind, Except.bind, Except.toOption] using h
    | ok e =>
      simpa [bind, Except.bind, pure, Except.pure, Except.toOption] using
        h.merge (some ((present? relative).getD path)) e
  | repository fs path =>
    have hall := h.absorbAll (s.outcomes fs path)
    simpa [Scanner.after, Scanner.scanRepository, Scan.merged, Scan.outcomes, Scanner.outcomes,
      List.filterMap_map, Function.comp_def, h.parser, h.settings] using hall

theorem Reflects.run (h : s.Reflects parser settings merged) (scans : List Scan) :
    (s.run scans).Reflects parser settings
      (merged ++ scans.flatMap (Scan.merged parser settings)) := by
  unfold Scanner.run
  induction scans generalizing s merged with
  | nil => simpa using h
  | cons scan rest ih => simpa using ih (h.after scan)

theorem reflects_fresh (parser : Parser) (settings : Settings) (scans : List Scan) :
    ((fresh parser settings).run scans).Reflects parser settings
      (scans.flatMap (Scan.merged parser settings)) := by
  have hfresh : (fresh parser settings).Reflects parser settings [] :=
    ⟨rfl, rfl, Catalog.Holds.empty, rfl⟩
  simpa using hfresh.run scans

theorem Reflects.records_perm (h : s.Reflects parser settings merged) :
    s.records.Perm
      (s.catalog.byFile.flatMap Prod.snd ++ (superseded merged).flatMap Prod.snd) := by
  have hall := (perm_latest_append_superseded merged).flatMap_right Prod.snd
  rw [List.flatMap_append] at hall
  rw [Scanner.records, h.catalog.records]
  exact hall.trans ((h.catalog.byFile.flatMap_right Prod.snd).symm.append_right _)

theorem Reflects.fileCount_eq (h : s.Reflects parser settings merged) :
    s.fileCount = s.catalog.byFile.length + (superseded merged).length := by
  rw [h.fileCount, h.catalog.byFile.length_eq, ← List.length_append]
  exact (perm_latest_append_superseded merged).length_eq

/-- How the books of a scanner agree with what it lists, after any calls. A scan is superseded if
the same file is scanned with success again; every such scan is counted still, and its records
stay among all records. -/
theorem books_of_run (parser : Parser) (settings : Settings) (scans : List Scan) :
    let s := (fresh parser settings).run scans
    let merged := scans.flatMap (Scan.merged parser settings)
    let listed := s.catalog.byFile.flatMap Prod.snd
    (s.catalog.byFile.map Prod.fst).Nodup ∧
    s.records.Perm (listed ++ (superseded merged).flatMap Prod.snd) ∧
    s.fileCount = s.catalog.byFile.length + (superseded merged).length ∧
    s.statistics.totalFiles = s.fileCount ∧
    s.statistics.totalFunctions + s.statistics.totalMethods = s.records.length ∧
    (s.fileCount = s.catalog.byFile.length ↔ (merged.map Prod.fst).Nodup) ∧
    (s.records.Perm listed ↔ ∀ m ∈ superseded merged, m.2 = []) ∧
    ((merged.map Prod.fst).Nodup →
      s.records.Perm listed ∧ s.statistics.totalFiles = s.catalog.byFile.length ∧
      s.statistics.totalFunctions + s.statistics.totalMethods = listed.length) := by
  intro s merged listed
  have h : s.Reflects parser settings merged := reflects_fresh parser settings scans
  have hrecords : s.records.Perm (listed ++ (superseded merged).flatMap Prod.snd) := h.records_perm
  have hfiles : s.fileCount = s.catalog.byFile.length + (superseded merged).length :=
    h.fileCount_eq
  have htotal := countFunctions_add_countMethods s.records
  have hlisted : s.records.Perm listed ↔ ∀ m ∈ superseded merged, m.2 = [] := by
    rw [← List.flatMap_eq_nil_iff]
    constructor
    · intro hperm
      have hlength := hperm.length_eq.symm.trans hrecords.length_eq
      rw [List.length_append] at hlength
      exact List.eq_nil_of_length_eq_zero (by omega)
    · intro hnone
      rw [hnone, List.append_nil] at hrecords
      exact hrecords
  refine ⟨?_, hrecords, hfiles, rfl, htotal, ?_, hlisted, ?_⟩
  · exact (h.catalog.byFile.map Prod.fst).nodup_iff.mpr (nodup_latest merged)
  · rw [hfiles, ← superseded_eq_nil_iff, ← List.length_eq_zero_iff]
    omega
  · intro hnodup
    have hnone := (superseded_eq_nil_iff merged).mpr hnodup
    have hperm : s.records.Perm listed := hlisted.mpr (by simp [hnone])
    refine ⟨hperm, ?_, ?_⟩
    · rw [hnone] at hfiles
      exact hfiles
    · rw [← hperm.length_eq]
      exact htotal

def twoScans : List Scan :=
  [.source (some "a.js") (.ofText "function f() {}"), .source (some "b.js") (.ofText "g();")]

theorem books_of_twoScans :
    ((twoScans.flatMap (Scan.merged JavaScript.parser {})).map Prod.fst).Nodup ∧
    ((fresh JavaScript.parser {}).run twoScans).statistics.totalFiles =
      ((fresh JavaScript.parser {}).run twoScans).catalog.byFile.length := by
  have hnodup : ((twoScans.flatMap (Scan.merged JavaScript.parser {})).map Prod.fst).Nodup := by
    decide +kernel
  obtain ⟨_, _, _, _, _, _, _, hdistinct⟩ := books_of_run JavaScript.parser {} twoScans
  exact ⟨hnodup, (hdistinct hnodup).2.1⟩

def rescans : List Scan :=
  [.source (some "a.js") (.ofText "function f() {}"),
    .source (some "a.js") (.ofText "function f() {}")]

/-- Both scans are counted and both records kept, while one file with one record is listed. -/
theorem books_of_rescans :
    let s := (fresh JavaScript.parser {}).run rescans
    s.fileCount = 2 ∧ s.catalog.byFile.length = 1 ∧ s.statistics.totalFunctions = 2 ∧
    ¬ s.records.Perm (s.catalog.byFile.flatMap Prod.snd) := by
  decide +kernel

end Scanner

end CallAtlas
