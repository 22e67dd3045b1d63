import CallAtlas.Proofs.FirstOccurrences
import CallAtlas.Proofs.Methods
import CallAtlas.Proofs.Printing
import CallAtlas.Proofs.ScanState
import Mathlib.Algebra.GroupWithZero.Nat

/-!
The counts of a scanner. However its records came together, they are divided among the functions
and the methods of the files and, where labels are kept, among five labels.
-/

set_option autoImplicit false

namespace CallAtlas

section Tables

variable {α β γ : Type} [DecidableEq α]

/-- A change to the row of a key, in a table that gives every key its value. -/
theorem updateRow_map {keys : List α} (hkeys : keys.Nodup) (value : α → β) (f : β → β) (key : α)
    {fresh : β} (hfresh : key ∉ keys → value key = fresh) :
    updateRow key fresh f (keys.map (fun k => (k, value k))) =
      (if key ∈ keys then keys else keys ++ [key]).map
        (fun k => (k, if k = key then f (value k) else value k)) := by
  induction keys with
  | nil => simp [updateRow, hfresh]
  | cons k rest ih =>
    rw [List.nodup_cons] at hkeys
    by_cases hk : k = key
    · subst hk
      have hrest : rest.map (fun j => (j, if j = k then f (value j) else value j)) =
          rest.map (fun j => (j, value j)) := by
        apply List.map_congr_left
        intro j hj
        have hne : j ≠ k := fun he => hkeys.1 (he ▸ hj)
        rw [if_neg hne]
      simp [updateRow, hrest]
    · have hne : key ≠ k := fun he => hk he.symm
      have hrest := ih hkeys.2 (fun h => hfresh (by simp [hne, h]))
      simp only [List.map_cons, updateRow, hk, if_false, hrest, List.mem_cons, hne, false_or]
      split
      · simp [hk]
      · simp [hk]

/-- A row that starts with nothing and gains `n` makes the sum over all rows gain `n`. -/
theorem sum_updateRow (key : α) {fresh : β} {f : β → β} {weight : β → Nat} {n : Nat}
    (hfresh : weight fresh = 0) (hf : ∀ v, weight (f v) = weight v + n) (table : List (α × β)) :
    ((updateRow key fresh f table).map (fun row => weight row.2)).sum =
      (table.map (fun row => weight row.2)).sum + n := by
  induction table with
  | nil => simp [updateRow, hf, hfresh]
  | cons row rest ih =>
    obtain ⟨k, v⟩ := row
    simp only [updateRow]
    split
    · simp only [List.map_cons, List.sum_cons, hf]
      omega
    · simp only [List.map_cons, List.sum_cons, ih]
      omega

/-- A table made from items, each of which changes the row of its key. -/
def tableOf (key : γ → α) (fresh : β) (change : β → γ → β) (items : List γ) : List (α × β) :=
  items.foldl (fun table x => updateRow (key x) fresh (change · x) table) []

theorem tableOf_snoc (key : γ → α) (fresh : β) (change : β → γ → β) (items : List γ) (x : γ) :
    tableOf key fresh change (items ++ [x]) =
      updateRow (key x) fresh (change · x) (tableOf key fresh change items) := by
  simp [tableOf]

/-- A count of some items, kept row by row, comes to the count over all items. -/
theorem sum_tableOf (key : γ → α) {fresh : β} {change : β → γ → β} (weight : β → Nat)
    {counted : γ → Bool} (hfresh : weight fresh = 0)
    (hchange : ∀ v x, weight (change v x) = weight v + if counted x then 1 else 0)
    (items : List γ) :
    ((tableOf key fresh change items).map (fun row => weight row.2)).sum =
      items.countP counted := by
  induction items using List.reverseRecOn with
  | nil => rfl
  | append_singleton items x ih =>
    rw [tableOf_snoc, sum_updateRow (key x) hfresh (fun v => hchange v x), ih,
      List.countP_append, List.countP_singleton]

variable [BEq α] [LawfulBEq α]

/-- The rows stand in the order in which their keys first came, and each has the changes made by
the items of its key. -/
theorem tableOf_eq (key : γ → α) (fresh : β) (change : β → γ → β) (items : List γ) :
    tableOf key fresh change items =
      (items.map key).eraseDups.map
        (fun k => (k, (items.filter (fun x => key x = k)).foldl change fresh)) := by
  induction items using List.reverseRecOn with
  | nil => rfl
  | append_singleton items x ih =>
    -- a key that comes for the first time finds no change of its row made so far
    have hfresh : key x ∉ (items.map key).eraseDups →
        (items.filter (fun y => key y = key x)).foldl change fresh = fresh := by
      intro hx
      have hnone : items.filter (fun y => key y = key x) = [] := by
        simpa using hx
      rw [hnone, List.foldl_nil]
    rw [tableOf_snoc, ih, updateRow_map (nodup_eraseDups _) _ _ _ hfresh, List.map_append,
      List.map_singleton, eraseDups_snoc]
    simp only [List.mem_eraseDups]
    apply List.map_congr_left
    intro k _
    by_cases hk : k = key x
    · simp [hk, List.filter_append]
    · have hne : ¬ key x = k := fun he => hk he.symm
      simp [hk, hne, List.filter_append]

theorem map_fst_tableOf (key : γ → α) (fresh : β) (change : β → γ → β) (items : List γ) :
    (tableOf key fresh change items).map Prod.fst = (items.map key).eraseDups := by
  simp [tableOf_eq, Function.comp_def]

theorem mem_tableOf (key : γ → α) (fresh : β) (change : β → γ → β) (items : List γ) (k : α)
    (v : β) :
    (k, v) ∈ tableOf key fresh change items ↔
      (∃ x ∈ items, key x = k) ∧
        v = (items.filter (fun x => key x = k)).foldl change fresh := by
  rw [tableOf_eq, List.mem_map]
  constructor
  · rintro ⟨j, hj, heq⟩
    obtain ⟨rfl, rfl⟩ := Prod.mk.inj heq
    rw [List.mem_eraseDups, List.mem_map] at hj
    exact ⟨hj, rfl⟩
  · rintro ⟨hk, rfl⟩
    refine ⟨k, ?_, rfl⟩
    rwa [List.mem_eraseDups, List.mem_map]

end Tables

theorem fileTable_eq (records : List Record) :
    fileTable records = tableOf Record.file {} Tally.count records := rfl

/-- The files stand in the order in which they first came. -/
theorem map_fst_fileTable (records : List Record) :
    (fileTable records).map Prod.fst = (records.map Record.file).eraseDups := by
  rw [fileTable_eq, map_fst_tableOf]

theorem returnTable_eq (records : List Record) :
    returnTable records =
      tableOf id 0 (fun n _ => n + 1) (records.filterMap (fun r => present? r.returnType)) := by
  rw [tableOf, List.foldl_filterMap, returnTable]
  congr 1
  funext table r
  cases present? r.returnType with
  | none => rfl
  | some label => rfl

theorem countCalls_eq (records : List Record) :
    countCalls records = (records.map (fun r => r.calls.length)).sum := by
  induction records with
  | nil => rfl
  | cons r rest ih => rw [countCalls, ih, List.map_cons, List.sum_cons]

theorem Tally.functions_count (t : Tally) (r : Record) :
    (t.count r).functions = t.functions + if !r.isMethod then 1 else 0 := by
  cases hr : r.isMethod with
  | true => simp [Tally.count, hr]
  | false => simp [Tally.count, hr]

theorem Tally.methods_count (t : Tally) (r : Record) :
    (t.count r).methods = t.methods + if r.isMethod then 1 else 0 := by
  cases hr : r.isMethod with
  | true => simp [Tally.count, hr]
  | false => simp [Tally.count, hr]

/-- The functions and the methods among the records of a file. -/
def tallyOf (records : List Record) (file : Option String) : Tally where
  functions := records.countP (fun r => r.file = file ∧ r.isMethod = false)
  methods := records.countP (fun r => r.file = file ∧ r.isMethod = true)

theorem foldl_count_filter (records : List Record) (file : Option String) :
    (records.filter (fun r => r.file = file)).foldl Tally.count {} = tallyOf records file := by
  rw [Tally.foldl_count, tallyOf, countFunctions, countMethods, List.filter_filter,
    List.filter_filter, List.countP_eq_length_filter, List.countP_eq_length_filter]
  simp [Bool.and_comm]

/-- The counts divide the records among the functions and the methods of the files. -/
structure Statistics.DividesByFile (st : Statistics) (records : List Record) : Prop where
  totalFunctions : st.totalFunctions = records.countP (fun r => !r.isMethod)
  totalMethods : st.totalMethods = records.countP (fun r => r.isMethod)
  total : st.totalFunctions + st.totalMethods = records.length
  distinct : (st.files.map Prod.fst).Nodup
  row_iff : ∀ file t, (file, t) ∈ st.files ↔
    (∃ r ∈ records, r.file = file) ∧ t = tallyOf records file
  functions : (st.files.map (fun row => row.2.functions)).sum = st.totalFunctions
  methods : (st.files.map (fun row => row.2.methods)).sum = st.totalMethods

/-- The counts divide the records among the labels. -/
structure Statistics.DividesByLabel (st : Statistics) (records : List Record) : Prop where
  distinct : (st.byReturnType.map Prod.fst).Nodup
  row_iff : ∀ label n, (label, n) ∈ st.byReturnType ↔
    (∃ r ∈ records, r.returnType = some label) ∧
      n = records.countP (fun r => r.returnType = some label)
  total : (st.byReturnType.map Prod.snd).sum = records.length
  labels : ∀ row ∈ st.byReturnType, row.1 ∈ ["void", "any", "number", "string", "Promise<void>"]

theorem Statistics.dividesByFile_ofRecords (files errors : Nat) (records : List Record) :
    (ofRecords files errors records).DividesByFile records := by
  have hfunctions : countFunctions records = records.countP (fun r => !r.isMethod) :=
    List.countP_eq_length_filter.symm
  have hmethods : countMethods records = records.countP (fun r => r.isMethod) :=
    List.countP_eq_length_filter.symm
  refine ⟨hfunctions, hmethods, countFunctions_add_countMethods records, ?_, ?_, ?_, ?_⟩
  · simp only [ofRecords, map_fst_fileTable]
    exact nodup_eraseDups _
  · intro file t
    simp only [ofRecords, fileTable_eq, mem_tableOf, foldl_count_filter]
  · refine Eq.trans ?_ hfunctions.symm
    exact sum_tableOf Record.file Tally.functions rfl Tally.functions_count records
  · refine Eq.trans ?_ hmethods.symm
    exact sum_tableOf Record.file Tally.methods rfl Tally.methods_count records

theorem mem_returnTable (records : List Record) (label : String) (n : Nat) :
    (label, n) ∈ returnTable records ↔
      (∃ r ∈ records, present? r.returnType = some label) ∧
        n = records.countP (fun r => present? r.returnType = some label) := by
  have hcount : (records.filterMap (fun r => present? r.returnType)).countP
      (fun l => id l = label) =
      records.countP (fun r => present? r.returnType = some label) := by
    rw [List.countP_filterMap]
    apply List.countP_congr
    intro r _
    cases present? r.returnType with
    | none => simp
    | some l => simp
  rw [returnTable_eq, mem_tableOf, List.foldl_add_const, ← List.countP_eq_length_filter, hcount]
  simp

theorem sum_returnTable (records : List Record) :
    ((returnTable records).map Prod.snd).sum =
      records.countP (fun r => (present? r.returnType).isSome) := by
  have hsum : ((returnTable records).map Prod.snd).sum =
      (records.filterMap (fun r => present? r.returnType)).countP (fun _ => true) := by
    rw [returnTable_eq]
    refine sum_tableOf (id : String → String) (id : Nat → Nat) rfl ?_ _
    exact fun _ _ => rfl
  rw [hsum, List.countP_true, List.length_filterMap_eq_countP]

theorem present?_text (label : ReturnLabel) : present? (some label.text) = some label.text := by
  cases label <;> rfl

theorem ReturnLabel.text_mem (label : ReturnLabel) :
    label.text ∈ ["void", "any", "number", "string", "Promise<void>"] := by
  cases label <;> decide

theorem Statistics.dividesByLabel_ofRecords (files errors : Nat) {records : List Record}
    (h : ∀ r ∈ records, ∃ label : ReturnLabel, r.returnType = some label.text) :
    (ofRecords files errors records).DividesByLabel records := by
  have hpresent : ∀ r ∈ records, present? r.returnType = r.returnType := by
    intro r hr
    obtain ⟨label, hlabel⟩ := h r hr
    rw [hlabel, present?_text]
  have hrow : ∀ label n, (label, n) ∈ (ofRecords files errors records).byReturnType ↔
      (∃ r ∈ records, r.returnType = some label) ∧
        n = records.countP (fun r => r.returnType = some label) := by
    intro label n
    have hsome : (∃ r ∈ records, present? r.returnType = some label) ↔
        ∃ r ∈ records, r.returnType = some label := by
      refine exists_congr (fun r => and_congr_right (fun hr => ?_))
      rw [hpresent r hr]
    have hcount : records.countP (fun r => present? r.returnType = some label) =
        records.countP (fun r => r.returnType = some label) := by
      apply List.countP_congr
      intro r hr
      rw [hpresent r hr]
    rw [← hsome, ← hcount]
    exact mem_returnTable records label n
  refine ⟨?_, hrow, ?_, ?_⟩
  · simp only [ofRecords, returnTable_eq, map_fst_tableOf]
    exact nodup_eraseDups _
  · refine (sum_returnTable records).trans (List.countP_eq_length.mpr ?_)
    intro r hr
    obtain ⟨label, hlabel⟩ := h r hr
    rw [hlabel, present?_text, Option.isSome_some]
  · rintro ⟨label, n⟩ hmem
    obtain ⟨⟨r, hr, hlabel⟩, _⟩ := (hrow label n).mp hmem
    obtain ⟨known, hknown⟩ := h r hr
    rw [hknown] at hlabel
    rw [← Option.some.inj hlabel]
    exact known.text_mem

theorem returnTable_eq_nil {records : List Record} (h : ∀ r ∈ records, r.returnType = none) :
    returnTable records = [] := by
  have hnone : records.filterMap (fun r => present? r.returnType) = [] := by
    rw [List.filterMap_eq_nil_iff]
    intro r hr
    rw [h r hr, present?]
  rw [returnTable_eq, hnone, tableOf, List.foldl_nil]

theorem extract_readFrom (survey : Survey) (root : Node) :
    ∀ r ∈ (extract survey root).records, ∃ f, r.ReadFrom survey f := by
  intro r hr
  rw [← map_snd_recordedFunctions] at hr
  obtain ⟨x, hx, rfl⟩ := List.mem_map.mp hr
  obtain ⟨⟨f, _, hf⟩, _⟩ := function_of_mem_recordedFunctions hx
  exact ⟨f, hf⟩

/-- What is said at the end of a scan, as far as it can be read off the statistics. -/
def Statistics.closing (st : Statistics) (skipped : Nat) : List String :=
  ["\n" ++ Report.rule 60,
    "✓ Successfully parsed: " ++ toString st.totalFiles ++ " files",
    "✗ Errors: " ++ toString st.totalErrors ++ " files",
    "✓ Total functions: " ++ toString st.totalFunctions,
    "✓ Total methods: " ++ toString st.totalMethods]
  ++ (if skipped = 0 then [] else ["✗ Skipped malformed nodes: " ++ toString skipped])
  ++ [Report.rule 60 ++ "\n"]

theorem Progress.closing_eq (s : Scanner) :
    Progress.closing s = s.statistics.closing s.skippedCount := by
  simp [Progress.closing, Statistics.closing, Tally.foldl_count, Scanner.statistics,
    Statistics.ofRecords]

namespace Scanner

theorem readFrom_run (parser : Parser) (settings : Settings) (scans : List Scan) :
    ∀ r ∈ ((fresh parser settings).run scans).records,
      ∃ survey f, survey.detail = settings.detail ∧ r.ReadFrom survey f := by
  intro r hr
  have hrecords := (reflects_fresh parser settings scans).catalog.records
  rw [records, hrecords] at hr
  obtain ⟨m, hm, hr⟩ := List.mem_flatMap.mp hr
  obtain ⟨scan, _, hm⟩ := List.mem_flatMap.mp hm
  obtain ⟨source, root, hm⟩ := scan.merged_extracted parser settings m hm
  rw [hm] at hr
  obtain ⟨f, hf⟩ := extract_readFrom ⟨source, settings.detail, m.1⟩ root r hr
  exact ⟨_, f, rfl, hf⟩

/-- The counts of a scanner after any calls, those that failed and those about a file seen before
included, and what is printed of them at the end of the next scan of a directory. -/
theorem counts_of_run (parser : Parser) (settings : Settings) (scans : List Scan) :
    let s := (fresh parser settings).run scans
    s.statistics.DividesByFile s.records ∧
    s.statistics.totalCalls = (s.records.map (fun r => r.calls.length)).sum ∧
    (settings.detail = .rich → s.statistics.DividesByLabel s.records) ∧
    (settings.detail = .signature →
      s.statistics.byReturnType = [] ∧ s.statistics.totalCalls = 0) ∧
    Progress.closing s = s.statistics.closing s.skippedCount ∧
    ∀ fs path least,
      let next := s.after (.repository fs path)
      ∃ before, linesOf (Progress.events least s path (s.outcomes fs path)) =
        before ++ next.statistics.closing next.skippedCount := by
  intro s
  have hread : ∀ r ∈ s.records, ∃ survey f,
      survey.detail = settings.detail ∧ r.ReadFrom survey f := readFrom_run parser settings scans
  refine ⟨Statistics.dividesByFile_ofRecords _ _ _, countCalls_eq s.records, ?_, ?_,
    Progress.closing_eq s, ?_⟩
  · intro hrich
    apply Statistics.dividesByLabel_ofRecords
    intro r hr
    obtain ⟨survey, f, hdetail, hf⟩ := hread r hr
    exact ⟨_, (hf.rich (hdetail.trans hrich)).1⟩
  · intro hsignature
    have hnothing : ∀ r ∈ s.records, r.returnType = none ∧ r.calls = [] := by
      intro r hr
      obtain ⟨survey, f, hdetail, hf⟩ := hread r hr
      exact (hf.signature (hdetail.trans hsignature)).2.2
    refine ⟨returnTable_eq_nil (fun r hr => (hnothing r hr).1), ?_⟩
    have hzero : s.records.map (fun r => r.calls.length) = s.records.map (fun _ => 0) := by
      apply List.map_congr_left
      intro r hr
      rw [(hnothing r hr).2, List.length_nil]
    refine (countCalls_eq s.records).trans ?_
    rw [hzero]
    simp
  · intro fs path least next
    rw [Progress.events, ← Progress.closing_eq, List.map_append, ← List.append_assoc,
      linesOf_append, linesOf_map_line]
    exact ⟨_, rfl⟩

def labelledScans : List Scan :=
  [.source (some "a.js") (.ofText "function f() { return g(1); }"),
    .source (some "a.js") .nothing, .source (some "b.js") (.ofText "x = 1;"),
    .source (some "a.js") (.ofText "class A { m() { return 1; } }")]

/-- The second call fails, the third finds no function, and the last one is about the file of the
first. -/
theorem counts_of_labelledScans :
    let s := (fresh JavaScript.parser {}).run labelledScans
    let bare := (fresh JavaScript.parser { detail := .signature }).run labelledScans
    s.statistics.files = [(some "a.js", ⟨1, 1⟩)] ∧
    s.statistics.byReturnType = [("void", 1), ("number", 1)] ∧
    s.statistics.DividesByLabel s.records ∧
    bare.records.length = 2 ∧ bare.statistics.totalCalls = 0 := by
  intro s bare
  have hcounts : s.statistics.files = [(some "a.js", ⟨1, 1⟩)] ∧
      s.statistics.byReturnType = [("void", 1), ("number", 1)] := by decide +kernel
  have hbare : bare.records.length = 2 := by decide +kernel
  obtain ⟨_, _, hrich, _⟩ := counts_of_run JavaScript.parser {} labelledScans
  obtain ⟨_, _, _, hsignature, _⟩ :=
    counts_of_run JavaScript.parser { detail := .signature } labelledScans
  exact ⟨hcounts.1, hcounts.2, hrich rfl, hbare, (hsignature rfl).2⟩

end Scanner

end CallAtlas
