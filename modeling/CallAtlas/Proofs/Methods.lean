import CallAtlas.JavaScript.Program
import CallAtlas.Proofs.Details
import CallAtlas.Scanner

/-!
Which records are methods. A record says so in three ways: it lists its class when it is written
out, it is counted as a method, and its name is qualified by the class. The three agree unless the
name of the class covers no text; then the class is listed and nothing else makes the record a
method.
-/

set_option autoImplicit false

namespace CallAtlas

/-- The counts of a file; one without a row has nothing to count. -/
def tallyIn (table : List (Option String × Tally)) (file : Option String) : Tally :=
  (table.lookup file).getD {}

theorem lookup_updateRow {α β : Type} [DecidableEq α] [BEq α] [LawfulBEq α] (key : α) (fresh : β)
    (f : β → β) (table : List (α × β)) (other : α) :
    (updateRow key fresh f table).lookup other =
      if other = key then some (f ((table.lookup key).getD fresh)) else table.lookup other := by
  induction table with
  | nil =>
    by_cases hother : other = key
    · simp [updateRow, hother]
    · have hne : (other == key) = false := beq_eq_false_iff_ne.mpr hother
      simp [updateRow, List.lookup_cons, hother, hne]
  | cons row rest ih =>
    obtain ⟨k, v⟩ := row
    by_cases hk : k = key
    · subst hk
      by_cases hother : other = k
      · simp [updateRow, hother]
      · have hne : (other == k) = false := beq_eq_false_iff_ne.mpr hother
        simp [updateRow, List.lookup_cons, hother, hne]
    · have hkey : (key == k) = false := beq_eq_false_iff_ne.mpr (Ne.symm hk)
      by_cases hother : other = k
      · subst hother
        simp [updateRow, hk]
      · have hne : (other == k) = false := beq_eq_false_iff_ne.mpr hother
        simp [updateRow, hk, List.lookup_cons, hne, hkey, ih]

theorem tallyIn_updateRow (table : List (Option String × Tally)) (r : Record)
    (file : Option String) :
    tallyIn (updateRow r.file {} (·.count r) table) file =
      if file = r.file then (tallyIn table file).count r else tallyIn table file := by
  unfold tallyIn
  rw [lookup_updateRow]
  by_cases hfile : file = r.file
  · simp [hfile]
  · simp [hfile]

theorem Tally.foldl_count (t : Tally) (records : List Record) :
    records.foldl Tally.count t =
      ⟨t.functions + countFunctions records, t.methods + countMethods records⟩ := by
  induction records generalizing t with
  | nil => rfl
  | cons r rest ih =>
    rw [List.foldl_cons, ih]
    cases hr : r.isMethod with
    | true =>
      simp [Tally.count, countFunctions, countMethods, hr]
      omega
    | false =>
      simp [Tally.count, countFunctions, countMethods, hr]
      omega

/-- The row of a file counts the records of that file and no others. -/
theorem tallyIn_fileTable (records : List Record) (file : Option String) :
    tallyIn (fileTable records) file =
      ⟨countFunctions (records.filter (fun r => r.file = file)),
        countMethods (records.filter (fun r => r.file = file))⟩ := by
  have hfold : ∀ table : List (Option String × Tally),
      tallyIn (records.foldl (fun table r => updateRow r.file {} (·.count r) table) table) file =
        (records.filter (fun r => r.file = file)).foldl Tally.count (tallyIn table file) := by
    induction records with
    | nil => exact fun _ => rfl
    | cons r rest ih =>
      intro table
      rw [List.foldl_cons, ih, tallyIn_updateRow]
      by_cases hfile : r.file = file
      · simp [hfile]
      · have hne : ¬ file = r.file := fun h => hfile h.symm
        simp [hfile, hne]
  rw [fileTable, hfold, Tally.foldl_count]
  simp [tallyIn]

/-- The counts with one more record of a file: so many functions more and so many methods. -/
def Statistics.Adds (others whole : Statistics) (file : Option String) (more : Tally) : Prop :=
  whole.totalFunctions = others.totalFunctions + more.functions ∧
  whole.totalMethods = others.totalMethods + more.methods ∧
  tallyIn whole.files file =
    ⟨(tallyIn others.files file).functions + more.functions,
      (tallyIn others.files file).methods + more.methods⟩

instance (others whole : Statistics) (file : Option String) (more : Tally) :
    Decidable (others.Adds whole file more) :=
  inferInstanceAs (Decidable (_ ∧ _ ∧ _))

namespace Record

/-- The record lists its class when it is written out. -/
def ListsClass (r : Record) : Prop :=
  (r.members.lookup "class").isSome = true

/-- The name of the class and a dot stand before the bare name. -/
def IsQualified (r : Record) : Prop :=
  r.owner.map (· ++ "." ++ r.name) = some r.qualifiedName

/-- What is written out, the counts with and without the record, and the qualified name agree on
whether the record is a method. -/
def JudgedAlike (r : Record) (others whole : Statistics) : Prop :=
  (r.ListsClass ↔ others.Adds whole r.file ⟨0, 1⟩) ∧ (r.ListsClass ↔ r.IsQualified)

instance (r : Record) : Decidable r.ListsClass :=
  inferInstanceAs (Decidable (_ = _))

instance (r : Record) : Decidable r.IsQualified :=
  inferInstanceAs (Decidable (_ = _))

theorem lookup_class_members (r : Record) : r.members.lookup "class" = r.owner.map .text := by
  have hcalls : (if r.calls.isEmpty then [] else [("calls", textList r.calls)]).lookup "class" =
      none := by
    split
    · rfl
    · rfl
  unfold members
  simp only [List.lookup_append, lookup_member?, hcalls]
  cases r.signature with
  | none =>
    cases r.position with
    | none => simp [List.lookup_cons]
    | some place => simp [List.lookup_cons]
  | some s =>
    cases r.position with
    | none => simp [List.lookup_cons]
    | some place => simp [List.lookup_cons]

theorem listsClass_iff (r : Record) : r.ListsClass ↔ r.owner.isSome = true := by
  rw [ListsClass, lookup_class_members, Option.isSome_map]

theorem isMethod_iff (r : Record) : r.isMethod = true ↔ ∃ c, r.owner = some c ∧ c ≠ "" := by
  unfold isMethod present?
  cases r.owner with
  | none => simp
  | some c =>
    by_cases hc : c = ""
    · simp [hc]
    · simp [hc]

theorem qualifiedName_of_isMethod_eq_false {r : Record} (h : r.isMethod = false) :
    r.qualifiedName = r.name := by
  unfold isMethod at h
  unfold qualifiedName
  split
  · rename_i c hc
    simp [hc] at h
  · rfl

theorem qualifiedName_eq_name_iff (r : Record) :
    r.qualifiedName = r.name ↔ r.isMethod = false := by
  refine ⟨?_, qualifiedName_of_isMethod_eq_false⟩
  intro hname
  rw [← Bool.not_eq_true, isMethod_iff]
  rintro ⟨c, howner, hc⟩
  simp [qualifiedName, present?, howner, hc] at hname

theorem isQualified_iff (r : Record) : r.IsQualified ↔ r.isMethod = true := by
  constructor
  · intro h
    obtain ⟨c, howner, hname⟩ := Option.map_eq_some_iff.mp h
    cases hr : r.isMethod with
    | true => rfl
    | false =>
      rw [qualifiedName_of_isMethod_eq_false hr] at hname
      have hlength := congrArg String.length hname
      simp only [String.length_append] at hlength
      have hdot : ".".length = 1 := rfl
      omega
  · intro h
    obtain ⟨c, howner, hc⟩ := (isMethod_iff r).mp h
    simp [IsQualified, qualifiedName, present?, howner, hc]

end Record

namespace Statistics

theorem countFunctions_split (before after : List Record) (r : Record) :
    countFunctions (before ++ r :: after) =
      countFunctions (before ++ after) + (Tally.count {} r).functions := by
  cases hr : r.isMethod with
  | true => simp [countFunctions, Tally.count, hr]
  | false =>
    simp [countFunctions, Tally.count, hr]
    omega

theorem countMethods_split (before after : List Record) (r : Record) :
    countMethods (before ++ r :: after) =
      countMethods (before ++ after) + (Tally.count {} r).methods := by
  cases hr : r.isMethod with
  | true =>
    simp [countMethods, Tally.count, hr]
    omega
  | false => simp [countMethods, Tally.count, hr]

theorem adds_count (files errors : Nat) (before after : List Record) (r : Record) :
    (ofRecords files errors (before ++ after)).Adds
      (ofRecords files errors (before ++ r :: after)) r.file (Tally.count {} r) := by
  refine ⟨countFunctions_split before after r, countMethods_split before after r, ?_⟩
  simp only [ofRecords, tallyIn_fileTable, List.filter_append, List.filter_cons_of_pos,
    decide_true, countFunctions_split, countMethods_split]

/-- The counts tell what was added. -/
theorem Adds.eq {others whole : Statistics} {file : Option String} {more more' : Tally}
    (h : others.Adds whole file more) (h' : others.Adds whole file more') : more = more' := by
  obtain ⟨functions, methods⟩ := more
  obtain ⟨functions', methods'⟩ := more'
  have hfunctions : functions = functions' := Nat.add_left_cancel (h.1.symm.trans h'.1)
  have hmethods : methods = methods' := Nat.add_left_cancel (h.2.1.symm.trans h'.2.1)
  rw [hfunctions, hmethods]

end Statistics

namespace Record

/-- A record is a method exactly if it adds one to the methods, and to nothing else. -/
theorem adds_iff (r : Record) {others whole : Statistics}
    (h : others.Adds whole r.file (Tally.count {} r)) :
    (others.Adds whole r.file ⟨0, 1⟩ ↔ r.isMethod = true) ∧
    (others.Adds whole r.file ⟨1, 0⟩ ↔ r.isMethod = false) := by
  have hunique : ∀ more, others.Adds whole r.file more ↔ more = Tally.count {} r := by
    intro more
    constructor
    · intro hmore
      exact hmore.eq h
    · rintro rfl
      exact h
  rw [hunique, hunique]
  cases hr : r.isMethod with
  | true => simp [Tally.count, hr]
  | false => simp [Tally.count, hr]

theorem judgedAlike_iff (r : Record) {others whole : Statistics}
    (h : others.Adds whole r.file (Tally.count {} r)) :
    r.JudgedAlike others whole ↔ r.owner ≠ some "" := by
  have hcounted := (r.adds_iff h).1
  rw [JudgedAlike, hcounted, isQualified_iff, and_self, listsClass_iff, isMethod_iff]
  cases r.owner with
  | none => simp
  | some c => simp

end Record

theorem Place.owner?_eq_empty_iff (source : Source) (p : Place) :
    p.owner? source = some "" ↔
      p.node.kind = "method_definition" ∧ enclosingClass? source p.ancestors = some "" := by
  unfold Place.owner?
  by_cases hkind : p.node.kind = "method_definition"
  · simp [hkind]
  · simp [hkind]

/-- Counting and naming agree on which records of a tree are methods, at any position among the
records of a scanner. What is written out agrees with them unless the class is there without a
name, which happens to the methods whose nearest class has a name that covers no text. -/
theorem methods_told_alike_iff {survey : Survey} {root : Node} {r : Record}
    (hr : r ∈ (extract survey root).records) (s : Scanner) {before after : List Record}
    (hs : s.records = before ++ r :: after) :
    let others := Statistics.ofRecords s.fileCount s.errorCount (before ++ after)
    let whole := s.statistics
    (others.Adds whole r.file ⟨0, 1⟩ ↔ r.IsQualified) ∧
    (others.Adds whole r.file ⟨1, 0⟩ ↔ r.qualifiedName = r.name) ∧
    (others.Adds whole r.file ⟨1, 0⟩ ↔ ¬ others.Adds whole r.file ⟨0, 1⟩) ∧
    (r.JudgedAlike others whole ↔ r.owner ≠ some "") ∧
    ∃ p ∈ root.places [], p.record? survey = some r ∧
      (r.owner = some "" ↔
        p.node.kind = "method_definition" ∧
          enclosingClass? survey.source p.ancestors = some "") := by
  intro others whole
  have hadds : others.Adds whole r.file (Tally.count {} r) := by
    simp only [whole, Scanner.statistics, hs]
    exact Statistics.adds_count s.fileCount s.errorCount before after r
  obtain ⟨hmethod, hfunction⟩ := r.adds_iff hadds
  refine ⟨?_, ?_, ?_, r.judgedAlike_iff hadds, ?_⟩
  · rw [hmethod, Record.isQualified_iff]
  · rw [hfunction, Record.qualifiedName_eq_name_iff]
  · rw [hmethod, hfunction, Bool.not_eq_true]
  · rw [extract_records] at hr
    obtain ⟨p, hp, hrecord⟩ := List.mem_filterMap.mp hr
    refine ⟨p, hp, hrecord, ?_⟩
    rw [(Place.describes_of_record? hrecord).owner, Place.owner?_eq_empty_iff]

def classAndFunction : Source :=
  "class A { m() {} }\nfunction f() {}".toUTF8

theorem methods_told_alike_in_classAndFunction :
    let e := extract ⟨classAndFunction, .signature, some "a.js"⟩
      (JavaScript.parse classAndFunction).root
    let s := (Scanner.fresh JavaScript.parser {}).merge (some "a.js") e
    ∃ r ∈ e.records, ∃ after, s.records = [] ++ r :: after ∧ r.owner = some "A" ∧
      r.JudgedAlike (.ofRecords 1 0 ([] ++ after)) s.statistics := by
  intro e s
  have howners : e.records.map Record.owner = [some "A", none] := by decide +kernel
  have hrecords : s.records = e.records := by
    simp [s, Scanner.merge, Scanner.records, Catalog.merge, Scanner.fresh]
  obtain ⟨r, after, he, howner, _⟩ := List.map_eq_cons_iff.mp howners
  have hr : r ∈ e.records := he ▸ List.mem_cons_self
  have hs : s.records = [] ++ r :: after := by rw [hrecords, he, List.nil_append]
  obtain ⟨_, _, _, halike, _⟩ := methods_told_alike_iff hr s hs
  exact ⟨r, hr, after, hs, howner, halike.mpr (by simp [howner])⟩

/-- A named node on the first row. -/
def Node.onRow (kind : String) (field : Option String) (start stop : Nat)
    (children : List Node) : Node :=
  .mk kind true field ⟨start, stop, ⟨0, start⟩, ⟨0, stop⟩⟩ children

def Node.token (text : String) (start : Nat) : Node :=
  .mk text false none ⟨start, start + text.length, ⟨0, start⟩, ⟨0, start + text.length⟩⟩ []

/-- The tree of `class { m() {} }` when the missing name of the class is put in without a text. -/
def unnamedClass : Node :=
  .onRow "program" none 0 16
    [.onRow "class_declaration" none 0 16
      [.token "class" 0,
        .onRow "identifier" (some "name") 5 5 [],
        .onRow "class_body" (some "body") 6 16
          [.token "\x7b" 6,
            .onRow "method_definition" (some "member") 8 14
              [.onRow "property_identifier" (some "name") 8 9 [],
                .onRow "formal_parameters" (some "parameters") 9 11 [.token "(" 9, .token ")" 10],
                .onRow "statement_block" (some "body") 12 14 [.token "\x7b" 12, .token "\x7d" 13]],
            .token "\x7d" 15]]]

/-- The only record lists a class and is counted and named as a function. -/
theorem methods_not_told_alike_in_unnamedClass :
    let e := extract ⟨"class { m() {} }".toUTF8, .rich, some "a.js"⟩ unnamedClass
    let s := (Scanner.fresh JavaScript.parser {}).merge (some "a.js") e
    ∃ r, e.records = [r] ∧ s.records = [] ++ r :: [] ∧ r.ListsClass ∧ ¬ r.IsQualified ∧
      s.statistics.totalMethods = 0 ∧ tallyIn s.statistics.files (some "a.js") = ⟨1, 0⟩ ∧
      ¬ r.JudgedAlike (.ofRecords 1 0 []) s.statistics := by
  intro e s
  let r : Record :=
    { name := "m", parameters := "()", owner := some "", file := some "a.js",
      returnType := some "void" }
  have hrecords : e.records = [r] := by decide +kernel
  have hqualified : ¬ r.IsQualified := by decide
  have hlists : r.ListsClass := by decide
  refine ⟨r, hrecords, hrecords, hlists, hqualified, by decide +kernel, by decide +kernel, ?_⟩
  intro halike
  exact hqualified (halike.2.mp hlists)

end CallAtlas
