import CallAtlas.Catalog

/-!
Counts over records. A count table keeps its rows in the order in which they were first needed.
-/

set_option autoImplicit false

namespace CallAtlas

/-- Functions and methods counted apart. -/
structure Tally where
  functions : Nat := 0
  methods : Nat := 0
  deriving DecidableEq, Repr

def Tally.total (t : Tally) : Nat :=
  t.functions + t.methods

def Tally.count (t : Tally) (r : Record) : Tally :=
  if r.isMethod then { t with methods := t.methods + 1 }
  else { t with functions := t.functions + 1 }

/-- Changes the row of a key, which starts from `fresh` if there is none. -/
def updateRow {α β : Type} [DecidableEq α] (key : α) (fresh : β) (f : β → β) :
    List (α × β) → List (α × β)
  | [] => [(key, f fresh)]
  | (k, v) :: rest =>
    if k = key then (k, f v) :: rest else (k, v) :: updateRow key fresh f rest

structure Statistics where
  totalFiles : Nat
  totalErrors : Nat
  totalFunctions : Nat
  totalMethods : Nat
  totalCalls : Nat
  byReturnType : List (String × Nat)
  files : List (Option String × Tally)

def countFunctions (records : List Record) : Nat :=
  (records.filter (fun r => !r.isMethod)).length

def countMethods (records : List Record) : Nat :=
  (records.filter (·.isMethod)).length

def countCalls : List Record → Nat
  | [] => 0
  | r :: rest => r.calls.length + countCalls rest

def returnTable (records : List Record) : List (String × Nat) :=
  records.foldl (fun table r =>
    match present? r.returnType with
    | some label => updateRow label 0 (· + 1) table
    | none => table) []

def fileTable (records : List Record) : List (Option String × Tally) :=
  records.foldl (fun table r => updateRow r.file {} (·.count r) table) []

def Statistics.ofRecords (files errors : Nat) (records : List Record) : Statistics :=
  { totalFiles := files
    totalErrors := errors
    totalFunctions := countFunctions records
    totalMethods := countMethods records
    totalCalls := countCalls records
    byReturnType := returnTable records
    files := fileTable records }

/-- The files with the most functions, at most ten; files with equal totals stay in order. -/
def Statistics.topFiles (s : Statistics) : List (Option String × Tally) :=
  (s.files.mergeSort (fun a b => b.2.total ≤ a.2.total)).take 10

/-- Return labels in order. -/
def Statistics.sortedReturnTypes (s : Statistics) : List (String × Nat) :=
  s.byReturnType.mergeSort (fun a b => a.1 ≤ b.1)

end CallAtlas
