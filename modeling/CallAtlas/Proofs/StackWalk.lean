import CallAtlas.Extractor
import CallAtlas.Proofs.LastOfKey
import CallAtlas.Proofs.ReadingOrder
import Mathlib.Data.List.Induction

/-!
The stack of an extractor unrolls to the places of a tree in reading order. What an extractor holds
after a walk is therefore the extraction of the tree, whatever it held before; and a request
without a tree changes nothing. So only the last tree that was walked can be seen.
-/

set_option autoImplicit false

namespace CallAtlas

/-- The entry of the stack from which a place is visited. -/
def Place.pending (source : Source) (p : Place) : Extractor.Pending :=
  ⟨p.node, contextBelow source p.ancestors, p.ancestors⟩

namespace Extractor

/-- The extractor after some nodes have been visited one after the other. -/
def visitAll (rules : Rules) (e : Extractor) (stack : List Pending) : Extractor :=
  stack.foldl (fun e p => (e.visit rules p).1) e

/-- Class names and the texts of candidates come from the same source. -/
structure Reads (e : Extractor) (source : Source) : Prop where
  names : e.source = source
  texts : e.classifier = source

theorem Reads.take {e : Extractor} {source : Source} (h : e.Reads source) (rules : Rules)
    (context : Context) (ancestors : List Node) (v : Verdict) :
    (e.take rules context ancestors v).Reads source := by
  cases v with
  | ordinary => exact h
  | passedOver why => exact ⟨h.names, h.texts⟩
  | malformed node => exact ⟨h.names, h.texts⟩
  | function c =>
    simp only [Extractor.take]
    split
    · exact h
    · exact ⟨h.names, h.texts⟩

theorem Reads.visit {e : Extractor} {source : Source} (h : e.Reads source) (rules : Rules)
    (p : Pending) : (e.visit rules p).1.Reads source :=
  h.take rules _ _ _

theorem Reads.visitAll {e : Extractor} {source : Source} (h : e.Reads source) (rules : Rules)
    (stack : List Pending) : (e.visitAll rules stack).Reads source := by
  induction stack generalizing e with
  | nil => exact h
  | cons p rest ih => exact ih (h.visit rules p)

theorem Reads.context_visit {e : Extractor} {source : Source} (h : e.Reads source) (n : Node)
    (ancestors : List Node) :
    (e.visit .usual ⟨n, contextBelow source ancestors, ancestors⟩).2 =
      contextBelow source (n :: ancestors) := by
  simp only [Extractor.visit, h.names, h.texts, contextBelow]
  rfl

theorem walk_nil (rules : Rules) (e : Extractor) : e.walk rules [] = e := by
  rw [walk]

theorem walk_cons (rules : Rules) (e : Extractor) (p : Pending) (rest : List Pending) :
    e.walk rules (p :: rest) =
      (e.visit rules p).1.walk rules (p.below (e.visit rules p).2 ++ rest) := by
  rw [walk]

-- The rest of the stack is quantified: a node and all that is below it are done before it is
-- looked at.
mutual
theorem walk_places {e : Extractor} {source : Source} (h : e.Reads source)
    (ancestors : List Node) (n : Node) (rest : List Pending) :
    e.walk .usual (Place.pending source ⟨n, ancestors⟩ :: rest) =
      (e.visitAll .usual ((n.places ancestors).map (Place.pending source))).walk .usual rest := by
  cases n with
  | mk kind named field span children =>
    have hcontext := h.context_visit (.mk kind named field span children) ancestors
    have hbelow := walk_placesAmong (h.visit .usual
      (Place.pending source ⟨.mk kind named field span children, ancestors⟩))
      (.mk kind named field span children :: ancestors) children rest
    rw [walk_cons, Place.pending, hcontext]
    simp only [Node.places, List.map_cons, visitAll, List.foldl_cons]
    exact hbelow

theorem walk_placesAmong {e : Extractor} {source : Source} (h : e.Reads source)
    (ancestors children : List Node) (rest : List Pending) :
    e.walk .usual (children.map (fun c => Place.pending source ⟨c, ancestors⟩) ++ rest) =
      (e.visitAll .usual ((placesAmong ancestors children).map (Place.pending source))).walk
        .usual rest := by
  cases children with
  | nil => simp only [placesAmong, List.map_nil, List.nil_append, visitAll, List.foldl_nil]
  | cons n others =>
    have hothers := walk_placesAmong (h.visitAll .usual
      ((n.places ancestors).map (Place.pending source))) ancestors others rest
    simp only [placesAmong, List.map_cons, List.cons_append, List.map_append]
    rw [walk_places h ancestors n, hothers]
    simp only [visitAll, List.foldl_append]
end

/-- A whole walk visits the places of the tree, each once and with the context that the nodes
above it give. -/
theorem walk_root {e : Extractor} {source : Source} (h : e.Reads source) (root : Node) :
    e.walk .usual [⟨root, {}, []⟩] =
      e.visitAll .usual ((root.places []).map (Place.pending source)) := by
  have hplaces := walk_places h [] root []
  rwa [walk_nil] at hplaces

/-- An extractor that has found this much on a walk. -/
def holding (survey : Survey) (found : Findings) : Extractor where
  detail := survey.detail
  records := found.records
  keys := KeyMap.ofRecords found.records.toList
  skipped := found.skipped
  notices := found.notices
  source := survey.source
  file := survey.file
  classifier := survey.source

theorem reads_holding (survey : Survey) (found : Findings) :
    (holding survey found).Reads survey.source :=
  ⟨rfl, rfl⟩

theorem addRecord_holding (survey : Survey) (found : Findings) (r : Record) :
    (holding survey found).addRecord r =
      holding survey { found with records := found.records.push r } := by
  have hkeys : KeyMap.ofRecords (found.records.push r).toList =
      (KeyMap.ofRecords found.records.toList).insert r.key found.records.size := by
    rw [Array.toList_push, KeyMap.ofRecords, KeyMap.extend_snoc, Nat.zero_add, Array.length_toList]
    rfl
  simp only [holding, addRecord, hkeys]

theorem visit_holding (survey : Survey) (found : Findings) (p : Place) :
    ((holding survey found).visit .usual (p.pending survey.source)).1 =
      holding survey (found.visit survey p) := by
  have htake : ∀ context ancestors v,
      (holding survey found).take .usual context ancestors v =
        holding survey (found.add survey context ancestors v) := by
    intro context ancestors v
    cases v with
    | ordinary => rfl
    | passedOver why => rfl
    | malformed node => rfl
    | function c =>
      have hrule : Rules.usual.isNested c ancestors = c.isNested ancestors := rfl
      simp only [take, Findings.add, hrule]
      split
      · rfl
      · exact addRecord_holding survey found _
  exact htake _ _ _

theorem visitAll_holding (survey : Survey) (found : Findings) (places : List Place) :
    (holding survey found).visitAll .usual (places.map (Place.pending survey.source)) =
      holding survey (places.foldl (Findings.visit survey) found) := by
  induction places generalizing found with
  | nil => rfl
  | cons p rest ih =>
    rw [List.foldl_cons, ← ih, ← visit_holding]
    rfl

theorem walk_prepare (e : Extractor) (source : Source) (file : Option String) (root : Node) :
    let survey : Survey := ⟨source, e.detail, file⟩
    (e.prepare source file).walk .usual [⟨root, {}, []⟩] =
      holding survey (root.survey survey {} {} []) := by
  intro survey
  have hstart : e.prepare source file = holding survey {} := rfl
  have hwalk := Node.survey_eq_foldl survey {} [] root
  rw [hstart, walk_root (reads_holding survey {}), visitAll_holding, ← hwalk]
  rfl

/-- The state after a walk is given by the tree and the level of detail. -/
theorem answer_some (e : Extractor) (source : Source) (file : Option String) (root : Node) :
    let survey : Survey := ⟨source, e.detail, file⟩
    e.answer .usual ⟨source, file, some root⟩ =
      (.ok (extract survey root).records, holding survey (root.survey survey {} {} [])) := by
  intro survey
  have hwalk := walk_prepare e source file root
  simp only [answer, hwalk]
  rfl

def extraction (e : Extractor) : Extraction :=
  ⟨e.records.toList, e.skipped, e.notices.toList⟩

/-- Seen from outside, an extractor goes from one extraction to the next. -/
theorem next_extraction (e : Extractor) (call : Call) :
    e.extraction.next ⟨call.source, e.detail, call.file⟩ call.root =
      ((e.answer .usual call).2.extraction,
        match (e.answer .usual call).1 with
        | .ok _ => none
        | .error x => some x) := by
  cases call with
  | mk source file root =>
    cases root with
    | none => rfl
    | some root =>
      rw [answer_some]
      rfl

/-- The extractor after a history of requests. -/
def run (e : Extractor) (history : List Call) : Extractor :=
  history.foldl (fun e call => (e.answer .usual call).2) e

theorem run_snoc (e : Extractor) (history : List Call) (call : Call) :
    e.run (history ++ [call]) = ((e.run history).answer .usual call).2 := by
  simp [run]

/-- The last request that had a tree. -/
def lastWalked? (history : List Call) : Option Call :=
  (history.filter (fun call => call.root.isSome)).getLast?

theorem detail_run (e : Extractor) (history : List Call) : (e.run history).detail = e.detail := by
  induction history using List.reverseRecOn with
  | nil => rfl
  | append_singleton history call ih =>
    rw [run_snoc]
    cases call with
    | mk source file root =>
      cases root with
      | none => exact ih
      | some root =>
        rw [answer_some]
        exact ih

theorem answer_eq_of_detail {e other : Extractor} (h : e.detail = other.detail) (source : Source)
    (file : Option String) (root : Node) :
    e.answer .usual ⟨source, file, some root⟩ = other.answer .usual ⟨source, file, some root⟩ := by
  rw [answer_some, answer_some, h]

theorem run_eq_lastWalked? (e : Extractor) (history : List Call) :
    e.run history =
      match lastWalked? history with
      | some call => (e.answer .usual call).2
      | none => e := by
  induction history using List.reverseRecOn with
  | nil => rfl
  | append_singleton history call ih =>
    rw [run_snoc]
    cases call with
    | mk source file root =>
      cases root with
      | none =>
        have hlast : lastWalked? (history ++ [⟨source, file, none⟩]) = lastWalked? history := by
          simp [lastWalked?]
        rw [hlast, ← ih]
        rfl
      | some root =>
        have hlast : lastWalked? (history ++ [⟨source, file, some root⟩]) =
            some ⟨source, file, some root⟩ := by
          simp [lastWalked?]
        simp only [hlast]
        rw [answer_eq_of_detail (detail_run e history)]

/-- An extractor has no memory. After any history it answers a request with a tree as a new
extractor does, and is left in the same state, which is given by the extraction of the tree; a
request without a tree fails and leaves it as it was. So of a history only the last tree counts. -/
theorem answers_as_new (detail : Detail) (history : List Call) :
    let new : Extractor := { detail := detail }
    let e := new.run history
    (∀ source file root,
      let x := extract ⟨source, detail, file⟩ root
      let alone := new.answer .usual ⟨source, file, some root⟩
      e.answer .usual ⟨source, file, some root⟩ = alone ∧
      alone.1 = .ok x.records ∧ alone.2.records.toList = x.records ∧ alone.2.keys = x.keys ∧
      alone.2.skipped = x.skipped) ∧
    (∀ source file, e.answer .usual ⟨source, file, none⟩ = (.error .missingTree, e)) ∧
    e = match lastWalked? history with
      | some call => (new.answer .usual call).2
      | none => new := by
  intro new e
  refine ⟨?_, ?_, run_eq_lastWalked? new history⟩
  · intro source file root x alone
    have hsame := answer_eq_of_detail (detail_run new history) source file root
    have halone := answer_some new source file root
    refine ⟨hsame, ?_, ?_, ?_, ?_⟩
    · exact congrArg Prod.fst halone
    · exact congrArg (fun a => a.2.records.toList) halone
    · exact congrArg (fun a => a.2.keys) halone
    · exact congrArg (fun a => a.2.skipped) halone
  · intro source file
    rfl

end Extractor

end CallAtlas
