import CallAtlas.Proofs.Bearers
import CallAtlas.Proofs.LastOfKey
import Mathlib.Data.List.Forall2

/-!
Which places of a tree get a record, and what it says. The records of a tree are those of its
outermost bearers in reading order, one for each.
-/

set_option autoImplicit false

namespace CallAtlas

namespace Place

/-- The node bears a named function, and no node above it is a function or bears one. -/
def isOutermost (source : Source) (p : Place) : Bool :=
  p.node.isBearer source && !p.ancestors.any (Node.isScope source)

/-- A method belongs to the nearest class with a name, other functions to none. -/
def owner? (source : Source) (p : Place) : Option String :=
  if p.node.kind = "method_definition" then enclosingClass? source p.ancestors else none

end Place

/-- What a record says about the place it was made for. -/
structure Record.Describes (survey : Survey) (p : Place) (r : Record) : Prop where
  texts : ∃ c, p.node.candidate? survey.source = some c ∧
    r.name = c.name ∧ r.parameters = c.parameters
  owner : r.owner = p.owner? survey.source
  file : r.file = survey.file

namespace Place

theorem currentClass_context {p : Place} (h : p.node.kind = "method_definition")
    (source : Source) :
    (p.context source).currentClass = enclosingClass? source p.ancestors := by
  have hclass : p.node.isClass = false := by
    simp [Node.isClass, h, classKinds]
  unfold Place.context
  rw [Context.currentClass_at, currentClass_contextBelow]
  simp [Node.className?, hclass]

theorem insideFunction_context (source : Source) (p : Place) :
    (p.context source).insideFunction = p.ancestors.any (Node.isScope source) := by
  unfold Place.context
  rw [Context.insideFunction_at, insideFunction_contextBelow]

theorem candidate?_verdict (source : Source) (p : Place) :
    (p.verdict source).candidate? =
      (p.node.candidate? source).map (fun c => { c with owner := p.owner? source }) := by
  unfold Place.verdict Place.owner?
  rw [candidate?_classify]
  by_cases h : p.node.kind = "method_definition"
  · simp only [h, if_true, currentClass_context h]
  · simp only [h, if_false]

theorem any_isScope_of_isNested {source : Source} {p : Place} {c : Candidate}
    (hc : (p.verdict source).candidate? = some c) (h : c.isNested p.ancestors = true) :
    p.ancestors.any (Node.isScope source) = true := by
  rw [(bears_of_candidate? hc).isNested, enclosedByFunction] at h
  obtain ⟨a, ha, hfunction⟩ := List.any_eq_true.mp h
  exact List.any_eq_true.mpr ⟨a, ha, by simp [Node.isScope, hfunction]⟩

theorem record?_eq (survey : Survey) (p : Place) :
    p.record? survey =
      if p.ancestors.any (Node.isScope survey.source) then none
      else (p.node.candidate? survey.source).map (fun c =>
        { c with owner := p.owner? survey.source }.record survey.source survey.detail
          survey.file) := by
  unfold Place.record?
  cases hc : (p.verdict survey.source).candidate? with
  | none =>
    have hnode := candidate?_verdict survey.source p
    rw [hc, eq_comm, Option.map_eq_none_iff] at hnode
    simp [hnode]
  | some c =>
    obtain ⟨d, hd, rfl⟩ := Option.map_eq_some_iff.mp (candidate?_verdict survey.source p ▸ hc)
    cases hscope : p.ancestors.any (Node.isScope survey.source) with
    | true => simp only [insideFunction_context, hscope, Bool.true_or, if_true]
    | false =>
      have hflat : Candidate.isNested { d with owner := p.owner? survey.source } p.ancestors
          = false := by
        cases hn : Candidate.isNested { d with owner := p.owner? survey.source } p.ancestors with
        | false => rfl
        | true => simp [any_isScope_of_isNested hc hn] at hscope
      simp [insideFunction_context, hscope, hflat, hd]

theorem isSome_record? (survey : Survey) (p : Place) :
    (p.record? survey).isSome = p.isOutermost survey.source := by
  rw [record?_eq, Place.isOutermost, Node.isBearer]
  cases p.ancestors.any (Node.isScope survey.source) with
  | true => simp
  | false => simp

theorem describes_of_record? {survey : Survey} {p : Place} {r : Record}
    (h : p.record? survey = some r) : r.Describes survey p := by
  rw [record?_eq] at h
  split at h
  · simp at h
  · obtain ⟨c, hc, rfl⟩ := Option.map_eq_some_iff.mp h
    cases hdetail : survey.detail with
    | rich => exact ⟨⟨c, hc, rfl, rfl⟩, rfl, rfl⟩
    | signature => exact ⟨⟨c, hc, rfl, rfl⟩, rfl, rfl⟩

end Place

theorem forall₂_filterMap {α β : Type} (f : α → Option β) (l : List α) :
    List.Forall₂ (fun a b => f a = some b) (l.filter (fun a => (f a).isSome)) (l.filterMap f) := by
  induction l with
  | nil => exact .nil
  | cons a l ih =>
    cases h : f a with
    | none => simpa [h] using ih
    | some b => simpa [h] using ih

/-- The records of a tree stand for its outermost bearers, one for each and in reading order, and
each of the keys names the last record that has it. -/
theorem records_describe_outermost (survey : Survey) (root : Node) :
    List.Forall₂ (Record.Describes survey)
      ((root.places []).filter (Place.isOutermost survey.source))
      (extract survey root).records ∧
    ∀ key i, (extract survey root).keys[key]? = some i ↔
      IsLastOf (extract survey root).records key i := by
  constructor
  · have h := forall₂_filterMap (Place.record? survey) (root.places [])
    rw [← extract_records] at h
    simp only [Place.isSome_record?] at h
    exact h.imp (fun _ _ => Place.describes_of_record?)
  · exact KeyMap.namesLast_ofRecords _

end CallAtlas
