import CallAtlas.JavaScript.Program
import CallAtlas.Proofs.OutermostFunctions

/-!
Two ways to tell that a function lies inside another one: the flag a walk carries down and the
search through the ancestors. The flag says more. It is also set below a declaration that binds a
function, and there it hides functions that no function encloses.
-/

set_option autoImplicit false

namespace CallAtlas

/-- The node bears a function that has no function among its ancestors. -/
def Place.isFree (source : Source) (p : Place) : Bool :=
  match (p.verdict source).candidate? with
  | some c => !c.isNested p.ancestors
  | none => false

theorem Place.isFree_eq (source : Source) (p : Place) :
    p.isFree source = (p.node.isBearer source && !enclosedByFunction p.ancestors) := by
  have hnode := congrArg Option.isSome (candidate?_verdict source p)
  rw [Option.isSome_map] at hnode
  unfold Place.isFree Node.isBearer
  rw [← hnode]
  cases hc : (p.verdict source).candidate? with
  | none => rfl
  | some c =>
    have hnested := (bears_of_candidate? hc).isNested p.ancestors
    simp [hnested]

theorem any_isScope_of_unenclosed {ancestors : List Node} (source : Source)
    (h : enclosedByFunction ancestors = false) :
    ancestors.any (Node.isScope source) = ancestors.any (Node.isBearer source) := by
  unfold enclosedByFunction at h
  induction ancestors with
  | nil => rfl
  | cons a above ih =>
    simp only [List.any_cons, Bool.or_eq_false_iff] at h
    simp only [List.any_cons, Node.isScope, h.1, Bool.false_or]
    rw [← ih h.2]

theorem kind_of_isBearer {source : Source} {n : Node} (hbearer : n.isBearer source = true)
    (hfunction : n.isFunction = false) : n.kind ∈ declarationKinds ∨ n.named = false := by
  obtain ⟨c, hc⟩ := Option.isSome_iff_exists.mp hbearer
  cases bears_of_candidate? hc with
  | method name p hkind =>
    exact .inr (by simpa [Node.isFunction, hkind, functionKinds] using hfunction)
  | function name p hkind =>
    exact .inr (by simpa [Node.isFunction, hkind, functionKinds] using hfunction)
  | declaration b name p hkind => exact .inl hkind

/-- A function that no function encloses gets its record exactly when nothing above it bears a
function, and what can be above it and bear one is a declaration (among named nodes). -/
theorem free_recorded_iff (survey : Survey) (root : Node) :
    (extract survey root).records = (root.places []).filterMap (Place.record? survey) ∧
    ∀ p ∈ root.places [], p.isFree survey.source = true →
      ((p.record? survey).isSome = true ↔
        ∀ a ∈ p.ancestors, a.isBearer survey.source = false) ∧
      ((p.context survey.source).insideFunction = true ↔
        ∃ a ∈ p.ancestors, a.isBearer survey.source = true) ∧
      ∀ a ∈ p.ancestors, a.isBearer survey.source = true →
        a.kind ∈ declarationKinds ∨ a.named = false := by
  refine ⟨extract_records survey root, ?_⟩
  intro p _ hfree
  rw [Place.isFree_eq, Bool.and_eq_true, Bool.not_eq_true'] at hfree
  obtain ⟨hbearer, hflat⟩ := hfree
  have hscope := any_isScope_of_unenclosed survey.source hflat
  refine ⟨?_, ?_, ?_⟩
  · rw [Place.isSome_record?, Place.isOutermost, hbearer, hscope]
    simp
  · rw [Place.insideFunction_context, hscope]
    simp
  · intro a ha hb
    have hfunction : a.isFunction = false := by
      simpa using List.any_eq_false.mp hflat a ha
    exact kind_of_isBearer hb hfunction

def siblingSource : Source :=
  "const f = () => 1, o = { m() {} };".toUTF8

def siblingRoot : Node :=
  (JavaScript.parse siblingSource).root

theorem free_unrecorded_sibling :
    ∃ p ∈ siblingRoot.places [], p.isFree siblingSource = true ∧
      (p.record? ⟨siblingSource, .rich, some "<string>"⟩).isSome = false := by
  have hbelow : ∃ p ∈ siblingRoot.places [], p.isFree siblingSource = true ∧
      ∃ a ∈ p.ancestors, a.isBearer siblingSource = true := by
    decide +kernel
  obtain ⟨p, hp, hfree, a, ha, hbearer⟩ := hbelow
  have hiff := ((free_recorded_iff ⟨siblingSource, .rich, some "<string>"⟩ siblingRoot).2
    p hp hfree).1
  refine ⟨p, hp, hfree, ?_⟩
  rw [Bool.eq_false_iff, ne_eq, hiff]
  intro hnone
  simp [hnone a ha] at hbearer

/-- The method is in no function, and still the only record is that of the function beside it. -/
theorem not_free_recorded_sibling :
    (extract ⟨siblingSource, .rich, some "<string>"⟩ siblingRoot).records.map Record.name = ["f"] ∧
    ¬ ∀ p ∈ siblingRoot.places [], p.isFree siblingSource = true →
      (p.record? ⟨siblingSource, .rich, some "<string>"⟩).isSome = true := by
  decide +kernel

end CallAtlas
