import CallAtlas.JavaScript.Program
import CallAtlas.Proofs.OutermostFunctions
import CallAtlas.Proofs.StackWalk

/-!
The search through the ancestors of a function decides on nothing in a walk from the root of a
tree. On the stack the flag covers all functions above a node, malformed and anonymous ones too,
so a walk that goes by the flag alone passes through the same states.
-/

set_option autoImplicit false

namespace CallAtlas

namespace Extractor

/-- Nothing is dropped for what stands above it; only the flag counts. -/
def Rules.flagOnly : Rules where
  classify := CallAtlas.classify
  isNested := fun _ _ => false

def Pending.Covered (p : Pending) : Prop :=
  enclosedByFunction p.ancestors = true → p.context.insideFunction = true

theorem Pending.Covered.take_flagOnly {p : Pending} (h : p.Covered) (e : Extractor) :
    let context := p.context.at e.source p.node
    let verdict := classify e.classifier context p.node
    e.take .flagOnly context p.ancestors verdict = e.take .usual context p.ancestors verdict := by
  intro context verdict
  cases hverdict : verdict with
  | ordinary => rfl
  | passedOver why => rfl
  | malformed node => rfl
  | function c =>
    have hbears : Bears e.classifier context p.node c := by
      apply bears_of_candidate?
      exact congrArg Verdict.candidate? hverdict
    have hflag : context.insideFunction = p.context.insideFunction :=
      Context.insideFunction_at e.source p.context p.node
    have hflagOnly : Rules.flagOnly.isNested c p.ancestors = false := rfl
    have husual : Rules.usual.isNested c p.ancestors = enclosedByFunction p.ancestors :=
      hbears.isNested p.ancestors
    simp only [take, hflagOnly, husual, hflag]
    cases habove : enclosedByFunction p.ancestors with
    | false => rfl
    | true => simp [h habove]

theorem Pending.Covered.visit_flagOnly {p : Pending} (h : p.Covered) (e : Extractor) :
    e.visit .flagOnly p = e.visit .usual p :=
  congrArg (fun walked => (walked, (e.visit .usual p).2)) (h.take_flagOnly e)

/-- A function sets the flag for its children, and whoever has it hands it down. -/
theorem Pending.Covered.below {p : Pending} (h : p.Covered) (e : Extractor) :
    ∀ q ∈ p.below (e.visit .usual p).2, q.Covered := by
  intro q hq
  obtain ⟨c, _, rfl⟩ := List.mem_map.mp hq
  intro habove
  have hflag : (e.visit .usual p).2.insideFunction =
      (p.node.isScope e.classifier || p.context.insideFunction) := by
    rw [← Context.insideFunction_at e.source p.context p.node]
    exact Context.insideFunction_below e.classifier _ p.node
  simp only [enclosedByFunction, List.any_cons, Bool.or_eq_true] at habove
  simp only [hflag, Bool.or_eq_true]
  rcases habove with hfunction | habove
  · exact .inl (by simp [Node.isScope, hfunction])
  · exact .inr (h habove)

theorem walk_flagOnly (e : Extractor) (stack : List Pending) (h : ∀ p ∈ stack, p.Covered) :
    e.walk .flagOnly stack = e.walk .usual stack := by
  induction e, stack using walk.induct Rules.usual with
  | case1 e => rw [walk_nil, walk_nil]
  | case2 e p rest visited context hvisit ih =>
    have hp : p.Covered := h p List.mem_cons_self
    have hbelow : ∀ q ∈ p.below context ++ rest, q.Covered := by
      intro q hq
      rcases List.mem_append.mp hq with hq | hq
      · have hcontext : (e.visit .usual p).2 = context := congrArg Prod.snd hvisit
        exact hp.below e q (hcontext ▸ hq)
      · exact h q (List.mem_cons_of_mem p hq)
    rw [walk_cons, walk_cons, hp.visit_flagOnly, hvisit]
    exact ih hbelow

/-- With or without the search through the ancestors, a request is answered alike and leaves the
same state. A walk visits the places of the tree, and wherever the search would find a function
the flag is set already. -/
theorem ancestor_search_decides_nothing (e : Extractor) (source : Source) (file : Option String)
    (root : Node) :
    e.answer .flagOnly ⟨source, file, some root⟩ = e.answer .usual ⟨source, file, some root⟩ ∧
    (e.answer .usual ⟨source, file, some root⟩).2 =
      (e.prepare source file).visitAll .usual ((root.places []).map (Place.pending source)) ∧
    ∀ p ∈ root.places [], ∀ c, (p.verdict source).candidate? = some c →
      c.isNested p.ancestors = true → (p.context source).insideFunction = true := by
  refine ⟨?_, ?_, ?_⟩
  · have hroot : ∀ p ∈ [(⟨root, {}, []⟩ : Pending)], p.Covered := by
      intro p hp habove
      rw [List.mem_singleton.mp hp] at habove
      simp [enclosedByFunction] at habove
    simp only [answer, walk_flagOnly _ _ hroot]
  · exact walk_root ⟨rfl, rfl⟩ root
  · intro p _ c hc hnested
    rw [Place.insideFunction_context]
    exact Place.any_isScope_of_isNested hc hnested

end Extractor

def innerFunction : Source :=
  "function f() { return () => { function g() {} }; }".toUTF8

/-- The inner function is dropped by the flag before its ancestors are looked at. -/
theorem ancestor_search_decides_nothing_in_innerFunction :
    ∃ p ∈ (JavaScript.parse innerFunction).root.places [], ∃ c,
      (p.verdict innerFunction).candidate? = some c ∧ c.name = "g" ∧
      c.isNested p.ancestors = true ∧ (p.context innerFunction).insideFunction = true := by
  have hinner : ∃ p ∈ (JavaScript.parse innerFunction).root.places [],
      ((p.verdict innerFunction).candidate?.any (fun c =>
        c.name == "g" && c.isNested p.ancestors)) = true := by
    decide +kernel
  obtain ⟨p, hp, hc⟩ := hinner
  simp only [Option.any_eq_true, Bool.and_eq_true, beq_iff_eq] at hc
  obtain ⟨c, hc, hname, hnested⟩ := hc
  have hflag := (Extractor.ancestor_search_decides_nothing { detail := .rich } innerFunction
    (some "a.js") (JavaScript.parse innerFunction).root).2.2 p hp c hc hnested
  exact ⟨p, hp, c, hc, hname, hnested, hflag⟩

end CallAtlas
