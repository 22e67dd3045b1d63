import CallAtlas.Proofs.ReadingOrder

/-!
Nodes that bear a named function. Whether a node is one does not depend on what is around it; only
the class of a method does. With that the context of a place is read off its ancestors.
-/

set_option autoImplicit false

namespace CallAtlas

namespace Node

/-- The candidate of a node looked at by itself. -/
def candidate? (source : Source) (n : Node) : Option Candidate :=
  (classify source {} n).candidate?

def isBearer (source : Source) (n : Node) : Bool :=
  (n.candidate? source).isSome

def className? (source : Source) (n : Node) : Option String :=
  if n.isClass then (n.child? "name").map (Node.text source) else none

/-- Everything below counts as being inside a function. -/
def isScope (source : Source) (n : Node) : Bool :=
  n.isFunction || n.isBearer source

end Node

def enclosingClass? (source : Source) (ancestors : List Node) : Option String :=
  ancestors.findSome? (Node.className? source)

/-- The forms in which a node bears a named function, each with the candidate it gives. -/
inductive Bears (source : Source) (context : Context) (n : Node) : Candidate → Prop where
  | method (name parameters : Node) :
      n.kind = "method_definition" → n.child? "name" = some name →
      name.kind ∈ methodNameKinds → n.hasChildOfKind "*" = false →
      parameterNode? n = some parameters →
      Bears source context n
        ⟨name.text source, parameters.text source, n, context.currentClass, [], []⟩
  | function (name parameters : Node) :
      n.kind = "function_declaration" → n.child? "name" = some name →
      parameterNode? n = some parameters →
      Bears source context n ⟨name.text source, parameters.text source, n, none, [], []⟩
  | declaration (b : Binding) (name parameters : Node) :
      n.kind ∈ declarationKinds → bindings n = [b] →
      b.declarator.child? "name" = some name → name.kind = "identifier" →
      parameterNode? b.value = some parameters →
      Bears source context n
        ⟨name.text source, parameters.text source, b.value, none, [b.position, b.slot],
          [b.declarator, n]⟩

theorem Verdict.candidate?_ofForm (source : Source) (name f : Node) (owner : Option String)
    (path : List Nat) (holders : List Node) :
    (Verdict.ofForm source name f owner path holders).candidate? =
      (parameterNode? f).map (fun p =>
        ⟨name.text source, p.text source, f, owner, path, holders⟩) := by
  unfold Verdict.ofForm
  cases parameterNode? f with
  | none => rfl
  | some p => rfl

theorem bears_of_classifyMethod {source : Source} {context : Context} {n : Node} {c : Candidate}
    (hkind : n.kind = "method_definition")
    (h : (classifyMethod source context n).candidate? = some c) : Bears source context n c := by
  unfold classifyMethod at h
  split at h
  · simp [Verdict.candidate?] at h
  · rename_i name hname
    split at h
    · simp [Verdict.candidate?] at h
    · rename_i hplain
      split at h
      · simp [Verdict.candidate?] at h
      · rename_i hstar
        rw [Verdict.candidate?_ofForm] at h
        obtain ⟨p, hp, rfl⟩ := Option.map_eq_some_iff.mp h
        exact .method name p hkind hname (by simpa using hplain) (by simpa using hstar) hp

theorem bears_of_classifyFunction {source : Source} {context : Context} {n : Node} {c : Candidate}
    (hkind : n.kind = "function_declaration")
    (h : (classifyFunction source n).candidate? = some c) : Bears source context n c := by
  unfold classifyFunction at h
  split at h
  · simp [Verdict.candidate?] at h
  · rename_i name hname
    rw [Verdict.candidate?_ofForm] at h
    obtain ⟨p, hp, rfl⟩ := Option.map_eq_some_iff.mp h
    exact .function name p hkind hname hp

theorem bears_of_classifyDeclaration {source : Source} {context : Context} {n : Node}
    {c : Candidate} (hkind : n.kind ∈ declarationKinds)
    (h : (classifyDeclaration source n).candidate? = some c) : Bears source context n c := by
  unfold classifyDeclaration at h
  split at h
  · simp [Verdict.candidate?] at h
  · rename_i b hb
    split at h
    · simp [Verdict.candidate?] at h
    · rename_i name hname
      split at h
      · rename_i hplain
        rw [Verdict.candidate?_ofForm] at h
        obtain ⟨p, hp, rfl⟩ := Option.map_eq_some_iff.mp h
        exact .declaration b name p hkind hb hname (beq_iff_eq.mp hplain) hp
      · simp [Verdict.candidate?] at h
  · simp [Verdict.candidate?] at h

theorem bears_of_candidate? {source : Source} {context : Context} {n : Node} {c : Candidate}
    (h : (classify source context n).candidate? = some c) : Bears source context n c := by
  unfold classify at h
  split at h
  · rename_i hkind
    exact bears_of_classifyMethod (beq_iff_eq.mp hkind) h
  · split at h
    · rename_i hkind
      exact bears_of_classifyFunction (beq_iff_eq.mp hkind) h
    · split at h
      · rename_i hkind
        exact bears_of_classifyDeclaration (List.contains_iff_mem.mp hkind) h
      · simp [Verdict.candidate?] at h

theorem candidate?_classifyMethod (source : Source) (context : Context) (n : Node) :
    (classifyMethod source context n).candidate? =
      (classifyMethod source {} n).candidate?.map (fun c =>
        { c with owner := context.currentClass }) := by
  unfold classifyMethod
  split
  · rfl
  · split
    · rfl
    · split
      · rfl
      · rw [Verdict.candidate?_ofForm, Verdict.candidate?_ofForm, Option.map_map]
        rfl

/-- What is around a node decides on nothing but the class of a method. -/
theorem candidate?_classify (source : Source) (context : Context) (n : Node) :
    (classify source context n).candidate? =
      (n.candidate? source).map (fun c =>
        { c with
          owner := if n.kind = "method_definition" then context.currentClass else none }) := by
  by_cases hkind : n.kind = "method_definition"
  · have h := candidate?_classifyMethod source context n
    simpa [Node.candidate?, classify, hkind] using h
  · have hsame : classify source context n = classify source {} n := by
      simp [classify, hkind]
    rw [hsame]
    cases hc : (classify source {} n).candidate? with
    | none => simp [Node.candidate?, hc]
    | some c =>
      have howner : c.owner = none := by
        cases bears_of_candidate? hc with
        | method => contradiction
        | function => rfl
        | declaration => rfl
      simp only [Node.candidate?, hc, hkind, if_false, Option.map_some]
      rw [← howner]

/-- The declarator binds a function. -/
structure Node.Binds (d f : Node) : Prop where
  isNamed : d.named = true
  isDeclarator : d.kind = "variable_declarator"
  value : d.child? "value" = some f
  valueNamed : f.named = true
  valueKind : f.kind ∈ initializerKinds

theorem find?_value_zipIdx (d : Node) :
    (d.children.zipIdx.find? (fun p => p.1.field == some "value")).map Prod.fst =
      d.child? "value" := by
  have h : (d.children.zipIdx.map Prod.fst).find? (fun c => c.field == some "value") = _ :=
    List.find?_map
  rw [List.zipIdx_map_fst] at h
  exact h.symm

theorem binds_of_bindingOf? {i : Nat} {d : Node} {b : Binding} (h : bindingOf? i d = some b) :
    b.declarator = d ∧ d.Binds b.value := by
  have hvalue := find?_value_zipIdx d
  unfold bindingOf? at h
  split at h
  · rename_i hd
    simp only [Bool.and_eq_true, beq_iff_eq] at hd
    split at h
    · rename_i value slot hfind
      rw [hfind] at hvalue
      split at h
      · rename_i hinitializer
        simp only [Node.isInitializer, Bool.and_eq_true, List.contains_iff_mem] at hinitializer
        cases h
        exact ⟨rfl, hd.1, hd.2, hvalue.symm, hinitializer.1, hinitializer.2⟩
      · simp at h
    · simp at h
  · simp at h

theorem kind_of_mem_bindings {n : Node} {b : Binding} (h : b ∈ bindings n) :
    b.declarator.kind = "variable_declarator" := by
  unfold bindings at h
  obtain ⟨⟨d, i⟩, _, hb⟩ := List.mem_filterMap.mp h
  obtain ⟨hd, hbinds⟩ := binds_of_bindingOf? hb
  rw [hd]
  exact hbinds.isDeclarator

/-- A declaration and its declarator are no functions, so only what is above the classified node
can make its function a nested one. -/
theorem Bears.isNested {source : Source} {context : Context} {n : Node} {c : Candidate}
    (h : Bears source context n c) (ancestors : List Node) :
    c.isNested ancestors = enclosedByFunction ancestors := by
  cases h with
  | method => rfl
  | function => rfl
  | declaration b name p hkind hb =>
    have hb : b.declarator.isFunction = false := by
      have h := kind_of_mem_bindings (n := n) (b := b) (by rw [hb]; exact List.mem_singleton.mpr rfl)
      simp [Node.isFunction, h, functionKinds]
    have hn : n.isFunction = false := by
      simp only [declarationKinds, List.mem_cons, List.not_mem_nil, or_false] at hkind
      rcases hkind with h | h
      · simp [Node.isFunction, h, functionKinds]
      · simp [Node.isFunction, h, functionKinds]
    simp [Candidate.isNested, enclosedByFunction, hb, hn]

theorem Context.currentClass_at (source : Source) (context : Context) (n : Node) :
    (context.at source n).currentClass = (n.className? source).or context.currentClass := by
  unfold Context.at Node.className?
  split
  · cases n.child? "name" with
    | none => rfl
    | some name => rfl
  · rfl

theorem Context.insideFunction_at (source : Source) (context : Context) (n : Node) :
    (context.at source n).insideFunction = context.insideFunction := by
  unfold Context.at
  split
  · cases n.child? "name" with
    | none => rfl
    | some name => rfl
  · rfl

theorem Context.currentClass_below (context : Context) (n : Node) (v : Verdict) :
    (context.below n v).currentClass = context.currentClass := by
  unfold Context.below
  split
  · rfl
  · rfl

theorem Context.insideFunction_below (source : Source) (context : Context) (n : Node) :
    (context.below n (classify source context n)).insideFunction =
      (n.isScope source || context.insideFunction) := by
  have hcandidate : (classify source context n).candidate?.isSome = n.isBearer source := by
    rw [candidate?_classify, Option.isSome_map]
    rfl
  unfold Context.below Node.isScope
  rw [hcandidate, Bool.or_comm]
  cases n.isFunction || n.isBearer source with
  | false => simp
  | true => simp [Context.enterFunction]

theorem currentClass_contextBelow (source : Source) (ancestors : List Node) :
    (contextBelow source ancestors).currentClass = enclosingClass? source ancestors := by
  induction ancestors with
  | nil => rfl
  | cons n above ih =>
    simp only [contextBelow, Context.currentClass_below, Context.currentClass_at, ih]
    unfold enclosingClass?
    rw [List.findSome?_cons]
    cases n.className? source with
    | none => rfl
    | some name => rfl

theorem insideFunction_contextBelow (source : Source) (ancestors : List Node) :
    (contextBelow source ancestors).insideFunction = ancestors.any (Node.isScope source) := by
  induction ancestors with
  | nil => rfl
  | cons n above ih =>
    simp only [contextBelow, Context.insideFunction_below, Context.insideFunction_at, ih,
      List.any_cons]

end CallAtlas
