import CallAtlas.Proofs.Bearers
import CallAtlas.Proofs.CallNames
import CallAtlas.Proofs.StackWalk

/-!
Forms of a named function whose function has no parameters. Which nodes they are does not depend on
what is around them, so each of them in a tree, however deep, is counted once and gets one warning
in reading order; otherwise the walk is the one in which they are ordinary nodes.
-/

set_option autoImplicit false

namespace CallAtlas

namespace Node

/-- The forms in which a node introduces a function under an acceptable name. -/
inductive Introduces (n : Node) : Node → Prop where
  | method (name : Node) :
      n.kind = "method_definition" → n.child? "name" = some name →
      name.kind = "property_identifier" ∨ name.kind = "private_property_identifier" →
      (∀ c ∈ n.children, c.kind ≠ "*") → Introduces n n
  | function (name : Node) :
      n.kind = "function_declaration" → n.child? "name" = some name → Introduces n n
  | declaration (before after : List Node) (d f name : Node) :
      n.kind = "lexical_declaration" ∨ n.kind = "variable_declaration" →
      n.children = before ++ d :: after → d.Binds f →
      (∀ c ∈ before ++ after, ∀ g, ¬ c.Binds g) →
      d.child? "name" = some name → name.kind = "identifier" → Introduces n f

structure LacksParameters (f : Node) : Prop where
  list : f.child? "parameters" = none
  bare : f.kind = "arrow_function" → f.child? "parameter" = none

/-- What is said about a function without parameters. -/
def missingParameters (f : Node) : MalformedNode :=
  ⟨f.kind, f.span.start.row, f.span.start.column, "missing parameter list"⟩

end Node

def Verdict.malformed? : Verdict → Option MalformedNode
  | .malformed m => some m
  | _ => none

theorem Verdict.malformed?_eq_some_iff {v : Verdict} {m : MalformedNode} :
    v.malformed? = some m ↔ v = .malformed m := by
  cases v with
  | ordinary => simp [malformed?]
  | passedOver why => simp [malformed?]
  | malformed node => simp [malformed?]
  | function c => simp [malformed?]

/-- The fault of a node looked at by itself. -/
def Node.malformed? (source : Source) (n : Node) : Option MalformedNode :=
  (classify source {} n).malformed?

theorem parameterNode?_eq_none_iff (f : Node) :
    parameterNode? f = none ↔ f.LacksParameters := by
  unfold parameterNode?
  cases hlist : f.child? "parameters" with
  | some p =>
    constructor
    · intro h
      simp at h
    · intro h
      simp [h.list] at hlist
  | none =>
    by_cases harrow : f.kind = "arrow_function"
    · simp only [harrow, beq_self_eq_true, if_true]
      exact ⟨fun h => ⟨hlist, fun _ => h⟩, fun h => h.bare harrow⟩
    · simp only [beq_iff_eq, harrow, if_false, true_iff]
      exact ⟨hlist, fun h => absurd h harrow⟩

theorem Verdict.ofForm_eq_malformed_iff {source : Source} {name f : Node} {owner : Option String}
    {path : List Nat} {holders : List Node} {m : MalformedNode} :
    Verdict.ofForm source name f owner path holders = .malformed m ↔
      f.LacksParameters ∧ m = f.missingParameters := by
  rw [← parameterNode?_eq_none_iff]
  unfold Verdict.ofForm
  cases parameterNode? f with
  | some p => simp
  | none => simp [Node.missingParameters, eq_comm]

theorem Node.Binds.exists_bindingOf? {d f : Node} (h : d.Binds f) (i : Nat) :
    ∃ b, bindingOf? i d = some b ∧ b.declarator = d ∧ b.value = f := by
  have hvalue := find?_value_zipIdx d
  rw [h.value] at hvalue
  obtain ⟨⟨c, slot⟩, hfind, rfl⟩ := Option.map_eq_some_iff.mp hvalue
  have hinitializer : c.isInitializer = true := by
    simp [Node.isInitializer, h.valueNamed, h.valueKind]
  refine ⟨⟨i, d, slot, c⟩, ?_, rfl, rfl⟩
  simp [bindingOf?, h.isNamed, h.isDeclarator, hfind, hinitializer]

theorem bindingOf?_eq_none_iff (i : Nat) (d : Node) :
    bindingOf? i d = none ↔ ∀ f, ¬ d.Binds f := by
  constructor
  · intro h f hf
    obtain ⟨b, hb, _⟩ := hf.exists_bindingOf? i
    simp [h] at hb
  · intro h
    cases hb : bindingOf? i d with
    | none => rfl
    | some b => exact absurd (binds_of_bindingOf? hb).2 (h b.value)

theorem filterMap_bindingOf?_eq_nil {children : List Node}
    (h : ∀ c ∈ children, ∀ f, ¬ c.Binds f) (first : Nat) :
    (children.zipIdx first).filterMap (fun (c, i) => bindingOf? i c) = [] := by
  apply List.filterMap_eq_nil_iff.mpr
  rintro ⟨c, i⟩ hc
  exact (bindingOf?_eq_none_iff i c).mpr (h c (List.fst_mem_of_mem_zipIdx hc))

/-- A declaration with one binding has one declarator that binds a function. -/
theorem split_of_bindings {n : Node} {b : Binding} (h : bindings n = [b]) :
    ∃ before after, n.children = before ++ b.declarator :: after ∧ b.declarator.Binds b.value ∧
      ∀ c ∈ before ++ after, ∀ f, ¬ c.Binds f := by
  obtain ⟨before, ⟨d, i⟩, after, hsplit, hbefore, hb, hafter⟩ := List.filterMap_eq_cons_iff.mp h
  obtain ⟨hd, hbinds⟩ := binds_of_bindingOf? hb
  have hchildren := congrArg (List.map Prod.fst) hsplit
  rw [List.zipIdx_map_fst, List.map_append, List.map_cons] at hchildren
  refine ⟨before.map Prod.fst, after.map Prod.fst, ?_, ?_, ?_⟩
  · rw [hd]
    exact hchildren
  · rw [hd]
    exact hbinds
  · intro c hc
    rw [← List.map_append] at hc
    obtain ⟨⟨c, j⟩, hmem, rfl⟩ := List.mem_map.mp hc
    apply (bindingOf?_eq_none_iff j c).mp
    rcases List.mem_append.mp hmem with hmem | hmem
    · exact hbefore _ hmem
    · exact List.filterMap_eq_nil_iff.mp hafter _ hmem

theorem bindings_of_split {n d f : Node} {before after : List Node}
    (hchildren : n.children = before ++ d :: after) (hd : d.Binds f)
    (hothers : ∀ c ∈ before ++ after, ∀ g, ¬ c.Binds g) :
    ∃ b, bindings n = [b] ∧ b.declarator = d ∧ b.value = f := by
  obtain ⟨b, hb, hdeclarator, hvalue⟩ := hd.exists_bindingOf? before.length
  have hbefore := filterMap_bindingOf?_eq_nil
    (fun c hc => hothers c (List.mem_append_left after hc)) 0
  have hafter := filterMap_bindingOf?_eq_nil
    (fun c hc => hothers c (List.mem_append_right before hc)) (before.length + 1)
  refine ⟨b, ?_, hdeclarator, hvalue⟩
  rw [bindings, hchildren, List.zipIdx_append, List.filterMap_append, hbefore, List.nil_append,
    List.zipIdx_cons, Nat.zero_add]
  simp only [List.filterMap_cons, hb, hafter]

theorem classifyMethod_eq_malformed_iff (source : Source) (context : Context) (n : Node)
    (m : MalformedNode) :
    classifyMethod source context n = .malformed m ↔
      (∃ name, n.child? "name" = some name ∧ name.kind ∈ methodNameKinds ∧
        n.hasChildOfKind "*" = false) ∧ n.LacksParameters ∧ m = n.missingParameters := by
  unfold classifyMethod
  cases n.child? "name" with
  | none => simp
  | some name =>
    by_cases hname : name.kind ∈ methodNameKinds
    · cases hstar : n.hasChildOfKind "*" with
      | true => simp [hname]
      | false => simp [hname, Verdict.ofForm_eq_malformed_iff]
    · simp [hname]

theorem classifyFunction_eq_malformed_iff (source : Source) (n : Node) (m : MalformedNode) :
    classifyFunction source n = .malformed m ↔
      (∃ name, n.child? "name" = some name) ∧ n.LacksParameters ∧ m = n.missingParameters := by
  unfold classifyFunction
  cases n.child? "name" with
  | none => simp
  | some name => simp [Verdict.ofForm_eq_malformed_iff]

theorem classifyDeclaration_eq_malformed_iff (source : Source) (n : Node) (m : MalformedNode) :
    classifyDeclaration source n = .malformed m ↔
      ∃ b name, bindings n = [b] ∧ b.declarator.child? "name" = some name ∧
        name.kind = "identifier" ∧ b.value.LacksParameters ∧ m = b.value.missingParameters := by
  unfold classifyDeclaration
  match hb : bindings n with
  | [] => simp
  | [b] =>
    cases hname : b.declarator.child? "name" with
    | none => simp [hname]
    | some name =>
      by_cases hidentifier : name.kind = "identifier"
      · simp [hname, hidentifier, Verdict.ofForm_eq_malformed_iff]
      · simp [hname, hidentifier]
  | b :: c :: rest => simp

/-- A node is malformed exactly if it introduces a function that lacks parameters. -/
theorem classify_eq_malformed_iff (source : Source) (context : Context) (n : Node)
    (m : MalformedNode) :
    classify source context n = .malformed m ↔
      ∃ f, n.Introduces f ∧ f.LacksParameters ∧ m = f.missingParameters := by
  constructor
  · intro h
    unfold classify at h
    split at h
    · rename_i hkind
      obtain ⟨⟨name, hname, hplain, hstar⟩, hlacks, hm⟩ :=
        (classifyMethod_eq_malformed_iff source context n m).mp h
      refine ⟨n, .method name (beq_iff_eq.mp hkind) hname ?_ ?_, hlacks, hm⟩
      · simpa [methodNameKinds] using hplain
      · simpa [Node.hasChildOfKind] using hstar
    · split at h
      · rename_i hkind
        obtain ⟨⟨name, hname⟩, hlacks, hm⟩ := (classifyFunction_eq_malformed_iff source n m).mp h
        exact ⟨n, .function name (beq_iff_eq.mp hkind) hname, hlacks, hm⟩
      · split at h
        · rename_i hkind
          obtain ⟨b, name, hb, hname, hidentifier, hlacks, hm⟩ :=
            (classifyDeclaration_eq_malformed_iff source n m).mp h
          obtain ⟨before, after, hchildren, hbinds, hothers⟩ := split_of_bindings hb
          exact ⟨b.value, .declaration before after b.declarator b.value name
            (by simpa [declarationKinds] using hkind) hchildren hbinds hothers hname hidentifier,
            hlacks, hm⟩
        · simp at h
  · rintro ⟨f, hf, hlacks, hm⟩
    cases hf with
    | method name hkind hname hplain hstar =>
      have hmethod := (classifyMethod_eq_malformed_iff source context n m).mpr
        ⟨⟨name, hname, by simpa [methodNameKinds] using hplain,
          by simpa [Node.hasChildOfKind] using hstar⟩, hlacks, hm⟩
      simpa [classify, hkind] using hmethod
    | function name hkind hname =>
      have hfunction := (classifyFunction_eq_malformed_iff source n m).mpr
        ⟨⟨name, hname⟩, hlacks, hm⟩
      simpa [classify, hkind] using hfunction
    | declaration before after d f name hkind hchildren hbinds hothers hname hidentifier =>
      obtain ⟨b, hb, rfl, rfl⟩ := bindings_of_split hchildren hbinds hothers
      have hdeclaration := (classifyDeclaration_eq_malformed_iff source n m).mpr
        ⟨b, name, hb, hname, hidentifier, hlacks, hm⟩
      rcases hkind with hkind | hkind
      · simpa [classify, hkind, declarationKinds] using hdeclaration
      · simpa [classify, hkind, declarationKinds] using hdeclaration

theorem malformed?_classify (source : Source) (context : Context) (n : Node) :
    (classify source context n).malformed? = n.malformed? source := by
  apply Option.ext
  intro m
  rw [Node.malformed?, Verdict.malformed?_eq_some_iff, Verdict.malformed?_eq_some_iff,
    classify_eq_malformed_iff, classify_eq_malformed_iff]

theorem Place.malformed?_verdict (source : Source) (p : Place) :
    (p.verdict source).malformed? = p.node.malformed? source :=
  malformed?_classify source (p.context source) p.node

theorem Verdict.ofForm_ne_passedOver {source : Source} {name f : Node} {owner : Option String}
    {path : List Nat} {holders : List Node} {why : Notice} :
    Verdict.ofForm source name f owner path holders ≠ .passedOver why := by
  unfold Verdict.ofForm
  cases parameterNode? f with
  | none => simp
  | some p => simp

/-- Forms that are left out on purpose deserve no warning. -/
theorem level_of_passedOver {source : Source} {context : Context} {n : Node} {why : Notice}
    (h : classify source context n = .passedOver why) : why.level = .debug := by
  unfold classify at h
  split at h
  · unfold classifyMethod at h
    split at h
    · simp at h
    · split at h
      · cases h
        rfl
      · split at h
        · cases h
          rfl
        · exact absurd h Verdict.ofForm_ne_passedOver
  · split at h
    · unfold classifyFunction at h
      split at h
      · simp at h
      · exact absurd h Verdict.ofForm_ne_passedOver
    · split at h
      · unfold classifyDeclaration at h
        split at h
        · simp at h
        · split at h
          · simp at h
          · split at h
            · exact absurd h Verdict.ofForm_ne_passedOver
            · simp at h
        · cases h
          rfl
      · simp at h

def Notice.isWarning (w : Notice) : Bool :=
  w.level = .warning

def Findings.warnings (found : Findings) : List Notice :=
  found.notices.toList.filter Notice.isWarning

theorem Findings.warnings_visit (survey : Survey) (found : Findings) (p : Place) :
    (found.visit survey p).warnings =
      found.warnings ++
        ((p.node.malformed? survey.source).map (Notice.malformed survey.file)).toList := by
  rw [← Place.malformed?_verdict]
  unfold Findings.visit
  cases hverdict : p.verdict survey.source with
  | ordinary => simp [Findings.add, Verdict.malformed?]
  | passedOver why =>
    have hdebug := level_of_passedOver hverdict
    simp [Findings.add, Verdict.malformed?, Findings.warnings, Notice.isWarning, hdebug]
  | malformed node =>
    simp [Findings.add, Verdict.malformed?, Findings.warnings, Notice.isWarning, Notice.level]
  | function c =>
    simp only [Findings.add, Verdict.malformed?]
    split
    · simp
    · simp [Findings.warnings]

theorem extract_warnings (survey : Survey) (root : Node) :
    (extract survey root).notices.filter Notice.isWarning =
      (root.inOrder.filterMap (Node.malformed? survey.source)).map
        (Notice.malformed survey.file) := by
  have hwalk := Node.survey_eq_foldl survey {} [] root
  have hwarnings := Findings.foldl_visit Findings.warnings (Findings.warnings_visit survey)
    (root.places []) {}
  rw [← hwalk] at hwarnings
  rw [Node.inOrder, List.filterMap_map, List.map_filterMap]
  exact hwarnings

theorem extract_skipped_eq_length (survey : Survey) (root : Node) :
    (extract survey root).skipped =
      (root.inOrder.filterMap (Node.malformed? survey.source)).length := by
  rw [extract_skipped, List.length_filterMap_eq_countP, Node.inOrder, List.countP_map]
  apply List.countP_congr
  intro p _
  rw [Function.comp_apply, ← Place.malformed?_verdict]
  unfold Place.isMalformed
  cases p.verdict survey.source with
  | ordinary => rfl
  | passedOver why => rfl
  | malformed node => rfl
  | function c => rfl

/-- The verdict of someone who finds nothing in malformed nodes. -/
def Verdict.tolerated : Verdict → Verdict
  | .malformed _ => .ordinary
  | v => v

theorem Context.below_tolerated (context : Context) (n : Node) (v : Verdict) :
    context.below n v.tolerated = context.below n v := by
  cases v with
  | ordinary => rfl
  | passedOver why => rfl
  | malformed node => rfl
  | function c => rfl

namespace Extractor

def Rules.tolerant : Rules where
  classify := fun source context n => (CallAtlas.classify source context n).tolerated
  isNested := Candidate.isNested

/-- The extractor apart from what it counts and remarks. -/
def uncounted (e : Extractor) : Extractor :=
  { e with skipped := 0, notices := #[] }

theorem uncounted_take {e other : Extractor} (h : e.uncounted = other.uncounted)
    (context : Context) (ancestors : List Node) (v : Verdict) :
    (e.take .usual context ancestors v).uncounted =
      (other.take .tolerant context ancestors v.tolerated).uncounted := by
  cases v with
  | ordinary => exact h
  | passedOver why => exact h
  | malformed node => exact h
  | function c =>
    have hrule : Rules.tolerant.isNested c ancestors = Rules.usual.isNested c ancestors := rfl
    simp only [take, Verdict.tolerated, hrule]
    split
    · exact h
    · exact congrArg (fun u => u.addRecord (c.record u.source u.detail u.file)) h

theorem visit_tolerant {e other : Extractor} (h : e.uncounted = other.uncounted) (p : Pending) :
    (e.visit .usual p).1.uncounted = (other.visit .tolerant p).1.uncounted ∧
      (e.visit .usual p).2 = (other.visit .tolerant p).2 := by
  have hsource : other.source = e.source :=
    show other.uncounted.source = e.uncounted.source by rw [h]
  have hclassifier : other.classifier = e.classifier :=
    show other.uncounted.classifier = e.uncounted.classifier by rw [h]
  simp only [visit, hsource, hclassifier]
  exact ⟨uncounted_take h _ _ _, (Context.below_tolerated _ _ _).symm⟩

theorem walk_tolerant {e other : Extractor} (h : e.uncounted = other.uncounted)
    (stack : List Pending) :
    (e.walk .usual stack).uncounted = (other.walk .tolerant stack).uncounted := by
  induction e, stack using walk.induct Rules.usual generalizing other with
  | case1 e =>
    rw [walk_nil, walk_nil]
    exact h
  | case2 e p rest visited context hvisit ih =>
    obtain ⟨hsame, hcontext⟩ := visit_tolerant h p
    rw [hvisit] at hsame hcontext
    rw [walk_cons, walk_cons, hvisit, ← hcontext]
    exact ih hsame

/-- Malformed nodes are left out one by one. A node is one exactly if it introduces a function that
lacks parameters, whatever is around it; a walk still gives an answer, counts all of them in the
tree and warns of each in reading order, and its records and keys are those of a walk to which
they are ordinary nodes. -/
theorem malformed_left_out_alone (e : Extractor) (source : Source) (file : Option String)
    (root : Node) :
    let usual := e.answer .usual ⟨source, file, some root⟩
    let tolerant := e.answer .tolerant ⟨source, file, some root⟩
    let faults := root.inOrder.filterMap (Node.malformed? source)
    (∀ context n m, classify source context n = .malformed m ↔
      ∃ f, n.Introduces f ∧ f.LacksParameters ∧ m = f.missingParameters) ∧
    (∀ context n m, classify source context n = .malformed m ↔ n.malformed? source = some m) ∧
    usual.1 = .ok usual.2.records.toList ∧
    usual.2.skipped = faults.length ∧
    usual.2.notices.toList.filter Notice.isWarning = faults.map (Notice.malformed file) ∧
    usual.1 = tolerant.1 ∧ usual.2.records = tolerant.2.records ∧
    usual.2.keys = tolerant.2.keys := by
  intro usual tolerant faults
  have husual := answer_some e source file root
  have hwalks : usual.2.uncounted = tolerant.2.uncounted := walk_tolerant rfl _
  have hrecords : usual.2.records = tolerant.2.records :=
    show usual.2.uncounted.records = tolerant.2.uncounted.records by rw [hwalks]
  have hkeys : usual.2.keys = tolerant.2.keys :=
    show usual.2.uncounted.keys = tolerant.2.uncounted.keys by rw [hwalks]
  refine ⟨classify_eq_malformed_iff source, ?_, rfl, ?_, ?_, ?_, hrecords, hkeys⟩
  · intro context n m
    rw [← malformed?_classify source context n, Verdict.malformed?_eq_some_iff]
  · have hskipped : usual.2.skipped = (extract ⟨source, e.detail, file⟩ root).skipped :=
      congrArg (fun x => x.2.skipped) husual
    rw [hskipped, extract_skipped_eq_length]
  · have hnotices : usual.2.notices.toList = (extract ⟨source, e.detail, file⟩ root).notices :=
      congrArg (fun x => x.2.notices.toList) husual
    rw [hnotices, extract_warnings]
  · exact congrArg (fun rs => Except.ok rs.toList) hrecords

end Extractor

end CallAtlas
