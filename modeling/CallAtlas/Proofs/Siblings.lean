import CallAtlas.JavaScript.Program
import CallAtlas.Proofs.BodyEdits

/-!
Siblings do not see each other. Below a root that is no class, no function and no declaration, a
walk over some children and then over more of them finds what two separate walks find: class,
function and instances known inside a subtree are forgotten at its end.
-/

set_option autoImplicit false

namespace CallAtlas

namespace Findings

/-- What one walk has found, followed by what another one has. -/
def append (f g : Findings) : Findings :=
  ⟨f.records ++ g.records, f.skipped + g.skipped, f.notices ++ g.notices⟩

def extraction (f : Findings) : Extraction :=
  ⟨f.records.toList, f.skipped, f.notices.toList⟩

theorem append_empty (f : Findings) : f.append {} = f := by
  simp [append]

theorem add_append (survey : Survey) (f g : Findings) (context : Context)
    (ancestors : List Node) (v : Verdict) :
    (f.append g).add survey context ancestors v =
      f.append (g.add survey context ancestors v) := by
  cases v with
  | ordinary => rfl
  | passedOver why => simp [add, append]
  | malformed node => simp [add, append, Nat.add_assoc]
  | function c =>
    simp only [add]
    split
    · rfl
    · simp [append]

theorem add_congr {ancestors others : List Node}
    (h : enclosedByFunction ancestors = enclosedByFunction others) (survey : Survey)
    (f : Findings) (context : Context) (v : Verdict) :
    f.add survey context ancestors v = f.add survey context others v := by
  cases v with
  | ordinary => rfl
  | passedOver why => rfl
  | malformed node => rfl
  | function c =>
    have hnested : c.isNested ancestors = c.isNested others := by
      simp only [Candidate.isNested, enclosedByFunction, List.any_append] at h ⊢
      rw [h]
    simp only [add, hnested]

end Findings

-- A walk only adds to what is there: the findings it starts from are a frame.
mutual
theorem Node.survey_append (survey : Survey) (f g : Findings) (context : Context)
    (ancestors : List Node) (n : Node) :
    n.survey survey (f.append g) context ancestors =
      f.append (n.survey survey g context ancestors) := by
  cases n with
  | mk kind named field span children =>
    simp only [Node.survey, Findings.add_append]
    rw [surveyAmong_append]

theorem surveyAmong_append (survey : Survey) (f g : Findings) (context : Context)
    (ancestors : List Node) (children : List Node) :
    surveyAmong survey (f.append g) context ancestors children =
      f.append (surveyAmong survey g context ancestors children) := by
  cases children with
  | nil => simp only [surveyAmong]
  | cons n rest =>
    simp only [surveyAmong]
    rw [Node.survey_append, surveyAmong_append]
end

-- The ancestors matter only in so far as one of them is a function.
mutual
theorem Node.survey_congr {ancestors others : List Node}
    (h : enclosedByFunction ancestors = enclosedByFunction others) (survey : Survey)
    (f : Findings) (context : Context) (n : Node) :
    n.survey survey f context ancestors = n.survey survey f context others := by
  cases n with
  | mk kind named field span children =>
    simp only [Node.survey, Findings.add_congr h]
    apply surveyAmong_congr
    simpa [enclosedByFunction] using congrArg (Node.isFunction _ || ·) h

theorem surveyAmong_congr {ancestors others : List Node}
    (h : enclosedByFunction ancestors = enclosedByFunction others) (survey : Survey)
    (f : Findings) (context : Context) (children : List Node) :
    surveyAmong survey f context ancestors children =
      surveyAmong survey f context others children := by
  cases children with
  | nil => simp only [surveyAmong]
  | cons n rest =>
    simp only [surveyAmong]
    rw [Node.survey_congr h, surveyAmong_congr h]
end

theorem surveyAmong_children_append (survey : Survey) (f : Findings) (context : Context)
    (ancestors xs ys : List Node) :
    surveyAmong survey f context ancestors (xs ++ ys) =
      surveyAmong survey (surveyAmong survey f context ancestors xs) context ancestors ys := by
  induction xs generalizing f with
  | nil => simp only [List.nil_append, surveyAmong]
  | cons n rest ih => simp only [List.cons_append, surveyAmong, ih]

/-- What is found below the root alone, with nothing known from above. -/
theorem extract_withChildren (survey : Survey) {root : Node} (hclass : root.isClass = false)
    (hfunction : root.kind ∉ functionKinds) (hdeclaration : root.kind ∉ declarationKinds)
    (children : List Node) :
    extract survey (root.withChildren children) =
      (surveyAmong survey {} {} [] children).extraction := by
  have hat : Context.at survey.source {} (root.withChildren children) = {} := by
    have hsame : (root.withChildren children).isClass = false := hclass
    simp [Context.at, hsame]
  have hverdict : classify survey.source {} (root.withChildren children) = .ordinary := by
    have hmethod : root.kind ≠ "method_definition" := by
      intro h
      simp [h, functionKinds] at hfunction
    have hdeclared : root.kind ≠ "function_declaration" := by
      intro h
      simp [h, functionKinds] at hfunction
    simp [classify, hmethod, hdeclared, hdeclaration]
  have hplain : (root.withChildren children).isFunction = false := by
    simp [Node.isFunction, hfunction]
  have hbelow : Context.below {} (root.withChildren children) .ordinary = {} := by
    simp [Context.below, Verdict.candidate?, hplain]
  have hwalk : (root.withChildren children).survey survey {} {} [] =
      surveyAmong survey {} {} [root.withChildren children] children := by
    simp only [Node.withChildren] at hat hverdict hbelow ⊢
    simp only [Node.survey, hat, hverdict, hbelow, Findings.add]
  have habove : enclosedByFunction [root.withChildren children] = enclosedByFunction [] := by
    simp [enclosedByFunction, hplain]
  rw [← surveyAmong_congr habove, ← hwalk]
  rfl

namespace Extraction

/-- The record that a key names. -/
def record? (e : Extraction) (key : String) : Option Record :=
  e.keys[key]?.bind (fun i => e.records[i]?)

theorem keys_append {e first second : Extraction}
    (h : e.records = first.records ++ second.records) (key : String) :
    e.keys[key]? =
      (second.keys[key]?.map (first.records.length + ·)).or first.keys[key]? := by
  have hkeys : e.keys = first.keys.extend first.records.length second.records := by
    simp only [keys, KeyMap.ofRecords, KeyMap.extend, h]
    rw [List.zipIdx_append, List.foldl_append, Nat.zero_add]
  rw [hkeys]
  exact KeyMap.getElem?_extend first.keys first.records.length second.records key

theorem exists_of_keys {e : Extraction} {key : String} {i : Nat} (h : e.keys[key]? = some i) :
    ∃ r, e.records[i]? = some r := by
  obtain ⟨⟨r, hr, _⟩, _⟩ := (KeyMap.namesLast_ofRecords e.records key i).mp h
  exact ⟨r, hr⟩

theorem record?_append {e first second : Extraction}
    (h : e.records = first.records ++ second.records) (key : String) :
    e.record? key = (second.record? key).or (first.record? key) := by
  simp only [record?, keys_append h, h]
  cases hsecond : second.keys[key]? with
  | some i =>
    obtain ⟨r, hr⟩ := exists_of_keys hsecond
    simp [hr, List.getElem?_append_right]
  | none =>
    cases hfirst : first.keys[key]? with
    | none => rfl
    | some i =>
      obtain ⟨r, hr⟩ := exists_of_keys hfirst
      obtain ⟨hi, _⟩ := List.getElem?_eq_some_iff.mp hr
      simp [List.getElem?_append_left hi]

end Extraction

/-- Extraction goes through the children of such a root one by one: the records, the keys, the
count of malformed nodes and the notices are those of the first children followed by those of the
others, and a key that both have names a record of the others. -/
theorem siblings_extracted_apart (survey : Survey) {root : Node} (hclass : root.isClass = false)
    (hfunction : root.kind ∉ functionKinds) (hdeclaration : root.kind ∉ declarationKinds)
    (xs ys : List Node) :
    let whole := extract survey (root.withChildren (xs ++ ys))
    let first := extract survey (root.withChildren xs)
    let second := extract survey (root.withChildren ys)
    whole.records = first.records ++ second.records ∧
    (∀ key : String, whole.keys[key]? =
      (second.keys[key]?.map (first.records.length + ·)).or first.keys[key]?) ∧
    (∀ key : String, whole.record? key = (second.record? key).or (first.record? key)) ∧
    whole.skipped = first.skipped + second.skipped ∧
    whole.notices = first.notices ++ second.notices := by
  intro whole first second
  let found := surveyAmong survey {} {} [] xs
  have hwalks : surveyAmong survey {} {} [] (xs ++ ys) =
      found.append (surveyAmong survey {} {} [] ys) := by
    rw [surveyAmong_children_append, ← surveyAmong_append, Findings.append_empty]
  have hwhole : whole = (found.append (surveyAmong survey {} {} [] ys)).extraction := by
    rw [← hwalks]
    exact extract_withChildren survey hclass hfunction hdeclaration (xs ++ ys)
  have hfirst : first = found.extraction :=
    extract_withChildren survey hclass hfunction hdeclaration xs
  have hsecond : second = (surveyAmong survey {} {} [] ys).extraction :=
    extract_withChildren survey hclass hfunction hdeclaration ys
  have hrecords : whole.records = first.records ++ second.records := by
    simp [hwhole, hfirst, hsecond, Findings.extraction, Findings.append]
  refine ⟨hrecords, Extraction.keys_append hrecords, Extraction.record?_append hrecords, ?_, ?_⟩
  · simp [hwhole, hfirst, hsecond, Findings.extraction, Findings.append]
  · simp [hwhole, hfirst, hsecond, Findings.extraction, Findings.append]

def classThenFunction : Source :=
  "class A { f() { const c = new B(); } }\nfunction f() { c.run(); }".toUTF8

/-- The function behind the class is in no class. -/
theorem siblings_extracted_apart_in_classThenFunction :
    let survey : Survey := ⟨classThenFunction, .rich, some "a.js"⟩
    let root := (JavaScript.parse classThenFunction).root
    let first := extract survey (root.withChildren (root.children.take 1))
    let second := extract survey (root.withChildren (root.children.drop 1))
    (root.isClass = false ∧ root.kind ∉ functionKinds ∧ root.kind ∉ declarationKinds) ∧
    first.records.map Record.qualifiedName = ["A.f"] ∧
    second.records.map Record.qualifiedName = ["f"] ∧
    (extract survey (root.withChildren (root.children.take 1 ++ root.children.drop 1))).records =
      first.records ++ second.records := by
  intro survey root first second
  have hparsed : (root.isClass = false ∧ root.kind ∉ functionKinds ∧
      root.kind ∉ declarationKinds) ∧ first.records.map Record.qualifiedName = ["A.f"] ∧
      second.records.map Record.qualifiedName = ["f"] := by
    decide +kernel
  obtain ⟨⟨hclass, hfunction, hdeclaration⟩, hfirst, hsecond⟩ := hparsed
  exact ⟨⟨hclass, hfunction, hdeclaration⟩, hfirst, hsecond,
    (siblings_extracted_apart survey hclass hfunction hdeclaration (root.children.take 1)
      (root.children.drop 1)).1⟩

end CallAtlas
