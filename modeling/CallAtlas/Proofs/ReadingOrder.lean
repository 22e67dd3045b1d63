import CallAtlas.Extraction

/-!
The places of a tree in reading order, each with the nodes above it. What a walk carries along to
a place depends on those nodes alone, so a walk is one step for each place.
-/

set_option autoImplicit false

namespace CallAtlas

/-- A node where it stands: `ancestors` are the nodes above it, innermost first. -/
structure Place where
  node : Node
  ancestors : List Node

mutual
/-- A node, then what is below its children from left to right. -/
def Node.places (ancestors : List Node) : Node → List Place
  | .mk kind named field span children =>
    let n := Node.mk kind named field span children
    ⟨n, ancestors⟩ :: placesAmong (n :: ancestors) children

def placesAmong (ancestors : List Node) : List Node → List Place
  | [] => []
  | n :: rest => n.places ancestors ++ placesAmong ancestors rest
end

/-- The context for the nodes right below a chain of nodes. -/
def contextBelow (source : Source) : List Node → Context
  | [] => {}
  | n :: above =>
    let here := (contextBelow source above).at source n
    here.below n (classify source here n)

namespace Place

def context (source : Source) (p : Place) : Context :=
  (contextBelow source p.ancestors).at source p.node

def verdict (source : Source) (p : Place) : Verdict :=
  classify source (p.context source) p.node

/-- The record a walk keeps for a place, if it keeps one. -/
def record? (survey : Survey) (p : Place) : Option Record :=
  match (p.verdict survey.source).candidate? with
  | some c =>
    if (p.context survey.source).insideFunction || c.isNested p.ancestors then none
    else some (c.record survey.source survey.detail survey.file)
  | none => none

/-- The node has the form of a function but no parameters. -/
def isMalformed (source : Source) (p : Place) : Bool :=
  match p.verdict source with
  | .malformed _ => true
  | _ => false

end Place

def Findings.visit (survey : Survey) (found : Findings) (p : Place) : Findings :=
  found.add survey (p.context survey.source) p.ancestors (p.verdict survey.source)

-- The invariant is in the statement: whenever the walk comes to a node, the context it carries is
-- the one its list of ancestors gives.
mutual
theorem Node.survey_eq_foldl (survey : Survey) (found : Findings) (ancestors : List Node)
    (n : Node) :
    n.survey survey found (contextBelow survey.source ancestors) ancestors =
      (n.places ancestors).foldl (Findings.visit survey) found := by
  cases n with
  | mk kind named field span children =>
    have h := surveyAmong_eq_foldl survey
      (found.visit survey ⟨.mk kind named field span children, ancestors⟩)
      (.mk kind named field span children :: ancestors) children
    simp only [Node.survey, Node.places, List.foldl_cons]
    exact h

theorem surveyAmong_eq_foldl (survey : Survey) (found : Findings) (ancestors : List Node)
    (children : List Node) :
    surveyAmong survey found (contextBelow survey.source ancestors) ancestors children =
      (placesAmong ancestors children).foldl (Findings.visit survey) found := by
  cases children with
  | nil => simp only [surveyAmong, placesAmong, List.foldl_nil]
  | cons n rest =>
    have hn := Node.survey_eq_foldl survey found ancestors n
    have hrest := surveyAmong_eq_foldl survey
      ((n.places ancestors).foldl (Findings.visit survey) found) ancestors rest
    simp only [surveyAmong, placesAmong, List.foldl_append]
    rw [hn, hrest]
end

theorem Findings.records_visit (survey : Survey) (found : Findings) (p : Place) :
    (found.visit survey p).records.toList =
      found.records.toList ++ (p.record? survey).toList := by
  unfold Findings.visit Place.record?
  cases p.verdict survey.source with
  | ordinary => simp [Findings.add, Verdict.candidate?]
  | passedOver why => simp [Findings.add, Verdict.candidate?]
  | malformed node => simp [Findings.add, Verdict.candidate?]
  | function c =>
    simp only [Findings.add, Verdict.candidate?]
    split
    · simp
    · simp

/-- What each place adds to a list, a walk adds place by place. -/
theorem Findings.foldl_visit {α : Type} {survey : Survey} (view : Findings → List α)
    {added : Place → Option α}
    (hvisit : ∀ found p, view (found.visit survey p) = view found ++ (added p).toList)
    (places : List Place) (found : Findings) :
    view (places.foldl (Findings.visit survey) found) = view found ++ places.filterMap added := by
  induction places generalizing found with
  | nil => simp
  | cons p rest ih =>
    rw [List.foldl_cons, ih, hvisit, List.append_assoc, List.filterMap_cons]
    cases added p with
    | none => simp
    | some a => simp

theorem extract_records (survey : Survey) (root : Node) :
    (extract survey root).records = (root.places []).filterMap (Place.record? survey) := by
  have hwalk := Node.survey_eq_foldl survey {} [] root
  have hrecords := Findings.foldl_visit (fun found => found.records.toList)
    (Findings.records_visit survey) (root.places []) {}
  simp only [extract]
  rw [show ({} : Context) = contextBelow survey.source [] from rfl, hwalk, hrecords]
  simp

theorem Findings.skipped_visit (survey : Survey) (found : Findings) (p : Place) :
    (found.visit survey p).skipped = found.skipped + (p.isMalformed survey.source).toNat := by
  unfold Findings.visit Place.isMalformed
  cases p.verdict survey.source with
  | ordinary => rfl
  | passedOver why => rfl
  | malformed node => rfl
  | function c =>
    simp only [Findings.add]
    split
    · rfl
    · rfl

theorem Findings.skipped_foldl_visit (survey : Survey) (places : List Place) (found : Findings) :
    (places.foldl (Findings.visit survey) found).skipped =
      found.skipped + places.countP (Place.isMalformed survey.source) := by
  induction places generalizing found with
  | nil => rfl
  | cons p rest ih =>
    rw [List.foldl_cons, ih, Findings.skipped_visit, List.countP_cons]
    cases p.isMalformed survey.source with
    | true =>
      simp only [Bool.toNat_true, if_true]
      omega
    | false => simp

theorem extract_skipped (survey : Survey) (root : Node) :
    (extract survey root).skipped = (root.places []).countP (Place.isMalformed survey.source) := by
  have hwalk := Node.survey_eq_foldl survey {} [] root
  have hskipped := Findings.skipped_foldl_visit survey (root.places []) {}
  simp only [extract]
  rw [show ({} : Context) = contextBelow survey.source [] from rfl, hwalk, hskipped]
  simp

end CallAtlas
