import CallAtlas.JavaScript.Program
import CallAtlas.Proofs.Addresses

/-!
The functions of a tree as stretches of source. If the spans of a tree are nested and in order, as
a parser makes them, then the spans of the recorded functions do not overlap and come in the order
of the source, although a declaration gets its record before its function is reached.
-/

set_option autoImplicit false

namespace CallAtlas

/-- Points are ordered by row, and within a row by column. -/
instance : LE Point :=
  ⟨fun p q => p.row < q.row ∨ p.row = q.row ∧ p.column ≤ q.column⟩

instance (p q : Point) : Decidable (p ≤ q) :=
  inferInstanceAs (Decidable (p.row < q.row ∨ p.row = q.row ∧ p.column ≤ q.column))

theorem Point.le_refl (p : Point) : p ≤ p :=
  .inr ⟨rfl, Nat.le_refl _⟩

theorem Point.le_trans {p q r : Point} (hpq : p ≤ q) (hqr : q ≤ r) : p ≤ r := by
  rcases hpq with hpq | ⟨hrow, hcolumn⟩
  · rcases hqr with hqr | ⟨hrow, _⟩
    · exact .inl (Nat.lt_trans hpq hqr)
    · exact .inl (hrow ▸ hpq)
  · rcases hqr with hqr | ⟨hrow', hcolumn'⟩
    · exact .inl (hrow ▸ hqr)
    · exact .inr ⟨hrow.trans hrow', Nat.le_trans hcolumn hcolumn'⟩

namespace Span

/-- The span does not end before it starts. -/
def Forward (s : Span) : Prop :=
  s.startByte ≤ s.endByte ∧ s.start ≤ s.stop

def Within (s outer : Span) : Prop :=
  (outer.startByte ≤ s.startByte ∧ s.endByte ≤ outer.endByte) ∧
    outer.start ≤ s.start ∧ s.stop ≤ outer.stop

/-- The first span is over when the second one starts. -/
def Before (s t : Span) : Prop :=
  s.endByte ≤ t.startByte ∧ s.stop ≤ t.start

instance (s : Span) : Decidable s.Forward :=
  inferInstanceAs (Decidable (_ ∧ _))

instance (s outer : Span) : Decidable (s.Within outer) :=
  inferInstanceAs (Decidable (_ ∧ _))

instance (s t : Span) : Decidable (s.Before t) :=
  inferInstanceAs (Decidable (_ ∧ _))

theorem Within.refl (s : Span) : s.Within s :=
  ⟨⟨Nat.le_refl _, Nat.le_refl _⟩, Point.le_refl _, Point.le_refl _⟩

theorem Within.trans {s t u : Span} (hst : s.Within t) (htu : t.Within u) : s.Within u :=
  ⟨⟨Nat.le_trans htu.1.1 hst.1.1, Nat.le_trans hst.1.2 htu.1.2⟩,
    Point.le_trans htu.2.1 hst.2.1, Point.le_trans hst.2.2 htu.2.2⟩

theorem Before.trans {s t u : Span} (hst : s.Before t) (ht : t.Forward) (htu : t.Before u) :
    s.Before u :=
  ⟨Nat.le_trans hst.1 (Nat.le_trans ht.1 htu.1),
    Point.le_trans hst.2 (Point.le_trans ht.2 htu.2)⟩

end Span

mutual
/-- Everywhere in the tree children lie within their parent, each after the one before it. -/
def Node.Orderly : Node → Prop
  | .mk _ _ _ span children =>
    span.Forward ∧ (∀ c ∈ children, c.span.Within span) ∧
      children.IsChain (fun a b => a.span.Before b.span) ∧ AllOrderly children

def AllOrderly : List Node → Prop
  | [] => True
  | n :: rest => n.Orderly ∧ AllOrderly rest
end

mutual
def Node.decideOrderly : (n : Node) → Decidable n.Orderly
  | .mk _ _ _ span children =>
    have := decideAllOrderly children
    inferInstanceAs (Decidable (span.Forward ∧ (∀ c ∈ children, c.span.Within span) ∧
      children.IsChain (fun a b => a.span.Before b.span) ∧ AllOrderly children))

def decideAllOrderly : (children : List Node) → Decidable (AllOrderly children)
  | [] => inferInstanceAs (Decidable True)
  | n :: rest =>
    have := n.decideOrderly
    have := decideAllOrderly rest
    inferInstanceAs (Decidable (n.Orderly ∧ AllOrderly rest))
end

instance (n : Node) : Decidable n.Orderly :=
  n.decideOrderly

theorem AllOrderly.orderly {children : List Node} (h : AllOrderly children) {c : Node}
    (hc : c ∈ children) : c.Orderly := by
  induction children with
  | nil => simp at hc
  | cons n rest ih =>
    rcases List.mem_cons.mp hc with rfl | hrest
    · exact h.1
    · exact ih h.2 hrest

namespace Node.Orderly

theorem forward {n : Node} (h : n.Orderly) : n.span.Forward := by
  cases n with
  | mk kind named field span children => exact h.1

/-- Whatever lies below a node lies within it. -/
theorem get? {n m : Node} (h : n.Orderly) {way : Address} (hm : n.get? way = some m) :
    m.Orderly ∧ m.span.Within n.span := by
  induction way generalizing n with
  | nil =>
    rw [Node.get?_nil, Option.some.injEq] at hm
    subst hm
    exact ⟨h, .refl _⟩
  | cons i rest ih =>
    cases n with
    | mk kind named field span children =>
      obtain ⟨_, hwithin, _, hall⟩ := h
      obtain ⟨c, hc, hm⟩ := Option.bind_eq_some_iff.mp hm
      have hmem : c ∈ children := List.mem_of_getElem? hc
      obtain ⟨horderly, hbelow⟩ := ih (hall.orderly hmem) hm
      exact ⟨horderly, hbelow.trans (hwithin c hmem)⟩

end Node.Orderly

theorem AllOrderly.pairwise_before {children : List Node} (h : AllOrderly children)
    (hchain : children.IsChain (fun a b => a.span.Before b.span)) :
    children.Pairwise (fun a b => a.span.Before b.span) := by
  induction children with
  | nil => exact .nil
  | cons a rest ih =>
    have hrest := ih h.2 hchain.of_cons
    refine List.pairwise_cons.mpr ⟨?_, hrest⟩
    intro c hc
    cases rest with
    | nil => simp at hc
    | cons b rest =>
      have hab : a.span.Before b.span := (List.isChain_cons_cons.mp hchain).1
      rcases List.mem_cons.mp hc with rfl | hc
      · exact hab
      · exact hab.trans h.2.1.forward ((List.pairwise_cons.mp hrest).1 c hc)

namespace Record

/-- The function that the record tells about stands in the span. -/
def LiesIn (r : Record) (s : Span) : Prop :=
  ∃ p, r.position = some p ∧ s.start ≤ p.1 ∧ p.1 ≤ p.2 ∧ p.2 ≤ s.stop

/-- The first function is over when the second one starts. -/
def Precedes (r q : Record) : Prop :=
  ∃ p p', r.position = some p ∧ q.position = some p' ∧ p.2 ≤ p'.1

theorem LiesIn.mono {r : Record} {s t : Span} (h : r.LiesIn s) (hst : s.Within t) :
    r.LiesIn t := by
  obtain ⟨p, hp, hstart, hforward, hstop⟩ := h
  exact ⟨p, hp, Point.le_trans hst.2.1 hstart, hforward, Point.le_trans hstop hst.2.2⟩

theorem LiesIn.precedes {r q : Record} {s t : Span} (hr : r.LiesIn s) (hst : s.Before t)
    (hq : q.LiesIn t) : r.Precedes q := by
  obtain ⟨p, hp, _, _, hstop⟩ := hr
  obtain ⟨p', hp', hstart, _, _⟩ := hq
  exact ⟨p, p', hp, hp', Point.le_trans hstop (Point.le_trans hst.2 hstart)⟩

end Record

theorem Place.liesIn_of_record? {survey : Survey} (hdetail : survey.detail = .signature)
    {p : Place} (h : p.node.Orderly) {r : Record} (hr : p.record? survey = some r) :
    r.LiesIn p.node.span := by
  obtain ⟨_, c, hc, rfl⟩ := Place.candidate_of_record? hr
  obtain ⟨hfunction, hwithin⟩ := h.get? (bears_of_candidate? hc).get?_path
  obtain ⟨_, hposition, _⟩ := (Candidate.readFrom_record survey
    { c with owner := p.owner? survey.source }).signature hdetail
  exact ⟨_, hposition, hwithin.2.1, hfunction.forward.2, hwithin.2.2⟩

-- What is recorded below a node lies within the node. Siblings are in order, and a node that is
-- recorded itself has nothing recorded below it.
mutual
theorem Node.Orderly.records {survey : Survey} (hdetail : survey.detail = .signature) {n : Node}
    (h : n.Orderly) (ancestors : List Node) :
    (∀ r ∈ (n.places ancestors).filterMap (Place.record? survey), r.LiesIn n.span) ∧
    ((n.places ancestors).filterMap (Place.record? survey)).Pairwise Record.Precedes := by
  cases n with
  | mk kind named field span children =>
    obtain ⟨_, hwithin, hchain, hall⟩ := id h
    simp only [Node.places, List.filterMap_cons]
    cases hr : Place.record? survey ⟨.mk kind named field span children, ancestors⟩ with
    | none =>
      obtain ⟨hlies, hordered⟩ := hall.records hdetail hchain
        (.mk kind named field span children :: ancestors)
      refine ⟨?_, hordered⟩
      intro r hmem
      obtain ⟨c, hc, hrc⟩ := hlies r hmem
      exact hrc.mono (hwithin c hc)
    | some r =>
      have hscope : Node.isScope survey.source (.mk kind named field span children) = true := by
        obtain ⟨_, c, hc, _⟩ := Place.candidate_of_record? hr
        simp [Node.isScope, Node.isBearer, hc]
      rw [filterMap_record?_placesAmong List.mem_cons_self hscope]
      refine ⟨?_, List.pairwise_singleton _ _⟩
      intro q hq
      obtain rfl := List.mem_singleton.mp hq
      exact Place.liesIn_of_record? hdetail h hr

theorem AllOrderly.records {survey : Survey} (hdetail : survey.detail = .signature)
    {children : List Node} (h : AllOrderly children)
    (hchain : children.IsChain (fun a b => a.span.Before b.span)) (ancestors : List Node) :
    (∀ r ∈ (placesAmong ancestors children).filterMap (Place.record? survey),
      ∃ c ∈ children, r.LiesIn c.span) ∧
    ((placesAmong ancestors children).filterMap (Place.record? survey)).Pairwise
      Record.Precedes := by
  cases children with
  | nil => simp [placesAmong]
  | cons n rest =>
    have hbefore := (List.pairwise_cons.mp (h.pairwise_before hchain)).1
    obtain ⟨hlies, hordered⟩ := h.1.records hdetail ancestors
    obtain ⟨hliesRest, horderedRest⟩ := h.2.records hdetail hchain.of_cons ancestors
    simp only [placesAmong, List.filterMap_append]
    refine ⟨?_, List.pairwise_append.mpr ⟨hordered, horderedRest, ?_⟩⟩
    · intro r hr
      rcases List.mem_append.mp hr with hr | hr
      · exact ⟨n, List.mem_cons_self, hlies r hr⟩
      · obtain ⟨c, hc, hrc⟩ := hliesRest r hr
        exact ⟨c, List.mem_cons_of_mem n hc, hrc⟩
    · intro r hr q hq
      obtain ⟨c, hc, hqc⟩ := hliesRest q hq
      exact (hlies r hr).precedes (hbefore c hc) hqc
end

/-- The spans of the recorded functions do not overlap and come in the order of the source. -/
theorem spans_in_source_order {root : Node} (h : root.Orderly) (source : Source)
    (file : Option String) :
    (∀ r ∈ (extract ⟨source, .signature, file⟩ root).records, r.LiesIn root.span) ∧
    (extract ⟨source, .signature, file⟩ root).records.Pairwise Record.Precedes := by
  rw [extract_records]
  exact h.records rfl []

def severalForms : Source :=
  "class A { m() { function h() {} } }\nvar a = 1,\n  f = x => { return x; };\nfunction g() {}".toUTF8

/-- A method, the second of two bindings and a declaration; the inner function is left out. -/
theorem spans_in_source_order_of_severalForms :
    (JavaScript.parse severalForms).root.Orderly ∧
    (extract ⟨severalForms, .signature, none⟩ (JavaScript.parse severalForms).root).records.map
      Record.name = ["m", "f", "g"] ∧
    (extract ⟨severalForms, .signature, none⟩ (JavaScript.parse severalForms).root).records.Pairwise
      Record.Precedes := by
  have hparsed : (JavaScript.parse severalForms).root.Orderly ∧
      (extract ⟨severalForms, .signature, none⟩ (JavaScript.parse severalForms).root).records.map
        Record.name = ["m", "f", "g"] := by decide +kernel
  exact ⟨hparsed.1, hparsed.2, (spans_in_source_order hparsed.1 severalForms none).2⟩

end CallAtlas
