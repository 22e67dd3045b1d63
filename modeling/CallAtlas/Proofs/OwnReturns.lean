import CallAtlas.JavaScript.Program
import CallAtlas.Proofs.BodyEdits

/-!
The return statements that are a function's own. On the way from the body down to them there is
neither a function nor another return statement, and the first of them that returns a literal
decides on the label. What is inside a nested function therefore has no say in it.
-/

set_option autoImplicit false

namespace CallAtlas

/-- The place is a return statement with no function and no other return statement above it. -/
def Place.isOwnReturn (p : Place) : Bool :=
  p.node.kind == "return_statement" && !p.node.isFunction &&
    p.ancestors.all (fun a => !a.isFunction && a.kind != "return_statement")

def ownReturnsAt (places : List Place) : List Node :=
  (places.filter Place.isOwnReturn).map Place.node

namespace Node

/-- The own return statements below a body, in reading order. Only what lies between the body and
a statement counts as being above it. -/
def ownReturns (body : Node) : List Node :=
  ownReturnsAt (placesAmong [] body.children)

/-- The first child of a return statement that is named and no comment. -/
def Returns (r e : Node) : Prop :=
  (e.named = true ∧ e.kind ≠ "comment") ∧
    ∃ before after, r.children = before ++ e :: after ∧
      ∀ c ∈ before, c.named = false ∨ c.kind = "comment"

/-- The statement returns a literal with this label. -/
inductive ReturnsLiteral (r : Node) : ReturnLabel → Prop where
  | number (e : Node) : r.Returns e → e.kind = "number" → ReturnsLiteral r .number
  | string (e : Node) :
      r.Returns e → e.kind = "string" ∨ e.kind = "template_string" → ReturnsLiteral r .string

/-- The label of a function by the rules, of which the first that applies decides. -/
inductive Labelled (f : Node) (isAsync isArrow : Bool) : String → Prop where
  | promise : isAsync = true → Labelled f isAsync isArrow "Promise<void>"
  | bodiless : isAsync = false → f.child? "body" = none → Labelled f isAsync isArrow "void"
  | expression (body : Node) :
      isAsync = false → f.child? "body" = some body → isArrow = true →
      body.kind ≠ "statement_block" → Labelled f isAsync isArrow "any"
  | literal (body r : Node) (earlier later : List Node) (label : ReturnLabel) :
      isAsync = false → f.child? "body" = some body →
      (isArrow = true → body.kind = "statement_block") →
      body.ownReturns = earlier ++ r :: later →
      (∀ e ∈ earlier, ∀ l, ¬ e.ReturnsLiteral l) → r.ReturnsLiteral label →
      Labelled f isAsync isArrow label.text
  | nothing (body : Node) :
      isAsync = false → f.child? "body" = some body →
      (isArrow = true → body.kind = "statement_block") →
      (∀ r ∈ body.ownReturns, ∀ l, ¬ r.ReturnsLiteral l) → Labelled f isAsync isArrow "void"

theorem returnedNode?_eq_some_iff {r e : Node} : returnedNode? r = some e ↔ r.Returns e := by
  rw [returnedNode?, namedChildren, List.find?_filter, List.find?_eq_some_iff_append]
  simp [Returns]

theorem literal?_eq_some_iff {r : Node} {label : ReturnLabel} :
    r.literal? = some label ↔ r.ReturnsLiteral label := by
  constructor
  · intro h
    obtain ⟨e, he, hlabel⟩ := Option.bind_eq_some_iff.mp h
    have hreturns := returnedNode?_eq_some_iff.mp he
    unfold literalLabel? at hlabel
    split at hlabel
    · rename_i hkind
      rw [← Option.some.inj hlabel]
      exact .number e hreturns (beq_iff_eq.mp hkind)
    · split at hlabel
      · rename_i hkind
        rw [← Option.some.inj hlabel]
        exact .string e hreturns (by simpa using hkind)
      · simp at hlabel
  · intro h
    cases h with
    | number e he hkind =>
      simp [literal?, returnedNode?_eq_some_iff.mpr he, literalLabel?, hkind]
    | string e he hkind =>
      rcases hkind with hkind | hkind
      · simp [literal?, returnedNode?_eq_some_iff.mpr he, literalLabel?, hkind]
      · simp [literal?, returnedNode?_eq_some_iff.mpr he, literalLabel?, hkind]

theorem literal?_eq_none_iff {r : Node} :
    r.literal? = none ↔ ∀ label, ¬ r.ReturnsLiteral label := by
  rw [Option.eq_none_iff_forall_ne_some]
  simp only [ne_eq, literal?_eq_some_iff]

end Node

theorem mem_ancestors_of_mem_placesAmong {ancestors children : List Node} {p : Place}
    (hp : p ∈ placesAmong ancestors children) {a : Node} (ha : a ∈ ancestors) :
    a ∈ p.ancestors := by
  rw [← map_snd_locatedAmong ancestors [] 0] at hp
  obtain ⟨x, hx, rfl⟩ := List.mem_map.mp hp
  obtain ⟨_, _, _, _, hway⟩ := reaches_of_mem_locatedAmong hx
  exact hway.ancestors a ha

theorem ownReturnsAt_below {n : Node} (hstop : n.isFunction = true ∨ n.kind = "return_statement")
    (above children : List Node) : ownReturnsAt (placesAmong (n :: above) children) = [] := by
  rw [ownReturnsAt, List.map_eq_nil_iff, List.filter_eq_nil_iff]
  intro p hp hown
  simp only [Place.isOwnReturn, Bool.and_eq_true, List.all_eq_true, Bool.not_eq_true',
    bne_iff_ne] at hown
  obtain ⟨hfunction, hreturn⟩ := hown.2 n (mem_ancestors_of_mem_placesAmong hp List.mem_cons_self)
  rcases hstop with h | h
  · simp [hfunction] at h
  · exact hreturn h

theorem ownReturnsAt_append (xs ys : List Place) :
    ownReturnsAt (xs ++ ys) = ownReturnsAt xs ++ ownReturnsAt ys := by
  simp [ownReturnsAt]

/-- Nothing on the way keeps a return statement below from being an own one. -/
def LetsThrough (ancestors : List Node) : Prop :=
  ∀ a ∈ ancestors, a.isFunction = false ∧ a.kind ≠ "return_statement"

theorem LetsThrough.cons {ancestors : List Node} (h : LetsThrough ancestors) {n : Node}
    (hfunction : n.isFunction = false) (hkind : n.kind ≠ "return_statement") :
    LetsThrough (n :: ancestors) := by
  intro a ha
  rcases List.mem_cons.mp ha with rfl | ha
  · exact ⟨hfunction, hkind⟩
  · exact h a ha

theorem LetsThrough.isOwnReturn_eq {ancestors : List Node} (h : LetsThrough ancestors)
    {n : Node} (hfunction : n.isFunction = false) :
    Place.isOwnReturn ⟨n, ancestors⟩ = (n.kind == "return_statement") := by
  have hall : ancestors.all (fun a => !a.isFunction && a.kind != "return_statement") = true := by
    simpa [LetsThrough] using h
  simp [Place.isOwnReturn, hfunction, hall]

theorem ownReturnsAt_cons (p : Place) (places : List Place) :
    ownReturnsAt (p :: places) =
      if p.isOwnReturn then p.node :: ownReturnsAt places else ownReturnsAt places := by
  simp only [ownReturnsAt, List.filter_cons]
  split
  · rfl
  · rfl

mutual
/-- The first label among the return statements at or below a node, without a stack. -/
def Node.literalReturn? : Node → Option ReturnLabel
  | .mk kind named field span children =>
    if (Node.mk kind named field span children).isFunction then none
    else if kind == "return_statement" then (Node.mk kind named field span children).literal?
    else literalReturnAmong? children

def literalReturnAmong? : List Node → Option ReturnLabel
  | [] => none
  | n :: rest => n.literalReturn?.or (literalReturnAmong? rest)
end

theorem Node.literalReturn?_eq_ite (n : Node) :
    n.literalReturn? =
      if n.isFunction then none
      else if n.kind == "return_statement" then n.literal?
      else literalReturnAmong? n.children := by
  cases n with
  | mk kind named field span children =>
    rw [literalReturn?]
    rfl

theorem literalReturnAmong?_append (xs ys : List Node) :
    literalReturnAmong? (xs ++ ys) = (literalReturnAmong? xs).or (literalReturnAmong? ys) := by
  induction xs with
  | nil => simp [literalReturnAmong?]
  | cons n rest ih => simp only [List.cons_append, literalReturnAmong?, ih, Option.or_assoc]

/-- The stack of a search unrolls to the trees on it, one after the other. -/
theorem firstLabel?_eq (stack : List Node) : firstLabel? stack = literalReturnAmong? stack := by
  fun_induction firstLabel? stack with
  | case1 => rw [literalReturnAmong?]
  | case2 n rest hfunction ih =>
    rw [literalReturnAmong?, Node.literalReturn?_eq_ite, if_pos hfunction, Option.none_or, ih]
  | case3 n rest hfunction hkind label hlabel =>
    rw [literalReturnAmong?, Node.literalReturn?_eq_ite, if_neg hfunction, if_pos hkind, hlabel,
      Option.some_or]
  | case4 n rest hfunction hkind hlabel ih =>
    rw [literalReturnAmong?, Node.literalReturn?_eq_ite, if_neg hfunction, if_pos hkind, hlabel,
      Option.none_or, ih]
  | case5 n rest hfunction hkind ih =>
    rw [literalReturnAmong?, Node.literalReturn?_eq_ite, if_neg hfunction, if_neg hkind, ih,
      literalReturnAmong?_append]

-- The search stops where a function or a return statement does not let it through, and there the
-- places below hold no own return statement either.
mutual
theorem Node.literalReturn?_eq {ancestors : List Node} (h : LetsThrough ancestors) (n : Node) :
    n.literalReturn? = (ownReturnsAt (n.places ancestors)).findSome? Node.literal? := by
  cases n with
  | mk kind named field span children =>
    simp only [Node.literalReturn?, Node.places, ownReturnsAt_cons]
    cases hfunction : (Node.mk kind named field span children).isFunction with
    | true =>
      have hnone := ownReturnsAt_below (.inl hfunction) ancestors children
      simp [Place.isOwnReturn, hfunction, hnone]
    | false =>
      rw [h.isOwnReturn_eq hfunction]
      by_cases hkind : kind = "return_statement"
      · subst hkind
        have hnone := ownReturnsAt_below (n := .mk "return_statement" named field span children)
          (.inr rfl) ancestors children
        rw [hnone]
        simp only [Bool.false_eq_true, beq_self_eq_true, if_true, if_false, Node.kind,
          List.findSome?_singleton]
      · have hbelow := literalReturnAmong?_eq (h.cons hfunction hkind) children
        simp [Node.kind, hkind, hbelow]

theorem literalReturnAmong?_eq {ancestors : List Node} (h : LetsThrough ancestors)
    (children : List Node) :
    literalReturnAmong? children =
      (ownReturnsAt (placesAmong ancestors children)).findSome? Node.literal? := by
  cases children with
  | nil => simp [literalReturnAmong?, placesAmong, ownReturnsAt]
  | cons n rest =>
    simp only [literalReturnAmong?, placesAmong, ownReturnsAt_append, List.findSome?_append]
    rw [← Node.literalReturn?_eq h n, ← literalReturnAmong?_eq h rest]
end

theorem firstLabel?_children (body : Node) :
    firstLabel? body.children = body.ownReturns.findSome? Node.literal? := by
  have hfree : LetsThrough [] := by simp [LetsThrough]
  rw [firstLabel?_eq]
  exact literalReturnAmong?_eq hfree body.children

namespace Node

variable {f : Node} {isAsync isArrow : Bool}

theorem Labelled.text_eq {s : String} (h : f.Labelled isAsync isArrow s) :
    (f.returnLabel isAsync isArrow).text = s := by
  cases h with
  | promise hasync => simp [returnLabel, hasync, ReturnLabel.text]
  | bodiless hasync hbody => simp [returnLabel, hasync, hbody, ReturnLabel.text]
  | expression body hasync hbody harrow hkind =>
    simp [returnLabel, hasync, hbody, harrow, hkind, ReturnLabel.text]
  | literal body r earlier later label hasync hbody hblock hreturns hearlier hr =>
    have hfirst : firstLabel? body.children = some label := by
      rw [firstLabel?_children, List.findSome?_eq_some_iff]
      refine ⟨earlier, r, later, hreturns, literal?_eq_some_iff.mpr hr, ?_⟩
      intro e he
      exact literal?_eq_none_iff.mpr (hearlier e he)
    have hblock : (isArrow && body.kind != "statement_block") = false := by simpa using hblock
    simp [returnLabel, hasync, hbody, hblock, hfirst]
  | nothing body hasync hbody hblock hnone =>
    have hfirst : firstLabel? body.children = none := by
      rw [firstLabel?_children, List.findSome?_eq_none_iff]
      intro r hr
      exact literal?_eq_none_iff.mpr (hnone r hr)
    have hblock : (isArrow && body.kind != "statement_block") = false := by simpa using hblock
    simp [returnLabel, hasync, hbody, hblock, hfirst, ReturnLabel.text]

theorem labelled_text (f : Node) (isAsync isArrow : Bool) :
    f.Labelled isAsync isArrow (f.returnLabel isAsync isArrow).text := by
  cases hasync : isAsync with
  | true => exact .promise rfl
  | false =>
    cases hbody : f.child? "body" with
    | none =>
      have hvoid : f.returnLabel false isArrow = .void := by simp [returnLabel, hbody]
      rw [hvoid]
      exact .bodiless rfl hbody
    | some body =>
      cases hblock : isArrow && body.kind != "statement_block" with
      | true =>
        have hany : f.returnLabel false isArrow = .any := by simp [returnLabel, hbody, hblock]
        rw [hany]
        simp only [Bool.and_eq_true, bne_iff_ne] at hblock
        exact .expression body rfl hbody hblock.1 hblock.2
      | false =>
        have hsearch : f.returnLabel false isArrow =
            (body.ownReturns.findSome? literal?).getD .void := by
          simp [returnLabel, hbody, hblock, firstLabel?_children]
        have hblock : isArrow = true → body.kind = "statement_block" := by simpa using hblock
        rw [hsearch]
        cases hfirst : body.ownReturns.findSome? literal? with
        | none =>
          refine .nothing body rfl hbody hblock ?_
          intro r hr
          exact literal?_eq_none_iff.mp (List.findSome?_eq_none_iff.mp hfirst r hr)
        | some label =>
          obtain ⟨earlier, r, later, hreturns, hr, hearlier⟩ := List.findSome?_eq_some_iff.mp hfirst
          refine .literal body r earlier later label rfl hbody hblock hreturns ?_
            (literal?_eq_some_iff.mp hr)
          intro e he
          exact literal?_eq_none_iff.mp (hearlier e he)

/-- What the search looks at in a child. -/
def searched (c : Node) : Bool × String × Option ReturnLabel :=
  (c.named, c.kind, c.literalReturn?)

theorem literal?_congr {m n : Node} (h : m.children.map searched = n.children.map searched) :
    m.literal? = n.literal? := by
  have hview : ∀ r : Node, r.literal? =
      (((r.children.map searched).find? (fun x => x.1 && x.2.1 != "comment")).map
        (fun x => x.2.1)).bind literalLabel? := by
    intro r
    rw [literal?, returnedNode?, namedChildren, List.find?_filter, List.find?_map, Option.map_map,
      Option.bind_map]
    simp only [Function.comp_def, searched, Bool.decide_and, Bool.decide_eq_true]
  rw [hview, hview, h]

theorem literalReturnAmong?_congr {cs ds : List Node} (h : cs.map searched = ds.map searched) :
    literalReturnAmong? cs = literalReturnAmong? ds := by
  have hview : ∀ l : List Node, literalReturnAmong? l =
      (l.map searched).findSome? (fun x => x.2.2) := by
    intro l
    induction l with
    | nil => simp [literalReturnAmong?]
    | cons n rest ih =>
      rw [literalReturnAmong?, ih]
      cases hn : n.literalReturn? with
      | none => simp [searched, hn]
      | some label => simp [searched, hn]
  rw [hview, hview, h]

theorem searched_withChildren {n : Node} {cs : List Node}
    (h : cs.map searched = n.children.map searched) : (n.withChildren cs).searched = n.searched := by
  have hliteral : (n.withChildren cs).literal? = n.literal? := literal?_congr h
  have hreturn : (n.withChildren cs).literalReturn? = n.literalReturn? := by
    rw [literalReturn?_eq_ite, literalReturn?_eq_ite n, hliteral, children_withChildren,
      literalReturnAmong?_congr h]
    rfl
  simp only [searched, named_withChildren, kind_withChildren, hreturn]

/-- The search does not notice a new forest below a function. -/
theorem searched_modify {n g : Node} {way : Address} (hg : n.get? way = some g)
    (hfunction : g.isFunction = true) (forest : List Node) :
    (n.modify (fun g => g.withChildren forest) way).searched = n.searched := by
  induction way generalizing n with
  | nil =>
    rw [get?_nil, Option.some.injEq] at hg
    subst hg
    have hkept : (n.withChildren forest).isFunction = true := hfunction
    simp only [modify, searched, literalReturn?_eq_ite, hkept, hfunction, if_true,
      named_withChildren, kind_withChildren]
  | cons i rest ih =>
    obtain ⟨c, hc, hg⟩ := Option.bind_eq_some_iff.mp hg
    exact searched_withChildren (map_modify_eq hc (ih hg))

/-- What the label depends on in a child of a function. -/
def asBody (c : Node) : Option String × String × Option ReturnLabel :=
  (c.field, c.kind, literalReturnAmong? c.children)

theorem returnLabel_congr {m n : Node} (h : m.children.map asBody = n.children.map asBody)
    (isAsync isArrow : Bool) : m.returnLabel isAsync isArrow = n.returnLabel isAsync isArrow := by
  have hbody : (m.child? "body").map asBody = (n.child? "body").map asBody := by
    have hview : ∀ r : Node, (r.child? "body").map asBody =
        (r.children.map asBody).find? (fun x => x.1 == some "body") := by
      intro r
      rw [List.find?_map]
      rfl
    rw [hview, hview, h]
  unfold returnLabel
  cases hm : m.child? "body" with
  | none =>
    rw [hm, Option.map_none, eq_comm, Option.map_eq_none_iff] at hbody
    rw [hbody]
  | some b =>
    rw [hm, Option.map_some, eq_comm, Option.map_eq_some_iff] at hbody
    obtain ⟨d, hd, hdb⟩ := hbody
    simp only [asBody, Prod.mk.injEq] at hdb
    simp only [hd, firstLabel?_eq, hdb]

end Node

/-- The label of a function is the one the rules give, and it stays the same whatever is put below
a function that lies strictly below the body (or below another child). -/
theorem label_from_own_returns (f : Node) (isAsync isArrow : Bool) :
    (∀ s, (f.returnLabel isAsync isArrow).text = s ↔ f.Labelled isAsync isArrow s) ∧
    ∀ (slot : Nat) (b g : Node) (way : Address), f.children[slot]? = some b → way ≠ [] →
      b.get? way = some g → g.isFunction = true → ∀ forest : List Node,
      (f.modify (fun g => g.withChildren forest) (slot :: way)).returnLabel isAsync isArrow =
        f.returnLabel isAsync isArrow := by
  constructor
  · intro s
    exact ⟨fun h => h ▸ f.labelled_text isAsync isArrow, fun h => h.text_eq⟩
  · intro slot b g way hb hway hg hfunction forest
    obtain ⟨i, rest, rfl⟩ := List.exists_cons_of_ne_nil hway
    obtain ⟨c, hc, hg⟩ := Option.bind_eq_some_iff.mp hg
    have hbelow := map_modify_eq hc (Node.searched_modify hg hfunction forest)
    have hbody : (b.modify (fun g => g.withChildren forest) (i :: rest)).asBody = b.asBody := by
      simp only [Node.modify, Node.asBody, Node.field_withChildren, Node.kind_withChildren,
        Node.children_withChildren, Node.literalReturnAmong?_congr hbelow]
    apply Node.returnLabel_congr
    exact map_modify_eq hb hbody

def innerReturn : Source :=
  "function f() { const g = () => { return 1; }; return g(); }".toUTF8

/-- The number that the inner function returns does not count, nor does anything put in its place. -/
theorem label_from_own_returns_of_innerReturn :
    ∃ f b g : Node, (JavaScript.parse innerReturn).root.get? [0] = some f ∧
      f.children[3]? = some b ∧ b.field = some "body" ∧ b.get? [1, 1, 2] = some g ∧
      g.isFunction = true ∧ f.Labelled false false "void" ∧
      (f.modify (fun g => g.withChildren [f]) [3, 1, 1, 2]).returnLabel false false = .void := by
  have hfound : ((JavaScript.parse innerReturn).root.get? [0]).any (fun f =>
      f.returnLabel false false == .void &&
      f.children[3]?.any (fun b => b.field == some "body" &&
        (b.get? [1, 1, 2]).any Node.isFunction)) = true := by
    decide +kernel
  simp only [Option.any_eq_true, Bool.and_eq_true, beq_iff_eq] at hfound
  obtain ⟨f, hf, hlabel, b, hb, hbody, g, hg, hfunction⟩ := hfound
  obtain ⟨hrules, hedit⟩ := label_from_own_returns f false false
  have hsame := hedit 3 b g [1, 1, 2] hb (by decide) hg hfunction [f]
  refine ⟨f, b, g, hf, hb, hbody, hg, hfunction, (hrules "void").mp ?_, hsame.trans hlabel⟩
  rw [hlabel]
  rfl

end CallAtlas
