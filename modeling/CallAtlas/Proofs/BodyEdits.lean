import CallAtlas.JavaScript.Program
import CallAtlas.Proofs.Addresses

/-!
Edits inside the body of a function. A tree with all function bodies emptied has the same functions
at the same addresses, and their records have the same outline. So what is inside a body decides
on nothing but the return label and the calls of the functions around it.
-/

set_option autoImplicit false

namespace CallAtlas

namespace Node

/-- The node with other children and otherwise as it is. -/
def withChildren (n : Node) (children : List Node) : Node :=
  .mk n.kind n.named n.field n.span children

@[simp] theorem kind_withChildren (n : Node) (cs : List Node) :
    (n.withChildren cs).kind = n.kind := rfl

@[simp] theorem named_withChildren (n : Node) (cs : List Node) :
    (n.withChildren cs).named = n.named := rfl

@[simp] theorem field_withChildren (n : Node) (cs : List Node) :
    (n.withChildren cs).field = n.field := rfl

@[simp] theorem span_withChildren (n : Node) (cs : List Node) :
    (n.withChildren cs).span = n.span := rfl

@[simp] theorem children_withChildren (n : Node) (cs : List Node) :
    (n.withChildren cs).children = cs := rfl

/-- Changes the node at an address; outside the tree there is nothing to change. -/
def modify (change : Node → Node) : Address → Node → Node
  | [], n => change n
  | i :: rest, n => n.withChildren (n.children.modify i (modify change rest))

/-- At an address that is neither above nor below the changed one all is as before. -/
theorem get?_modify {change : Node → Node} {n : Node} {p q : Address} (hpq : ¬ p <+: q)
    (hqp : ¬ q <+: p) : (n.modify change p).get? q = n.get? q := by
  induction p generalizing n q with
  | nil => exact absurd List.nil_prefix hpq
  | cons i p ih =>
    cases q with
    | nil => exact absurd List.nil_prefix hqp
    | cons j q =>
      simp only [modify, get?_cons, children_withChildren, List.getElem?_modify]
      by_cases hij : i = j
      · subst hij
        have hbelow : ∀ c : Node, (c.modify change p).get? q = c.get? q := by
          intro c
          exact ih (fun h => hpq (List.cons_prefix_cons.mpr ⟨rfl, h⟩))
            (fun h => hqp (List.cons_prefix_cons.mpr ⟨rfl, h⟩))
        cases n.children[i]? with
        | none => rfl
        | some c => simp [hbelow]
      · simp [hij]

theorem exists_modify_eq (n : Node) (forest : List Node) (p : Address) :
    ∃ cs, n.modify (fun b => b.withChildren forest) p = n.withChildren cs := by
  cases p with
  | nil => exact ⟨forest, rfl⟩
  | cons i rest => exact ⟨_, rfl⟩

end Node

mutual
/-- The tree with nothing inside the bodies of its functions. -/
def Node.hollow : Node → Node
  | .mk kind named field span children =>
    .mk kind named field span
      (hollowAmong (Node.mk kind named field span children).isFunction children)

/-- The children of a function, or of another node. -/
def hollowAmong (ofFunction : Bool) : List Node → List Node
  | [] => []
  | n :: rest =>
    (if ofFunction && n.field == some "body" then n.withChildren [] else n.hollow)
      :: hollowAmong ofFunction rest
end

namespace Node

/-- What becomes of a child. -/
def hollowIn (ofFunction : Bool) (n : Node) : Node :=
  if ofFunction && n.field == some "body" then n.withChildren [] else n.hollow

end Node

theorem hollowAmong_eq_map (ofFunction : Bool) (children : List Node) :
    hollowAmong ofFunction children = children.map (Node.hollowIn ofFunction) := by
  induction children with
  | nil => rfl
  | cons n rest ih => simp [hollowAmong, Node.hollowIn, ih]

namespace Node

theorem hollow_eq (n : Node) :
    n.hollow = n.withChildren (n.children.map (hollowIn n.isFunction)) := by
  cases n with
  | mk kind named field span children =>
    simp only [hollow, hollowAmong_eq_map]
    rfl

theorem hollowIn_false : hollowIn false = hollow := rfl

theorem exists_hollowIn_eq (ofFunction : Bool) (n : Node) :
    ∃ cs, n.hollowIn ofFunction = n.withChildren cs := by
  unfold hollowIn
  split
  · exact ⟨[], rfl⟩
  · exact ⟨_, hollow_eq n⟩

@[simp] theorem kind_hollowIn (ofFunction : Bool) (n : Node) :
    (n.hollowIn ofFunction).kind = n.kind := by
  obtain ⟨cs, h⟩ := exists_hollowIn_eq ofFunction n
  rw [h, kind_withChildren]

@[simp] theorem named_hollowIn (ofFunction : Bool) (n : Node) :
    (n.hollowIn ofFunction).named = n.named := by
  obtain ⟨cs, h⟩ := exists_hollowIn_eq ofFunction n
  rw [h, named_withChildren]

@[simp] theorem field_hollowIn (ofFunction : Bool) (n : Node) :
    (n.hollowIn ofFunction).field = n.field := by
  obtain ⟨cs, h⟩ := exists_hollowIn_eq ofFunction n
  rw [h, field_withChildren]

@[simp] theorem span_hollowIn (ofFunction : Bool) (n : Node) :
    (n.hollowIn ofFunction).span = n.span := by
  obtain ⟨cs, h⟩ := exists_hollowIn_eq ofFunction n
  rw [h, span_withChildren]

@[simp] theorem kind_hollow (n : Node) : n.hollow.kind = n.kind :=
  kind_hollowIn false n

@[simp] theorem named_hollow (n : Node) : n.hollow.named = n.named :=
  named_hollowIn false n

@[simp] theorem field_hollow (n : Node) : n.hollow.field = n.field :=
  field_hollowIn false n

@[simp] theorem span_hollow (n : Node) : n.hollow.span = n.span :=
  span_hollowIn false n

@[simp] theorem children_hollow (n : Node) :
    n.hollow.children = n.children.map (hollowIn n.isFunction) := by
  rw [hollow_eq, children_withChildren]

@[simp] theorem isFunction_hollow (n : Node) : n.hollow.isFunction = n.isFunction := by
  simp [isFunction]

@[simp] theorem isInitializer_hollow (n : Node) : n.hollow.isInitializer = n.isInitializer := by
  simp [isInitializer]

@[simp] theorem text_hollowIn (source : Source) (ofFunction : Bool) (n : Node) :
    (n.hollowIn ofFunction).text source = n.text source := by
  simp [text]

@[simp] theorem child?_hollow (n : Node) (name : String) :
    n.hollow.child? name = (n.child? name).map (hollowIn n.isFunction) := by
  simp only [child?, children_hollow, List.find?_map, Function.comp_def, field_hollowIn]

@[simp] theorem hasChildOfKind_hollow (n : Node) (k : String) :
    n.hollow.hasChildOfKind k = n.hasChildOfKind k := by
  simp [hasChildOfKind, List.any_map, Function.comp_def]

end Node

theorem parameterNode?_hollow (f : Node) :
    parameterNode? f.hollow = (parameterNode? f).map (Node.hollowIn f.isFunction) := by
  simp only [parameterNode?, Node.child?_hollow, Node.kind_hollow]
  cases f.child? "parameters" with
  | some p => rfl
  | none =>
    simp only [Option.map_none]
    split
    · rfl
    · rfl

/-- The same form with the bodies of functions emptied. -/
def Candidate.hollow (c : Candidate) : Candidate :=
  { c with function := c.function.hollow, holders := c.holders.map Node.hollow }

def Binding.hollow (b : Binding) : Binding :=
  { b with declarator := b.declarator.hollow, value := b.value.hollow }

theorem candidate?_ofForm_hollow (source : Source) {name name' : Node}
    (hname : name'.text source = name.text source) (f : Node) (owner : Option String)
    (path : List Nat) (holders : List Node) :
    (Verdict.ofForm source name' f.hollow owner path (holders.map Node.hollow)).candidate? =
      (Verdict.ofForm source name f owner path holders).candidate?.map Candidate.hollow := by
  rw [Verdict.candidate?_ofForm, Verdict.candidate?_ofForm, parameterNode?_hollow, Option.map_map,
    Option.map_map]
  simp [Function.comp_def, Candidate.hollow, hname]

theorem candidate?_classifyMethod_hollow (source : Source) (context : Context) (n : Node) :
    (classifyMethod source context n.hollow).candidate? =
      (classifyMethod source context n).candidate?.map Candidate.hollow := by
  simp only [classifyMethod, Node.child?_hollow, Node.hasChildOfKind_hollow]
  cases n.child? "name" with
  | none => rfl
  | some name =>
    simp only [Option.map_some, Node.kind_hollowIn]
    split
    · rfl
    · split
      · rfl
      · exact candidate?_ofForm_hollow source (Node.text_hollowIn source _ name) n _ [] []

theorem candidate?_classifyFunction_hollow (source : Source) (n : Node) :
    (classifyFunction source n.hollow).candidate? =
      (classifyFunction source n).candidate?.map Candidate.hollow := by
  simp only [classifyFunction, Node.child?_hollow]
  cases n.child? "name" with
  | none => rfl
  | some name => exact candidate?_ofForm_hollow source (Node.text_hollowIn source _ name) n _ [] []

theorem bindingOf?_hollow (position : Nat) (d : Node) :
    bindingOf? position d.hollow = (bindingOf? position d).map Binding.hollow := by
  simp only [bindingOf?, Node.named_hollow, Node.kind_hollow]
  split
  · rename_i hd
    simp only [Bool.and_eq_true, beq_iff_eq] at hd
    have hplain : d.isFunction = false := by
      simp [Node.isFunction, hd.2, functionKinds]
    have hfind : (d.hollow.children.zipIdx.find? (fun p => p.1.field == some "value")) =
        (d.children.zipIdx.find? (fun p => p.1.field == some "value")).map
          (Prod.map Node.hollow id) := by
      rw [Node.children_hollow, hplain, List.zipIdx_map, List.find?_map]
      simp [Function.comp_def, Node.hollowIn_false]
    rw [hfind]
    cases d.children.zipIdx.find? (fun p => p.1.field == some "value") with
    | none => rfl
    | some found =>
      obtain ⟨value, slot⟩ := found
      simp only [Option.map_some, Prod.map_apply, id_eq, Node.isInitializer_hollow]
      cases value.isInitializer with
      | false => rfl
      | true => rfl
  · rfl

theorem bindings_hollow {n : Node} (h : n.isFunction = false) :
    bindings n.hollow = (bindings n).map Binding.hollow := by
  rw [bindings, bindings, Node.children_hollow, h, List.zipIdx_map, List.filterMap_map,
    List.map_filterMap]
  apply List.filterMap_congr
  rintro ⟨d, i⟩ _
  exact bindingOf?_hollow i d

theorem candidate?_classifyDeclaration_hollow (source : Source) {n : Node}
    (h : n.isFunction = false) :
    (classifyDeclaration source n.hollow).candidate? =
      (classifyDeclaration source n).candidate?.map Candidate.hollow := by
  simp only [classifyDeclaration, bindings_hollow h]
  match hb : bindings n with
  | [] => rfl
  | [b] =>
    simp only [List.map_cons, List.map_nil, Binding.hollow, Node.child?_hollow]
    cases b.declarator.child? "name" with
    | none => rfl
    | some name =>
      simp only [Option.map_some, Node.kind_hollowIn]
      split
      · exact candidate?_ofForm_hollow source (Node.text_hollowIn source _ name) b.value _ _
          [b.declarator, n]
      · rfl
  | b :: b' :: more => rfl

namespace Node

theorem candidate?_hollow (source : Source) (n : Node) :
    n.hollow.candidate? source = (n.candidate? source).map Candidate.hollow := by
  simp only [candidate?, classify, kind_hollow]
  split
  · exact candidate?_classifyMethod_hollow source {} n
  · split
    · exact candidate?_classifyFunction_hollow source n
    · split
      · rename_i hkind
        apply candidate?_classifyDeclaration_hollow
        have hkind := List.contains_iff_mem.mp hkind
        simp only [declarationKinds, List.mem_cons, List.not_mem_nil, or_false] at hkind
        rcases hkind with hkind | hkind
        · simp [isFunction, hkind, functionKinds]
        · simp [isFunction, hkind, functionKinds]
      · rfl

@[simp] theorem isScope_hollow (source : Source) (n : Node) :
    n.hollow.isScope source = n.isScope source := by
  simp [isScope, isBearer, candidate?_hollow]

@[simp] theorem className?_hollow (source : Source) (n : Node) :
    n.hollow.className? source = n.className? source := by
  simp [className?, isClass, Function.comp_def]

end Node

/-- A record without what depends on the body of its function. -/
def Record.outline (r : Record) : Record :=
  { r with returnType := none, calls := [] }

theorem Candidate.outline_record_hollow (source : Source) (detail : Detail)
    (file : Option String) (c : Candidate) :
    (c.hollow.record source detail file).outline = (c.record source detail file).outline := by
  cases detail with
  | rich => rfl
  | signature =>
    have hshown : c.hollow.shownParameters = c.shownParameters := by
      simp only [Candidate.shownParameters, Candidate.hollow, Node.child?_hollow]
      cases c.function.child? "parameters" with
      | none => rfl
      | some p => rfl
    have hsignature : c.hollow.signature = c.signature := by
      simp only [Candidate.signature, hshown]
      rfl
    simp only [Candidate.record, hsignature]
    simp [Candidate.hollow, Record.outline]

/-- A place with its outline. -/
def outlineAt (x : Address × Record) : Address × Record :=
  (x.1, x.2.outline)

theorem outlineAt_recordAt?_hollow (survey : Survey) (address : Address) (n : Node)
    (ancestors : List Node) :
    (recordAt? survey (address, ⟨n.hollow, ancestors.map Node.hollow⟩)).map outlineAt =
      (recordAt? survey (address, ⟨n, ancestors⟩)).map outlineAt := by
  have hclass : enclosingClass? survey.source (ancestors.map Node.hollow) =
      enclosingClass? survey.source ancestors := by
    simp [enclosingClass?, List.findSome?_map, Function.comp_def]
  simp only [recordAt?, Place.record?_eq, Place.functionPath, Place.owner?,
    Node.candidate?_hollow, Node.kind_hollow, hclass, List.any_map, Function.comp_def,
    Node.isScope_hollow]
  split
  · rfl
  · cases n.candidate? survey.source with
    | none => rfl
    | some c =>
      have houtline := Candidate.outline_record_hollow survey.source survey.detail survey.file
        { c with owner := if n.kind = "method_definition" then
            enclosingClass? survey.source ancestors else none }
      simp only [Option.map_some, Option.getD_some, outlineAt, Option.some.injEq, Prod.mk.injEq]
      exact ⟨rfl, houtline⟩

/-- The outlines of what is recorded among some places. -/
def outlines (survey : Survey) (xs : List (Address × Place)) : List (Address × Record) :=
  (xs.filterMap (recordAt? survey)).map outlineAt

theorem outlines_cons (survey : Survey) (x : Address × Place) (xs : List (Address × Place)) :
    outlines survey (x :: xs) =
      ((recordAt? survey x).map outlineAt).toList ++ outlines survey xs := by
  unfold outlines
  cases hx : recordAt? survey x with
  | none => simp [hx]
  | some y => simp [hx]

theorem outlines_append (survey : Survey) (xs ys : List (Address × Place)) :
    outlines survey (xs ++ ys) = outlines survey xs ++ outlines survey ys := by
  simp [outlines]

/-- Below a function nothing is recorded in either tree, and elsewhere the children decide. -/
theorem outlines_hollow_of_children {survey : Survey} {ancestors : List Node} {address : Address}
    {n : Node}
    (h : outlines survey
        (locatedAmong ((n :: ancestors).map Node.hollow) address 0 (n.children.map Node.hollow)) =
      outlines survey (locatedAmong (n :: ancestors) address 0 n.children)) :
    outlines survey (n.hollow.located (ancestors.map Node.hollow) address) =
      outlines survey (n.located ancestors address) := by
  have hbelow : outlines survey
        (locatedAmong (n.hollow :: ancestors.map Node.hollow) address 0 n.hollow.children) =
      outlines survey (locatedAmong (n :: ancestors) address 0 n.children) := by
    cases hfunction : n.isFunction with
    | true =>
      have hscope : n.isScope survey.source = true := by simp [Node.isScope, hfunction]
      unfold outlines
      rw [filterMap_recordAt?_locatedAmong List.mem_cons_self hscope,
        filterMap_recordAt?_locatedAmong List.mem_cons_self (by rwa [Node.isScope_hollow])]
    | false =>
      rw [Node.children_hollow, hfunction, Node.hollowIn_false]
      exact h
  have hhead := outlineAt_recordAt?_hollow survey address n ancestors
  rw [Node.located_eq, Node.located_eq ancestors address n, outlines_cons, outlines_cons, hhead,
    hbelow]

mutual
theorem Node.outlines_hollow (survey : Survey) (ancestors : List Node) (address : Address)
    (n : Node) :
    outlines survey (n.hollow.located (ancestors.map Node.hollow) address) =
      outlines survey (n.located ancestors address) := by
  cases n with
  | mk kind named field span children =>
    exact outlines_hollow_of_children
      (outlinesAmong_hollow survey (.mk kind named field span children :: ancestors) address 0
        children)

theorem outlinesAmong_hollow (survey : Survey) (ancestors : List Node) (address : Address)
    (i : Nat) (children : List Node) :
    outlines survey
        (locatedAmong (ancestors.map Node.hollow) address i (children.map Node.hollow)) =
      outlines survey (locatedAmong ancestors address i children) := by
  cases children with
  | nil => rfl
  | cons n rest =>
    simp only [List.map_cons, locatedAmong, outlines_append]
    rw [Node.outlines_hollow, outlinesAmong_hollow]
end

theorem map_modify_eq {α β : Type} {f : α → β} {change : α → α} {l : List α} {i : Nat} {a : α}
    (ha : l[i]? = some a) (h : f (change a) = f a) : (l.modify i change).map f = l.map f := by
  apply List.ext_getElem?
  intro j
  simp only [List.getElem?_map, List.getElem?_modify]
  by_cases hij : i = j
  · subst hij
    simp [ha, h]
  · simp [hij]

theorem Node.hollow_withChildren (n : Node) (cs : List Node) :
    (n.withChildren cs).hollow = n.withChildren (cs.map (hollowIn n.isFunction)) :=
  hollow_eq (n.withChildren cs)

/-- An edit inside the body of a function does not show once bodies are emptied. -/
theorem Node.hollow_modify {root f b : Node} {place : Address} {slot : Nat}
    (hf : root.get? place = some f) (hfunction : f.isFunction = true)
    (hb : f.children[slot]? = some b) (hbody : b.field = some "body") (forest : List Node) :
    (root.modify (fun b => b.withChildren forest) (place ++ [slot])).hollow = root.hollow := by
  induction place generalizing root with
  | nil =>
    rw [get?_nil, Option.some.injEq] at hf
    subst hf
    have hsame : hollowIn root.isFunction (b.withChildren forest) =
        hollowIn root.isFunction b := by
      have hemptied : (root.isFunction && b.field == some "body") = true := by
        simp [hfunction, hbody]
      rw [hollowIn, hollowIn, if_pos hemptied, field_withChildren, if_pos hemptied]
      rfl
    rw [List.nil_append, modify, hollow_withChildren, hollow_eq root]
    exact congrArg root.withChildren (map_modify_eq hb hsame)
  | cons i rest ih =>
    obtain ⟨c, hc, hf⟩ := Option.bind_eq_some_iff.mp hf
    have hsame : hollowIn root.isFunction
        (c.modify (fun b => b.withChildren forest) (rest ++ [slot])) =
        hollowIn root.isFunction c := by
      obtain ⟨cs, hcs⟩ := exists_modify_eq c forest (rest ++ [slot])
      have hrest := ih hf
      rw [hcs] at hrest ⊢
      simp only [hollowIn, field_withChildren, hrest]
      rfl
    rw [List.cons_append, modify, hollow_withChildren, hollow_eq root]
    exact congrArg root.withChildren (map_modify_eq hc hsame)

theorem recordedFunctions_outlines_eq {root edited : Node} (h : edited.hollow = root.hollow)
    (survey : Survey) :
    (recordedFunctions survey edited).map outlineAt =
      (recordedFunctions survey root).map outlineAt := by
  have hroot := root.outlines_hollow survey [] []
  have hedited := edited.outlines_hollow survey [] []
  rw [h] at hedited
  exact hedited.symm.trans hroot

theorem Record.eq_of_outline_eq {survey : Survey} {f : Node} {r q : Record}
    (hr : r.ReadFrom survey f) (hq : q.ReadFrom survey f) (h : r.outline = q.outline) : r = q := by
  have hbody : r.returnType = q.returnType ∧ r.calls = q.calls := by
    cases hdetail : survey.detail with
    | rich =>
      obtain ⟨hlabel, hcalls⟩ := hr.rich hdetail
      obtain ⟨hlabel', hcalls'⟩ := hq.rich hdetail
      exact ⟨hlabel.trans hlabel'.symm, hcalls.trans hcalls'.symm⟩
    | signature =>
      obtain ⟨_, _, hlabel, hcalls⟩ := hr.signature hdetail
      obtain ⟨_, _, hlabel', hcalls'⟩ := hq.signature hdetail
      exact ⟨hlabel.trans hlabel'.symm, hcalls.trans hcalls'.symm⟩
  calc
    r = { r.outline with returnType := r.returnType, calls := r.calls } := rfl
    _ = { q.outline with returnType := q.returnType, calls := q.calls } := by
      rw [h, hbody.1, hbody.2]
    _ = q := rfl

/-- A recorded function that is neither at `place` nor around it is the same after the edit. -/
theorem get?_modify_of_recorded {survey : Survey} {root f : Node} {place : Address} (slot : Nat)
    (hf : root.get? place = some f) (hfunction : f.isFunction = true) (change : Node → Node)
    {x : Address × Record} (hx : x ∈ recordedFunctions survey root) (haway : ¬ x.1 <+: place) :
    (root.modify change (place ++ [slot])).get? x.1 = root.get? x.1 := by
  have hbelow : ¬ place <+: x.1 := by
    intro hprefix
    have heq := (function_of_mem_recordedFunctions hx).2 place f hprefix hf hfunction
    exact haway (heq ▸ List.prefix_refl _)
  apply Node.get?_modify
  · intro hprefix
    exact hbelow ((List.prefix_append _ _).trans hprefix)
  · intro hprefix
    rcases List.prefix_concat_iff.mp hprefix with heq | habove
    · exact hbelow (heq ▸ List.prefix_append _ _)
    · exact haway habove

/-- An edit inside the body of the function at `place` leaves the functions found, their order and
all outlines as they are, and changes no record whose function is not at `place` or around it. -/
theorem body_edit_stays_local (survey : Survey) {root f b : Node} {place : Address} {slot : Nat}
    (hf : root.get? place = some f) (hfunction : f.isFunction = true)
    (hb : f.children[slot]? = some b) (hbody : b.field = some "body") (forest : List Node) :
    let edited := root.modify (fun b => b.withChildren forest) (place ++ [slot])
    let before := recordedFunctions survey root
    let after := recordedFunctions survey edited
    before.map Prod.snd = (extract survey root).records ∧
    after.map Prod.snd = (extract survey edited).records ∧
    (∀ x ∈ before, ∃ g, root.get? x.1 = some g ∧ x.2.ReadFrom survey g) ∧
    List.Forall₂ (fun x y => y.1 = x.1 ∧ y.2.outline = x.2.outline ∧
      (¬ x.1 <+: place → y.2 = x.2)) before after ∧
    ∀ key : String, (extract survey edited).keys[key]? = (extract survey root).keys[key]? := by
  intro edited before after
  have hsame : after.map outlineAt = before.map outlineAt :=
    recordedFunctions_outlines_eq (Node.hollow_modify hf hfunction hb hbody forest) survey
  have hbefore : before.map Prod.snd = (extract survey root).records :=
    map_snd_recordedFunctions survey root
  have hafter : after.map Prod.snd = (extract survey edited).records :=
    map_snd_recordedFunctions survey edited
  refine ⟨hbefore, hafter, fun x hx => (function_of_mem_recordedFunctions hx).1, ?_, ?_⟩
  · have hpairs : List.Forall₂ (fun x y => outlineAt x = outlineAt y) before after := by
      rw [← List.forall₂_map_right_iff, ← List.forall₂_map_left_iff, hsame,
        List.forall₂_eq_eq_eq]
    obtain ⟨hlength, hpairs⟩ := List.forall₂_iff_zip.mp hpairs
    refine List.forall₂_iff_zip.mpr ⟨hlength, ?_⟩
    intro x y hxy
    obtain ⟨hx, hy⟩ := List.of_mem_zip hxy
    obtain ⟨haddress, houtline⟩ := Prod.mk.injEq .. ▸ hpairs hxy
    refine ⟨haddress.symm, houtline.symm, ?_⟩
    intro haway
    obtain ⟨g, hg, hread⟩ := (function_of_mem_recordedFunctions hx).1
    obtain ⟨g', hg', hread'⟩ := (function_of_mem_recordedFunctions hy).1
    have hget := get?_modify_of_recorded slot hf hfunction
      (fun b => b.withChildren forest) hx haway
    rw [← haddress, hget, hg, Option.some.injEq] at hg'
    subst hg'
    exact (Record.eq_of_outline_eq hread hread' houtline).symm
  · have hkeys : ∀ xs : List (Address × Record), (xs.map Prod.snd).map Record.key =
        (xs.map outlineAt).map (fun x => x.2.key) := by
      intro xs
      simp [Function.comp_def, outlineAt, Record.outline, Record.key, Record.qualifiedName]
    intro key
    have heq : (extract survey edited).keys = (extract survey root).keys := by
      apply KeyMap.ofRecords_eq_of_keys
      rw [← hbefore, ← hafter, hkeys, hkeys, hsame]
    rw [heq]

def twoFunctions : Source :=
  "function f() { return 1; }\nclass A { m() { f(); } }".toUTF8

/-- The whole tree put into the body of `f` gives no further record, and `m` keeps its own. -/
theorem body_edit_stays_local_in_twoFunctions :
    let root := (JavaScript.parse twoFunctions).root
    let edited := root.modify (fun b => b.withChildren [root]) [0, 3]
    (recordedFunctions ⟨twoFunctions, .rich, none⟩ root).map Prod.fst = [[0], [1, 2, 1]] ∧
    (∃ f, root.get? [0] = some f ∧ f.isFunction = true ∧
      ∃ b, f.children[3]? = some b ∧ b.field = some "body") ∧
    List.Forall₂ (fun x y => y.1 = x.1 ∧ y.2.outline = x.2.outline ∧
        (¬ x.1 <+: [0] → y.2 = x.2))
      (recordedFunctions ⟨twoFunctions, .rich, none⟩ root)
      (recordedFunctions ⟨twoFunctions, .rich, none⟩ edited) := by
  intro root edited
  have hfound : (root.get? [0]).any (fun f => f.isFunction &&
      f.children[3]?.any (fun b => b.field == some "body")) = true := by
    decide +kernel
  simp only [Option.any_eq_true, Bool.and_eq_true, beq_iff_eq] at hfound
  obtain ⟨f, hf, hfunction, b, hb, hbody⟩ := hfound
  refine ⟨by decide +kernel, ⟨f, hf, hfunction, b, hb, hbody⟩, ?_⟩
  exact (body_edit_stays_local ⟨twoFunctions, .rich, none⟩ hf hfunction hb hbody [root]).2.2.2.1

end CallAtlas
