import CallAtlas.Proofs.OutermostFunctions

/-!
Addresses of nodes. Equal nodes may stand at several places of a tree, so where a function is can
only be told by the way down to it. Each record gets the address of its function node, and no
function stands above that address.
-/

set_option autoImplicit false

namespace CallAtlas

/-- The positions of the children that lead down to a node. -/
abbrev Address := List Nat

namespace Node

/-- The node at an address, if the address does not leave the tree. -/
def get? (n : Node) : Address → Option Node
  | [] => some n
  | i :: rest => n.children[i]?.bind (fun c => c.get? rest)

@[simp] theorem get?_nil (n : Node) : n.get? [] = some n := rfl

@[simp] theorem get?_cons (n : Node) (i : Nat) (rest : Address) :
    n.get? (i :: rest) = n.children[i]?.bind (fun c => c.get? rest) := rfl

theorem get?_append (n : Node) (p q : Address) :
    n.get? (p ++ q) = (n.get? p).bind (fun m => m.get? q) := by
  induction p generalizing n with
  | nil => rfl
  | cons i rest ih =>
    rw [List.cons_append, get?_cons, get?_cons]
    cases n.children[i]? with
    | none => rfl
    | some c => exact ih c

end Node

mutual
/-- The places of a tree, each with its address; the node itself has the given one. -/
def Node.located (ancestors : List Node) (address : Address) : Node → List (Address × Place)
  | .mk kind named field span children =>
    let n := Node.mk kind named field span children
    (address, ⟨n, ancestors⟩) :: locatedAmong (n :: ancestors) address 0 children

/-- The same for siblings, the first of which stands at position `i`. -/
def locatedAmong (ancestors : List Node) (address : Address) (i : Nat) :
    List Node → List (Address × Place)
  | [] => []
  | n :: rest =>
    n.located ancestors (address ++ [i]) ++ locatedAmong ancestors address (i + 1) rest
end

theorem Node.located_eq (ancestors : List Node) (address : Address) (n : Node) :
    n.located ancestors address =
      (address, ⟨n, ancestors⟩) :: locatedAmong (n :: ancestors) address 0 n.children := by
  cases n with
  | mk kind named field span children =>
    simp only [Node.located]
    rfl

mutual
theorem Node.map_snd_located (ancestors : List Node) (address : Address) (n : Node) :
    (n.located ancestors address).map Prod.snd = n.places ancestors := by
  cases n with
  | mk kind named field span children =>
    simp only [Node.located, Node.places, List.map_cons]
    rw [map_snd_locatedAmong]

theorem map_snd_locatedAmong (ancestors : List Node) (address : Address) (i : Nat)
    (children : List Node) :
    (locatedAmong ancestors address i children).map Prod.snd = placesAmong ancestors children := by
  cases children with
  | nil => simp only [locatedAmong, placesAmong, List.map_nil]
  | cons n rest =>
    simp only [locatedAmong, placesAmong, List.map_append]
    rw [Node.map_snd_located, map_snd_locatedAmong]
end

/-- How the address and the ancestors of a place tell the way down to it from the node `n`, which
stands at `address` below `ancestors`. -/
structure Reaches (n : Node) (ancestors : List Node) (address : Address) (x : Address × Place)
    (way : Address) : Prop where
  address : x.1 = address ++ way
  node : n.get? way = some x.2.node
  ancestors : ∀ a ∈ ancestors, a ∈ x.2.ancestors
  above : ∀ part m, part <+: way → part ≠ way → n.get? part = some m → m ∈ x.2.ancestors

mutual
theorem Node.reaches_of_mem_located {ancestors : List Node} {address : Address} {n : Node}
    {x : Address × Place} (h : x ∈ n.located ancestors address) :
    ∃ way, Reaches n ancestors address x way := by
  cases n with
  | mk kind named field span children =>
    simp only [Node.located] at h
    rcases List.mem_cons.mp h with rfl | hbelow
    · refine ⟨[], (List.append_nil _).symm, rfl, fun a ha => ha, ?_⟩
      intro part m hpart hne
      exact absurd (List.prefix_nil.mp hpart) hne
    · obtain ⟨j, c, way, hc, hway⟩ := reaches_of_mem_locatedAmong hbelow
      refine ⟨j :: way, ?_, ?_, ?_, ?_⟩
      · simpa using hway.address
      · simpa [Node.children, hc] using hway.node
      · intro a ha
        exact hway.ancestors a (List.mem_cons_of_mem _ ha)
      · intro part m hpart hne hm
        cases part with
        | nil =>
          rw [Node.get?_nil, Option.some.injEq] at hm
          exact hway.ancestors m (hm ▸ List.mem_cons_self)
        | cons k part =>
          obtain ⟨rfl, hrest⟩ := List.cons_prefix_cons.mp hpart
          simp only [Node.get?_cons, Node.children, hc] at hm
          exact hway.above part m hrest (fun he => hne (he ▸ rfl)) hm

theorem reaches_of_mem_locatedAmong {ancestors : List Node} {address : Address} {i : Nat}
    {children : List Node} {x : Address × Place}
    (h : x ∈ locatedAmong ancestors address i children) :
    ∃ j c way, children[j]? = some c ∧ Reaches c ancestors (address ++ [i + j]) x way := by
  cases children with
  | nil => simp [locatedAmong] at h
  | cons n rest =>
    simp only [locatedAmong] at h
    rcases List.mem_append.mp h with hn | hrest
    · obtain ⟨way, hway⟩ := Node.reaches_of_mem_located hn
      exact ⟨0, n, way, rfl, hway⟩
    · obtain ⟨j, c, way, hc, hway⟩ := reaches_of_mem_locatedAmong hrest
      refine ⟨j + 1, c, way, by simpa using hc, ?_⟩
      rwa [show i + (j + 1) = i + 1 + j by omega]
end

theorem getElem?_of_bindingOf? {position : Nat} {d : Node} {b : Binding}
    (h : bindingOf? position d = some b) :
    b.position = position ∧ b.declarator = d ∧ d.children[b.slot]? = some b.value := by
  unfold bindingOf? at h
  split at h
  · split at h
    · rename_i value slot hfind
      split at h
      · simp only [Option.some.injEq] at h
        subst h
        have hmem := List.mem_of_find?_eq_some hfind
        exact ⟨rfl, rfl, List.mem_zipIdx_iff_getElem?.mp hmem⟩
      · simp at h
    · simp at h
  · simp at h

theorem getElem?_of_mem_bindings {n : Node} {b : Binding} (h : b ∈ bindings n) :
    n.children[b.position]? = some b.declarator ∧
      b.declarator.children[b.slot]? = some b.value := by
  unfold bindings at h
  obtain ⟨⟨d, i⟩, hd, hb⟩ := List.mem_filterMap.mp h
  obtain ⟨hi, hdeclarator, hvalue⟩ := getElem?_of_bindingOf? hb
  rw [hi, hdeclarator]
  exact ⟨List.mem_zipIdx_iff_getElem?.mp hd, hvalue⟩

namespace Bears

variable {source : Source} {context : Context} {n : Node} {c : Candidate}

/-- The path of a candidate leads from the classified node to the function. -/
theorem get?_path (h : Bears source context n c) : n.get? c.path = some c.function := by
  cases h with
  | method => rfl
  | function => rfl
  | declaration b name p hkind hb =>
    obtain ⟨hdeclarator, hvalue⟩ := getElem?_of_mem_bindings (n := n) (b := b)
      (by rw [hb]; exact List.mem_singleton.mpr rfl)
    simp [hdeclarator, hvalue]

/-- On the way from the classified node down to its function there is no function before it. -/
theorem eq_path_of_isFunction (h : Bears source context n c) {part : Address} {m : Node}
    (hpart : part <+: c.path) (hm : n.get? part = some m) (hfunction : m.isFunction = true) :
    part = c.path := by
  cases h with
  | method => exact List.prefix_nil.mp hpart
  | function => exact List.prefix_nil.mp hpart
  | declaration b name p hkind hb =>
    have hmem : b ∈ bindings n := by
      rw [hb]
      exact List.mem_singleton.mpr rfl
    have hdeclarator := (getElem?_of_mem_bindings hmem).1
    have hplain := kind_of_mem_bindings hmem
    simp only at hpart ⊢
    match part, hpart, hm with
    | [], _, hm =>
      rw [Node.get?_nil, Option.some.injEq] at hm
      subst hm
      simp only [declarationKinds, List.mem_cons, List.not_mem_nil, or_false] at hkind
      rcases hkind with hkind | hkind
      · simp [Node.isFunction, hkind, functionKinds] at hfunction
      · simp [Node.isFunction, hkind, functionKinds] at hfunction
    | [i], hpart, hm =>
      obtain ⟨rfl, _⟩ := List.cons_prefix_cons.mp hpart
      simp only [Node.get?_cons, Node.get?_nil, hdeclarator, Option.bind_some,
        Option.some.injEq] at hm
      subst hm
      simp [Node.isFunction, hplain, functionKinds] at hfunction
    | i :: j :: more, hpart, _ =>
      obtain ⟨rfl, hrest⟩ := List.cons_prefix_cons.mp hpart
      obtain ⟨rfl, hend⟩ := List.cons_prefix_cons.mp hrest
      rw [List.prefix_nil.mp hend]

end Bears

namespace Place

/-- The way from a place down to the function that its node bears. -/
def functionPath (source : Source) (p : Place) : Address :=
  ((p.node.candidate? source).map Candidate.path).getD []

theorem candidate_of_record? {survey : Survey} {p : Place} {r : Record}
    (h : p.record? survey = some r) :
    (∀ a ∈ p.ancestors, a.isScope survey.source = false) ∧
    ∃ c, p.node.candidate? survey.source = some c ∧
      r = { c with owner := p.owner? survey.source }.record survey.source survey.detail
        survey.file := by
  rw [record?_eq] at h
  split at h
  · simp at h
  · rename_i hflat
    obtain ⟨c, hc, hr⟩ := Option.map_eq_some_iff.mp h
    refine ⟨?_, c, hc, hr.symm⟩
    simpa using hflat

end Place

/-- The record that a walk keeps for a place, with the address of the function. -/
def recordAt? (survey : Survey) (x : Address × Place) : Option (Address × Record) :=
  (x.2.record? survey).map (fun r => (x.1 ++ x.2.functionPath survey.source, r))

/-- The records of a tree, each with the address of its function node. -/
def recordedFunctions (survey : Survey) (root : Node) : List (Address × Record) :=
  (root.located [] []).filterMap (recordAt? survey)

theorem map_snd_filterMap_recordAt? (survey : Survey) (xs : List (Address × Place)) :
    (xs.filterMap (recordAt? survey)).map Prod.snd =
      (xs.map Prod.snd).filterMap (Place.record? survey) := by
  rw [List.map_filterMap, List.filterMap_map]
  apply List.filterMap_congr
  intro x _
  simp [recordAt?, Function.comp_def]

theorem map_snd_recordedFunctions (survey : Survey) (root : Node) :
    (recordedFunctions survey root).map Prod.snd = (extract survey root).records := by
  rw [recordedFunctions, map_snd_filterMap_recordAt?, Node.map_snd_located, extract_records]

/-- Nothing below a function, or below a node that bears one, is recorded. -/
theorem filterMap_recordAt?_locatedAmong {survey : Survey} {ancestors : List Node} {n : Node}
    (hn : n ∈ ancestors) (hscope : n.isScope survey.source = true) (address : Address) (i : Nat)
    (children : List Node) :
    (locatedAmong ancestors address i children).filterMap (recordAt? survey) = [] := by
  apply List.filterMap_eq_nil_iff.mpr
  intro x hx
  obtain ⟨_, _, _, _, hway⟩ := reaches_of_mem_locatedAmong hx
  have hrecord : x.2.record? survey = none := by
    cases hr : x.2.record? survey with
    | none => rfl
    | some r =>
      have hflat := (Place.candidate_of_record? hr).1 n (hway.ancestors n hn)
      simp [hflat] at hscope
  simp [recordAt?, hrecord]

theorem filterMap_record?_placesAmong {survey : Survey} {ancestors : List Node} {n : Node}
    (hn : n ∈ ancestors) (hscope : n.isScope survey.source = true) (children : List Node) :
    (placesAmong ancestors children).filterMap (Place.record? survey) = [] := by
  rw [← map_snd_locatedAmong ancestors [] 0, ← map_snd_filterMap_recordAt?,
    filterMap_recordAt?_locatedAmong hn hscope]
  rfl

/-- What a record says about its function node beyond name, parameters and class. -/
structure Record.ReadFrom (survey : Survey) (f : Node) (r : Record) : Prop where
  rich : survey.detail = .rich →
    r.returnType = some (f.returnLabel f.isAsync (f.kind == "arrow_function")).text ∧
    r.calls = f.calls survey.source
  signature : survey.detail = .signature →
    r.kind = some f.kind ∧ r.position = some (f.span.start, f.span.stop) ∧
    r.returnType = none ∧ r.calls = []

theorem Candidate.readFrom_record (survey : Survey) (c : Candidate) :
    (c.record survey.source survey.detail survey.file).ReadFrom survey c.function := by
  constructor
  · intro hdetail
    rw [hdetail]
    exact ⟨rfl, rfl⟩
  · intro hdetail
    rw [hdetail]
    exact ⟨rfl, rfl, rfl, rfl⟩

/-- The address of a record leads to the node that the record was read from, and that node is the
first function on the way. -/
theorem function_of_mem_recordedFunctions {survey : Survey} {root : Node} {x : Address × Record}
    (h : x ∈ recordedFunctions survey root) :
    (∃ f, root.get? x.1 = some f ∧ x.2.ReadFrom survey f) ∧
    ∀ part m, part <+: x.1 → root.get? part = some m → m.isFunction = true → part = x.1 := by
  obtain ⟨⟨address, p⟩, hp, hx⟩ := List.mem_filterMap.mp h
  obtain ⟨r, hr, rfl⟩ := Option.map_eq_some_iff.mp hx
  obtain ⟨way, hway⟩ := Node.reaches_of_mem_located hp
  have haddress : address = way := hway.address
  subst haddress
  obtain ⟨hflat, c, hc, rfl⟩ := Place.candidate_of_record? hr
  have hbears := bears_of_candidate? hc
  have hpath : p.functionPath survey.source = c.path := by
    simp [Place.functionPath, hc]
  have hget : ∀ rest, root.get? (address ++ rest) = p.node.get? rest := by
    intro rest
    rw [Node.get?_append, hway.node]
    rfl
  simp only [hpath]
  refine ⟨⟨c.function, ?_, ?_⟩, ?_⟩
  · rw [hget, hbears.get?_path]
  · exact Candidate.readFrom_record survey { c with owner := p.owner? survey.source }
  · intro part m hpart hm hfunction
    -- The way to the function goes down to the place first and then along the path of the form.
    by_cases hlast : address <+: part
    · obtain ⟨rest, rfl⟩ := hlast
      have hrest : rest <+: c.path := (List.prefix_append_right_inj address).mp hpart
      rw [hbears.eq_path_of_isFunction hrest (hget rest ▸ hm) hfunction]
    · have habove : part <+: address :=
        (List.prefix_or_prefix_of_prefix hpart (List.prefix_append _ _)).resolve_right hlast
      have hne : part ≠ address := fun he => hlast (he ▸ List.prefix_refl part)
      have hscope := hflat m (hway.above part m habove hne hm)
      simp [Node.isScope, hfunction] at hscope

end CallAtlas
