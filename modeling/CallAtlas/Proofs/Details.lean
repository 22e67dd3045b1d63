import CallAtlas.Catalog
import CallAtlas.Proofs.Addresses

/-!
The two levels of detail. They find the same functions, in the same order and under the same keys,
and leave out the same malformed nodes; the signature that one of them writes out is put together
from what the other one keeps apart.
-/

set_option autoImplicit false

namespace CallAtlas

theorem lookup_member? (name key : String) (value : Option Json) :
    (member? name value).lookup key = if key = name then value else none := by
  cases value with
  | none => simp [member?]
  | some v =>
    by_cases hkey : key = name
    · simp [member?, hkey]
    · have hne : (key == name) = false := beq_eq_false_iff_ne.mpr hkey
      simp [member?, List.lookup_cons, hkey, hne]

/-- A signature is written out in place of the name. -/
theorem Record.lookup_name_members (r : Record) :
    r.members.lookup "name" = some (.text (r.signature.getD r.name)) := by
  unfold members
  simp only [List.lookup_append, lookup_member?]
  cases r.signature with
  | none => simp
  | some s => simp

/-- The parameters of a function as a signature shows them. -/
def Node.shownParameters (f : Node) (parameters : String) : String :=
  if (f.child? "parameters").isSome then parameters else "(" ++ parameters ++ ")"

theorem Candidate.signature_eq (c : Candidate) (source : Source) (detail : Detail)
    (file : Option String) :
    c.signature = (c.record source detail file).qualifiedName ++
      c.function.shownParameters c.parameters := by
  have hshown : c.shownParameters = c.function.shownParameters c.parameters := by
    unfold Candidate.shownParameters Node.shownParameters
    cases c.function.child? "parameters" with
    | none => rfl
    | some p => rfl
  have howner : (c.record source detail file).owner = c.owner := by
    cases detail with
    | rich => rfl
    | signature => rfl
  have hname : (c.record source detail file).name = c.name := by
    cases detail with
    | rich => rfl
    | signature => rfl
  unfold Candidate.signature Record.qualifiedName
  rw [howner, hname, hshown]
  cases present? c.owner with
  | none => rfl
  | some owner => rfl

/-- A record with everything kept apart and one with a signature, both made for the function at the
same address of a tree. -/
structure Record.Matches (source : Source) (file : Option String) (root : Node)
    (rich plain : Address × Record) : Prop where
  address : plain.1 = rich.1
  function : ∃ f, root.get? rich.1 = some f ∧
    rich.2.ReadFrom ⟨source, .rich, file⟩ f ∧ plain.2.ReadFrom ⟨source, .signature, file⟩ f ∧
    plain.2.members.lookup "name" =
      some (.text (rich.2.qualifiedName ++ f.shownParameters rich.2.parameters))
  name : plain.2.name = rich.2.name
  parameters : plain.2.parameters = rich.2.parameters
  owner : plain.2.owner = rich.2.owner
  file : plain.2.file = rich.2.file
  qualifiedName : plain.2.qualifiedName = rich.2.qualifiedName

theorem Candidate.matches_record (c : Candidate) (source : Source) (file : Option String)
    {root : Node} {address : Address} (hfunction : root.get? address = some c.function) :
    Record.Matches source file root (address, c.record source .rich file)
      (address, c.record source .signature file) := by
  have hsignature := c.signature_eq source .rich file
  refine ⟨rfl, ⟨c.function, hfunction, ?_, ?_, ?_⟩, rfl, rfl, rfl, rfl, rfl⟩
  · exact c.readFrom_record ⟨source, .rich, file⟩
  · exact c.readFrom_record ⟨source, .signature, file⟩
  · rw [Record.lookup_name_members]
    exact congrArg (fun s => some (Json.text s)) hsignature

/-- At each place both levels of detail keep a record for the same function, or none. -/
theorem rel_recordAt? {source : Source} {root : Node} {x : Address × Place}
    (hx : x ∈ root.located [] []) (file : Option String) :
    Option.Rel (Record.Matches source file root) (recordAt? ⟨source, .rich, file⟩ x)
      (recordAt? ⟨source, .signature, file⟩ x) := by
  obtain ⟨way, hway⟩ := Node.reaches_of_mem_located hx
  obtain ⟨address, p⟩ := x
  obtain rfl : address = way := hway.address
  unfold recordAt?
  simp only [Place.record?_eq]
  cases p.ancestors.any (Node.isScope source) with
  | true => exact .none
  | false =>
    cases hc : p.node.candidate? source with
    | none => exact .none
    | some c =>
      have hpath : p.functionPath source = c.path := by
        simp [Place.functionPath, hc]
      have hfunction : root.get? (address ++ c.path) = some c.function := by
        rw [Node.get?_append, hway.node]
        exact (bears_of_candidate? hc).get?_path
      have hmatches := Candidate.matches_record { c with owner := p.owner? source } source file
        hfunction
      simp only [hpath]
      exact .some hmatches

theorem forall₂_recordedFunctions (source : Source) (file : Option String) (root : Node) :
    List.Forall₂ (Record.Matches source file root)
      (recordedFunctions ⟨source, .rich, file⟩ root)
      (recordedFunctions ⟨source, .signature, file⟩ root) := by
  have hplaces : List.Forall₂ (fun x y => x = y ∧ x ∈ root.located [] [])
      (root.located [] []) (root.located [] []) :=
    List.forall₂_same.mpr (fun x hx => ⟨rfl, hx⟩)
  refine List.rel_filterMap ?_ hplaces
  rintro x y ⟨rfl, hx⟩
  exact rel_recordAt? hx file

theorem map_key_of_forall₂ {source : Source} {file : Option String} {root : Node}
    {rich plain : List (Address × Record)}
    (h : List.Forall₂ (Record.Matches source file root) rich plain) :
    (rich.map Prod.snd).map Record.key = (plain.map Prod.snd).map Record.key := by
  induction h with
  | nil => rfl
  | cons hfirst _ ih =>
    have hkey : Record.key _ = Record.key _ :=
      congrArg₂ recordKey hfirst.file.symm hfirst.qualifiedName.symm
    simp only [List.map_cons, hkey, ih]

/-- Both levels of detail find the functions of a tree at the same addresses, agree on all that
names them, enter them under the same keys and leave out equally many malformed nodes. -/
theorem details_find_same_functions (source : Source) (file : Option String) (root : Node) :
    let rich : Survey := ⟨source, .rich, file⟩
    let plain : Survey := ⟨source, .signature, file⟩
    (recordedFunctions rich root).map Prod.snd = (extract rich root).records ∧
    (recordedFunctions plain root).map Prod.snd = (extract plain root).records ∧
    List.Forall₂ (Record.Matches source file root)
      (recordedFunctions rich root) (recordedFunctions plain root) ∧
    (∀ key : String, (extract plain root).keys[key]? = (extract rich root).keys[key]?) ∧
    (extract plain root).skipped = (extract rich root).skipped := by
  intro rich plain
  have hrich := map_snd_recordedFunctions rich root
  have hplain := map_snd_recordedFunctions plain root
  have hmatches := forall₂_recordedFunctions source file root
  refine ⟨hrich, hplain, hmatches, ?_, ?_⟩
  · have hkeys : (extract rich root).records.map Record.key =
        (extract plain root).records.map Record.key := by
      rw [← hrich, ← hplain]
      exact map_key_of_forall₂ hmatches
    intro key
    rw [Extraction.keys, Extraction.keys, KeyMap.ofRecords_eq_of_keys hkeys]
  · rw [extract_skipped, extract_skipped]

end CallAtlas
