import CallAtlas.Proofs.FirstOccurrences
import CallAtlas.Proofs.ReadingOrder
import Mathlib.Data.List.Forall2
import Mathlib.Data.List.Induction
import Mathlib.Data.List.ReduceOption

/-!
The names under which calls are listed. What a call is listed under depends on the nodes before it
in reading order: the last instance made under the name of its object decides. The calls of a
function are these names, each at its first occurrence.
-/

set_option autoImplicit false

namespace CallAtlas

/-- A node of a walk and the nodes that were passed before. -/
structure Visit where
  before : List Node
  node : Node

/-- Going through some nodes when others have been passed already. -/
def visitsAfter (before : List Node) : List Node → List Visit
  | [] => []
  | n :: rest => ⟨before, n⟩ :: visitsAfter (before ++ [n]) rest

theorem visitsAfter_append (before xs ys : List Node) :
    visitsAfter before (xs ++ ys) = visitsAfter before xs ++ visitsAfter (before ++ xs) ys := by
  induction xs generalizing before with
  | nil => simp [visitsAfter]
  | cons n rest ih => simp [visitsAfter, ih]

namespace Node

/-- The node and everything below it, in reading order. -/
def inOrder (n : Node) : List Node :=
  (n.places []).map Place.node

def visits (n : Node) : List Visit :=
  visitsAfter [] n.inOrder

/-- The node declares a variable that holds a new instance: its name and the text of the
constructor. -/
structure Makes (source : Source) (d : Node) (object constructor : String) : Prop where
  kind : d.kind = "variable_declarator"
  name : ∃ name, d.child? "name" = some name ∧ name.kind = "identifier" ∧
    name.text source = object
  value : ∃ value, d.child? "value" = some value ∧ value.kind = "new_expression" ∧
    ∃ c, value.child? "constructor" = some c ∧ c.text source = constructor

end Node

/-- Among the nodes passed, the last one that makes an instance under the name has this
constructor. -/
def LastMade (source : Source) (before : List Node) (object constructor : String) : Prop :=
  ∃ earlier d later, before = earlier ++ d :: later ∧ d.Makes source object constructor ∧
    ∀ e ∈ later, ∀ c, ¬ e.Makes source object c

/-- What an object is called after the nodes passed. -/
inductive StandsFor (source : Source) (before : List Node) (object : String) : String → Prop where
  | made (constructor : String) :
      LastMade source before object constructor → constructor ≠ "" →
      StandsFor source before object constructor
  | nameless : LastMade source before object "" → StandsFor source before object object
  | unmade :
      (∀ d ∈ before, ∀ c, ¬ d.Makes source object c) → StandsFor source before object object

namespace Visit

/-- The name a call resolves to. -/
inductive Resolves (source : Source) (v : Visit) : String → Prop where
  | identifier (callee : Node) :
      v.node.child? "function" = some callee → callee.kind = "identifier" →
      Resolves source v (callee.text source)
  | member (callee object property : Node) (receiver : String) :
      v.node.child? "function" = some callee → callee.kind = "member_expression" →
      callee.child? "object" = some object → callee.child? "property" = some property →
      object.text source ≠ "console" →
      StandsFor source v.before (object.text source) receiver →
      Resolves source v (receiver ++ "." ++ property.text source)

/-- The node is a call that is listed under the name. -/
structure Lists (source : Source) (v : Visit) (name : String) : Prop where
  call : v.node.kind = "call_expression"
  resolves : v.Resolves source name
  nonempty : name ≠ ""
  kept : name ≠ "console.log"

end Visit

/-- What visited nodes put on the list, node by node: a name, or nothing. -/
def Contribute (source : Source) (visits : List Visit) (names : List (Option String)) : Prop :=
  List.Forall₂ (fun v name => ∀ s, name = some s ↔ v.Lists source s) visits names

mutual
/-- A node first, then its children from left to right. -/
def Node.gatherCalls (source : Source) (t : CallTable) : Node → CallTable
  | .mk kind named field span children =>
    gatherCallsAmong source (t.enter source (.mk kind named field span children)) children

def gatherCallsAmong (source : Source) (t : CallTable) : List Node → CallTable
  | [] => t
  | n :: rest => gatherCallsAmong source (n.gatherCalls source t) rest
end

theorem Node.gatherCalls_eq (source : Source) (t : CallTable) (n : Node) :
    n.gatherCalls source t = gatherCallsAmong source (t.enter source n) n.children := by
  cases n with
  | mk kind named field span children =>
    simp only [gatherCalls]
    rfl

theorem gatherCallsAmong_append (source : Source) (t : CallTable) (xs ys : List Node) :
    gatherCallsAmong source t (xs ++ ys) =
      gatherCallsAmong source (gatherCallsAmong source t xs) ys := by
  induction xs generalizing t with
  | nil => simp only [List.nil_append, gatherCallsAmong]
  | cons n rest ih => simp only [List.cons_append, gatherCallsAmong, ih]

/-- The stack of a pass unrolls to the trees on it, one after the other. -/
theorem CallTable.pass_eq (source : Source) (t : CallTable) (stack : List Node) :
    t.pass source stack = gatherCallsAmong source t stack := by
  fun_induction CallTable.pass source t stack with
  | case1 t => rw [gatherCallsAmong]
  | case2 t n rest ih =>
    rw [ih, gatherCallsAmong_append, ← Node.gatherCalls_eq, gatherCallsAmong]

theorem Node.calls_eq (source : Source) (f : Node) :
    f.calls source = (f.gatherCalls source {}).calls.toList := by
  simp only [Node.calls, CallTable.pass_eq, gatherCallsAmong]

mutual
theorem Node.gatherCalls_eq_foldl (source : Source) (t : CallTable) (ancestors : List Node)
    (n : Node) :
    n.gatherCalls source t =
      ((n.places ancestors).map Place.node).foldl (CallTable.enter source) t := by
  cases n with
  | mk kind named field span children =>
    simp only [Node.gatherCalls, Node.places, List.map_cons, List.foldl_cons]
    rw [gatherCallsAmong_eq_foldl]

theorem gatherCallsAmong_eq_foldl (source : Source) (t : CallTable) (ancestors : List Node)
    (children : List Node) :
    gatherCallsAmong source t children =
      ((placesAmong ancestors children).map Place.node).foldl (CallTable.enter source) t := by
  cases children with
  | nil => simp only [gatherCallsAmong, placesAmong, List.map_nil, List.foldl_nil]
  | cons n rest =>
    simp only [gatherCallsAmong, placesAmong, List.map_append, List.foldl_append]
    rw [Node.gatherCalls_eq_foldl source t ancestors n, gatherCallsAmong_eq_foldl]
end

variable {source : Source}

theorem Node.makes_iff {d : Node} {x c : String} :
    d.Makes source x c ↔ d.kind = "variable_declarator" ∧ instance? source d = some (x, c) := by
  constructor
  · intro h
    obtain ⟨name, hname, hidentifier, hx⟩ := h.name
    obtain ⟨value, hvalue, hnew, k, hk, hc⟩ := h.value
    refine ⟨h.kind, ?_⟩
    simp [instance?, hname, hvalue, hidentifier, hnew, hk, hx, hc]
  · intro h
    obtain ⟨hkind, h⟩ := h
    unfold instance? at h
    split at h
    · rename_i name value hname hvalue
      split at h
      · rename_i hkinds
        simp only [Bool.and_eq_true, beq_iff_eq] at hkinds
        obtain ⟨k, hk, hpair⟩ := Option.map_eq_some_iff.mp h
        obtain ⟨hx, hc⟩ := Prod.mk.injEq .. ▸ hpair
        exact ⟨hkind, ⟨name, hname, hkinds.1, hx⟩, ⟨value, hvalue, hkinds.2, k, hk, hc⟩⟩
      · simp at h
    · simp at h

theorem Node.Makes.unique {d : Node} {x y c k : String} (h : d.Makes source x c)
    (h' : d.Makes source y k) : x = y ∧ c = k := by
  have heq := (makes_iff.mp h).2.symm.trans (makes_iff.mp h').2
  simpa using heq

theorem lastMade_snoc (before : List Node) (n : Node) (x c : String) :
    LastMade source (before ++ [n]) x c ↔
      n.Makes source x c ∨ ((∀ k, ¬ n.Makes source x k) ∧ LastMade source before x c) := by
  constructor
  · intro h
    obtain ⟨earlier, d, later, heq, hd, hlater⟩ := h
    cases later using List.reverseRecOn with
    | nil =>
      obtain ⟨_, hn⟩ := List.append_inj' heq rfl
      rw [List.singleton_inj.mp hn]
      exact .inl hd
    | append_singleton later e =>
      rw [← List.cons_append, ← List.append_assoc] at heq
      obtain ⟨hbefore, hn⟩ := List.append_inj' heq rfl
      rw [List.singleton_inj.mp hn]
      refine .inr ⟨hlater e (by simp), earlier, d, later, hbefore, hd, ?_⟩
      intro q hq
      exact hlater q (List.mem_append_left [e] hq)
  · intro h
    rcases h with hn | ⟨hn, earlier, d, later, rfl, hd, hlater⟩
    · exact ⟨before, n, [], rfl, hn, by simp⟩
    · refine ⟨earlier, d, later ++ [n], by simp, hd, ?_⟩
      intro e he
      rcases List.mem_append.mp he with he | he
      · exact hlater e he
      · rw [List.mem_singleton.mp he]
        exact hn

theorem exists_lastMade_iff (before : List Node) (x : String) :
    (∃ c, LastMade source before x c) ↔ ∃ d ∈ before, ∃ c, d.Makes source x c := by
  constructor
  · intro h
    obtain ⟨c, earlier, d, later, rfl, hd, _⟩ := h
    exact ⟨d, by simp, c, hd⟩
  · intro h
    induction before using List.reverseRecOn with
    | nil => simp at h
    | append_singleton before n ih =>
      by_cases hn : ∃ c, n.Makes source x c
      · obtain ⟨c, hc⟩ := hn
        exact ⟨c, (lastMade_snoc before n x c).mpr (.inl hc)⟩
      · obtain ⟨d, hd, hmade⟩ := h
        have hnone : ∀ k, ¬ n.Makes source x k := fun k hk => hn ⟨k, hk⟩
        rcases List.mem_append.mp hd with hd | hd
        · obtain ⟨c, hc⟩ := ih ⟨d, hd, hmade⟩
          exact ⟨c, (lastMade_snoc before n x c).mpr (.inr ⟨hnone, hc⟩)⟩
        · rw [List.mem_singleton.mp hd] at hmade
          exact absurd hmade hn

/-- The aliases say which instances have been made last. -/
def AliasesAfter (source : Source) (before : List Node)
    (aliases : Std.HashMap String String) : Prop :=
  ∀ x c, aliases[x]? = some c ↔ LastMade source before x c

namespace AliasesAfter

variable {before : List Node} {aliases : Std.HashMap String String}

theorem insert (h : AliasesAfter source before aliases) {n : Node} {x c : String}
    (hn : n.Makes source x c) : AliasesAfter source (before ++ [n]) (aliases.insert x c) := by
  intro y k
  rw [lastMade_snoc, Std.HashMap.getElem?_insert]
  by_cases hy : x = y
  · subst hy
    have hother : ¬ ∀ k, ¬ n.Makes source x k := fun hnone => hnone c hn
    have hsame : n.Makes source x k ↔ c = k :=
      ⟨fun hk => (hn.unique hk).2, fun heq => heq ▸ hn⟩
    simp [hother, hsame]
  · have hnone : ∀ k, ¬ n.Makes source y k := fun k hk => hy (hn.unique hk).1
    simp [hy, hnone, h y k]

theorem skip (h : AliasesAfter source before aliases) {n : Node}
    (hn : ∀ x c, ¬ n.Makes source x c) : AliasesAfter source (before ++ [n]) aliases := by
  intro x c
  simp [lastMade_snoc, hn x, h x c]

theorem getElem?_eq_none_iff (h : AliasesAfter source before aliases) (object : String) :
    aliases[object]? = none ↔ ∀ d ∈ before, ∀ c, ¬ d.Makes source object c := by
  have hsome : aliases[object]?.isSome = true ↔ ∃ d ∈ before, ∃ c, d.Makes source object c := by
    rw [← exists_lastMade_iff, Option.isSome_iff_exists]
    simp only [h object]
  rw [← Option.not_isSome_iff_eq_none, hsome]
  simp

theorem receiver_eq (h : AliasesAfter source before aliases) {object k : String}
    (hk : StandsFor source before object k) : receiver aliases object = k := by
  cases hk with
  | made _ hmade hne => simp [receiver, (h object k).mpr hmade, hne]
  | nameless hmade => simp [receiver, (h object "").mpr hmade]
  | unmade hnone => simp [receiver, (h.getElem?_eq_none_iff object).mpr hnone]

theorem standsFor_receiver (h : AliasesAfter source before aliases) (object : String) :
    StandsFor source before object (receiver aliases object) := by
  cases hobject : aliases[object]? with
  | none =>
    have heq : receiver aliases object = object := by simp [receiver, hobject]
    rw [heq]
    exact .unmade ((h.getElem?_eq_none_iff object).mp hobject)
  | some c =>
    have hmade := (h object c).mp hobject
    by_cases hempty : c = ""
    · subst hempty
      have heq : receiver aliases object = object := by simp [receiver, hobject]
      rw [heq]
      exact .nameless hmade
    · have heq : receiver aliases object = c := by simp [receiver, hobject, hempty]
      rw [heq]
      exact .made c hmade hempty

theorem resolves_of_calledName? (h : AliasesAfter source before aliases) {n : Node} {s : String}
    (hs : calledName? source aliases n = some s) : Visit.Resolves source ⟨before, n⟩ s := by
  unfold calledName? at hs
  split at hs
  · simp at hs
  · rename_i callee hcallee
    split at hs
    · rename_i hkind
      rw [Option.some.injEq] at hs
      subst hs
      exact .identifier callee hcallee (beq_iff_eq.mp hkind)
    · split at hs
      · rename_i hkind
        split at hs
        · rename_i object property hobject hproperty
          by_cases hconsole : object.text source = "console"
          · simp [hconsole, ignoredObject] at hs
          · simp only [ignoredObject, beq_iff_eq, hconsole, if_false, Option.some.injEq] at hs
            subst hs
            exact .member callee object property _ hcallee (beq_iff_eq.mp hkind) hobject
              hproperty hconsole (h.standsFor_receiver _)
        · simp at hs
      · simp at hs

theorem calledName?_of_resolves (h : AliasesAfter source before aliases) {n : Node} {s : String}
    (hs : Visit.Resolves source ⟨before, n⟩ s) : calledName? source aliases n = some s := by
  cases hs with
  | identifier callee hcallee hkind => simp [calledName?, hcallee, hkind]
  | member callee object property receiver hcallee hkind hobject hproperty hconsole hfor =>
    simp [calledName?, hcallee, hkind, hobject, hproperty, hconsole, ignoredObject,
      h.receiver_eq hfor]

end AliasesAfter

namespace CallTable

/-- The name that a node puts on the list, unless it is there already. -/
def nameFor? (source : Source) (t : CallTable) (n : Node) : Option String :=
  if n.kind = "call_expression" then
    (calledName? source t.aliases n).filter (fun s => !s.isEmpty && s != ignoredCall)
  else none

theorem nameFor?_eq_some_iff {t : CallTable} {before : List Node}
    (h : AliasesAfter source before t.aliases) (n : Node) (s : String) :
    t.nameFor? source n = some s ↔ Visit.Lists source ⟨before, n⟩ s := by
  unfold nameFor?
  constructor
  · intro hs
    split at hs
    · rename_i hkind
      obtain ⟨hname, hkept⟩ := Option.filter_eq_some_iff.mp hs
      simp only [ignoredCall, Bool.and_eq_true, Bool.not_eq_true', String.isEmpty_eq_false_iff,
        bne_iff_ne] at hkept
      exact ⟨hkind, h.resolves_of_calledName? hname, hkept.1, hkept.2⟩
    · simp at hs
  · intro hs
    have hname := h.calledName?_of_resolves hs.resolves
    have hkind : n.kind = "call_expression" := hs.call
    simp [hkind, hname, ignoredCall, hs.nonempty, hs.kept]

/-- A name that is not on the list goes to its end. -/
def note (t : CallTable) : Option String → CallTable
  | some s =>
    if s ∈ t.listed then t
    else { t with listed := t.listed.insert s, calls := t.calls.push s }
  | none => t

theorem enter_of_makes (t : CallTable) {n : Node} {x c : String} (h : n.Makes source x c) :
    t.enter source n = { t with aliases := t.aliases.insert x c } := by
  obtain ⟨hkind, hmade⟩ := Node.makes_iff.mp h
  simp [enter, hkind, hmade]

theorem addCall_eq_note (t : CallTable) (s : String) :
    t.addCall s = t.note ((some s).filter (fun s => !s.isEmpty && s != ignoredCall)) := by
  rw [Option.filter_some]
  by_cases hempty : s.isEmpty = true
  · simp [addCall, note, hempty]
  · by_cases hignored : s = ignoredCall
    · simp [addCall, note, hignored]
    · simp [addCall, note, hempty, hignored]

theorem enter_of_not_makes (t : CallTable) {n : Node} (h : ∀ x c, ¬ n.Makes source x c) :
    t.enter source n = t.note (t.nameFor? source n) := by
  by_cases hdeclarator : n.kind = "variable_declarator"
  · have hnone : instance? source n = none := by
      cases hmade : instance? source n with
      | none => rfl
      | some made => exact absurd (Node.makes_iff.mpr ⟨hdeclarator, hmade⟩) (h made.1 made.2)
    simp [enter, nameFor?, note, hdeclarator, hnone]
  · by_cases hcall : n.kind = "call_expression"
    · cases hname : calledName? source t.aliases n with
      | none => simp [enter, nameFor?, note, hcall, hname]
      | some s => simp [enter, nameFor?, hcall, hname, addCall_eq_note]
    · simp [enter, nameFor?, note, hdeclarator, hcall]

@[simp] theorem aliases_note (t : CallTable) (name : Option String) :
    (t.note name).aliases = t.aliases := by
  cases name with
  | none => rfl
  | some s =>
    simp only [note]
    split
    · rfl
    · rfl

/-- The table after some nodes, of which each has contributed the name at its place. -/
structure Reflects (source : Source) (before : List Node) (names : List (Option String))
    (t : CallTable) : Prop where
  aliases : AliasesAfter source before t.aliases
  contribute : Contribute source (visitsAfter [] before) names
  calls : t.calls.toList = names.reduceOption.eraseDups
  listed : ∀ s, s ∈ t.listed ↔ s ∈ t.calls.toList

namespace Reflects

variable {before : List Node} {names : List (Option String)} {t : CallTable}

theorem empty : ({} : CallTable).Reflects source [] [] := by
  refine ⟨?_, .nil, rfl, ?_⟩
  · intro x c
    simp [LastMade]
  · intro s
    simp

theorem calls_note (h : t.Reflects source before names) (name : Option String) :
    (t.note name).calls.toList = (names ++ [name]).reduceOption.eraseDups := by
  rw [List.reduceOption_append]
  cases name with
  | none => simpa [note] using h.calls
  | some s =>
    have hmem : s ∈ t.listed ↔ s ∈ names.reduceOption := by
      rw [h.listed, h.calls, List.mem_eraseDups]
    rw [List.reduceOption_singleton, Option.toList_some, eraseDups_snoc, ← h.calls]
    by_cases hs : s ∈ t.listed
    · simp [note, hs, hmem.mp hs]
    · have hnew : s ∉ names.reduceOption := fun hold => hs (hmem.mpr hold)
      simp [note, hs, hnew]

theorem listed_note (h : t.Reflects source before names) (name : Option String) (s : String) :
    s ∈ (t.note name).listed ↔ s ∈ (t.note name).calls.toList := by
  cases name with
  | none => exact h.listed s
  | some x =>
    simp only [note]
    split
    · exact h.listed s
    · simp only [Std.HashSet.mem_insert, beq_iff_eq, h.listed s, Array.toList_push,
        List.mem_append, List.mem_singleton]
      rw [or_comm, eq_comm]

theorem contribute_snoc (h : t.Reflects source before names) (n : Node) :
    Contribute source (visitsAfter [] (before ++ [n])) (names ++ [t.nameFor? source n]) := by
  rw [visitsAfter_append]
  exact List.rel_append h.contribute (.cons (nameFor?_eq_some_iff h.aliases n) .nil)

theorem enter (h : t.Reflects source before names) (n : Node) :
    (t.enter source n).Reflects source (before ++ [n]) (names ++ [t.nameFor? source n]) := by
  -- A node that makes an instance changes the aliases and lists nothing; any other one leaves the
  -- aliases as they are.
  by_cases hn : ∃ x c, n.Makes source x c
  · obtain ⟨x, c, hn⟩ := hn
    have hname : t.nameFor? source n = none := by simp [nameFor?, hn.kind]
    have hcalls := h.calls_note none
    rw [enter_of_makes t hn]
    refine ⟨h.aliases.insert hn, h.contribute_snoc n, ?_, h.listed⟩
    rw [hname]
    exact hcalls
  · have hn : ∀ x c, ¬ n.Makes source x c := fun x c hmade => hn ⟨x, c, hmade⟩
    rw [enter_of_not_makes t hn]
    refine ⟨?_, h.contribute_snoc n, h.calls_note _, h.listed_note _⟩
    rw [aliases_note]
    exact h.aliases.skip hn

end Reflects

theorem exists_reflects (source : Source) (nodes : List Node) :
    ∃ names, (nodes.foldl (CallTable.enter source) {}).Reflects source nodes names := by
  induction nodes using List.reverseRecOn with
  | nil => exact ⟨[], .empty⟩
  | append_singleton nodes n ih =>
    obtain ⟨names, h⟩ := ih
    rw [List.foldl_append]
    exact ⟨_, h.enter n⟩

end CallTable

theorem Node.exists_names (source : Source) (f : Node) :
    ∃ names, Contribute source f.visits names ∧
      f.calls source = names.reduceOption.eraseDups := by
  obtain ⟨names, h⟩ := CallTable.exists_reflects source f.inOrder
  refine ⟨names, h.contribute, ?_⟩
  rw [← h.calls, Node.calls_eq, Node.gatherCalls_eq_foldl source {} [] f]
  rfl

theorem Contribute.mem_iff {visits : List Visit} {names : List (Option String)}
    (h : Contribute source visits names) (s : String) :
    some s ∈ names ↔ ∃ v ∈ visits, v.Lists source s := by
  induction h with
  | nil => simp
  | cons hname _ ih =>
    simp only [List.mem_cons, exists_eq_or_imp, ih, ← hname s]
    rw [eq_comm]

theorem Node.mem_calls_iff (f : Node) (s : String) :
    s ∈ f.calls source ↔ ∃ v ∈ f.visits, v.Lists source s := by
  obtain ⟨names, hnames, hcalls⟩ := f.exists_names source
  rw [hcalls, List.mem_eraseDups, List.reduceOption_mem_iff, hnames.mem_iff]

/-- The calls of a function are the names its calls resolve to in reading order, each at its first
occurrence; a call contributes nothing if it resolves to no name, to an empty one or to the one
that is left out. -/
theorem calls_are_first_resolved_names (source : Source) (f : Node) :
    (∃ names, Contribute source f.visits names ∧
      f.calls source = names.reduceOption.eraseDups) ∧
    (f.calls source).Nodup ∧ "" ∉ f.calls source := by
  refine ⟨f.exists_names source, ?_, ?_⟩
  · obtain ⟨names, _, hcalls⟩ := f.exists_names source
    rw [hcalls]
    exact nodup_eraseDups _
  · intro hempty
    obtain ⟨v, _, hv⟩ := (f.mem_calls_iff "").mp hempty
    exact hv.nonempty rfl

end CallAtlas
