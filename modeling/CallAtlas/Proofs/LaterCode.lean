import CallAtlas.JavaScript.Program
import CallAtlas.Proofs.BodyEdits
import CallAtlas.Proofs.CallNames

/-!
Code that is put behind all other code of a function. It stands on the right spine of the tree, so
in reading order it comes last: the pass over the longer function is the pass over the old one,
continued with the new subtrees, and the calls listed by then stay as they are.
-/

set_option autoImplicit false

namespace CallAtlas

namespace Node

/-- The node with more children behind the last one. -/
def grow (more : List Node) (n : Node) : Node :=
  n.withChildren (n.children ++ more)

/-- The way from a node down over last children to another one. -/
inductive RightSpine : Node → Address → Node → Prop where
  | here (n : Node) : RightSpine n [] n
  | last (n c g : Node) (before : List Node) (way : Address) :
      n.children = before ++ [c] → RightSpine c way g → RightSpine n (before.length :: way) g

/-- The position of the child that fills a field. -/
def slot? (n : Node) (name : String) : Option Nat :=
  n.children.findIdx? (fun c => c.field == some name)

/-- Every node of `f` has its fields filled by the same children in `longer`. -/
def KeepsFields (f longer : Node) : Prop :=
  ∀ address m l, f.get? address = some m → longer.get? address = some l →
    ∀ name, l.slot? name = m.slot? name

/-- What becomes of a node while children are added at the end of its right spine. -/
inductive Grown (more : List Node) : Node → Node → Prop where
  | same (n : Node) : Grown more n n
  | here (n : Node) :
      (∀ name, (n.grow more).slot? name = n.slot? name) → Grown more n (n.grow more)
  | last (n c d : Node) (before : List Node) :
      n.children = before ++ [c] → Grown more c d → Grown more n (n.withChildren (before ++ [d]))

theorem child?_eq_bind_slot? (n : Node) (name : String) :
    n.child? name = (n.slot? name).bind (fun i => n.children[i]?) :=
  List.find?_eq_bind_findIdx?_getElem?

theorem child?_grow {more : List Node} {n : Node} {name : String}
    (h : (n.grow more).slot? name = n.slot? name) : (n.grow more).child? name = n.child? name := by
  rw [child?_eq_bind_slot?, child?_eq_bind_slot?, h]
  cases hslot : n.slot? name with
  | none => rfl
  | some i =>
    have hi : i < n.children.length := (List.findIdx?_eq_some_iff_findIdx_eq.mp hslot).1
    simp [grow, List.getElem?_append_left hi]

namespace Grown

variable {more : List Node} {n l : Node}

theorem exists_eq (h : Grown more n l) : ∃ cs, l = n.withChildren cs := by
  cases h with
  | same => exact ⟨n.children, by cases n; rfl⟩
  | here => exact ⟨_, rfl⟩
  | last => exact ⟨_, rfl⟩

theorem kind_eq (h : Grown more n l) : l.kind = n.kind := by
  obtain ⟨cs, rfl⟩ := h.exists_eq
  rfl

theorem field_eq (h : Grown more n l) : l.field = n.field := by
  obtain ⟨cs, rfl⟩ := h.exists_eq
  rfl

theorem text_eq (h : Grown more n l) (source : Source) : l.text source = n.text source := by
  obtain ⟨cs, rfl⟩ := h.exists_eq
  rfl

/-- A field that was empty stays so, and one that was filled has the same child, grown. -/
theorem child? (h : Grown more n l) (name : String) :
    (n.child? name = none ∧ l.child? name = none) ∨
      ∃ c d, n.child? name = some c ∧ l.child? name = some d ∧ Grown more c d := by
  have hself : ∀ found : Option Node, (found = none ∧ found = none) ∨
      ∃ c d, found = some c ∧ found = some d ∧ Grown more c d := by
    intro found
    cases found with
    | none => exact .inl ⟨rfl, rfl⟩
    | some c => exact .inr ⟨c, c, rfl, rfl, .same c⟩
  cases h with
  | same => exact hself _
  | here _ hslots =>
    rw [child?_grow (hslots name)]
    exact hself _
  | last _ c d before hchildren hgrown =>
    simp only [Node.child?, hchildren, children_withChildren, List.find?_append,
      List.find?_singleton, hgrown.field_eq]
    cases before.find? (fun b => b.field == some name) with
    | some b => exact .inr ⟨b, b, rfl, rfl, .same b⟩
    | none =>
      cases c.field == some name with
      | true => exact .inr ⟨c, d, rfl, rfl, hgrown⟩
      | false => exact .inl ⟨rfl, rfl⟩

theorem map_text_child? (h : Grown more n l) (source : Source) (name : String) :
    (l.child? name).map (Node.text source) = (n.child? name).map (Node.text source) := by
  rcases h.child? name with ⟨hn, hl⟩ | ⟨c, d, hn, hl, hcd⟩
  · rw [hn, hl]
  · rw [hn, hl, Option.map_some, Option.map_some, hcd.text_eq]

theorem instance?_eq (h : Grown more n l) (source : Source) :
    instance? source l = instance? source n := by
  unfold instance?
  rcases h.child? "name" with ⟨hn, hl⟩ | ⟨name, name', hn, hl, hname⟩
  · simp [hn, hl]
  · rcases h.child? "value" with ⟨hv, hl'⟩ | ⟨value, value', hv, hl', hvalue⟩
    · simp [hn, hl, hv, hl']
    · have hconstructor := hvalue.map_text_child? source "constructor"
      have hpair : ∀ v : Node, (v.child? "constructor").map
          (fun c => (name.text source, c.text source)) =
            ((v.child? "constructor").map (Node.text source)).map (name.text source, ·) := by
        intro v
        rw [Option.map_map]
        rfl
      simp only [hn, hl, hv, hl', hname.kind_eq, hname.text_eq, hvalue.kind_eq, hpair,
        hconstructor]

theorem calledName?_eq (h : Grown more n l) (source : Source)
    (aliases : Std.HashMap String String) :
    calledName? source aliases l = calledName? source aliases n := by
  unfold calledName?
  rcases h.child? "function" with ⟨hn, hl⟩ | ⟨callee, callee', hn, hl, hcallee⟩
  · simp only [hn, hl]
  · simp only [hn, hl, hcallee.kind_eq, hcallee.text_eq]
    rcases hcallee.child? "object" with ⟨ho, ho'⟩ | ⟨object, object', ho, ho', hobject⟩
    · simp only [ho, ho']
    · rcases hcallee.child? "property" with ⟨hp, hp'⟩ | ⟨property, property', hp, hp', hproperty⟩
      · simp only [ho, ho', hp, hp']
      · simp only [ho, ho', hp, hp', hobject.text_eq, hproperty.text_eq]

theorem enter_eq (h : Grown more n l) (source : Source) (t : CallTable) :
    t.enter source l = t.enter source n := by
  unfold CallTable.enter
  rw [h.kind_eq, h.instance?_eq, h.calledName?_eq]

theorem slot?_eq (h : Grown more n l) (name : String) : l.slot? name = n.slot? name := by
  cases h with
  | same => rfl
  | here _ hslots => exact hslots name
  | last _ c d before hchildren hgrown =>
    simp only [slot?, hchildren, children_withChildren, List.findIdx?_append,
      List.findIdx?_singleton, hgrown.field_eq]

theorem getElem?_children (h : Grown more n l) {i : Nat} {c d : Node}
    (hc : n.children[i]? = some c) (hd : l.children[i]? = some d) : Grown more c d := by
  obtain ⟨hi, _⟩ := List.getElem?_eq_some_iff.mp hc
  cases h with
  | same =>
    cases hc.symm.trans hd
    exact .same c
  | here _ hslots =>
    rw [grow, children_withChildren, List.getElem?_append_left hi] at hd
    cases hc.symm.trans hd
    exact .same c
  | last _ b b' before hchildren hgrown =>
    rw [children_withChildren] at hd
    rw [hchildren] at hc hi
    rcases Nat.lt_or_ge i before.length with hlt | hge
    · rw [List.getElem?_append_left hlt] at hc hd
      cases hc.symm.trans hd
      exact .same c
    · have hlast : i = before.length := by
        rw [List.length_append, List.length_singleton] at hi
        omega
      subst hlast
      rw [List.getElem?_concat_length] at hc hd
      cases hc
      cases hd
      exact hgrown

theorem get? (h : Grown more n l) {address : Address} {m k : Node}
    (hm : n.get? address = some m) (hk : l.get? address = some k) : Grown more m k := by
  induction address generalizing n l with
  | nil =>
    cases hm
    cases hk
    exact h
  | cons i rest ih =>
    obtain ⟨c, hc, hm⟩ := Option.bind_eq_some_iff.mp hm
    obtain ⟨d, hd, hk⟩ := Option.bind_eq_some_iff.mp hk
    exact ih (h.getElem?_children hc hd) hm hk

end Grown

namespace RightSpine

variable {more : List Node} {f g : Node} {way : Address}

theorem modify_last {n c : Node} {before : List Node} (hchildren : n.children = before ++ [c])
    (change : Node → Node) (way : Address) :
    n.modify change (before.length :: way) = n.withChildren (before ++ [c.modify change way]) := by
  have hlast : (before ++ [c]).modify before.length (modify change way) =
      before ++ [c.modify change way] := by
    clear hchildren
    induction before with
    | nil => rfl
    | cons b rest ih => simp [ih]
  rw [modify, hchildren, hlast]

theorem get?_modify (h : RightSpine f way g) (change : Node → Node) :
    f.get? way = some g ∧ (f.modify change way).get? way = some (change g) := by
  induction h with
  | here n => exact ⟨rfl, rfl⟩
  | last n c g before way hchildren _ ih =>
    rw [modify_last hchildren]
    simpa [hchildren] using ih

theorem grown (h : RightSpine f way g)
    (hslots : ∀ name, (g.grow more).slot? name = g.slot? name) :
    Grown more f (f.modify (grow more) way) := by
  induction h with
  | here n => exact .here n hslots
  | last n c g before way hchildren _ ih =>
    rw [modify_last hchildren]
    exact .last n c _ before hchildren (ih hslots)

/-- Only the node that gets the new children can lose a field to one of them. -/
theorem keepsFields_iff (h : RightSpine f way g) :
    f.KeepsFields (f.modify (grow more) way) ↔
      ∀ name, (g.grow more).slot? name = g.slot? name := by
  constructor
  · intro hkeeps
    obtain ⟨hold, hnew⟩ := h.get?_modify (grow more)
    exact hkeeps way g (g.grow more) hold hnew
  · intro hslots address m l hm hl
    exact ((h.grown hslots).get? hm hl).slot?_eq

/-- The new children come after everything that was there. -/
theorem gatherCalls_modify (h : RightSpine f way g)
    (hslots : ∀ name, (g.grow more).slot? name = g.slot? name) (source : Source) (t : CallTable) :
    (f.modify (grow more) way).gatherCalls source t =
      gatherCallsAmong source (f.gatherCalls source t) more := by
  induction h generalizing t with
  | here n =>
    have henter := (Grown.here n hslots).enter_eq source t
    rw [modify, gatherCalls_eq, henter, grow, children_withChildren, gatherCallsAmong_append,
      ← gatherCalls_eq]
  | last n c g before way hchildren hspine ih =>
    have henter := (Grown.last n c _ before hchildren (hspine.grown hslots)).enter_eq source t
    rw [modify_last hchildren, gatherCalls_eq, henter, children_withChildren,
      gatherCallsAmong_append, gatherCalls_eq source t n, hchildren, gatherCallsAmong_append]
    simp only [gatherCallsAmong, ih hslots]

end RightSpine

end Node

theorem CallTable.prefix_calls_enter (source : Source) (t : CallTable) (n : Node) :
    t.calls.toList <+: (t.enter source n).calls.toList := by
  by_cases hn : ∃ x c, n.Makes source x c
  · obtain ⟨x, c, hn⟩ := hn
    simp [enter_of_makes t hn]
  · rw [enter_of_not_makes t (fun x c hmade => hn ⟨x, c, hmade⟩)]
    cases t.nameFor? source n with
    | none => exact List.prefix_refl _
    | some s =>
      simp only [note]
      split
      · exact List.prefix_refl _
      · simp

theorem prefix_calls_gatherCallsAmong (source : Source) (t : CallTable) (nodes : List Node) :
    t.calls.toList <+: (gatherCallsAmong source t nodes).calls.toList := by
  rw [gatherCallsAmong_eq_foldl source t []]
  generalize (placesAmong [] nodes).map Place.node = passed
  induction passed generalizing t with
  | nil => exact List.prefix_refl _
  | cons n rest ih => exact (t.prefix_calls_enter source n).trans (ih (t.enter source n))

/-- Code behind other code does not change how that is reported: if children are added at the end
of the right spine of a function, and none of them takes a field of a node that was there, the
calls begin with those that were listed before. -/
theorem calls_extended_by_later_code (source : Source) {f g : Node} {way : Address}
    (hspine : f.RightSpine way g) (more : List Node)
    (hfields : f.KeepsFields (f.modify (Node.grow more) way)) :
    f.calls source <+: (f.modify (Node.grow more) way).calls source := by
  have hslots := hspine.keepsFields_iff.mp hfields
  rw [Node.calls_eq, Node.calls_eq, hspine.gatherCalls_modify hslots]
  exact prefix_calls_gatherCallsAmong source _ more

/-- New children that fill no field take none. -/
theorem Node.slot?_grow {more : List Node} (h : ∀ c ∈ more, c.field = none) (n : Node)
    (name : String) : (n.grow more).slot? name = n.slot? name := by
  have hmore : more.findIdx? (fun c => c.field == some name) = none := by
    rw [List.findIdx?_eq_none_iff]
    intro c hc
    simp [h c hc]
  simp only [slot?, grow, children_withChildren, List.findIdx?_append, hmore, Option.map_none,
    Option.or_none]

def laterInstance : Source :=
  "function f(d) { d.go(); }\nfunction g() { const d = new A(); d.go(); }".toUTF8

/-- The call on the parameter is still listed first under its own name after the body of the other
function, which makes an instance under that name, has been put behind it. -/
theorem calls_extended_by_later_code_in_laterInstance :
    ∃ f body later, (JavaScript.parse laterInstance).root.get? [0] = some f ∧
      (JavaScript.parse laterInstance).root.get? [1, 3] = some later ∧
      f.RightSpine [3] body ∧
      f.KeepsFields (f.modify (Node.grow later.children) [3]) ∧
      "d.go" ∈ f.calls laterInstance ∧
      f.calls laterInstance <+: (f.modify (Node.grow later.children) [3]).calls laterInstance := by
  have hfound : ((JavaScript.parse laterInstance).root.get? [0]).any (fun f =>
      f.children.length == 4 && f.children.getLast?.isSome &&
      f.visits.any (fun v => v.node.kind == "call_expression" &&
        v.before.all (fun d => d.kind != "variable_declarator") &&
        (v.node.child? "function").any (fun callee => callee.kind == "member_expression" &&
          (callee.child? "object").any (fun o => o.text laterInstance == "d") &&
          (callee.child? "property").any (fun p => p.text laterInstance == "go")))) = true := by
    decide +kernel
  have hlater : ((JavaScript.parse laterInstance).root.get? [1, 3]).any (fun later =>
      later.children.all (fun c => c.field == none)) = true := by
    decide +kernel
  simp only [Option.any_eq_true, List.any_eq_true, List.all_eq_true, Bool.and_eq_true, beq_iff_eq,
    bne_iff_ne, Option.isSome_iff_exists] at hfound hlater
  obtain ⟨f, hf, ⟨hlength, body, hbody⟩, v, hv, ⟨hcall, hplain⟩, callee, hcallee,
    ⟨hkind, o, ho, hobject⟩, p, hp, hproperty⟩ := hfound
  obtain ⟨later, hlater, hfieldless⟩ := hlater
  have hspine : f.RightSpine [3] body := by
    have hlast := Node.RightSpine.last f body body f.children.dropLast []
      (List.dropLast_append_getLast? body hbody).symm (.here body)
    rwa [List.length_dropLast, hlength] at hlast
  have hfields : f.KeepsFields (f.modify (Node.grow later.children) [3]) :=
    hspine.keepsFields_iff.mpr (Node.slot?_grow hfieldless body)
  have hresolves : v.Resolves laterInstance ("d" ++ "." ++ "go") := by
    rw [← hobject, ← hproperty]
    refine .member callee o p _ hcallee hkind ho hp (by rw [hobject]; decide) ?_
    exact .unmade (fun d hd c hmade => hplain d hd hmade.kind)
  have hlists : v.Lists laterInstance "d.go" := ⟨hcall, hresolves, by decide, by decide⟩
  exact ⟨f, body, later, hf, hlater, hspine, hfields, (f.mem_calls_iff "d.go").mpr ⟨v, hv, hlists⟩,
    calls_extended_by_later_code laterInstance hspine later.children hfields⟩

end CallAtlas
