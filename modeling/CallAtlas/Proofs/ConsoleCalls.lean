import CallAtlas.JavaScript.Program
import CallAtlas.Proofs.Addresses
import CallAtlas.Proofs.CallNames

/-!
Names that begin with `console.`. A call on the object `console` is not listed, but the object is
compared as a whole and before it is resolved. So such a name comes out for a longer chain and for
an instance whose constructor is `console` or something reached through it; apart from that only an
identifier with a dot in it gives one.
-/

set_option autoImplicit false

namespace CallAtlas

namespace Visit

/-- The node calls a property of an object, both given by their texts. -/
structure CallsMember (source : Source) (v : Visit) (object property : String) : Prop where
  call : v.node.kind = "call_expression"
  callee : ∃ callee, v.node.child? "function" = some callee ∧ callee.kind = "member_expression" ∧
    (∃ o, callee.child? "object" = some o ∧ o.text source = object) ∧
    ∃ p, callee.child? "property" = some p ∧ p.text source = property

/-- The ways in which a call is listed under a name that begins with `console.`. -/
inductive ListsConsole (source : Source) (v : Visit) : String → Prop where
  | identifier (callee : Node) :
      v.node.kind = "call_expression" → v.node.child? "function" = some callee →
      callee.kind = "identifier" → (callee.text source).startsWith "console." = true →
      callee.text source ≠ "console.log" → ListsConsole source v (callee.text source)
  | chain (object property : String) :
      v.CallsMember source object property → object.startsWith "console." = true →
      StandsFor source v.before object object →
      ListsConsole source v (object ++ "." ++ property)
  | instanceOfConsole (object property : String) :
      v.CallsMember source object property → object ≠ "console" →
      LastMade source v.before object "console" → property ≠ "log" →
      ListsConsole source v ("console" ++ "." ++ property)
  | instanceOfMember (object property constructor : String) :
      v.CallsMember source object property → object ≠ "console" →
      LastMade source v.before object constructor → constructor.startsWith "console." = true →
      ListsConsole source v (constructor ++ "." ++ property)

end Visit

theorem prefix_append_dot_iff {a : List Char} (ha : '.' ∉ a) (r p : List Char) :
    a ++ ['.'] <+: r ++ '.' :: p ↔ r = a ∨ a ++ ['.'] <+: r := by
  induction a generalizing r with
  | nil =>
    cases r with
    | nil => simp
    | cons y r => simp
  | cons x a ih =>
    simp only [List.mem_cons, not_or] at ha
    cases r with
    | nil => simp [List.cons_prefix_cons, Ne.symm ha.1]
    | cons y r =>
      simp only [List.cons_append, List.cons_prefix_cons, ih ha.2, List.cons.injEq]
      by_cases hxy : x = y
      · simp [hxy]
      · simp [hxy, eq_comm]

theorem startsWith_console_iff (receiver property : String) :
    (receiver ++ "." ++ property).startsWith "console." = true ↔
      receiver = "console" ∨ receiver.startsWith "console." = true := by
  have hsplit : "console.".toList = "console".toList ++ ['.'] := rfl
  rw [String.startsWith_string_iff, String.startsWith_string_iff, hsplit, String.toList_append,
    String.toList_append, List.append_assoc, ← String.toList_inj]
  exact prefix_append_dot_iff (by decide) receiver.toList property.toList

theorem console_member_eq_log_iff (property : String) :
    "console" ++ "." ++ property = "console.log" ↔ property = "log" := by
  rw [← String.toList_inj, ← String.toList_inj, String.toList_append, String.toList_append]
  exact List.append_right_inj ("console".toList ++ ".".toList)

/-- Behind a longer chain the name that is left out does not come up again. -/
theorem ne_log_of_startsWith {receiver : String} (h : receiver.startsWith "console." = true)
    (property : String) : receiver ++ "." ++ property ≠ "console.log" := by
  intro heq
  obtain ⟨rest, hrest⟩ := String.startsWith_string_iff.mp h
  have hlog : "console.".toList ++ (rest ++ '.' :: property.toList) =
      "console.".toList ++ "log".toList := by
    rw [← List.append_assoc, hrest]
    have hlist := congrArg String.toList heq
    rw [String.toList_append, String.toList_append, List.append_assoc] at hlist
    exact hlist
  have hdot : '.' ∈ "log".toList := by
    rw [← List.append_cancel_left hlog]
    simp
  exact absurd hdot (by decide)

theorem ne_empty_of_startsWith {s : String} (h : s.startsWith "console." = true) : s ≠ "" := by
  intro hempty
  rw [hempty, String.startsWith_string_iff] at h
  exact absurd h (by decide)

variable {source : Source}

theorem StandsFor.eq_or_lastMade {before : List Node} {object receiver : String}
    (h : StandsFor source before object receiver) :
    receiver = object ∨ LastMade source before object receiver := by
  cases h with
  | made _ hmade => exact .inr hmade
  | nameless => exact .inl rfl
  | unmade => exact .inl rfl

namespace Visit

variable {v : Visit} {s : String}

theorem CallsMember.lists {object property receiver : String}
    (h : v.CallsMember source object property) (hobject : object ≠ "console")
    (hfor : StandsFor source v.before object receiver)
    (hstart : (receiver ++ "." ++ property).startsWith "console." = true)
    (hkept : receiver ++ "." ++ property ≠ "console.log") :
    v.Lists source (receiver ++ "." ++ property) := by
  obtain ⟨callee, hcallee, hkind, ⟨o, ho, hotext⟩, p, hp, hptext⟩ := h.callee
  subst hotext hptext
  exact ⟨h.call, .member callee o p receiver hcallee hkind ho hp hobject hfor,
    ne_empty_of_startsWith hstart, hkept⟩

theorem ListsConsole.lists (h : v.ListsConsole source s) :
    v.Lists source s ∧ s.startsWith "console." = true := by
  cases h with
  | identifier callee hcall hcallee hkind hstart hkept =>
    exact ⟨⟨hcall, .identifier callee hcallee hkind, ne_empty_of_startsWith hstart, hkept⟩, hstart⟩
  | chain object property hmember hobject hfor =>
    have hstart := (startsWith_console_iff object property).mpr (.inr hobject)
    have hne : object ≠ "console" := by
      intro heq
      rw [heq, String.startsWith_string_iff] at hobject
      exact absurd hobject (by decide)
    exact ⟨hmember.lists hne hfor hstart (ne_log_of_startsWith hobject property), hstart⟩
  | instanceOfConsole object property hmember hne hmade hlog =>
    have hstart := (startsWith_console_iff "console" property).mpr (.inl rfl)
    have hkept := fun heq => hlog ((console_member_eq_log_iff property).mp heq)
    exact ⟨hmember.lists hne (.made "console" hmade (by decide)) hstart hkept, hstart⟩
  | instanceOfMember object property constructor hmember hne hmade hconstructor =>
    have hstart := (startsWith_console_iff constructor property).mpr (.inr hconstructor)
    have hfor := StandsFor.made constructor hmade (ne_empty_of_startsWith hconstructor)
    exact ⟨hmember.lists hne hfor hstart (ne_log_of_startsWith hconstructor property), hstart⟩

theorem Lists.listsConsole (h : v.Lists source s) (hstart : s.startsWith "console." = true) :
    v.ListsConsole source s := by
  have hkept := h.kept
  cases h.resolves with
  | identifier callee hcallee hkind => exact .identifier callee h.call hcallee hkind hstart hkept
  | member callee o p receiver hcallee hkind ho hp hne hfor =>
    have hmember : v.CallsMember source (o.text source) (p.text source) :=
      ⟨h.call, callee, hcallee, hkind, ⟨o, ho, rfl⟩, p, hp, rfl⟩
    have hreceiver := (startsWith_console_iff receiver _).mp hstart
    -- An object that stands for itself is not `console`; one that does not has its last instance.
    rcases hfor.eq_or_lastMade with hself | hmade
    · rcases hreceiver with hconsole | hchain
      · exact absurd (hself.symm.trans hconsole) hne
      · subst hself
        exact .chain _ _ hmember hchain hfor
    · rcases hreceiver with hconsole | hchain
      · subst hconsole
        have hlog : p.text source ≠ "log" :=
          fun heq => hkept ((console_member_eq_log_iff _).mpr heq)
        exact .instanceOfConsole _ _ hmember hne hmade hlog
      · exact .instanceOfMember _ _ _ hmember hne hmade hchain

end Visit

/-- A name that begins with `console.` is among the calls of a function exactly when one of its
nodes lists it in one of these ways. -/
theorem console_name_listed_iff (source : Source) (f : Node) (s : String) :
    s ∈ f.calls source ∧ s.startsWith "console." = true ↔
      ∃ v ∈ f.visits, v.ListsConsole source s := by
  rw [f.mem_calls_iff]
  constructor
  · intro h
    obtain ⟨⟨v, hv, hlists⟩, hstart⟩ := h
    exact ⟨v, hv, hlists.listsConsole hstart⟩
  · intro h
    obtain ⟨v, hv, hlists⟩ := h
    exact ⟨⟨v, hv, hlists.lists.1⟩, hlists.lists.2⟩

def chainedConsole : Source :=
  "function f(x) { console.log.apply(console, x); }".toUTF8

/-- A member of `console.log` is listed, so some function has such a name among its calls. -/
theorem console_name_listed_in_chainedConsole :
    (∃ f, (JavaScript.parse chainedConsole).root.get? [0] = some f ∧ f.isFunction = true ∧
      "console.log.apply" ∈ f.calls chainedConsole) ∧
    ¬ ∀ (source : Source) (f : Node), f.isFunction = true →
      ∀ s ∈ f.calls source, s.startsWith "console." = false := by
  have hfound : ((JavaScript.parse chainedConsole).root.get? [0]).any (fun f => f.isFunction &&
      f.visits.any (fun v => v.node.kind == "call_expression" &&
        v.before.all (fun d => d.kind != "variable_declarator") &&
        (v.node.child? "function").any (fun callee => callee.kind == "member_expression" &&
          (callee.child? "object").any (fun o => o.text chainedConsole == "console.log") &&
          (callee.child? "property").any (fun p => p.text chainedConsole == "apply")))) = true := by
    decide +kernel
  simp only [Option.any_eq_true, List.any_eq_true, List.all_eq_true, Bool.and_eq_true,
    beq_iff_eq, bne_iff_ne] at hfound
  obtain ⟨f, hf, hfunction, v, hv, ⟨hcall, hplain⟩, callee, hcallee, ⟨hkind, o, ho, hobject⟩, p, hp,
    hproperty⟩ := hfound
  have hmember : v.CallsMember chainedConsole "console.log" "apply" :=
    ⟨hcall, callee, hcallee, hkind, ⟨o, ho, hobject⟩, p, hp, hproperty⟩
  have hlists : v.ListsConsole chainedConsole "console.log.apply" :=
    .chain "console.log" "apply" hmember (String.startsWith_string_iff.mpr (by decide))
      (.unmade (fun d hd c hmade => hplain d hd hmade.kind))
  have hlisted := (f.mem_calls_iff "console.log.apply").mpr ⟨v, hv, hlists.lists.1⟩
  refine ⟨⟨f, hf, hfunction, hlisted⟩, ?_⟩
  intro hsilent
  exact absurd (hsilent chainedConsole f hfunction _ hlisted) (by simp [hlists.lists.2])

end CallAtlas
