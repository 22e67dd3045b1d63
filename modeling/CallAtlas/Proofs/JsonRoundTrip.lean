import CallAtlas.Proofs.JsonTexts
import CallAtlas.Proofs.WorkerPool

/-!
Written JSON is read back. With any indentation a value is written as a valid text, and the text
stands for that value and no other, provided that no object names a member twice. What is written
about the records of files has this property.
-/

set_option autoImplicit false

namespace CallAtlas

namespace Json

open JsonText

mutual
def datum : Json → Datum
  | .text s => .text s
  | .number n => .integer n
  | .list items => .list (datums items)
  | .object members => .object (namedDatums members)

def datums : List Json → List Datum
  | [] => []
  | v :: rest => v.datum :: datums rest

def namedDatums : List (String × Json) → List (String × Datum)
  | [] => []
  | m :: rest => namedDatum m :: namedDatums rest

def namedDatum : String × Json → String × Datum
  | (name, v) => (name, v.datum)
end

@[simp] theorem datum_list (items : List Json) : (list items).datum = .list (items.map datum) := by
  have h : datums items = items.map datum := by
    induction items with
    | nil => rfl
    | cons v rest ih => simp [datums, ih]
  rw [datum, h]

@[simp] theorem datum_object (members : List (String × Json)) :
    (object members).datum = .object (members.map (fun m => (m.1, m.2.datum))) := by
  have h : namedDatums members = members.map (fun m => (m.1, m.2.datum)) := by
    induction members with
    | nil => rfl
    | cons m rest ih =>
      obtain ⟨name, v⟩ := m
      simp [namedDatums, namedDatum, ih]
  rw [datum, h]

theorem writeItems_eq (indent : Option Nat) (depth : Nat) (items : List Json) :
    writeItems indent depth items = items.map (write indent depth) := by
  induction items with
  | nil => rfl
  | cons v rest ih => simp [writeItems, ih]

theorem writeMembers_eq (indent : Option Nat) (depth : Nat) (members : List (String × Json)) :
    writeMembers indent depth members =
      members.map (fun m => quote m.1 ++ ": " ++ m.2.write indent depth) := by
  induction members with
  | nil => rfl
  | cons m rest ih =>
    obtain ⟨name, v⟩ := m
    simp [writeMembers, writeMember, ih]

/-- No object in the value names a member twice. -/
inductive Distinct : Json → Prop where
  | text (s : String) : Distinct (.text s)
  | number (n : Int) : Distinct (.number n)
  | list {items : List Json} (h : ∀ v ∈ items, Distinct v) : Distinct (.list items)
  | object {members : List (String × Json)} (hnames : (members.map Prod.fst).Nodup)
      (h : ∀ m ∈ members, Distinct m.2) : Distinct (.object members)

/-! ### Texts and numbers -/

theorem hexDigits_eq {n : Nat} (h : n < 0x20) :
    hexDigits n = ['0', '0', Nat.digitChar (n / 16), Nat.digitChar (n % 16)] ∧
      hexUnit? '0' '0' (Nat.digitChar (n / 16)) (Nat.digitChar (n % 16)) = some n := by
  revert n
  decide

theorem inside_escapeChar (c : Char) {cs s rest : List Char} (h : Inside cs s rest) :
    Inside (escapeChar c ++ cs) (c :: s) rest := by
  -- first those with a short escape, in the order of the definition
  by_cases hquote : c = '"'
  · subst hquote
    exact .escape (.short rfl) h
  by_cases hslash : c = '\\'
  · subst hslash
    exact .escape (.short rfl) h
  by_cases hline : c = '\n'
  · subst hline
    exact .escape (.short rfl) h
  by_cases hreturn : c = '\r'
  · subst hreturn
    exact .escape (.short rfl) h
  by_cases htab : c = '\t'
  · subst htab
    exact .escape (.short rfl) h
  have hc : Char.ofNat c.toNat = c := Char.ofNat_toNat c
  by_cases hback : c.toNat = 0x08
  · rw [hback] at hc
    subst hc
    exact .escape (.short rfl) h
  by_cases hfeed : c.toNat = 0x0C
  · rw [hfeed] at hc
    subst hc
    exact .escape (.short rfl) h
  by_cases hcontrol : c.toNat < 0x20
  · obtain ⟨hdigits, hunit⟩ := hexDigits_eq hcontrol
    have hhigh : isHigh c.toNat = false := by simp [isHigh]; omega
    have hlow : isLow c.toNat = false := by simp [isLow]; omega
    have hescape : Escape _ (Char.ofNat c.toNat) cs := .unit hunit hhigh hlow
    rw [hc] at hescape
    have hinside := Inside.escape hescape h
    simpa [escapeChar, hquote, hslash, hline, hreturn, htab, hback, hfeed, hcontrol, hdigits]
      using hinside
  · have hinside := Inside.char (by omega) hquote hslash h
    simpa [escapeChar, hquote, hslash, hline, hreturn, htab, hback, hfeed, hcontrol] using hinside

theorem inside_quote (s rest : List Char) :
    Inside (s.flatMap escapeChar ++ '"' :: rest) s rest := by
  induction s with
  | nil => exact .close
  | cons c s ih =>
    rw [List.flatMap_cons, List.append_assoc]
    exact inside_escapeChar c ih

/-- The digits of a number that is not zero do not start with one. -/
theorem head_toDigits {n : Nat} (h : 0 < n) : ∀ c ∈ (Nat.toDigits 10 n).head?, c ≠ '0' := by
  induction n using Nat.strongRecOn with
  | _ n ih =>
    by_cases hlt : n < 10
    · rw [Nat.toDigits_of_lt_base hlt]
      intro c hc hzero
      have hdigit : Nat.digitChar n = '0' := by simpa [hzero] using hc
      have := Nat.digitChar_eq_zero.mp hdigit
      omega
    · have hne : Nat.toDigits 10 (n / 10) ≠ [] := Nat.toDigits_ne_nil
      rw [Nat.toDigits_of_base_le (by omega) (by omega), List.head?_append_of_ne_nil _ hne]
      exact ih (n / 10) (by omega) (by omega)

theorem isWhole_toDigits (n : Nat) : isWhole (Nat.toDigits 10 n) = true := by
  by_cases hzero : n = 0
  · subst hzero
    rfl
  · have hhead := head_toDigits (Nat.pos_of_ne_zero hzero)
    have hall : ∀ c ∈ Nat.toDigits 10 n, c.isDigit = true :=
      fun c hc => Nat.isDigit_of_mem_toDigits (by omega) (by omega) hc
    cases hdigits : Nat.toDigits 10 n with
    | nil => exact absurd hdigits Nat.toDigits_ne_nil
    | cons c cs =>
      rw [hdigits] at hhead hall
      have hc : c ≠ '0' := hhead c rfl
      unfold isWhole
      split
      · simp_all
      · simp_all
      · simp_all

theorem plain_toString (n : Int) : Plain (toString n).toList (.integer n) := by
  by_cases hn : 0 ≤ n
  · have hplain := Plain.integer false (isWhole_toDigits n.toNat)
    rw [Nat.ofDigitChars_ten_toDigits] at hplain
    simpa [Int.toString_eq_repr, Int.repr_eq_if, Nat.repr_eq_ofList_toDigits, hn, minus, signed]
      using hplain
  · have hplain := Plain.integer true (isWhole_toDigits (-n).toNat)
    have hvalue : signed true (-n).toNat = n := by
      simp [signed]
      omega
    rw [Nat.ofDigitChars_ten_toDigits, hvalue] at hplain
    simpa [Int.toString_eq_repr, Int.repr_eq_if, Nat.repr_eq_ofList_toDigits, hn, minus]
      using hplain

/-! ### Gaps -/

theorem spells_lineBreak (indent : Option Nat) (depth : Nat) {cs : List Char} {ts : List Token}
    (h : Spells cs ts) : Spells ((lineBreak indent depth).toList ++ cs) ts := by
  have hspaces : ∀ n, Spells (List.replicate n ' ' ++ cs) ts := by
    intro n
    induction n with
    | zero => exact h
    | succ n ih => exact Spells.space (c := ' ') rfl ih
  cases indent with
  | none => simpa [lineBreak] using h
  | some width =>
    have hbreak := Spells.space (c := '\n') rfl (hspaces (width * depth))
    simpa [lineBreak] using hbreak

theorem endsWord_lineBreak (indent : Option Nat) (depth : Nat) {cs : List Char}
    (h : EndsWord cs) : EndsWord ((lineBreak indent depth).toList ++ cs) := by
  cases indent with
  | none => simpa [lineBreak] using h
  | some width => simp [lineBreak, EndsWord, isWordChar]

theorem spells_separator (indent : Option Nat) (depth : Nat) {cs : List Char} {ts : List Token}
    (h : Spells cs ts) : Spells ((separator indent depth).toList ++ cs) (.mark ',' :: ts) := by
  cases indent with
  | none =>
    have hmark : Spells (',' :: ' ' :: cs) (.mark ',' :: ts) := .mark rfl (.space rfl h)
    simpa [separator] using hmark
  | some width =>
    have hmark := Spells.mark (c := ',') rfl (spells_lineBreak (some width) depth h)
    simpa [separator] using hmark

theorem endsWord_separator (indent : Option Nat) (depth : Nat) (cs : List Char) :
    EndsWord ((separator indent depth).toList ++ cs) := by
  cases indent with
  | none => simp [separator, EndsWord, isWordChar]
  | some width => simp [separator, EndsWord, isWordChar]

theorem endsWord_mark {c : Char} (h : isMark c = true) (cs : List Char) : EndsWord (c :: cs) := by
  intro d hd
  obtain rfl : c = d := by simpa using hd
  by_contra hword
  have hnot := (not_mark_of_isWordChar (by simpa using hword)).2.1
  simp [h] at hnot

/-! ### Values -/

/-- The text is read by a rule, whatever comes next that does not run into it. -/
def ReadBy (rule : List Token → List Token → Prop) (text : String) : Prop :=
  ∀ {rest : List Char} {us : List Token}, EndsWord rest → Spells rest us →
    ∃ ts, Spells (text.toList ++ rest) ts ∧ rule ts us

theorem spells_quote (s : String) {rest : List Char} {us : List Token} (h : Spells rest us) :
    Spells ((quote s).toList ++ rest) (.text s :: us) := by
  simpa [quote] using Spells.text (inside_quote s.toList rest) h

theorem readBy_quote (s : String) : ReadBy (Value · (.text s) ·) (quote s) :=
  fun _ h => ⟨_, spells_quote s h, .text⟩

theorem readBy_number (n : Int) : ReadBy (Value · (.integer n) ·) (toString n) :=
  fun hends h => ⟨_, .plain (plain_toString n) hends h, .plain⟩

section Enclosed

variable {α : Type} {text : α → String} (one : α → List Token → List Token → Prop)
  (all : List α → List Token → List Token → Prop) {close : Char} (hclose : isMark close = true)
  (hlast : ∀ {a ts us}, one a ts (.mark close :: us) → all [a] ts us)
  (hmore : ∀ {a rest ts vs us}, one a ts (.mark ',' :: vs) → all rest vs us →
    all (a :: rest) ts us)

include hclose hlast hmore

/-- Parts with separators between them, up to the bracket that closes them. -/
theorem exists_parts (indent : Option Nat) (depth depth' : Nat) {rest : List Char}
    {us : List Token} (h : Spells rest us) (parts : List α) (hne : parts ≠ [])
    (hparts : ∀ a ∈ parts, ReadBy (one a) (text a)) :
    ∃ ts, Spells (((separator indent depth).intercalate (parts.map text)).toList ++
        ((lineBreak indent depth').toList ++ close :: rest)) ts ∧ all parts ts us := by
  induction parts with
  | nil => exact absurd rfl hne
  | cons a more ih =>
    have ha : ReadBy (one a) (text a) := hparts a List.mem_cons_self
    cases more with
    | nil =>
      obtain ⟨ts, hspells, hone⟩ :=
        ha (endsWord_lineBreak indent depth' (endsWord_mark hclose rest))
          (spells_lineBreak indent depth' (.mark hclose h))
      exact ⟨ts, by simpa [String.toList_intercalate] using hspells, hlast hone⟩
    | cons b more =>
      obtain ⟨vs, hspells', hrest⟩ :=
        ih (List.cons_ne_nil b more) (fun x hx => hparts x (List.mem_cons_of_mem a hx))
      -- the separator keeps the part from running into the next one
      obtain ⟨ts, hspells, hone⟩ :=
        ha (endsWord_separator indent depth _) (spells_separator indent depth hspells')
      refine ⟨ts, ?_, hmore hone hrest⟩
      simpa [String.toList_intercalate, List.intercalate_cons_cons] using hspells

theorem exists_enclosed (indent : Option Nat) (depth : Nat) (left right : String) (mark : Char)
    (hleft : left.toList = [mark]) (hright : right.toList = [close]) (hmark : isMark mark = true)
    {rest : List Char} {us : List Token} (h : Spells rest us) (parts : List α) (hne : parts ≠ [])
    (hparts : ∀ a ∈ parts, ReadBy (one a) (text a)) :
    ∃ ts, Spells ((enclose indent depth left right (parts.map text)).toList ++ rest)
      (.mark mark :: ts) ∧ all parts ts us := by
  obtain ⟨ts, hspells, hall⟩ :=
    exists_parts one all hclose hlast hmore indent (depth + 1) depth h parts hne hparts
  refine ⟨ts, ?_, hall⟩
  have hopen := Spells.mark hmark (spells_lineBreak indent (depth + 1) hspells)
  cases parts with
  | nil => exact absurd rfl hne
  | cons a more => simpa [enclose, hleft, hright] using hopen

end Enclosed

theorem readBy_list (indent : Option Nat) (depth : Nat) {items : List Json}
    (h : ∀ v ∈ items, ReadBy (Value · v.datum ·) (v.write indent (depth + 1))) :
    ReadBy (Value · (list items).datum ·) ((list items).write indent depth) := by
  intro rest us _ hrest
  rw [write, writeItems_eq, datum_list]
  by_cases hne : items = []
  · subst hne
    have hmarks : Spells ('[' :: ']' :: rest) _ := .mark rfl (.mark rfl hrest)
    exact ⟨_, by simpa [enclose] using hmarks, .emptyList⟩
  · obtain ⟨ts, hspells, hitems⟩ :=
      exists_enclosed (fun v ts us => Value ts v.datum us)
        (fun vs ts us => Items ts (vs.map datum) us) rfl .last .more indent depth "[" "]" '['
        rfl rfl rfl hrest items hne h
    exact ⟨_, hspells, .list hitems⟩

/-- A name and its colon stand before the value of a member. -/
def MemberRule (m : String × Json) (ts us : List Token) : Prop :=
  ∃ vs, ts = .text m.1 :: .mark ':' :: vs ∧ Value vs m.2.datum us

theorem readBy_member {m : String × Json} {text : String}
    (h : ReadBy (Value · m.2.datum ·) text) : ReadBy (MemberRule m) (quote m.1 ++ ": " ++ text) := by
  intro rest us hends hrest
  obtain ⟨vs, hspells, hvalue⟩ := h hends hrest
  have hname := spells_quote m.1 (.mark (c := ':') rfl (.space (c := ' ') rfl hspells))
  exact ⟨_, by simpa using hname, vs, rfl, hvalue⟩

theorem readBy_object (indent : Option Nat) (depth : Nat) {members : List (String × Json)}
    (hnames : (members.map Prod.fst).Nodup)
    (h : ∀ m ∈ members, ReadBy (Value · m.2.datum ·) (m.2.write indent (depth + 1))) :
    ReadBy (Value · (object members).datum ·) ((object members).write indent depth) := by
  intro rest us _ hrest
  rw [write, writeMembers_eq, datum_object]
  by_cases hne : members = []
  · subst hne
    have hmarks : Spells ('{' :: '}' :: rest) _ := .mark rfl (.mark rfl hrest)
    exact ⟨_, by simpa [enclose] using hmarks, .emptyObject⟩
  · obtain ⟨ts, hspells, hmembers⟩ :=
      exists_enclosed MemberRule
        (fun ms ts us => Members ts (ms.map (fun m => (m.1, m.2.datum))) us) rfl
        (fun ⟨_, hts, hvalue⟩ => hts ▸ .last hvalue)
        (fun ⟨_, hts, hvalue⟩ hmore => hts ▸ .more hvalue hmore)
        indent depth "\x7b" "\x7d" '{' rfl rfl rfl hrest members hne
        (fun m hm => readBy_member (h m hm))
    have hobject := Value.object hmembers
    rw [collect_of_nodup (by simpa [Function.comp_def] using hnames)] at hobject
    exact ⟨_, hspells, hobject⟩

theorem Distinct.readBy {v : Json} (h : Distinct v) (indent : Option Nat) (depth : Nat) :
    ReadBy (Value · v.datum ·) (v.write indent depth) := by
  induction h generalizing depth with
  | text s => exact readBy_quote s
  | number n => exact readBy_number n
  | list h ih => exact readBy_list indent depth (fun v hv => ih v hv (depth + 1))
  | object hnames h ih => exact readBy_object indent depth hnames (fun m hm => ih m hm (depth + 1))

/-- A value is written as a valid text that stands for it. -/
theorem Distinct.denotes {v : Json} (h : Distinct v) (indent : Option Nat) :
    Denotes (v.render indent) v.datum := by
  obtain ⟨ts, hspells, hvalue⟩ := h.readBy indent 0 (by simp [EndsWord]) .done
  exact ⟨ts, by simpa [render] using hspells, hvalue⟩

mutual
theorem eq_of_datum_eq : ∀ {v w : Json}, v.datum = w.datum → v = w
  | .text s, .text t, h => by simpa [datum] using h
  | .number m, .number n, h => by simpa [datum] using h
  | .list vs, .list ws, h => by
    have hs : datums vs = datums ws := by simpa [datum] using h
    rw [eq_of_datums_eq hs]
  | .object ms, .object ns, h => by
    have hs : namedDatums ms = namedDatums ns := by simpa [datum] using h
    rw [eq_of_namedDatums_eq hs]

theorem eq_of_datums_eq : ∀ {vs ws : List Json}, datums vs = datums ws → vs = ws
  | [], [], _ => rfl
  | v :: vs, w :: ws, h => by
    obtain ⟨hv, hvs⟩ : v.datum = w.datum ∧ datums vs = datums ws := by simpa [datums] using h
    rw [eq_of_datum_eq hv, eq_of_datums_eq hvs]

theorem eq_of_namedDatums_eq : ∀ {ms ns : List (String × Json)},
    namedDatums ms = namedDatums ns → ms = ns
  | [], [], _ => rfl
  | (a, v) :: ms, (b, w) :: ns, h => by
    obtain ⟨⟨rfl, hv⟩, hms⟩ : (a = b ∧ v.datum = w.datum) ∧ namedDatums ms = namedDatums ns := by
      simpa [namedDatums, namedDatum] using h
    rw [eq_of_datum_eq hv, eq_of_namedDatums_eq hms]
end

end Json

/-! ### Records -/

open Json JsonText

theorem distinct_point (p : Point) : Distinct p.json :=
  .object (by simp) (by simp [Distinct.number])

theorem distinct_textList (texts : List String) : Distinct (textList texts) := by
  refine .list ?_
  intro v hv
  obtain ⟨s, _, rfl⟩ := List.mem_map.mp hv
  exact .text s

theorem names_member? (name : String) (value : Option Json) :
    ((member? name value).map Prod.fst).Sublist [name] := by
  cases value with
  | none => exact List.nil_sublist _
  | some v => exact List.Sublist.refl _

theorem distinct_of_mem_member? {name : String} {text : Option String} {m : String × Json}
    (h : m ∈ member? name (text.map .text)) : Distinct m.2 := by
  cases text with
  | none => simp [member?] at h
  | some s =>
    obtain rfl : m = (name, .text s) := by simpa [member?] using h
    exact .text s

namespace Record

/-- The names that a record can have, in their order. -/
theorem names_members (r : Record) :
    (r.members.map Prod.fst).Sublist
      (["type"] ++ ["name", "parameters"] ++ ["returnType"] ++ ["class"] ++ ["calls"] ++
        ["startPosition", "endPosition"]) := by
  simp only [members, List.map_append]
  refine ((((names_member? _ _).append ?_).append (names_member? _ _)).append
    (names_member? _ _)).append ?_ |>.append ?_
  · cases r.signature with
    | none => exact List.Sublist.refl _
    | some s => simp
  · split
    · exact List.nil_sublist _
    · exact List.Sublist.refl _
  · cases r.position with
    | none => exact List.nil_sublist _
    | some p => exact List.Sublist.refl _

theorem distinct_of_mem_members (r : Record) : ∀ m ∈ r.members, Distinct m.2 := by
  intro m hm
  simp only [members, List.mem_append] at hm
  rcases hm with ((((hm | hm) | hm) | hm) | hm) | hm
  · exact distinct_of_mem_member? hm
  · split at hm
    · obtain rfl := List.mem_singleton.mp hm
      exact .text _
    · simp only [List.mem_cons, List.not_mem_nil, or_false] at hm
      rcases hm with rfl | rfl
      · exact .text _
      · exact .text _
  · exact distinct_of_mem_member? hm
  · exact distinct_of_mem_member? hm
  · split at hm
    · simp at hm
    · obtain rfl := List.mem_singleton.mp hm
      exact distinct_textList _
  · split at hm
    · simp only [List.mem_cons, List.not_mem_nil, or_false] at hm
      rcases hm with rfl | rfl
      · exact distinct_point _
      · exact distinct_point _
    · simp at hm

theorem distinct_json (r : Record) (withCallers : Bool) : Distinct (r.json withCallers) := by
  refine .object ?_ ?_
  · have hcallers : ((if withCallers && !r.calledBy.isEmpty then
        [("calledBy", textList r.calledBy)] else []).map Prod.fst).Sublist ["calledBy"] := by
      split
      · exact List.Sublist.refl _
      · exact List.nil_sublist _
    rw [List.map_append]
    exact (r.names_members.append hcallers).nodup (by decide)
  · intro m hm
    rcases List.mem_append.mp hm with hm | hm
    · exact r.distinct_of_mem_members m hm
    · split at hm
      · obtain rfl := List.mem_singleton.mp hm
        exact distinct_textList _
      · simp at hm

end Record

theorem distinct_recordsJson (records : List Record) (withCallers : Bool) :
    Distinct (recordsJson records withCallers) := by
  refine .list ?_
  intro v hv
  obtain ⟨r, _, rfl⟩ := List.mem_map.mp hv
  exact r.distinct_json withCallers

namespace Catalog

/-- The catalog lists these files, which all have a path and differ. -/
structure Lists (c : Catalog) (results : List (String × List Record)) : Prop where
  distinct : (results.map Prod.fst).Nodup
  byFile : c.byFile = results.map (fun p => (some p.1, p.2))

def ofResults (results : List (String × List Record)) : Catalog :=
  results.foldl (fun c p => c.merge (some p.1) p.2) {}

theorem lists_ofResults {results : List (String × List Record)}
    (h : (results.map Prod.fst).Nodup) : (ofResults results).Lists results := by
  refine ⟨h, ?_⟩
  have hboth : (ofResults results).Holds (results.map (fun p => (some p.1, p.2))) ∧
      (ofResults results).byFile = results.map (fun p => (some p.1, p.2)) := by
    induction results using List.reverseRecOn with
    | nil => exact ⟨Holds.empty, rfl⟩
    | append_singleton earlier p ih =>
      rw [List.map_append, List.nodup_append] at h
      obtain ⟨hholds, hbyFile⟩ := ih h.1
      have hnew : some p.1 ∉ (ofResults earlier).byFile.map Prod.fst := by
        rw [hbyFile, List.map_map]
        intro hmem
        obtain ⟨q, hq, hpath⟩ := List.mem_map.mp hmem
        exact h.2.2 q.1 (List.mem_map_of_mem hq) p.1 (by simp) (by simpa using hpath)
      have hlast : ofResults (earlier ++ [p]) = (ofResults earlier).merge (some p.1) p.2 := by
        simp [ofResults]
      rw [hlast, hholds.byFile_merge hnew p.2, hbyFile, List.map_append]
      exact ⟨hholds.merge (some p.1) p.2, rfl⟩
  exact hboth.2

end Catalog

/-- What is to be read of files with their records. -/
def payload (withCallers : Bool) (results : List (String × List Record)) : Datum :=
  .object (results.map (fun p => (p.1, (recordsJson p.2 withCallers).datum)))

namespace Catalog

variable {c c' : Catalog} {results results' : List (String × List Record)}

theorem Lists.json_eq (h : c.Lists results) (withCallers : Bool) :
    c.json withCallers = .object (results.map (fun p => (p.1, recordsJson p.2 withCallers))) := by
  simp [Catalog.json, h.byFile, Function.comp_def]

theorem Lists.distinct_json (h : c.Lists results) (withCallers : Bool) :
    Distinct (c.json withCallers) := by
  rw [h.json_eq]
  refine .object ?_ ?_
  · simpa [Function.comp_def] using h.distinct
  · intro m hm
    obtain ⟨p, _, rfl⟩ := List.mem_map.mp hm
    exact distinct_recordsJson p.2 withCallers

theorem Lists.datum_json (h : c.Lists results) (withCallers : Bool) :
    (c.json withCallers).datum = payload withCallers results := by
  simp [h.json_eq, payload, Function.comp_def]

theorem Lists.denotes_iff (h : c.Lists results) (withCallers : Bool) (indent : Option Nat)
    (d : Datum) :
    Denotes ((c.json withCallers).render indent) d ↔ d = payload withCallers results := by
  have hdenotes := (h.distinct_json withCallers).denotes indent
  rw [h.datum_json] at hdenotes
  constructor
  · intro hd
    have hsame := (read_of_denotes hd).symm.trans (read_of_denotes hdenotes)
    simpa using hsame
  · rintro rfl
    exact hdenotes

theorem Lists.read_render (h : c.Lists results) (withCallers : Bool) (indent : Option Nat) :
    read ((c.json withCallers).render indent) = some (payload withCallers results) :=
  read_of_denotes ((h.denotes_iff withCallers indent _).mpr rfl)

/-- What is read of a text says which value was written. -/
theorem Lists.json_eq_of_render_eq (h : c.Lists results) (h' : c'.Lists results')
    {withCallers withCallers' : Bool} {indent indent' : Option Nat}
    (heq : (c'.json withCallers').render indent' = (c.json withCallers).render indent) :
    c'.json withCallers' = c.json withCallers := by
  have hread := h'.read_render withCallers' indent'
  rw [heq, h.read_render withCallers indent, Option.some.injEq] at hread
  apply eq_of_datum_eq
  rw [h.datum_json, h'.datum_json, hread]

/-- With any indentation, files that are given with their records are written as a valid text. It
stands for the mapping from each path to the records of the file and for nothing else, and texts of
different values differ. -/
theorem render_reads_back (results : List (String × List Record))
    (hpaths : (results.map Prod.fst).Nodup) :
    (ofResults results).Lists results ∧
    ∀ c : Catalog, c.Lists results → ∀ (withCallers : Bool) (indent : Option Nat),
      (∀ d, Denotes ((c.json withCallers).render indent) d ↔ d = payload withCallers results) ∧
      read ((c.json withCallers).render indent) = some (payload withCallers results) ∧
      ∀ (c' : Catalog) (results' : List (String × List Record)), c'.Lists results' →
        ∀ (withCallers' : Bool) (indent' : Option Nat), c'.json withCallers' ≠ c.json withCallers →
          (c'.json withCallers').render indent' ≠ (c.json withCallers).render indent := by
  refine ⟨lists_ofResults hpaths, ?_⟩
  intro c h withCallers indent
  refine ⟨h.denotes_iff withCallers indent, h.read_render withCallers indent, ?_⟩
  intro c' results' h' withCallers' indent' hne heq
  exact hne (h.json_eq_of_render_eq h' heq)

def oddResults : List (String × List Record) :=
  [("a\"b.js", [{ name := "f\\", parameters := "(\x01)", calledBy := ["\n"] }]), ("😀.js", [])]

/-- A quotation mark, a backslash, control characters and one beyond the basic plane. -/
theorem render_reads_back_odd :
    (oddResults.map Prod.fst).Nodup ∧
    read (((ofResults oddResults).json true).render (some 2)) =
      some (.object [("a\"b.js", .list [.object [("name", .text "f\\"),
        ("parameters", .text "(\x01)"), ("calledBy", .list [.text "\n"])]]),
        ("😀.js", .list [])]) := by
  have hpaths : (oddResults.map Prod.fst).Nodup := by simp [oddResults]
  obtain ⟨hlists, hall⟩ := render_reads_back oddResults hpaths
  refine ⟨hpaths, ?_⟩
  rw [(hall _ hlists true (some 2)).2.1]
  rfl

end Catalog

end CallAtlas
