import CallAtlas.Catalog
import CallAtlas.Proofs.LastOfKey
import Mathlib.Data.List.Basic

/-!
Who is listed as a caller after linking. Linking touches nothing but lists of callers; the list of
a record grows by the names of the records that reach it, each once and in the order in which the
callers are gone through.
-/

set_option autoImplicit false

namespace CallAtlas

namespace Record

/-- Some call of the record leads to the record at `t`. -/
def reaches (keys : KeyMap) (t : Nat) (r : Record) : Bool :=
  r.calls.any (fun called => keys[recordKey r.file called]? == some t)

def join (r : Record) (caller : String) : Record :=
  if r.calledBy.contains caller then r else { r with calledBy := r.calledBy ++ [caller] }

/-- Callers that are new to a record join it, each at its first occurrence. -/
def joinAll (r : Record) (names : List String) : Record :=
  { r with calledBy := r.calledBy ++ (names.removeAll r.calledBy).eraseDups }

theorem reaches_join (keys : KeyMap) (t : Nat) (r : Record) (caller : String) :
    (r.join caller).reaches keys t = r.reaches keys t := by
  unfold join
  split
  · rfl
  · rfl

theorem qualifiedName_join (r : Record) (caller : String) :
    (r.join caller).qualifiedName = r.qualifiedName := by
  unfold join
  split
  · rfl
  · rfl

theorem join_join (r : Record) (caller : String) :
    (r.join caller).join caller = r.join caller := by
  by_cases h : caller ∈ r.calledBy
  · simp [join, h]
  · simp [join, h]

theorem foldl_join (r : Record) (names : List String) :
    names.foldl join r = r.joinAll names := by
  induction names generalizing r with
  | nil => simp [joinAll]
  | cons name rest ih =>
    rw [List.foldl_cons, ih]
    by_cases h : name ∈ r.calledBy
    · simp [join, joinAll, h, List.cons_removeAll]
    · have hrest : rest.removeAll (r.calledBy ++ [name]) =
          (rest.removeAll r.calledBy).filter (fun b => !b == name) := by
        rw [List.removeAll, List.removeAll, List.filter_filter]
        apply List.filter_congr
        intro b _
        by_cases hb : b = name
        · simp [hb]
        · simp [hb]
      simp [join, joinAll, h, List.cons_removeAll, List.eraseDups_cons, hrest]

theorem mem_calledBy_joinAll (r : Record) (names : List String) (name : String) :
    name ∈ (r.joinAll names).calledBy ↔ name ∈ r.calledBy ∨ name ∈ names := by
  simp only [joinAll, List.mem_append, List.mem_eraseDups, List.removeAll, List.mem_filter]
  by_cases h : name ∈ r.calledBy
  · simp [h]
  · simp [h]

theorem joinAll_of_subset {r : Record} {names : List String}
    (h : ∀ name ∈ names, name ∈ r.calledBy) : r.joinAll names = r := by
  have hnone : names.removeAll r.calledBy = [] := by
    rw [List.removeAll, List.filter_eq_nil_iff]
    intro name hname
    simp [h name hname]
  simp [joinAll, hnone]

end Record

def callerName? (keys : KeyMap) (records : Array Record) (t i : Nat) : Option String :=
  (records[i]?.filter (Record.reaches keys t)).map Record.qualifiedName

/-- The names of those who call the record at `t`, in the order of the callers. -/
def callerNames (keys : KeyMap) (records : Array Record) (callers : List Nat) (t : Nat) :
    List String :=
  callers.filterMap (callerName? keys records t)

theorem getElem?_addCaller (records : Array Record) (target : Nat) (caller : String) (t : Nat) :
    (addCaller records target caller)[t]? =
      records[t]?.map (fun r => if target = t then r.join caller else r) := by
  unfold addCaller
  rw [Array.getElem?_modify]
  split
  · rfl
  · simp

theorem getElem?_linkCall (keys : KeyMap) (file : Option String) (caller : String)
    (records : Array Record) (called : String) (t : Nat) :
    (linkCall keys file caller records called)[t]? =
      records[t]?.map (fun r =>
        if keys[recordKey file called]? == some t then r.join caller else r) := by
  unfold linkCall
  cases keys[recordKey file called]? with
  | none => simp
  | some target =>
    rw [getElem?_addCaller]
    simp

theorem getElem?_foldl_linkCall (keys : KeyMap) (file : Option String) (caller : String)
    (calls : List String) (records : Array Record) (t : Nat) :
    (calls.foldl (linkCall keys file caller) records)[t]? =
      records[t]?.map (fun r =>
        if calls.any (fun called => keys[recordKey file called]? == some t)
        then r.join caller else r) := by
  induction calls generalizing records with
  | nil => simp
  | cons called rest ih =>
    rw [List.foldl_cons, ih, getElem?_linkCall, Option.map_map]
    congr 1
    funext r
    simp only [Function.comp_apply, List.any_cons, Bool.or_eq_true]
    by_cases hhere : (keys[recordKey file called]? == some t) = true
    · by_cases hlater :
          (rest.any (fun called => keys[recordKey file called]? == some t)) = true
      · simp only [hhere, hlater, if_true, or_self, Record.join_join]
      · simp only [hhere, hlater, if_true, true_or, Bool.false_eq_true, if_false]
    · simp only [hhere, Bool.false_eq_true, if_false, false_or]

theorem getElem?_linkCalls (keys : KeyMap) (records : Array Record) (i t : Nat) :
    (linkCalls keys records i)[t]? =
      records[t]?.map (fun r => (callerName? keys records t i).toList.foldl Record.join r) := by
  unfold linkCalls callerName?
  cases records[i]? with
  | none => simp
  | some caller =>
    simp only [getElem?_foldl_linkCall]
    cases h : caller.reaches keys t with
    | true =>
      rw [Record.reaches] at h
      simp [h, Option.filter, Record.reaches]
    | false =>
      rw [Record.reaches] at h
      simp [h, Option.filter, Record.reaches]

theorem callerName?_linkCalls (keys : KeyMap) (records : Array Record) (i t j : Nat) :
    callerName? keys (linkCalls keys records i) t j = callerName? keys records t j := by
  unfold callerName?
  rw [getElem?_linkCalls]
  cases records[j]? with
  | none => rfl
  | some r =>
    cases callerName? keys records j i with
    | none => simp
    | some name =>
      cases h : r.reaches keys t with
      | true => simp [Option.filter, Record.reaches_join, Record.qualifiedName_join, h]
      | false => simp [Option.filter, Record.reaches_join, h]

theorem getElem?_foldl_linkCalls (keys : KeyMap) (records : Array Record) (callers : List Nat)
    (t : Nat) :
    (callers.foldl (linkCalls keys) records)[t]? =
      records[t]?.map (fun r => (callerNames keys records callers t).foldl Record.join r) := by
  unfold callerNames
  induction callers generalizing records with
  | nil => simp
  | cons i rest ih =>
    rw [List.foldl_cons, ih, getElem?_linkCalls, Option.map_map]
    congr 1
    funext r
    simp only [Function.comp_apply, funext (callerName?_linkCalls keys records i t)]
    rw [List.filterMap_cons]
    cases callerName? keys records t i with
    | none => rfl
    | some name => rfl

theorem getElem?_linkAll (keys : KeyMap) (records : Array Record) (callers : List Nat) (t : Nat) :
    (linkAll keys records callers)[t]? =
      records[t]?.map (fun r => r.joinAll (callerNames keys records callers t)) := by
  rw [linkAll, getElem?_foldl_linkCalls]
  congr 1
  funext r
  exact r.foldl_join _

theorem mem_callerNames {keys : KeyMap} {records : Array Record} {callers : List Nat} {t : Nat}
    {name : String} :
    name ∈ callerNames keys records callers t ↔
      ∃ i ∈ callers, ∃ r, records[i]? = some r ∧ r.reaches keys t = true ∧
        r.qualifiedName = name := by
  simp only [callerNames, callerName?, List.mem_filterMap, Option.map_eq_some_iff,
    Option.filter_eq_some_iff, and_assoc]

theorem callerNames_linkAll (keys : KeyMap) (records : Array Record) (callers others : List Nat)
    (t : Nat) :
    callerNames keys (linkAll keys records others) callers t =
      callerNames keys records callers t := by
  unfold linkAll
  induction others generalizing records with
  | nil => rfl
  | cons i rest ih =>
    rw [List.foldl_cons, ih, callerNames, funext (callerName?_linkCalls keys records i t),
      callerNames]

theorem linkAll_linkAll (keys : KeyMap) (records : Array Record) (callers : List Nat) :
    linkAll keys (linkAll keys records callers) callers = linkAll keys records callers := by
  apply Array.ext_getElem?
  intro t
  rw [getElem?_linkAll, callerNames_linkAll, getElem?_linkAll, Option.map_map]
  congr 1
  funext r
  apply Record.joinAll_of_subset
  intro name hname
  exact (Record.mem_calledBy_joinAll r _ name).mpr (.inr hname)

/-- A path without a colon can be read off a key: it is what stands before the first one. -/
theorem recordKey_inj {f g a b : String} (hf : ':' ∉ f.toList) (hg : ':' ∉ g.toList)
    (h : recordKey (some f) a = recordKey (some g) b) : f = g ∧ a = b := by
  have hchars : f.toList ++ ':' :: ':' :: a.toList = g.toList ++ ':' :: ':' :: b.toList := by
    simpa [recordKey, fileLabel] using congrArg String.toList h
  have hfile : ∀ (s : String) (rest : List Char), ':' ∉ s.toList →
      (s.toList ++ ':' :: rest).takeWhile (· != ':') = s.toList := by
    intro s rest hs
    rw [List.takeWhile_append_of_pos]
    · simp
    · intro c hc
      have hne : c ≠ ':' := fun he => hs (he ▸ hc)
      simpa using hne
  have hfg : f.toList = g.toList := by
    rw [← hfile f (':' :: a.toList) hf, hchars, hfile g (':' :: b.toList) hg]
  rw [hfg] at hchars
  have hab : a.toList = b.toList := by
    simpa using List.append_cancel_left hchars
  exact ⟨String.toList_inj.mp hfg, String.toList_inj.mp hab⟩

/-- Among the records at some positions the one at `t` is the last that has the key. -/
def IsLastAmong (records : Array Record) (positions : List Nat) (key : String) (t : Nat) : Prop :=
  ∃ before after, positions = before ++ t :: after ∧
    (∃ r, records[t]? = some r ∧ r.key = key) ∧
    ∀ j ∈ after, ∀ r, records[j]? = some r → r.key ≠ key

def KeyMap.NamesLastAmong (keys : KeyMap) (records : Array Record) (positions : List Nat) : Prop :=
  ∀ key t, keys[key]? = some t ↔ IsLastAmong records positions key t

/-- The record has a file, and its path can be told apart from what follows it in a key. -/
def Record.HasPlainFile (r : Record) : Prop :=
  ∃ f, r.file = some f ∧ ':' ∉ f.toList

theorem after_of_range_eq {n t : Nat} {before after : List Nat}
    (h : List.range n = before ++ t :: after) : ∀ j, j ∈ after ↔ t < j ∧ j < n := by
  intro j
  rw [List.range_eq_range', List.range'_eq_append_iff] at h
  obtain ⟨k, hk, _, hrest⟩ := h
  obtain ⟨rfl, hpos, rfl⟩ := List.range'_eq_cons_iff.mp hrest.symm
  rw [List.mem_range'_1]
  omega

theorem isLastAmong_range_iff (records : Array Record) (key : String) (t : Nat) :
    IsLastAmong records (List.range records.size) key t ↔ IsLastOf records.toList key t := by
  unfold IsLastAmong IsLastOf
  simp only [Array.getElem?_toList]
  constructor
  · rintro ⟨before, after, hsplit, hhas, hlater⟩
    refine ⟨hhas, ?_⟩
    intro j r hj hr
    have hsize : j < records.size := (Array.getElem?_eq_some_iff.mp hr).1
    exact hlater j ((after_of_range_eq hsplit j).mpr ⟨hj, hsize⟩) r hr
  · rintro ⟨hhas, hlater⟩
    obtain ⟨r, hr, hkey⟩ := hhas
    have ht : t ∈ List.range records.size :=
      List.mem_range.mpr (Array.getElem?_eq_some_iff.mp hr).1
    obtain ⟨before, after, hsplit⟩ := List.append_of_mem ht
    refine ⟨before, after, hsplit, ⟨r, hr, hkey⟩, ?_⟩
    intro j hj q hq
    exact hlater j q ((after_of_range_eq hsplit j).mp hj).1 hq

theorem KeyMap.NamesLast.among {keys : KeyMap} {records : Array Record}
    (h : keys.NamesLast records.toList) :
    keys.NamesLastAmong records (List.range records.size) := by
  intro key t
  rw [h key t, isLastAmong_range_iff]

theorem calls_of_reaches {keys : KeyMap} {records : Array Record} {callers : List Nat}
    (hkeys : keys.NamesLastAmong records callers)
    (hfiles : ∀ i ∈ callers, ∀ r, records[i]? = some r → r.HasPlainFile)
    {i t : Nat} {r target : Record} (hi : i ∈ callers) (hr : records[i]? = some r)
    (htarget : records[t]? = some target) (h : r.reaches keys t = true) :
    r.file = target.file ∧ target.qualifiedName ∈ r.calls := by
  obtain ⟨called, hcalled, hkey⟩ := List.any_eq_true.mp h
  obtain ⟨before, after, hsplit, ⟨q, hq, hqkey⟩, _⟩ :=
    (hkeys (recordKey r.file called) t).mp (beq_iff_eq.mp hkey)
  rw [htarget] at hq
  cases hq
  have ht : t ∈ callers := by
    rw [hsplit]
    simp
  obtain ⟨f, hf, hfcolon⟩ := hfiles i hi r hr
  obtain ⟨g, hg, hgcolon⟩ := hfiles t ht target htarget
  rw [Record.key, hf, hg] at hqkey
  obtain ⟨rfl, rfl⟩ := recordKey_inj hgcolon hfcolon hqkey
  exact ⟨by rw [hf, hg], hcalled⟩

theorem reaches_of_calls {keys : KeyMap} {records : Array Record} {callers : List Nat}
    (hkeys : keys.NamesLastAmong records callers) {t : Nat} {r target : Record}
    (hlast : IsLastAmong records callers target.key t) (hfile : r.file = target.file)
    (h : target.qualifiedName ∈ r.calls) : r.reaches keys t = true := by
  refine List.any_eq_true.mpr ⟨target.qualifiedName, h, ?_⟩
  rw [hfile]
  exact beq_iff_eq.mpr ((hkeys target.key t).mpr hlast)

/-- Linking lets the callers of each record join it and leaves everything else as it was. A second
time it changes nothing, and the order of the callers decides on the order of the names only. When
the keys name the last record of each key and no path has a colon, those who join a record are
callers from its own file, and none of these is left out if the record is the last of its key. -/
theorem linkAll_joins_callers (keys : KeyMap) (records : Array Record) (callers : List Nat) :
    (∀ t : Nat, (linkAll keys records callers)[t]? =
      records[t]?.map (fun r => r.joinAll (callerNames keys records callers t))) ∧
    linkAll keys (linkAll keys records callers) callers = linkAll keys records callers ∧
    (∀ others, others.Perm callers → ∀ (t : Nat) (r s : Record),
      (linkAll keys records callers)[t]? = some r → (linkAll keys records others)[t]? = some s →
      ∀ name, name ∈ r.calledBy ↔ name ∈ s.calledBy) ∧
    (keys.NamesLastAmong records callers →
      (∀ i ∈ callers, ∀ r, records[i]? = some r → r.HasPlainFile) →
      ∀ (t : Nat) (old new : Record), records[t]? = some old →
        (linkAll keys records callers)[t]? = some new →
        (∀ name ∈ new.calledBy, name ∉ old.calledBy →
          ∃ i ∈ callers, ∃ r, records[i]? = some r ∧ r.qualifiedName = name ∧
            r.file = old.file ∧ old.qualifiedName ∈ r.calls) ∧
        (IsLastAmong records callers old.key t →
          ∀ i ∈ callers, ∀ r, records[i]? = some r → r.file = old.file →
            old.qualifiedName ∈ r.calls → r.qualifiedName ∈ new.calledBy)) := by
  refine ⟨getElem?_linkAll keys records callers, linkAll_linkAll keys records callers, ?_, ?_⟩
  · intro others hperm t r s hr hs name
    rw [getElem?_linkAll] at hr hs
    obtain ⟨old, hold, rfl⟩ := Option.map_eq_some_iff.mp hr
    rw [hold, Option.map_some, Option.some.injEq] at hs
    subst hs
    simp only [Record.mem_calledBy_joinAll, mem_callerNames, hperm.mem_iff]
  · intro hkeys hfiles t old new hold hnew
    rw [getElem?_linkAll, hold, Option.map_some, Option.some.injEq] at hnew
    subst hnew
    constructor
    · intro name hname hfresh
      have hcaller := ((Record.mem_calledBy_joinAll old _ name).mp hname).resolve_left hfresh
      obtain ⟨i, hi, r, hr, hreaches, rfl⟩ := mem_callerNames.mp hcaller
      obtain ⟨hfile, hcalls⟩ := calls_of_reaches hkeys hfiles hi hr hold hreaches
      exact ⟨i, hi, r, hr, rfl, hfile, hcalls⟩
    · intro hlast i hi r hr hfile hcalls
      have hreaches := reaches_of_calls hkeys hlast hfile hcalls
      exact (Record.mem_calledBy_joinAll old _ _).mpr
        (.inr (mem_callerNames.mpr ⟨i, hi, r, hr, hreaches, rfl⟩))

def mutualRecords : Array Record :=
  #[{ name := "f", parameters := "()", file := some "a.js", calls := ["g"] },
    { name := "g", parameters := "()", file := some "a.js", calls := ["f", "h", "f"] },
    { name := "f", parameters := "()", file := some "b.js", calls := ["g"] }]

theorem linkAll_joins_mutualRecords :
    let keys := KeyMap.ofRecords mutualRecords.toList
    keys.NamesLastAmong mutualRecords (List.range 3) ∧
    (∀ i ∈ List.range 3, ∀ r, mutualRecords[i]? = some r → r.HasPlainFile) ∧
    ∃ new, (linkAll keys mutualRecords (List.range 3))[0]? = some new ∧ "g" ∈ new.calledBy := by
  intro keys
  have hkeys : keys.NamesLastAmong mutualRecords (List.range 3) :=
    (KeyMap.namesLast_ofRecords mutualRecords.toList).among
  have hfiles : ∀ i ∈ List.range 3, ∀ r, mutualRecords[i]? = some r → r.HasPlainFile := by
    intro i _ r hr
    have hmem : r ∈ mutualRecords.toList := Array.mem_toList_iff.mpr (Array.mem_of_getElem? hr)
    simp only [mutualRecords, List.mem_cons, List.not_mem_nil, or_false] at hmem
    rcases hmem with rfl | rfl | rfl
    · exact ⟨"a.js", rfl, by decide⟩
    · exact ⟨"a.js", rfl, by decide⟩
    · exact ⟨"b.js", rfl, by decide⟩
  have hlast : IsLastAmong mutualRecords (List.range 3) "a.js::f" 0 := by
    refine ⟨[], [1, 2], rfl, ⟨mutualRecords[0], rfl, by decide⟩, ?_⟩
    intro j hj r hr
    simp only [List.mem_cons, List.not_mem_nil, or_false] at hj
    rcases hj with rfl | rfl
    · cases hr
      decide
    · cases hr
      decide
  obtain ⟨hjoin, _, _, hown⟩ := linkAll_joins_callers keys mutualRecords (List.range 3)
  obtain ⟨_, hall⟩ := hown hkeys hfiles 0 mutualRecords[0] _ rfl (hjoin 0)
  exact ⟨hkeys, hfiles, _, hjoin 0, hall hlast 1 (by decide) mutualRecords[1] rfl rfl (by decide)⟩

end CallAtlas
