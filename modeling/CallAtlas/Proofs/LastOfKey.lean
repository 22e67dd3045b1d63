import CallAtlas.Extraction
import Mathlib.Data.List.Induction

/-!
A key names the last of the records that have it, and keys that no record has name nothing. This
holds of the keys of any list of records and goes on holding while the list grows.
-/

set_option autoImplicit false

namespace CallAtlas

/-- The record at `i` has the key, and no later one has. -/
def IsLastOf (records : List Record) (key : String) (i : Nat) : Prop :=
  (∃ r, records[i]? = some r ∧ r.key = key) ∧
    ∀ j r, i < j → records[j]? = some r → r.key ≠ key

def KeyMap.NamesLast (keys : KeyMap) (records : List Record) : Prop :=
  ∀ key i, keys[key]? = some i ↔ IsLastOf records key i

theorem isLastOf_snoc_same (records : List Record) (r : Record) (i : Nat) :
    IsLastOf (records ++ [r]) r.key i ↔ i = records.length := by
  constructor
  · rintro ⟨⟨q, hq, _⟩, hlast⟩
    have hi : i < records.length + 1 := by
      obtain ⟨h, _⟩ := List.getElem?_eq_some_iff.mp hq
      simpa using h
    have hle : ¬ i < records.length := by
      intro h
      exact hlast records.length r h (by simp) rfl
    omega
  · rintro rfl
    refine ⟨⟨r, by simp, rfl⟩, ?_⟩
    intro j q hj hq
    obtain ⟨h, _⟩ := List.getElem?_eq_some_iff.mp hq
    simp only [List.length_append, List.length_singleton] at h
    omega

theorem isLastOf_snoc_other {records : List Record} {r : Record} {key : String}
    (hkey : r.key ≠ key) (i : Nat) :
    IsLastOf (records ++ [r]) key i ↔ IsLastOf records key i := by
  -- The new record does not have the key, so the same positions hold records that have it.
  have hsame : ∀ (j : Nat) (q : Record), q.key = key →
      ((records ++ [r])[j]? = some q ↔ records[j]? = some q) := by
    intro j q hq
    rcases Nat.lt_trichotomy j records.length with hj | hj | hj
    · rw [List.getElem?_append_left hj]
    · subst hj
      constructor
      · intro h
        simp only [List.getElem?_concat_length, Option.some.injEq] at h
        subst h
        contradiction
      · intro h
        simp at h
    · rw [List.getElem?_eq_none (by simp; omega), List.getElem?_eq_none (by omega)]
  constructor
  · rintro ⟨⟨q, hq, hqkey⟩, hlast⟩
    refine ⟨⟨q, (hsame i q hqkey).mp hq, hqkey⟩, ?_⟩
    intro j p hj hp hpkey
    exact hlast j p hj ((hsame j p hpkey).mpr hp) hpkey
  · rintro ⟨⟨q, hq, hqkey⟩, hlast⟩
    refine ⟨⟨q, (hsame i q hqkey).mpr hq, hqkey⟩, ?_⟩
    intro j p hj hp hpkey
    exact hlast j p hj ((hsame j p hpkey).mp hp) hpkey

namespace KeyMap.NamesLast

theorem insert {keys : KeyMap} {records : List Record} (h : keys.NamesLast records)
    (r : Record) : KeyMap.NamesLast (keys.insert r.key records.length) (records ++ [r]) := by
  intro key i
  rw [Std.HashMap.getElem?_insert]
  by_cases hkey : r.key = key
  · subst hkey
    rw [isLastOf_snoc_same]
    simp [eq_comm]
  · rw [isLastOf_snoc_other hkey]
    simp [hkey, h key i]

theorem extend {keys : KeyMap} {records : List Record} (h : keys.NamesLast records)
    (more : List Record) : (keys.extend records.length more).NamesLast (records ++ more) := by
  induction more generalizing keys records with
  | nil => simpa [KeyMap.extend] using h
  | cons r rest ih =>
    have hrest := ih (h.insert r)
    simpa [KeyMap.extend] using hrest

end KeyMap.NamesLast

theorem KeyMap.namesLast_ofRecords (records : List Record) :
    (KeyMap.ofRecords records).NamesLast records := by
  have hempty : KeyMap.NamesLast {} [] := by
    intro key i
    simp [IsLastOf]
  simpa [KeyMap.ofRecords] using hempty.extend records

theorem KeyMap.ofRecords_eq_of_keys {records others : List Record}
    (h : records.map Record.key = others.map Record.key) :
    KeyMap.ofRecords records = KeyMap.ofRecords others := by
  have hkeys : ∀ rs : List Record, KeyMap.ofRecords rs =
      (rs.map Record.key).zipIdx.foldl (fun keys (k, i) => keys.insert k i) {} := by
    intro rs
    rw [List.zipIdx_map, List.foldl_map]
    rfl
  rw [hkeys, hkeys, h]

namespace KeyMap

theorem extend_snoc (keys : KeyMap) (first : Nat) (records : List Record) (r : Record) :
    keys.extend first (records ++ [r]) =
      (keys.extend first records).insert r.key (first + records.length) := by
  simp [KeyMap.extend, List.zipIdx_append]

/-- Entering more records is an update with the keys that these have among themselves. -/
theorem getElem?_extend (keys : KeyMap) (first : Nat) (records : List Record) (key : String) :
    (keys.extend first records)[key]? =
      ((KeyMap.ofRecords records)[key]?.map (first + ·)).or keys[key]? := by
  induction records using List.reverseRecOn with
  | nil => simp [KeyMap.ofRecords, KeyMap.extend]
  | append_singleton records r ih =>
    rw [KeyMap.ofRecords, extend_snoc, extend_snoc, Std.HashMap.getElem?_insert,
      Std.HashMap.getElem?_insert]
    by_cases hkey : r.key = key
    · simp [hkey]
    · simpa [hkey, KeyMap.ofRecords] using ih

end KeyMap

end CallAtlas
