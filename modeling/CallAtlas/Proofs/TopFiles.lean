import CallAtlas.Proofs.RecordCounts
import Mathlib.Data.List.FinRange

/-!
Which files a summary lists. A file comes before another one if it has more functions and methods
or, with as many, if it was counted first; the first ten in this order are listed.
-/

set_option autoImplicit false

namespace CallAtlas

namespace Statistics

/-- The file at position `i` counts more than the one at `j`, or as much and stands before it. -/
def Outranks (st : Statistics) (i j : Fin st.files.length) : Prop :=
  (st.files.get j).2.total < (st.files.get i).2.total ∨
    (st.files.get j).2.total = (st.files.get i).2.total ∧ i < j

instance (st : Statistics) (i j : Fin st.files.length) : Decidable (st.Outranks i j) :=
  inferInstanceAs (Decidable (_ ∨ _ ∧ _))

/-- These positions are the first ten, or all, in the order of rank. -/
structure Ranks (st : Statistics) (listed : List (Fin st.files.length)) : Prop where
  length : listed.length = min 10 st.files.length
  ordered : listed.Pairwise st.Outranks
  best : ∀ i ∈ listed, ∀ j, j ∉ listed → st.Outranks i j

theorem Outranks.ne {st : Statistics} {i j : Fin st.files.length} (h : st.Outranks i j) :
    i ≠ j := by
  rintro rfl
  rcases h with h | ⟨_, h⟩
  · exact Nat.lt_irrefl _ h
  · exact Fin.lt_irrefl _ h

def countsNoLess (a b : Option String × Tally) : Bool :=
  b.2.total ≤ a.2.total

theorem countsNoLess_iff (a b : Option String × Tally) :
    countsNoLess a b = true ↔ b.2.total ≤ a.2.total :=
  decide_eq_true_iff

theorem countsNoLess_trans (a b c : Option String × Tally) (hab : countsNoLess a b = true)
    (hbc : countsNoLess b c = true) : countsNoLess a c = true := by
  rw [countsNoLess_iff] at *
  omega

theorem countsNoLess_total (a b : Option String × Tally) :
    (countsNoLess a b || countsNoLess b a) = true := by
  rw [Bool.or_eq_true, countsNoLess_iff, countsNoLess_iff]
  omega

def numbered (st : Statistics) (i : Fin st.files.length) : (Option String × Tally) × Nat :=
  (st.files.get i, i)

/-- All positions in the order of rank. -/
def ranking (st : Statistics) : List (Fin st.files.length) :=
  (List.finRange st.files.length).mergeSort
    (fun i j => List.zipIdxLE countsNoLess (st.numbered i) (st.numbered j))

theorem outranks_of_zipIdxLE {st : Statistics} {i j : Fin st.files.length} (hne : i ≠ j)
    (h : List.zipIdxLE countsNoLess (st.numbered i) (st.numbered j) = true) :
    st.Outranks i j := by
  unfold numbered List.zipIdxLE at h
  split at h
  · rename_i hmore
    rw [countsNoLess_iff] at hmore
    split at h
    · rename_i hless
      rw [countsNoLess_iff] at hless
      have hij : i.val ≤ j.val := of_decide_eq_true h
      exact .inr ⟨Nat.le_antisymm hmore hless, by omega⟩
    · rename_i hless
      rw [countsNoLess_iff] at hless
      exact .inl (Nat.lt_of_not_le hless)
  · simp at h

theorem map_numbered_finRange (st : Statistics) :
    (List.finRange st.files.length).map st.numbered = st.files.zipIdx := by
  apply List.ext_getElem
  · simp
  · intro n _ _
    simp [numbered]

/-- Sorting the positions sorts the rows, and rows with equal counts stay in order. -/
theorem map_get_ranking (st : Statistics) :
    st.ranking.map st.files.get = st.files.mergeSort countsNoLess := by
  have hnumbered : st.ranking.map st.numbered =
      st.files.zipIdx.mergeSort (List.zipIdxLE countsNoLess) := by
    rw [ranking, List.map_mergeSort (f := st.numbered) (fun _ _ _ _ => rfl), map_numbered_finRange]
  calc st.ranking.map st.files.get
      = (st.ranking.map st.numbered).map Prod.fst := by simp [numbered, Function.comp_def]
    _ = st.files.mergeSort countsNoLess := by rw [hnumbered, List.mergeSort_zipIdx]

theorem nodup_ranking (st : Statistics) : st.ranking.Nodup :=
  (List.mergeSort_perm _ _).nodup_iff.mpr (List.nodup_finRange _)

theorem mem_ranking (st : Statistics) (i : Fin st.files.length) : i ∈ st.ranking :=
  List.mem_mergeSort.mpr (List.mem_finRange i)

theorem pairwise_ranking (st : Statistics) : st.ranking.Pairwise st.Outranks := by
  have hsorted : st.ranking.Pairwise
      (fun i j => List.zipIdxLE countsNoLess (st.numbered i) (st.numbered j) = true) :=
    List.pairwise_mergeSort
      (fun i j k => List.zipIdxLE_trans countsNoLess_trans (st.numbered i) (st.numbered j)
        (st.numbered k))
      (fun i j => List.zipIdxLE_total countsNoLess_total (st.numbered i) (st.numbered j)) _
  -- no position is compared with itself, so the position decides every tie
  apply (hsorted.and st.nodup_ranking).imp
  rintro i j ⟨hle, hne⟩
  exact outranks_of_zipIdxLE hne hle

theorem ranks_take_ranking (st : Statistics) : st.Ranks (st.ranking.take 10) := by
  have hsplit : (st.ranking.take 10 ++ st.ranking.drop 10).Pairwise st.Outranks := by
    rw [List.take_append_drop]
    exact st.pairwise_ranking
  obtain ⟨hlisted, _, hrest⟩ := List.pairwise_append.mp hsplit
  refine ⟨?_, hlisted, ?_⟩
  · rw [List.length_take, ranking, List.length_mergeSort, List.length_finRange]
  · intro i hi j hj
    have hmem := st.mem_ranking j
    rw [← List.take_append_drop 10 st.ranking, List.mem_append] at hmem
    exact hrest i hi j (hmem.resolve_left hj)

theorem topFiles_eq (st : Statistics) : st.topFiles = (st.ranking.take 10).map st.files.get := by
  rw [List.map_take, map_get_ranking]
  rfl

theorem Ranks.nodup_files {st : Statistics} {listed : List (Fin st.files.length)}
    (h : st.Ranks listed) (hfiles : (st.files.map Prod.fst).Nodup) :
    (listed.map (fun i => (st.files.get i).1)).Nodup := by
  have hapart := List.pairwise_iff_getElem.mp (List.pairwise_map.mp hfiles)
  rw [List.Nodup, List.pairwise_map]
  apply h.ordered.imp
  intro i j hij
  rcases lt_or_gt_of_ne hij.ne with hlt | hgt
  · exact hapart i j i.isLt j.isLt hlt
  · exact (hapart j i j.isLt i.isLt hgt).symm

end Statistics

theorem Report.ofLines_append (first last : List String) :
    ofLines (first ++ last) = ofLines first ++ ofLines last := by
  simp [ofLines, String.join_append]

theorem Report.summary_eq (st : Statistics) :
    Report.summary st = Report.summary { st with files := [] } ++
      Report.ofLines (st.topFiles.map (fun row =>
        "  " ++ fileLabel row.1 ++ ": " ++ toString row.2.total ++ " (" ++ toString row.2.methods
          ++ " methods)")) := by
  rw [Report.summary, Report.summary, ← Report.ofLines_append]
  simp [summaryLines, Statistics.topFiles, Statistics.sortedReturnTypes]

namespace Scanner

/-- Where the first record of a file stands among all records. -/
def firstRecord (s : Scanner) (file : Option String) : Nat :=
  s.records.findIdx (fun r => r.file = file)

theorem firstRecord_eq (s : Scanner) (file : Option String) :
    s.firstRecord file = (s.records.map Record.file).idxOf file := by
  rw [firstRecord, List.idxOf, List.findIdx_map]
  congr 1
  funext r
  exact (beq_eq_decide r.file file).symm

theorem map_fst_files (s : Scanner) :
    s.statistics.files.map Prod.fst = (s.records.map Record.file).eraseDups :=
  map_fst_fileTable s.records

theorem mem_files_iff (s : Scanner) (file : Option String) :
    file ∈ s.statistics.files.map Prod.fst ↔ ∃ r ∈ s.records, r.file = file := by
  rw [map_fst_files, List.mem_eraseDups, List.mem_map]

theorem firstRecord_lt (s : Scanner) {i j : Fin s.statistics.files.length} (hij : i < j) :
    s.firstRecord (s.statistics.files.get i).1 < s.firstRecord (s.statistics.files.get j).1 := by
  have horder := pairwise_idxOf_eraseDups (s.records.map Record.file)
  rw [← map_fst_files, List.pairwise_map, List.pairwise_iff_getElem] at horder
  rw [firstRecord_eq, firstRecord_eq]
  exact horder i j i.isLt j.isLt hij

theorem lt_iff_firstRecord_lt (s : Scanner) (i j : Fin s.statistics.files.length) :
    i < j ↔
      s.firstRecord (s.statistics.files.get i).1 < s.firstRecord (s.statistics.files.get j).1 := by
  refine ⟨s.firstRecord_lt, ?_⟩
  intro hfirst
  rcases lt_trichotomy i j with hlt | rfl | hgt
  · exact hlt
  · exact absurd hfirst (Nat.lt_irrefl _)
  · exact absurd hfirst (Nat.lt_asymm (s.firstRecord_lt hgt))

end Scanner

/-- A summary ends with a line for each of the ten best ranked files, or for all if there are no
more; the files that a scanner has counted stand in the order of their first records. -/
theorem summary_lists_top_files :
    (∀ st : Statistics, ∃ listed : List (Fin st.files.length),
      st.Ranks listed ∧
      ((st.files.map Prod.fst).Nodup → (listed.map (fun i => (st.files.get i).1)).Nodup) ∧
      Report.summary st = Report.summary { st with files := [] } ++
        Report.ofLines (listed.map (fun i =>
          let (file, t) := st.files.get i
          "  " ++ fileLabel file ++ ": " ++ toString (t.functions + t.methods) ++ " ("
            ++ toString t.methods ++ " methods)"))) ∧
    ∀ s : Scanner,
      (s.statistics.files.map Prod.fst).Nodup ∧
      (∀ file, file ∈ s.statistics.files.map Prod.fst ↔ ∃ r ∈ s.records, r.file = file) ∧
      ∀ i j : Fin s.statistics.files.length, i < j ↔
        s.firstRecord (s.statistics.files.get i).1 <
          s.firstRecord (s.statistics.files.get j).1 := by
  constructor
  · intro st
    have hranks := st.ranks_take_ranking
    refine ⟨st.ranking.take 10, hranks, hranks.nodup_files, ?_⟩
    rw [Report.summary_eq, Statistics.topFiles_eq, List.map_map]
    rfl
  · intro s
    refine ⟨?_, s.mem_files_iff, s.lt_iff_firstRecord_lt⟩
    rw [s.map_fst_files]
    exact nodup_eraseDups _

/-- The last of eleven files has the most functions. -/
def elevenFiles : Statistics where
  totalFiles := 11
  totalErrors := 0
  totalFunctions := 12
  totalMethods := 0
  totalCalls := 0
  byReturnType := []
  files := ["a", "b", "c", "d", "e", "f", "g", "h", "i", "j"].map (fun name => (some name, ⟨1, 0⟩))
    ++ [(some "k", ⟨2, 0⟩)]

theorem summary_lists_top_files_of_elevenFiles :
    (elevenFiles.files.map Prod.fst).Nodup ∧
    ∃ listed : List (Fin elevenFiles.files.length), elevenFiles.Ranks listed ∧
      (listed.map (fun i => (elevenFiles.files.get i).1)).Nodup ∧ listed.length = 10 ∧
      ⟨10, by decide⟩ ∈ listed := by
  have hfiles : (elevenFiles.files.map Prod.fst).Nodup := by decide
  have hbest : ∀ i, ¬ elevenFiles.Outranks i ⟨10, by decide⟩ := by decide
  obtain ⟨listed, hranks, hdistinct, _⟩ := summary_lists_top_files.1 elevenFiles
  refine ⟨hfiles, listed, hranks, hdistinct hfiles, hranks.length, ?_⟩
  by_contra hnot
  have hsome : listed ≠ [] := List.ne_nil_of_length_pos (by rw [hranks.length]; decide)
  obtain ⟨i, hi⟩ := List.exists_mem_of_ne_nil listed hsome
  exact hbest i (hranks.best i hi _ hnot)

end CallAtlas
