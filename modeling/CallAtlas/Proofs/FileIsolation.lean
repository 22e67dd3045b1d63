import CallAtlas.Proofs.Callers
import CallAtlas.Proofs.ScanState
import CallAtlas.Proofs.WorkerPool

/-!
What is said about one file after linking. The records of a file stand together among all records,
and no record of another file leads to one of them, so they are linked as if there were no others.
-/

set_option autoImplicit false

namespace CallAtlas

/-- The records of one file, linked among themselves. -/
def linkAlone (records : List Record) : List Record :=
  (linkAll (KeyMap.ofRecords records) records.toArray (List.range records.length)).toList

theorem filterMap_range_filter (p : Record → Bool) (records : List Record) :
    (List.range records.length).filterMap
        (fun i => (records[i]?.filter p).map Record.qualifiedName) =
      (records.filter p).map Record.qualifiedName := by
  induction records with
  | nil => rfl
  | cons r rest ih =>
    rw [List.length_cons, List.range_succ_eq_map, List.filterMap_cons, List.filterMap_map,
      List.filter_cons]
    cases hr : p r with
    | true => simpa [Option.filter, hr, Function.comp_def] using ih
    | false => simpa [Option.filter, hr, Function.comp_def] using ih

theorem callerNames_range (keys : KeyMap) (records : List Record) (t : Nat) :
    callerNames keys records.toArray (List.range records.length) t =
      (records.filter (Record.reaches keys t)).map Record.qualifiedName := by
  rw [← filterMap_range_filter]
  unfold callerNames callerName?
  simp

theorem getElem?_block {before mine after : List Record} {i : Nat} (h : i < mine.length) :
    (before ++ mine ++ after)[before.length + i]? = mine[i]? := by
  rw [List.append_assoc, List.getElem?_append_right (by omega), Nat.add_sub_cancel_left,
    List.getElem?_append_left h]

theorem isLastOf_block {before mine after : List Record} {key : String}
    (h : ∀ r ∈ after, r.key ≠ key) (i : Nat) :
    IsLastOf (before ++ mine ++ after) key (before.length + i) ↔ IsLastOf mine key i := by
  -- A record with the key that does not come before the block stands in it.
  have hget : ∀ (j : Nat) (r : Record), r.key = key →
      ((before ++ mine ++ after)[before.length + j]? = some r ↔ mine[j]? = some r) := by
    intro j r hr
    by_cases hj : j < mine.length
    · rw [getElem?_block hj]
    · have hnone : mine[j]? = none := List.getElem?_eq_none (by omega)
      have hlater : (before ++ mine ++ after)[before.length + j]? ≠ some r := by
        rw [List.append_assoc, List.getElem?_append_right (by omega), Nat.add_sub_cancel_left,
          List.getElem?_append_right (by omega)]
        exact fun hr' => h r (List.mem_of_getElem? hr') hr
      exact iff_of_false hlater (by simp [hnone])
  constructor
  · rintro ⟨⟨r, hr, hkey⟩, hlast⟩
    refine ⟨⟨r, (hget i r hkey).mp hr, hkey⟩, ?_⟩
    intro j q hj hq hqkey
    exact hlast (before.length + j) q (by omega) ((hget j q hqkey).mpr hq) hqkey
  · rintro ⟨⟨r, hr, hkey⟩, hlast⟩
    refine ⟨⟨r, (hget i r hkey).mpr hr, hkey⟩, ?_⟩
    intro j q hj hq hqkey
    obtain ⟨k, rfl⟩ : ∃ k, j = before.length + k := ⟨j - before.length, by omega⟩
    exact hlast k q (by omega) ((hget k q hqkey).mp hq) hqkey

/-- The records of one file stand between those of other files, and every key tells its file. -/
structure KeyMap.SetsApart (keys : KeyMap) (file : String) (before mine after : List Record) :
    Prop where
  namesLast : keys.NamesLast (before ++ mine ++ after)
  plain : ∀ r ∈ before ++ mine ++ after, r.HasPlainFile
  own : ∀ r ∈ mine, r.file = some file
  others : ∀ r ∈ before ++ after, r.file ≠ some file

namespace KeyMap.SetsApart

variable {keys : KeyMap} {file : String} {before mine after : List Record}

theorem key_ne (h : keys.SetsApart file before mine after) {r q : Record} (hr : r ∈ mine)
    (hq : q ∈ before ++ after) (a b : String) : recordKey r.file a ≠ recordKey q.file b := by
  intro hkey
  have hall : q ∈ before ++ mine ++ after := by
    simp only [List.mem_append] at hq ⊢
    tauto
  obtain ⟨f, hf, hfcolon⟩ := h.plain r (by simp [hr])
  obtain ⟨g, hg, hgcolon⟩ := h.plain q hall
  rw [hf, hg] at hkey
  obtain ⟨rfl, _⟩ := recordKey_inj hfcolon hgcolon hkey
  exact h.others q hq (hg.trans (hf.symm.trans (h.own r hr)))

theorem reaches_own (h : keys.SetsApart file before mine after) {r : Record} (hr : r ∈ mine)
    (i : Nat) : r.reaches keys (before.length + i) = r.reaches (KeyMap.ofRecords mine) i := by
  refine List.any_congr rfl ?_
  intro called
  have hafter : ∀ q ∈ after, q.key ≠ recordKey r.file called :=
    fun q hq => (h.key_ne hr (List.mem_append_right before hq) called q.qualifiedName).symm
  rw [Bool.eq_iff_iff, beq_iff_eq, beq_iff_eq, h.namesLast, isLastOf_block hafter,
    KeyMap.namesLast_ofRecords mine]

theorem reaches_others (h : keys.SetsApart file before mine after) {q : Record}
    (hq : q ∈ before ++ after) {i : Nat} (hi : i < mine.length) :
    q.reaches keys (before.length + i) = false := by
  rw [Record.reaches, List.any_eq_false]
  intro called _ hkey
  obtain ⟨⟨r, hr, hrkey⟩, _⟩ := (h.namesLast _ _).mp (beq_iff_eq.mp hkey)
  rw [getElem?_block hi] at hr
  exact h.key_ne (List.mem_of_getElem? hr) hq r.qualifiedName called hrkey

theorem callerNames_eq (h : keys.SetsApart file before mine after) {i : Nat}
    (hi : i < mine.length) :
    callerNames keys (before ++ mine ++ after).toArray
        (List.range (before ++ mine ++ after).length) (before.length + i) =
      callerNames (KeyMap.ofRecords mine) mine.toArray (List.range mine.length) i := by
  have hbefore : before.filter (Record.reaches keys (before.length + i)) = [] := by
    rw [List.filter_eq_nil_iff]
    intro q hq
    simp [h.reaches_others (List.mem_append_left after hq) hi]
  have hafter : after.filter (Record.reaches keys (before.length + i)) = [] := by
    rw [List.filter_eq_nil_iff]
    intro q hq
    simp [h.reaches_others (List.mem_append_right before hq) hi]
  have hmine := List.filter_congr (fun r hr => h.reaches_own hr i)
  rw [callerNames_range, callerNames_range, List.filter_append, List.filter_append, hbefore,
    hafter, hmine, List.nil_append, List.append_nil]

theorem getElem?_linkAll (h : keys.SetsApart file before mine after) {i : Nat}
    (hi : i < mine.length) :
    (linkAll keys (before ++ mine ++ after).toArray
        (List.range (before ++ mine ++ after).length))[before.length + i]? =
      (linkAlone mine)[i]? := by
  rw [CallAtlas.getElem?_linkAll, h.callerNames_eq hi, linkAlone, Array.getElem?_toList,
    CallAtlas.getElem?_linkAll, List.getElem?_toArray, List.getElem?_toArray, getElem?_block hi]

end KeyMap.SetsApart

theorem size_linkAll (keys : KeyMap) (records : Array Record) (callers : List Nat) :
    (linkAll keys records callers).size = records.size := by
  have hnone : ∀ t, (linkAll keys records callers).size ≤ t ↔ records.size ≤ t := by
    intro t
    rw [← Array.getElem?_eq_none_iff, ← Array.getElem?_eq_none_iff, getElem?_linkAll,
      Option.map_eq_none_iff]
  exact Nat.le_antisymm ((hnone _).mpr (Nat.le_refl _)) ((hnone _).mp (Nat.le_refl _))

theorem length_linkAlone (records : List Record) : (linkAlone records).length = records.length := by
  rw [linkAlone, Array.length_toList, size_linkAll, List.size_toArray]

theorem filterMap_range' {get : Nat → Option Record} {first : Nat} {records : List Record}
    (h : ∀ i < records.length, get (first + i) = records[i]?) :
    (List.range' first records.length).filterMap get = records := by
  rw [List.range'_eq_map_range, List.filterMap_map]
  refine (List.filterMap_congr ?_).trans (Catalog.filterMap_getElem?_range records)
  exact fun i hi => h i (List.mem_range.mp hi)

namespace Catalog

variable {c : Catalog} {before mine after : List Record}

theorem pick_block (h : c.records.toList = before ++ mine ++ after) :
    c.pick (List.range' before.length mine.length) = mine := by
  apply filterMap_range'
  intro i hi
  rw [Catalog.get?, ← Array.getElem?_toList, h, getElem?_block hi]

/-- A file that is set apart is linked as if it were alone. -/
theorem pick_link_block {file : String} (hrecords : c.records.toList = before ++ mine ++ after)
    (h : c.keys.SetsApart file before mine after) :
    c.link.pick (List.range' before.length mine.length) = linkAlone mine := by
  have harray : c.records = (before ++ mine ++ after).toArray := by
    rw [← hrecords, Array.toArray_toList]
  rw [← length_linkAlone mine]
  apply filterMap_range'
  intro i hi
  rw [length_linkAlone] at hi
  rw [Catalog.get?, Catalog.link, harray, List.size_toArray]
  exact h.getElem?_linkAll hi

/-- The records that a file lists stand together among all records. -/
def InBlocks (c : Catalog) : Prop :=
  ∀ f ∈ c.files, ∃ before mine after, c.records.toList = before ++ mine ++ after ∧
    f.2 = List.range' before.length mine.length

end Catalog

theorem mem_putFile {file : Option String} {positions : List Nat}
    {files : List (Option String × List Nat)} {f : Option String × List Nat}
    (h : f ∈ putFile file positions files) : f = (file, positions) ∨ f ∈ files := by
  induction files with
  | nil => exact .inl (List.mem_singleton.mp h)
  | cons first rest ih =>
    obtain ⟨g, ps⟩ := first
    simp only [putFile] at h
    split at h
    · rcases List.mem_cons.mp h with hnew | hold
      · exact .inl hnew
      · exact .inr (List.mem_cons_of_mem _ hold)
    · rcases List.mem_cons.mp h with rfl | hrest
      · exact .inr List.mem_cons_self
      · exact (ih hrest).imp id (List.mem_cons_of_mem _)

theorem Catalog.InBlocks.merge {c : Catalog} (h : c.InBlocks) (file : Option String)
    (records : List Record) : (c.merge file records).InBlocks := by
  have hall : (c.merge file records).records.toList = c.records.toList ++ records := by
    simp [Catalog.merge]
  intro f hf
  rcases mem_putFile hf with rfl | hold
  · exact ⟨c.records.toList, records, [], by simp [hall], by simp⟩
  · obtain ⟨before, mine, after, hrecords, hpositions⟩ := h f hold
    exact ⟨before, mine, after ++ records, by simp [hall, hrecords], hpositions⟩

theorem Scanner.inBlocks_run (parser : Parser) (settings : Settings) (scans : List Scan) :
    ((fresh parser settings).run scans).catalog.InBlocks := by
  apply run_keeps (P := fun s => s.catalog.InBlocks)
  · intro s file e h
    exact h.merge file e.records
  · exact fun s h => h
  · intro f hf
    simp [fresh] at hf

theorem others_of_filter_eq {before mine after : List Record} {p : Record → Bool}
    (h : (before ++ mine ++ after).filter p = mine) (hmine : ∀ r ∈ mine, p r = true) :
    ∀ r ∈ before ++ after, p r = false := by
  have hlength := congrArg List.length h
  rw [List.filter_append, List.filter_append, List.filter_eq_self.mpr hmine] at hlength
  simp only [List.length_append] at hlength
  have hbefore : before.filter p = [] := List.eq_nil_of_length_eq_zero (by omega)
  have hafter : after.filter p = [] := List.eq_nil_of_length_eq_zero (by omega)
  intro r hr
  rcases List.mem_append.mp hr with hr | hr
  · simpa using List.filter_eq_nil_iff.mp hbefore r hr
  · simpa using List.filter_eq_nil_iff.mp hafter r hr

theorem lookup_of_mem {α β : Type} [BEq α] [LawfulBEq α] {l : List (α × β)}
    (h : (l.map Prod.fst).Nodup) {a : α} {b : β} (hmem : (a, b) ∈ l) : l.lookup a = some b := by
  induction l with
  | nil => simp at hmem
  | cons first rest ih =>
    rw [List.map_cons, List.nodup_cons] at h
    rcases List.mem_cons.mp hmem with rfl | hrest
    · simp
    · have hne : a ≠ first.1 := by
        rintro rfl
        exact h.1 (List.mem_map.mpr ⟨_, hrest, rfl⟩)
      rw [List.lookup_cons, beq_eq_false_iff_ne.mpr hne]
      exact ih h.2 hrest

/-- Where files differ, those records belong to a file that were merged with it. -/
theorem filter_flatMap_eq {merged : List (Option String × List Record)}
    (hdistinct : (merged.map Prod.fst).Nodup) (hfiles : ∀ m ∈ merged, ∀ r ∈ m.2, r.file = m.1)
    {file : Option String} {mine : List Record} (hmem : (file, mine) ∈ merged) :
    (merged.flatMap Prod.snd).filter (fun r => r.file == file) = mine := by
  obtain ⟨earlier, later, rfl⟩ := List.append_of_mem hmem
  rw [List.map_append, List.map_cons, List.nodup_middle, ← List.map_append] at hdistinct
  have hothers : ∀ ms, ms ⊆ earlier ++ later →
      (ms.flatMap Prod.snd).filter (fun r => r.file == file) = [] := by
    intro ms hms
    rw [List.filter_eq_nil_iff]
    intro r hr
    obtain ⟨m, hm, hr⟩ := List.mem_flatMap.mp hr
    have hne : m.1 ≠ file :=
      fun heq => (List.nodup_cons.mp hdistinct).1 (List.mem_map.mpr ⟨m, hms hm, heq⟩)
    have hfile := hfiles m (List.perm_middle.mem_iff.mpr (List.mem_cons_of_mem _ (hms hm))) r hr
    simpa [hfile] using hne
  have hmine : mine.filter (fun r => r.file == file) = mine := by
    rw [List.filter_eq_self]
    exact fun r hr => beq_iff_eq.mpr (hfiles _ hmem r hr)
  rw [List.flatMap_append, List.flatMap_cons, List.filter_append, List.filter_append, hmine,
    hothers earlier (List.subset_append_left _ _), hothers later (List.subset_append_right _ _),
    List.nil_append, List.append_nil]

/-- Where every file was merged once, the records of each are linked as if it were alone. -/
theorem Catalog.Holds.lookup_link {c : Catalog} {merged : List (Option String × List Record)}
    (h : c.Holds merged) (hblocks : c.InBlocks) (hkeys : c.keys.NamesLast c.records.toList)
    (hbyFile : c.byFile = merged) (hfiles : ∀ m ∈ merged, ∀ r ∈ m.2, r.file = m.1)
    (hplain : ∀ m ∈ merged, ∃ f, m.1 = some f ∧ ':' ∉ f.toList) {file : String}
    {mine : List Record} (hmem : (some file, mine) ∈ merged) :
    c.link.byFile.lookup (some file) = some (linkAlone mine) := by
  have hdistinct : (merged.map Prod.fst).Nodup := by
    rw [← hbyFile]
    exact (h.byFile.map Prod.fst).nodup_iff.mpr (nodup_latest merged)
  have hown : ∀ r ∈ mine, r.file = some file := hfiles _ hmem
  have hfilter := filter_flatMap_eq hdistinct hfiles hmem
  rw [← hbyFile] at hmem
  obtain ⟨⟨f, positions⟩, hmemf, hf⟩ := List.mem_map.mp hmem
  obtain ⟨rfl, hpick⟩ := Prod.mk.inj hf
  obtain ⟨before, block, after, hrecords, rfl⟩ := hblocks _ hmemf
  obtain rfl : block = mine := (Catalog.pick_block hrecords).symm.trans hpick
  have hapart : c.keys.SetsApart file before block after := by
    refine ⟨hrecords ▸ hkeys, ?_, hown, ?_⟩
    · intro r hr
      rw [← hrecords, h.records] at hr
      obtain ⟨m, hm, hr⟩ := List.mem_flatMap.mp hr
      obtain ⟨g, hg, hcolon⟩ := hplain m hm
      exact ⟨g, (hfiles m hm r hr).trans hg, hcolon⟩
    · rw [← h.records, hrecords] at hfilter
      have hothers := others_of_filter_eq hfilter (fun r hr => beq_iff_eq.mpr (hown r hr))
      exact fun r hr => beq_eq_false_iff_ne.mp (hothers r hr)
  apply lookup_of_mem
  · rw [← hbyFile, Catalog.map_fst_byFile] at hdistinct
    rw [Catalog.map_fst_byFile]
    exact hdistinct
  · refine List.mem_map.mpr ⟨_, hmemf, ?_⟩
    exact congrArg (Prod.mk (some file)) (Catalog.pick_link_block hrecords hapart)

theorem extractFile_of_readSource {fs : FileSystem} {settings : Settings} {path : String}
    {source : Source} (h : readSource fs settings path = .ok source) (parser : Parser)
    (file : String) :
    extractFile parser fs settings path file =
      analyze parser settings.detail (some file) (.octets source) := by
  rw [extractFile, h]
  rfl

namespace Scanner

section Fresh

variable {parser : Parser} {fs : FileSystem} {settings : Settings} {path : String} {f : Found}
  {t : Scanner}

theorem lookup_link_of_ok (hproper : fs.root.Proper) (hf : f ∈ findFiles fs settings path)
    {e : Extraction} (he : extractFile parser fs settings f.path f.relative = .ok e)
    (hcolon : ∀ g ∈ findFiles fs settings path, ':' ∉ g.relative.toList)
    (ht : (fresh parser settings).Ends fs path t) :
    t.catalog.link.byFile.lookup (some f.relative) = some (linkAlone e.records) := by
  obtain rfl := ht.eq_scanRepository
  have hreflects := reflects_fresh parser settings [.repository fs path]
  simp only [List.flatMap_cons, List.flatMap_nil, List.append_nil] at hreflects
  have hbyFile := (scanRepository_fresh hproper parser settings path).1
  refine hreflects.catalog.lookup_link (inBlocks_run parser settings [.repository fs path])
    (namesLast_run parser settings [.repository fs path]) hbyFile
    (Scan.merged_records_file parser settings (.repository fs path)) ?_ ?_
  · intro m hm
    obtain ⟨o, ho, hm⟩ := List.mem_filterMap.mp hm
    obtain ⟨g, hg, rfl⟩ := List.mem_map.mp ho
    obtain ⟨_, _, rfl⟩ := Option.map_eq_some_iff.mp hm
    exact ⟨g.relative, rfl, hcolon g hg⟩
  · refine List.mem_filterMap.mpr ⟨_, List.mem_map_of_mem hf, ?_⟩
    rw [he]
    rfl

/-- A file that fails is not listed, since no other file has its path. -/
theorem lookup_link_of_error (hproper : fs.root.Proper) (hf : f ∈ findFiles fs settings path)
    {error : Error} (herror : extractFile parser fs settings f.path f.relative = .error error)
    (ht : (fresh parser settings).Ends fs path t) :
    t.catalog.link.byFile.lookup (some f.relative) = none := by
  obtain rfl := ht.eq_scanRepository
  have hbyFile := (scanRepository_fresh hproper parser settings path).1
  rw [List.lookup_eq_none_iff]
  intro listed hlisted
  rw [bne_iff_ne]
  intro hsame
  have hkey : some f.relative ∈
      ((Scan.repository fs path).merged parser settings).map Prod.fst := by
    rw [← hbyFile, Catalog.map_fst_byFile, hsame]
    have hmem := List.mem_map_of_mem (f := Prod.fst) hlisted
    rwa [Catalog.map_fst_byFile] at hmem
  obtain ⟨m, hm, hmkey⟩ := List.mem_map.mp hkey
  obtain ⟨o, ho, hm⟩ := List.mem_filterMap.mp hm
  obtain ⟨g, hg, rfl⟩ := List.mem_map.mp ho
  obtain ⟨e, he, rfl⟩ := Option.map_eq_some_iff.mp hm
  obtain rfl : g = f := List.inj_on_of_nodup_map (findFiles_distinct hproper settings path) hg hf
    (Option.some.inj hmkey)
  rw [herror] at he
  simp [Except.toOption] at he

theorem lookup_link_of_ends (hproper : fs.root.Proper) (hf : f ∈ findFiles fs settings path)
    (hcolon : ∀ g ∈ findFiles fs settings path, ':' ∉ g.relative.toList)
    (ht : (fresh parser settings).Ends fs path t) :
    t.catalog.link.byFile.lookup (some f.relative) =
      (extractFile parser fs settings f.path f.relative).toOption.map
        (fun e => linkAlone e.records) := by
  cases houtcome : extractFile parser fs settings f.path f.relative with
  | error error => exact lookup_link_of_error hproper hf houtcome ht
  | ok e => exact lookup_link_of_ok hproper hf houtcome hcolon ht

end Fresh

/-- What is said about a file after linking is decided by the level of detail, the path of the file
below the scanned directory and its octets. Nothing is said if the octets cannot be parsed. -/
theorem output_of_file_alone {parser : Parser} {fs fs' : FileSystem}
    {settings settings' : Settings} {path path' : String} (hproper : fs.root.Proper)
    (hproper' : fs'.root.Proper) (hdetail : settings.detail = settings'.detail) {f f' : Found}
    (hf : f ∈ findFiles fs settings path) (hf' : f' ∈ findFiles fs' settings' path')
    (hrelative : f.relative = f'.relative) {source : Source}
    (hread : readSource fs settings f.path = .ok source)
    (hread' : readSource fs' settings' f'.path = .ok source)
    (hcolon : ∀ g ∈ findFiles fs settings path, ':' ∉ g.relative.toList)
    (hcolon' : ∀ g ∈ findFiles fs' settings' path', ':' ∉ g.relative.toList) {t t' : Scanner}
    (ht : (fresh parser settings).Ends fs path t)
    (ht' : (fresh parser settings').Ends fs' path' t') :
    let said := (analyze parser settings.detail (some f.relative) (.octets source)).toOption.map
      (fun e => linkAlone e.records)
    t.catalog.link.byFile.lookup (some f.relative) = said ∧
    t'.catalog.link.byFile.lookup (some f'.relative) = said ∧
    (t.catalog.link.byFile.lookup (some f.relative)).map (recordsJson · true) =
      (t'.catalog.link.byFile.lookup (some f'.relative)).map (recordsJson · true) := by
  intro said
  have hlookup : t.catalog.link.byFile.lookup (some f.relative) = said := by
    rw [lookup_link_of_ends hproper hf hcolon ht, extractFile_of_readSource hread]
  have hlookup' : t'.catalog.link.byFile.lookup (some f'.relative) = said := by
    rw [lookup_link_of_ends hproper' hf' hcolon' ht', extractFile_of_readSource hread',
      ← hdetail, ← hrelative]
  exact ⟨hlookup, hlookup', by rw [hlookup, hlookup']⟩

def sameNames : List (String × Entry) :=
  [("a.js", .file "function f() {}".toUTF8), ("c.js", .file "function f() { f(); }".toUTF8)]

def sameNamesFiles : FileSystem :=
  ⟨.directory sameNames, [], []⟩

theorem findFiles_sameNames :
    findFiles sameNamesFiles {} "." = [⟨"./a.js", "a.js"⟩, ⟨"./c.js", "c.js"⟩] := by
  have hlocate : sameNamesFiles.locate "." = .ok [] := by cbv
  have hroot : sameNamesFiles.root.get? [] = some (.directory sameNames) := rfl
  have hnames : (sameNames.filter (fun e =>
      isFileEntry sameNamesFiles ⟨[], ".", []⟩ e.2)).map Prod.fst = ["a.js", "c.js"] := by
    simp [sameNames, isFileEntry]
  have hkept : ["a.js", "c.js"].filter (fun n =>
      !({} : Settings).leavesOut (Site.relativeTo ⟨[], ".", []⟩ n) &&
        (Language.ofPath? (Path.join "." n)).isSome) = ["a.js", "c.js"] := by decide +kernel
  have hinner : filesOfEntries sameNamesFiles {} ⟨[], ".", []⟩ sameNames =
      [("a.js", []), ("c.js", [])] := by
    simp [sameNames, filesOfEntries, filesOfEntry, filesBelow]
  simp only [findFiles, hlocate, hroot, filesBelow, filesHere, hnames, hkept, hinner]
  rw [List.mergeSort_of_pairwise (by decide), List.mergeSort_of_pairwise (by decide)]
  decide +kernel

/-- Beside the file there is once one that cannot be read, and once one with a caller of the same
name. -/
theorem output_of_file_alone_in_sameNames :
    ∃ t t', twoWorkers.Ends halfReadableFiles "." t ∧
      (fresh JavaScript.parser {}).Ends sameNamesFiles "." t' ∧
      (t.catalog.link.byFile.lookup (some "a.js")).map (List.map Record.name) = some ["f"] ∧
      t.catalog.link.byFile.lookup (some "a.js") = t'.catalog.link.byFile.lookup (some "a.js") := by
  obtain ⟨t, ht⟩ := exists_ends twoWorkers halfReadableFiles "."
  obtain ⟨t', ht'⟩ := exists_ends (fresh JavaScript.parser {}) sameNamesFiles "."
  have hproper : halfReadableFiles.root.Proper := by
    refine ⟨by decide, ⟨by decide, trivial⟩, ⟨by decide, trivial⟩, trivial⟩
  have hproper' : sameNamesFiles.root.Proper := by
    refine ⟨by decide, ⟨by decide, trivial⟩, ⟨by decide, trivial⟩, trivial⟩
  have hread : readSource halfReadableFiles twoWorkers.settings "./a.js" =
      .ok "function f() {}".toUTF8 :=
    readSource_of_read (by decide) (by cbv : halfReadableFiles.size "./a.js" = .ok 15) (by decide)
      (by cbv)
  have hread' : readSource sameNamesFiles {} "./a.js" = .ok "function f() {}".toUTF8 :=
    readSource_of_read (by decide) (by cbv : sameNamesFiles.size "./a.js" = .ok 15) (by decide)
      (by cbv)
  have hcolon : ∀ g ∈ findFiles halfReadableFiles twoWorkers.settings ".",
      ':' ∉ g.relative.toList := by
    rw [findFiles_halfReadable]
    decide
  have hcolon' : ∀ g ∈ findFiles sameNamesFiles {} ".", ':' ∉ g.relative.toList := by
    rw [findFiles_sameNames]
    decide
  have hf : ⟨"./a.js", "a.js"⟩ ∈ findFiles halfReadableFiles twoWorkers.settings "." := by
    rw [findFiles_halfReadable]
    exact List.mem_cons_self
  have hf' : ⟨"./a.js", "a.js"⟩ ∈ findFiles sameNamesFiles {} "." := by
    rw [findFiles_sameNames]
    exact List.mem_cons_self
  have hdetail : twoWorkers.settings.detail = ({} : Settings).detail := rfl
  obtain ⟨hlookup, hlookup', _⟩ :=
    output_of_file_alone hproper hproper' hdetail hf hf' rfl hread hread' hcolon hcolon' ht ht'
  have hnames : (analyze JavaScript.parser twoWorkers.settings.detail (some "a.js")
      (.octets "function f() {}".toUTF8)).toOption.map
        (fun e => (linkAlone e.records).map Record.name) = some ["f"] := by decide +kernel
  refine ⟨t, t', ht, ht', ?_, hlookup.trans hlookup'.symm⟩
  rw [hlookup, Option.map_map]
  exact hnames

end Scanner

end CallAtlas
