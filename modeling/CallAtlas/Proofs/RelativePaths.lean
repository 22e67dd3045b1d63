import CallAtlas.Scanner
import Mathlib.Data.List.Nodup

/-!
The paths below a scanned directory. A path made of names without slashes is taken apart into the
same names, so where entries of one directory have different names no two files found have the
same relative path.
-/

set_option autoImplicit false

namespace CallAtlas

namespace Path

theorem splitSlash_ne_nil (cs : List Char) : splitSlash cs ≠ [] := by
  cases cs with
  | nil => simp [splitSlash]
  | cons c rest =>
    simp only [splitSlash]
    split
    · simp
    · split
      · simp
      · simp

theorem splitSlash_of_not_mem {cs : List Char} (h : '/' ∉ cs) : splitSlash cs = [cs] := by
  induction cs with
  | nil => rfl
  | cons c rest ih =>
    rw [List.mem_cons, not_or] at h
    simp [splitSlash, ih h.2, Ne.symm h.1]

theorem splitSlash_append_slash {cs : List Char} (h : '/' ∉ cs) (rest : List Char) :
    splitSlash (cs ++ '/' :: rest) = cs :: splitSlash rest := by
  induction cs with
  | nil =>
    obtain ⟨piece, pieces, hrest⟩ := List.exists_cons_of_ne_nil (splitSlash_ne_nil rest)
    simp [splitSlash, hrest]
  | cons c cs ih =>
    rw [List.mem_cons, not_or] at h
    simp [splitSlash, ih h.2, Ne.symm h.1]

/-- Names without slashes are what the path made of them is taken apart into. -/
theorem pieces_joinSlash {names : List String} (hne : names ≠ [])
    (h : ∀ name ∈ names, '/' ∉ name.toList) : pieces (joinSlash names) = names := by
  induction names with
  | nil => exact absurd rfl hne
  | cons name rest ih =>
    have hname := h name List.mem_cons_self
    cases rest with
    | nil => simp [pieces, joinSlash, splitSlash_of_not_mem hname]
    | cons next rest =>
      have hrest := ih (List.cons_ne_nil _ _) (fun n hn => h n (List.mem_cons_of_mem _ hn))
      have hsplit : (joinSlash (name :: next :: rest)).toList =
          name.toList ++ '/' :: (joinSlash (next :: rest)).toList := by
        simp [joinSlash, String.intercalate_cons_cons]
      rw [pieces, hsplit, splitSlash_append_slash hname, List.map_cons]
      rw [pieces] at hrest
      rw [hrest, String.ofList_toList]

end Path

mutual
/-- In no directory two entries have the same name, and no name holds a slash. -/
def Entry.Proper : Entry → Prop
  | .directory entries => (entries.map Prod.fst).Nodup ∧ AllProper entries
  | .file _ => True
  | .link _ => True

def AllProper : List (String × Entry) → Prop
  | [] => True
  | e :: rest => ('/' ∉ e.1.toList ∧ e.2.Proper) ∧ AllProper rest
end

theorem AllProper.of_mem {entries : List (String × Entry)} (h : AllProper entries)
    {e : String × Entry} (he : e ∈ entries) : '/' ∉ e.1.toList ∧ e.2.Proper := by
  induction entries with
  | nil => simp at he
  | cons first rest ih =>
    rcases List.mem_cons.mp he with rfl | hrest
    · exact h.1
    · exact ih h.2 hrest

theorem filesOfEntries_eq_map (fs : FileSystem) (settings : Settings) (site : Site)
    (entries : List (String × Entry)) :
    filesOfEntries fs settings site entries = entries.map (filesOfEntry fs settings site) := by
  induction entries with
  | nil => simp only [filesOfEntries, List.map_nil]
  | cons e rest ih => simp only [filesOfEntries, List.map_cons, ih]

theorem map_fst_filesOfEntries (fs : FileSystem) (settings : Settings) (site : Site)
    (entries : List (String × Entry)) :
    (filesOfEntries fs settings site entries).map Prod.fst = entries.map Prod.fst := by
  rw [filesOfEntries_eq_map, List.map_map]
  apply List.map_congr_left
  rintro ⟨name, entry⟩ _
  simp [filesOfEntry]

/-- The names that lead to a file from the scanned directory. -/
def Found.names (f : Found) : List String :=
  Path.pieces f.relative

/-- The files were found in or below the directory that `above` leads to, each by names of its
own. -/
structure FoundBelow (above : List String) (found : List Found) : Prop where
  distinct : (found.map Found.names).Nodup
  below : ∀ f ∈ found, ∃ rest, rest ≠ [] ∧ f.names = above ++ rest

theorem names_relativeTo {site : Site} {name : String}
    (hsite : ∀ n ∈ site.relative, '/' ∉ n.toList) (hname : '/' ∉ name.toList) (path : String) :
    Found.names ⟨path, site.relativeTo name⟩ = site.relative ++ [name] := by
  apply Path.pieces_joinSlash
  · simp
  · intro n hn
    rcases List.mem_append.mp hn with hn | hn
    · exact hsite n hn
    · rwa [List.mem_singleton.mp hn]

/-- The files of a directory itself are told apart by their last names. -/
theorem names_filesHere (fs : FileSystem) (settings : Settings) {site : Site}
    (hsite : ∀ n ∈ site.relative, '/' ∉ n.toList) {entries : List (String × Entry)}
    (hnames : (entries.map Prod.fst).Nodup) (hproper : AllProper entries) :
    ∃ names : List String, names.Nodup ∧
      (filesHere fs settings site entries).map Found.names =
        names.map (fun n => site.relative ++ [n]) := by
  let kept := ((entries.filter (fun e => isFileEntry fs site e.2)).map Prod.fst).filter (fun n =>
    !settings.leavesOut (site.relativeTo n) && (Language.ofPath? (Path.join site.path n)).isSome)
  have hkept : kept.Sublist (entries.map Prod.fst) :=
    List.filter_sublist.trans (List.filter_sublist.map Prod.fst)
  have hsorted : (kept.mergeSort (fun a b => a ≤ b)).Perm kept := List.mergeSort_perm kept _
  refine ⟨kept.mergeSort (fun a b => a ≤ b), hsorted.nodup_iff.mpr (hnames.sublist hkept), ?_⟩
  rw [filesHere, List.map_map]
  apply List.map_congr_left
  intro name hname
  obtain ⟨e, he, rfl⟩ := List.mem_map.mp (hkept.subset (hsorted.mem_iff.mp hname))
  exact names_relativeTo hsite (hproper.of_mem he).1 _

/-- The files of a directory and of the directories in it are told apart by the first name on which
the ways to them differ. -/
theorem FoundBelow.append {above : List String} {here : List Found} {names : List String}
    (hnames : names.Nodup) (hhere : here.map Found.names = names.map (fun n => above ++ [n]))
    {inner : List (String × List Found)} (hinner : (inner.map Prod.fst).Nodup)
    (hbelow : ∀ p ∈ inner, FoundBelow (above ++ [p.1]) p.2) :
    FoundBelow above (here ++ inner.flatMap Prod.snd) := by
  constructor
  · rw [List.map_append, List.map_flatMap, hhere]
    refine List.nodup_append'.mpr ⟨?_, List.nodup_flatMap.mpr ⟨?_, ?_⟩, ?_⟩
    · exact hnames.map (fun a b h => by simpa using h)
    · exact fun p hp => (hbelow p hp).distinct
    · have hpairs : inner.Pairwise (fun p q => p.1 ≠ q.1) := List.pairwise_map.mp hinner
      refine hpairs.imp_of_mem ?_
      intro p q hp hq hne w hw hw'
      obtain ⟨f, hf, rfl⟩ := List.mem_map.mp hw
      obtain ⟨g, hg, hfg⟩ := List.mem_map.mp hw'
      obtain ⟨rest, _, hrest⟩ := (hbelow p hp).below f hf
      obtain ⟨rest', _, hrest'⟩ := (hbelow q hq).below g hg
      rw [hrest, hrest', List.append_assoc, List.append_assoc] at hfg
      have hcons := List.append_cancel_left hfg
      exact hne (List.cons.inj hcons).1.symm
    · intro w hw hw'
      obtain ⟨n, _, rfl⟩ := List.mem_map.mp hw
      obtain ⟨p, hp, hmem⟩ := List.mem_flatMap.mp hw'
      obtain ⟨f, hf, hfn⟩ := List.mem_map.mp hmem
      obtain ⟨rest, hne, hrest⟩ := (hbelow p hp).below f hf
      have hlength := congrArg List.length (hrest.symm.trans hfn)
      have hpos := List.length_pos_of_ne_nil hne
      simp only [List.length_append, List.length_singleton] at hlength
      omega
  · intro f hf
    rcases List.mem_append.mp hf with hf | hf
    · have hmem : f.names ∈ names.map (fun n => above ++ [n]) :=
        hhere ▸ List.mem_map_of_mem hf
      obtain ⟨n, _, hn⟩ := List.mem_map.mp hmem
      exact ⟨[n], List.cons_ne_nil _ _, hn.symm⟩
    · obtain ⟨p, hp, hf⟩ := List.mem_flatMap.mp hf
      obtain ⟨rest, _, hrest⟩ := (hbelow p hp).below f hf
      exact ⟨p.1 :: rest, List.cons_ne_nil _ _, by simpa using hrest⟩

mutual
theorem filesBelow_foundBelow (fs : FileSystem) (settings : Settings) (site : Site)
    (hsite : ∀ n ∈ site.relative, '/' ∉ n.toList) (e : Entry) (he : e.Proper) :
    FoundBelow site.relative (filesBelow fs settings site e) := by
  cases e with
  | file content => exact ⟨by simp [filesBelow], by simp [filesBelow]⟩
  | link target => exact ⟨by simp [filesBelow], by simp [filesBelow]⟩
  | directory entries =>
    obtain ⟨names, hnames, hhere⟩ := names_filesHere fs settings hsite he.1 he.2
    have hbelow := filesOfEntries_foundBelow fs settings site hsite entries he.2
    have hsorted := List.mergeSort_perm (filesOfEntries fs settings site entries)
      (fun a b => a.1 ≤ b.1)
    have hinner : ((filesOfEntries fs settings site entries).map Prod.fst).Nodup := by
      rw [map_fst_filesOfEntries]
      exact he.1
    rw [filesBelow]
    exact .append hnames hhere ((hsorted.map Prod.fst).nodup_iff.mpr hinner)
      (fun p hp => hbelow p (hsorted.mem_iff.mp hp))

theorem filesOfEntries_foundBelow (fs : FileSystem) (settings : Settings) (site : Site)
    (hsite : ∀ n ∈ site.relative, '/' ∉ n.toList) (entries : List (String × Entry))
    (hentries : AllProper entries) :
    ∀ p ∈ filesOfEntries fs settings site entries, FoundBelow (site.relative ++ [p.1]) p.2 := by
  cases entries with
  | nil => simp [filesOfEntries]
  | cons e rest =>
    intro p hp
    simp only [filesOfEntries] at hp
    rcases List.mem_cons.mp hp with rfl | hp
    · cases e with
      | mk name entry =>
        have hname := hentries.1.1
        have hbelow := filesBelow_foundBelow fs settings (site.below name)
          (by
            intro n hn
            rcases List.mem_append.mp hn with hn | hn
            · exact hsite n hn
            · rwa [List.mem_singleton.mp hn])
          entry hentries.1.2
        simp only [filesOfEntry]
        split
        · exact ⟨List.nodup_nil, by simp⟩
        · exact hbelow
    · exact filesOfEntries_foundBelow fs settings site hsite rest hentries.2 p hp
end

theorem Entry.Proper.get? {root e : Entry} (h : root.Proper) {place : List String}
    (he : root.get? place = some e) : e.Proper := by
  induction place generalizing root with
  | nil =>
    simp only [Entry.get?, Option.some.injEq] at he
    rwa [← he]
  | cons name rest ih =>
    simp only [Entry.get?] at he
    split at he
    · rename_i child hchild
      refine ih ?_ he
      cases root with
      | file content => simp [Entry.child?] at hchild
      | link target => simp [Entry.child?] at hchild
      | directory entries =>
        obtain ⟨found, hfound, rfl⟩ := Option.map_eq_some_iff.mp hchild
        exact (h.2.of_mem (List.mem_of_find?_eq_some hfound)).2
    · simp at he

theorem findFiles_distinct {fs : FileSystem} (h : fs.root.Proper) (settings : Settings)
    (path : String) : ((findFiles fs settings path).map Found.relative).Nodup := by
  unfold findFiles
  split
  · exact List.nodup_nil
  · rename_i place _
    split
    · rename_i entry hentry
      have hbelow := filesBelow_foundBelow fs settings ⟨place, path, []⟩ (by simp) entry
        (h.get? hentry)
      have hnames := hbelow.distinct
      rw [show Found.names = Path.pieces ∘ Found.relative from rfl, ← List.map_map] at hnames
      exact hnames.of_map _
    · exact List.nodup_nil

end CallAtlas
