import CallAtlas.Proofs.PathTexts
import Mathlib.Data.List.TakeWhile

/-!
Which files a search finds. It finds a file exactly if real directories lead to it, no name on the
way is ignored or hidden, and its extension is one of JavaScript; it lists the files of a directory
by name, then those of the directories in it, again by name.
-/

set_option autoImplicit false

namespace CallAtlas

mutual
/-- Every entry has a name that a directory can list. -/
def Entry.Named : Entry → Prop
  | .directory entries => AllNamed entries
  | .file _ => True
  | .link _ => True

def AllNamed : List (String × Entry) → Prop
  | [] => True
  | e :: rest => (Path.IsName e.1 ∧ e.2.Named) ∧ AllNamed rest
end

theorem AllNamed.of_mem {entries : List (String × Entry)} (h : AllNamed entries)
    {e : String × Entry} (he : e ∈ entries) : Path.IsName e.1 ∧ e.2.Named := by
  induction entries with
  | nil => simp at he
  | cons first rest ih =>
    rcases List.mem_cons.mp he with rfl | hrest
    · exact h.1
    · exact ih h.2 hrest

/-- The directory was reached from a path by going down from name to name. -/
structure Site.ReachedFrom (site : Site) (start : String) : Prop where
  path : site.path = site.relative.foldl Path.join start
  names : ∀ n ∈ site.relative, Path.IsName n

/-- The text that leads from the scanned directory to an entry, made of the two paths. -/
def Site.text (site : Site) (here start name : String) : String :=
  Path.join (Path.relative here site.path start) name

def textsHere (fs : FileSystem) (settings : Settings) (start : String) (site : Site)
    (entries : List (String × Entry)) : List Found :=
  let text := fun n => Path.normalize (site.text fs.hereText start n)
  let names := (entries.filter (fun e => isFileEntry fs site e.2)).map Prod.fst
  let kept := names.filter (fun n =>
    !settings.leavesOut (text n) && (Language.ofPath? (Path.join site.path n)).isSome)
  (kept.mergeSort (fun a b => a ≤ b)).map (fun n => ⟨Path.join site.path n, text n⟩)

mutual
/-- A search that knows the path of the scanned directory and the path it has come to, and makes
every text of these two. -/
def textsBelow (fs : FileSystem) (settings : Settings) (start : String) (site : Site) :
    Entry → List Found
  | .directory entries =>
    textsHere fs settings start site entries
      ++ ((textsOfEntries fs settings start site entries).mergeSort (fun a b => a.1 ≤ b.1)).flatMap
        Prod.snd
  | .file _ => []
  | .link _ => []

def textsOfEntries (fs : FileSystem) (settings : Settings) (start : String) (site : Site) :
    List (String × Entry) → List (String × List Found)
  | [] => []
  | e :: rest =>
    textsOfEntry fs settings start site e :: textsOfEntries fs settings start site rest

def textsOfEntry (fs : FileSystem) (settings : Settings) (start : String) (site : Site) :
    String × Entry → String × List Found
  | (name, entry) =>
    (name,
      if settings.leavesOut (site.text fs.hereText start name) then []
      else textsBelow fs settings start (site.below name) entry)
end

namespace Site.ReachedFrom

variable {site : Site} {start name : String}

theorem below (h : site.ReachedFrom start) (hname : Path.IsName name) :
    (site.below name).ReachedFrom start := by
  refine ⟨?_, Path.forall_mem_snoc h.names hname⟩
  simp [Site.below, h.path]

/-- The text of an entry resolves to the names on the way to it. -/
theorem normalize_text (h : site.ReachedFrom start) (hname : Path.IsName name) (here : String) :
    Path.normalize (site.text here start name) = site.relativeTo name := by
  rw [Site.text, h.path, Path.relative_foldl_join h.names]
  exact Path.normalize_join_wayDown h.names hname

theorem leavesOut_text (h : site.ReachedFrom start) (hname : Path.IsName name) (here : String)
    (settings : Settings) :
    settings.leavesOut (site.text here start name) = settings.leavesOut (site.relativeTo name) := by
  have hnames := Path.forall_mem_snoc h.names hname
  have htext : Path.basename (site.text here start name) = name := Path.basename_join hname.noSlash
  have hrelative : Path.basename (site.relativeTo name) = name :=
    Path.basename_joinSlash h.names hname
  have hnormal : Path.normalize (site.relativeTo name) = site.relativeTo name :=
    Path.normalize_joinSlash (by simp) hnames
  simp only [Settings.leavesOut, h.normalize_text hname, htext, hrelative, hnormal]

theorem textsHere_eq (h : site.ReachedFrom start) {entries : List (String × Entry)}
    (hnamed : AllNamed entries) (fs : FileSystem) (settings : Settings) :
    textsHere fs settings start site entries = filesHere fs settings site entries := by
  have htext : ∀ n ∈ (entries.filter (fun e => isFileEntry fs site e.2)).map Prod.fst,
      Path.normalize (site.text fs.hereText start n) = site.relativeTo n := by
    intro n hn
    obtain ⟨e, he, rfl⟩ := List.mem_map.mp hn
    exact h.normalize_text (hnamed.of_mem (List.mem_of_mem_filter he)).1 fs.hereText
  have hkept : ((entries.filter (fun e => isFileEntry fs site e.2)).map Prod.fst).filter (fun n =>
      !settings.leavesOut (Path.normalize (site.text fs.hereText start n)) &&
        (Language.ofPath? (Path.join site.path n)).isSome) = _ :=
    List.filter_congr (fun n hn => by rw [htext n hn])
  simp only [textsHere, filesHere, hkept]
  apply List.map_congr_left
  intro n hn
  rw [htext n (List.mem_of_mem_filter (List.mem_mergeSort.mp hn))]

end Site.ReachedFrom

mutual
/-- The two searches find the same files under the same texts. -/
theorem textsBelow_eq {site : Site} {start : String} (h : site.ReachedFrom start) (fs : FileSystem)
    (settings : Settings) (e : Entry) (hnamed : e.Named) :
    textsBelow fs settings start site e = filesBelow fs settings site e := by
  cases e with
  | file content => rw [textsBelow, filesBelow]
  | link target => rw [textsBelow, filesBelow]
  | directory entries =>
    rw [Entry.Named] at hnamed
    rw [textsBelow, filesBelow, h.textsHere_eq hnamed,
      textsOfEntries_eq h fs settings entries hnamed]

theorem textsOfEntries_eq {site : Site} {start : String} (h : site.ReachedFrom start)
    (fs : FileSystem) (settings : Settings) (entries : List (String × Entry))
    (hnamed : AllNamed entries) :
    textsOfEntries fs settings start site entries = filesOfEntries fs settings site entries := by
  cases entries with
  | nil => rw [textsOfEntries, filesOfEntries]
  | cons e rest =>
    obtain ⟨name, entry⟩ := e
    rw [AllNamed] at hnamed
    obtain ⟨⟨hname, hentry⟩, hrest⟩ := hnamed
    rw [textsOfEntries, filesOfEntries, textsOfEntry, filesOfEntry, h.leavesOut_text hname,
      textsBelow_eq (h.below hname) fs settings entry hentry,
      textsOfEntries_eq h fs settings rest hrest]
end

namespace Entry

/-- What holds of a directory as soon as it holds of all that stands in it holds of every entry. -/
@[elab_as_elim]
theorem inductionOn {motive : Entry → Prop} (e : Entry) (file : ∀ content, motive (.file content))
    (link : ∀ target, motive (.link target))
    (directory : ∀ entries, (∀ e ∈ entries, motive e.2) → motive (.directory entries)) :
    motive e :=
  @Entry.rec motive (fun entries => ∀ e ∈ entries, motive e.2) (fun e => motive e.2)
    file directory link (by simp) (fun _ _ he hrest => List.forall_mem_cons.mpr ⟨he, hrest⟩)
    (fun _ _ he => he) e

/-- With names that differ, the entry of a name is the one that is listed with it. -/
theorem child?_directory {entries : List (String × Entry)} (h : (entries.map Prod.fst).Nodup)
    (name : String) (e : Entry) :
    (directory entries).child? name = some e ↔ (name, e) ∈ entries := by
  simp only [child?]
  induction entries with
  | nil => simp
  | cons first rest ih =>
    obtain ⟨n, x⟩ := first
    rw [List.map_cons, List.nodup_cons] at h
    rw [List.mem_cons, ← ih h.2, List.find?_cons]
    by_cases hn : n = name
    · subst hn
      have hnot : (n, e) ∉ rest := fun hmem => h.1 (List.mem_map.mpr ⟨(n, e), hmem, rfl⟩)
      rw [← ih h.2] at hnot
      simp [hnot, eq_comm]
    · have hne : (n == name) = false := beq_eq_false_iff_ne.mpr hn
      simp [hne, Ne.symm hn]

theorem get?_append (e : Entry) (p q : List String) :
    e.get? (p ++ q) = (e.get? p).bind (fun x => x.get? q) := by
  induction p generalizing e with
  | nil => rfl
  | cons name rest ih =>
    simp only [List.cons_append, get?]
    cases e.child? name with
    | none => rfl
    | some c => exact ih c

theorem get?_singleton (e : Entry) (name : String) : e.get? [name] = e.child? name := by
  simp only [get?]
  cases e.child? name with
  | none => rfl
  | some c => rfl

end Entry

/-- A name ends in a dot and one of the extensions, in either case, and not only dots stand before
that. -/
def IsSourceName (name : String) : Prop :=
  ∃ stem ending : List Char, name.toList = stem ++ '.' :: ending ∧ '.' ∉ ending ∧
    (∃ c ∈ stem, c ≠ '.') ∧
    String.ofList ('.' :: ending.map Char.toLower) ∈ javascriptExtensions

namespace Path

/-- The extension begins at the last dot, unless only dots stand before it. -/
theorem extension_of_name {path : String} {stem ending : List Char}
    (hname : (basename path).toList = stem ++ '.' :: ending) (hending : '.' ∉ ending)
    (hstem : ∃ c ∈ stem, c ≠ '.') : extension path = String.ofList ('.' :: ending) := by
  have hbare : (stem ++ '.' :: ending).dropWhile (· == '.') =
      stem.dropWhile (· == '.') ++ '.' :: ending := by
    rw [List.dropWhile_append]
    have hne : (stem.dropWhile (· == '.')).isEmpty = false := by
      obtain ⟨c, hc, hdot⟩ := hstem
      rw [List.isEmpty_eq_false_iff, ne_eq, List.dropWhile_eq_nil_iff]
      intro hall
      exact hdot (beq_iff_eq.mp (hall c hc))
    simp [hne]
  have htake : (ending.reverse ++ '.' :: (stem.dropWhile (· == '.')).reverse).takeWhile
      (· != '.') = ending.reverse := by
    rw [List.takeWhile_append_of_pos]
    · simp
    · intro c hc
      have hne : c ≠ '.' := fun he => hending (he ▸ List.mem_reverse.mp hc)
      simpa using hne
  simp only [extension, hname, hbare]
  simp [htake]

theorem name_of_extension_ne_empty {path : String} (h : extension path ≠ "") :
    ∃ stem ending : List Char, (basename path).toList = stem ++ '.' :: ending ∧ '.' ∉ ending ∧
      ∃ c ∈ stem, c ≠ '.' := by
  have hdot : '.' ∈ (basename path).toList.dropWhile (· == '.') := by
    by_contra hnone
    simp [extension, hnone] at h
  obtain ⟨ending, front, hsplit, hending⟩ := List.eq_append_cons_of_mem (List.mem_reverse.mpr hdot)
  have hbare : (basename path).toList.dropWhile (· == '.') =
      front.reverse ++ '.' :: ending.reverse := by
    rw [← List.reverse_reverse ((basename path).toList.dropWhile _), hsplit]
    simp
  have hchars := List.takeWhile_append_dropWhile (p := (· == '.')) (l := (basename path).toList)
  refine ⟨(basename path).toList.takeWhile (· == '.') ++ front.reverse, ending.reverse, ?_, ?_, ?_⟩
  · rw [List.append_assoc, ← hbare, hchars]
  · simpa using hending
  · have hhead := List.head?_dropWhile_not (· == '.') (basename path).toList
    rw [hbare] at hhead
    cases hfront : front.reverse with
    | nil => simp [hfront] at hhead
    | cons c rest =>
      refine ⟨c, by simp, ?_⟩
      simpa [hfront] using hhead

end Path

theorem isSome_ofPath?_iff {name : String} (hname : '/' ∉ name.toList) (dir : String) :
    (Language.ofPath? (Path.join dir name)).isSome = true ↔ IsSourceName name := by
  have hbase : Path.basename (Path.join dir name) = name := Path.basename_join hname
  have hextension : (Language.ofPath? (Path.join dir name)).isSome = true ↔
      String.ofList ((Path.extension (Path.join dir name)).toList.map Char.toLower) ∈
        javascriptExtensions := by
    unfold Language.ofPath?
    split
    · rename_i h
      simpa using h
    · rename_i h
      simpa using h
  rw [hextension]
  constructor
  · intro h
    have hne : Path.extension (Path.join dir name) ≠ "" := by
      intro hempty
      rw [hempty] at h
      simp [javascriptExtensions] at h
    obtain ⟨stem, ending, hchars, hending, hstem⟩ := Path.name_of_extension_ne_empty hne
    rw [Path.extension_of_name hchars hending hstem] at h
    rw [hbase] at hchars
    exact ⟨stem, ending, hchars, hending, hstem, by simpa using h⟩
  · rintro ⟨stem, ending, hchars, hending, hstem, h⟩
    rw [← hbase] at hchars
    rw [Path.extension_of_name hchars hending hstem]
    simpa using h

/-- The name is neither ignored nor hidden. -/
def Settings.passes (settings : Settings) (name : String) : Bool :=
  !settings.ignores name && name.toList.head? != some '.'

theorem startsWith_dot_iff (name : String) :
    name.startsWith "." = true ↔ name.toList.head? = some '.' := by
  rw [String.startsWith_string_iff]
  cases name.toList with
  | nil => simp
  | cons c rest => simp [List.cons_prefix_cons, eq_comm]

/-- Below names that are let through, a path is left out because of its last name only. -/
theorem Settings.leavesOut_joinSlash {settings : Settings} {above : List String} {name : String}
    (habove : ∀ n ∈ above, Path.IsName n ∧ settings.passes n = true) (hname : Path.IsName name) :
    settings.leavesOut (Path.joinSlash (above ++ [name])) = !settings.passes name := by
  have hnames : ∀ n ∈ above, Path.IsName n := fun n hn => (habove n hn).1
  have hall := Path.forall_mem_snoc hnames hname
  have hne : above ++ [name] ≠ [] := by simp
  have hignored : above.any settings.ignores = false := by
    rw [List.any_eq_false]
    intro n hn
    have hpasses := (habove n hn).2
    simp only [Settings.passes, Bool.and_eq_true, Bool.not_eq_true'] at hpasses
    simp [hpasses.1]
  have hhidden : (name.startsWith "." && name != "." && name != "..") =
      (name.toList.head? == some '.') := by
    have hstarts : name.startsWith "." = (name.toList.head? == some '.') := by
      rw [Bool.eq_iff_iff, startsWith_dot_iff, beq_iff_eq]
    rw [hstarts, bne_iff_ne.mpr hname.notHere, bne_iff_ne.mpr hname.notUp, Bool.and_true,
      Bool.and_true]
  unfold Settings.leavesOut
  simp only [Path.basename_joinSlash hnames hname, Path.normalize_joinSlash hne hall,
    Path.pieces_joinSlash_names hne hall, List.any_append, hignored, hhidden, Settings.passes]
  cases hignores : settings.ignores name with
  | true => simp
  | false => simp [bne, hignores]

/-- In the directory at `place` the name stands for a file, or for a link that leads to no
directory. -/
def FileSystem.HoldsFile (fs : FileSystem) (place : List String) (name : String) : Prop :=
  (∃ content, fs.root.get? (place ++ [name]) = some (.file content)) ∨
    ∃ target, fs.root.get? (place ++ [name]) = some (.link target) ∧
      fs.linksToDirectory place target = false

theorem FileSystem.HoldsFile.exists_entry {fs : FileSystem} {place : List String} {name : String}
    (h : fs.HoldsFile place name) : ∃ e, fs.root.get? (place ++ [name]) = some e := by
  rcases h with ⟨content, hfile⟩ | ⟨target, hlink, _⟩
  · exact ⟨_, hfile⟩
  · exact ⟨_, hlink⟩

/-- Going down from `place` through the directories `dirs`, a search is to find the file `name`. -/
structure FileSystem.Offers (fs : FileSystem) (settings : Settings) (place dirs : List String)
    (name : String) : Prop where
  file : fs.HoldsFile (place ++ dirs) name
  passes : ∀ n ∈ dirs ++ [name], settings.passes n = true
  source : IsSourceName name

theorem FileSystem.offers_congr {fs fs' : FileSystem} {place place' dirs : List String}
    {name : String}
    (h : fs.HoldsFile (place ++ dirs) name ↔ fs'.HoldsFile (place' ++ dirs) name)
    (settings : Settings) :
    fs.Offers settings place dirs name ↔ fs'.Offers settings place' dirs name :=
  ⟨fun ho => ⟨h.mp ho.file, ho.passes, ho.source⟩, fun ho => ⟨h.mpr ho.file, ho.passes, ho.source⟩⟩

theorem FileSystem.Offers.exists_directory {fs : FileSystem} {settings : Settings}
    {place dirs : List String} {name : String} (h : fs.Offers settings place dirs name) :
    ∃ entries e, fs.root.get? place = some (.directory entries) ∧
      (Entry.directory entries).get? (dirs ++ [name]) = some e := by
  obtain ⟨e, he⟩ := h.file.exists_entry
  rw [List.append_assoc, Entry.get?_append] at he
  obtain ⟨top, htop, he⟩ := Option.bind_eq_some_iff.mp he
  obtain ⟨first, rest, hnames⟩ := List.exists_cons_of_ne_nil (l := dirs ++ [name]) (by simp)
  cases top with
  | file content => simp [hnames, Entry.get?, Entry.child?] at he
  | link target => simp [hnames, Entry.get?, Entry.child?] at he
  | directory entries => exact ⟨entries, e, htop, he⟩

/-- How a file is listed that is found below a directory. -/
def Site.found (site : Site) (dirs : List String) (name : String) : Found :=
  ⟨Path.join (dirs.foldl Path.join site.path) name,
    Path.joinSlash (site.relative ++ dirs ++ [name])⟩

theorem Site.found_below (site : Site) (dir : String) (dirs : List String) (name : String) :
    (site.below dir).found dirs name = site.found (dir :: dirs) name := by
  simp [Site.found, Site.below]

/-- The directory that a search has come to: it is there, with genuine names in it, and the names
that lead to it are let through. -/
structure Site.Searched (fs : FileSystem) (settings : Settings) (site : Site) (e : Entry) :
    Prop where
  entry : fs.root.get? site.place = some e
  proper : e.Proper
  named : e.Named
  above : ∀ n ∈ site.relative, Path.IsName n ∧ settings.passes n = true

namespace Site.Searched

variable {fs : FileSystem} {settings : Settings} {site : Site} {entries : List (String × Entry)}

theorem leavesOut (h : Searched fs settings site (.directory entries)) {e : String × Entry}
    (he : e ∈ entries) : settings.leavesOut (site.relativeTo e.1) = !settings.passes e.1 :=
  Settings.leavesOut_joinSlash h.above (h.named.of_mem he).1

theorem below (h : Searched fs settings site (.directory entries)) {e : String × Entry}
    (he : e ∈ entries) (hpasses : settings.passes e.1 = true) :
    Searched fs settings (site.below e.1) e.2 := by
  have hentry : fs.root.get? (site.place ++ [e.1]) = some e.2 := by
    rw [Entry.get?_append, h.entry]
    exact (Entry.get?_singleton _ _).trans ((Entry.child?_directory h.proper.1 e.1 e.2).mpr he)
  exact ⟨hentry, (h.proper.2.of_mem he).2, (h.named.of_mem he).2,
    Path.forall_mem_snoc h.above ⟨(h.named.of_mem he).1, hpasses⟩⟩

/-- What stands at a name in a searched directory is listed in it. -/
theorem get?_iff (h : Searched fs settings site (.directory entries)) (name : String) (e : Entry) :
    fs.root.get? (site.place ++ [name]) = some e ↔ (name, e) ∈ entries := by
  rw [Entry.get?_append, h.entry]
  simp only [Option.bind_some, Entry.get?_singleton]
  exact Entry.child?_directory h.proper.1 name e

theorem mem_filesHere_iff (h : Searched fs settings site (.directory entries)) (f : Found) :
    f ∈ filesHere fs settings site entries ↔
      ∃ name, fs.Offers settings site.place [] name ∧ f = site.found [] name := by
  have hfile : ∀ name e, (name, e) ∈ entries →
      (isFileEntry fs site e = true ↔ fs.HoldsFile site.place name) := by
    intro name e he
    have hget := (h.get?_iff name e).mpr he
    unfold FileSystem.HoldsFile
    rw [hget]
    cases e with
    | file content => simp [isFileEntry]
    | directory inner => simp [isFileEntry]
    | link target => simp [isFileEntry]
  have hlisted : ∀ name, fs.HoldsFile site.place name → ∃ e, (name, e) ∈ entries := by
    rintro name (⟨content, hget⟩ | ⟨target, hget, _⟩)
    · exact ⟨_, (h.get?_iff name _).mp hget⟩
    · exact ⟨_, (h.get?_iff name _).mp hget⟩
  have hfound : ∀ name, (⟨Path.join site.path name, site.relativeTo name⟩ : Found) =
      site.found [] name := by
    intro name
    simp [Site.found, Site.relativeTo]
  simp only [filesHere, List.mem_map, List.mem_mergeSort, List.mem_filter, Bool.and_eq_true,
    Bool.not_eq_true']
  constructor
  · rintro ⟨name, ⟨⟨⟨n, e⟩, ⟨he, hentry⟩, rfl⟩, hout, hlanguage⟩, rfl⟩
    have hname := (h.named.of_mem he).1
    rw [h.leavesOut he, Bool.not_eq_false'] at hout
    refine ⟨n, ⟨?_, ?_, ?_⟩, hfound n⟩
    · rw [List.append_nil]
      exact (hfile n e he).mp hentry
    · simpa using hout
    · exact (isSome_ofPath?_iff hname.noSlash site.path).mp hlanguage
  · rintro ⟨name, ⟨hholds, hpasses, hsource⟩, rfl⟩
    rw [List.append_nil] at hholds
    obtain ⟨e, he⟩ := hlisted name hholds
    have hname := (h.named.of_mem he).1
    refine ⟨name, ⟨⟨(name, e), ⟨he, (hfile name e he).mpr hholds⟩, rfl⟩, ?_, ?_⟩, hfound name⟩
    · rw [h.leavesOut he, Bool.not_eq_false']
      exact hpasses name (by simp)
    · exact (isSome_ofPath?_iff hname.noSlash site.path).mpr hsource

theorem none_offered {e : Entry} (h : Searched fs settings site e)
    (hno : ∀ entries, e ≠ .directory entries) (dirs : List String) (name : String) :
    ¬ fs.Offers settings site.place dirs name := by
  intro hoffers
  obtain ⟨entries, _, htop, _⟩ := hoffers.exists_directory
  exact hno entries (Option.some.inj (h.entry.symm.trans htop))

end Site.Searched

theorem FileSystem.offers_cons_iff (fs : FileSystem) (settings : Settings)
    (place dirs : List String) (dir name : String) :
    fs.Offers settings place (dir :: dirs) name ↔
      settings.passes dir = true ∧ fs.Offers settings (place ++ [dir]) dirs name := by
  have hplace : place ++ [dir] ++ dirs = place ++ dir :: dirs := by simp
  constructor
  · rintro ⟨hfile, hpasses, hsource⟩
    refine ⟨hpasses dir List.mem_cons_self, ?_, ?_, hsource⟩
    · rwa [hplace]
    · exact fun n hn => hpasses n (List.mem_cons_of_mem _ hn)
  · rintro ⟨hdir, hfile, hpasses, hsource⟩
    refine ⟨hplace ▸ hfile, ?_, hsource⟩
    intro n hn
    rcases List.mem_cons.mp hn with rfl | hn
    · exact hdir
    · exact hpasses n hn

theorem mem_filesBelow_directory (fs : FileSystem) (settings : Settings) (site : Site)
    (entries : List (String × Entry)) (f : Found) :
    f ∈ filesBelow fs settings site (.directory entries) ↔
      f ∈ filesHere fs settings site entries ∨
      ∃ e ∈ entries, settings.leavesOut (site.relativeTo e.1) = false ∧
        f ∈ filesBelow fs settings (site.below e.1) e.2 := by
  have hinner : ∀ e : String × Entry, f ∈ (filesOfEntry fs settings site e).2 ↔
      settings.leavesOut (site.relativeTo e.1) = false ∧
        f ∈ filesBelow fs settings (site.below e.1) e.2 := by
    rintro ⟨name, e⟩
    rw [filesOfEntry]
    cases settings.leavesOut (site.relativeTo name) with
    | true => simp
    | false => simp
  rw [filesBelow, filesOfEntries_eq_map]
  simp only [List.mem_append, List.mem_flatMap, List.mem_mergeSort, List.mem_map]
  constructor
  · rintro (hhere | ⟨_, ⟨e, he, rfl⟩, hf⟩)
    · exact .inl hhere
    · exact .inr ⟨e, he, (hinner e).mp hf⟩
  · rintro (hhere | ⟨e, he, hf⟩)
    · exact .inl hhere
    · exact .inr ⟨_, ⟨e, he, rfl⟩, (hinner e).mpr hf⟩

/-- A search finds what the file system offers it below a directory, and nothing else. -/
theorem mem_filesBelow_iff {fs : FileSystem} {settings : Settings} {site : Site} {e : Entry}
    (h : site.Searched fs settings e) (f : Found) :
    f ∈ filesBelow fs settings site e ↔
      ∃ dirs name, fs.Offers settings site.place dirs name ∧ f = site.found dirs name := by
  induction e using Entry.inductionOn generalizing site with
  | file content => simp [filesBelow, h.none_offered (by simp)]
  | link target => simp [filesBelow, h.none_offered (by simp)]
  | directory entries ih =>
    rw [mem_filesBelow_directory, h.mem_filesHere_iff]
    constructor
    · rintro (⟨name, hoffers, rfl⟩ | ⟨e, he, hout, hf⟩)
      · exact ⟨[], name, hoffers, rfl⟩
      · rw [h.leavesOut he, Bool.not_eq_false'] at hout
        obtain ⟨dirs, name, hoffers, rfl⟩ := (ih e he (h.below he hout)).mp hf
        refine ⟨e.1 :: dirs, name, ?_, site.found_below e.1 dirs name⟩
        exact (fs.offers_cons_iff settings site.place dirs e.1 name).mpr ⟨hout, hoffers⟩
    · rintro ⟨dirs, name, hoffers, rfl⟩
      cases dirs with
      | nil => exact .inl ⟨name, hoffers, rfl⟩
      | cons dir dirs =>
        obtain ⟨hpasses, hbelow⟩ :=
          (fs.offers_cons_iff settings site.place dirs dir name).mp hoffers
        obtain ⟨inner, _, hget, _⟩ := hbelow.exists_directory
        have he := (h.get?_iff dir (.directory inner)).mp hget
        refine .inr ⟨(dir, .directory inner), he, ?_, ?_⟩
        · rw [h.leavesOut he, hpasses]
          rfl
        · refine (ih (dir, .directory inner) he (h.below he hpasses)).mpr ⟨dirs, name, hbelow, ?_⟩
          exact (site.found_below dir dirs name).symm

theorem Entry.Named.child? {e c : Entry} (h : e.Named) {name : String}
    (hc : e.child? name = some c) : Path.IsName name ∧ c.Named := by
  cases e with
  | file content => simp [Entry.child?] at hc
  | link target => simp [Entry.child?] at hc
  | directory entries =>
    obtain ⟨x, hx, rfl⟩ := Option.map_eq_some_iff.mp hc
    obtain rfl : x.1 = name := by simpa using List.find?_some hx
    exact AllNamed.of_mem h (List.mem_of_find?_eq_some hx)

theorem Entry.Named.get? {e x : Entry} (h : e.Named) {names : List String}
    (hx : e.get? names = some x) : (∀ n ∈ names, Path.IsName n) ∧ x.Named := by
  induction names generalizing e with
  | nil =>
    obtain rfl : e = x := by simpa [Entry.get?] using hx
    exact ⟨by simp, h⟩
  | cons name rest ih =>
    simp only [Entry.get?] at hx
    split at hx
    · rename_i c hc
      obtain ⟨hname, hnamed⟩ := h.child? hc
      obtain ⟨hrest, hx⟩ := ih hnamed hx
      exact ⟨List.forall_mem_cons.mpr ⟨hname, hrest⟩, hx⟩
    · simp at hx

/-- No two entries of a directory have the same name, and all names are genuine. -/
structure FileSystem.Genuine (fs : FileSystem) : Prop where
  proper : fs.root.Proper
  named : fs.root.Named

/-- The files below a path, each under the text made of its own path and that of the scanned
directory. -/
def findTexts (fs : FileSystem) (settings : Settings) (path : String) : List Found :=
  match fs.locate path with
  | .error _ => []
  | .ok place =>
    match fs.root.get? place with
    | some entry => textsBelow fs settings path ⟨place, path, []⟩ entry
    | none => []

theorem findTexts_eq {fs : FileSystem} (h : fs.Genuine) (settings : Settings) (path : String) :
    findTexts fs settings path = findFiles fs settings path := by
  unfold findTexts findFiles
  cases fs.locate path with
  | error cause => rfl
  | ok place =>
    cases hentry : fs.root.get? place with
    | none => simp only [hentry]
    | some entry =>
      have htop : Site.ReachedFrom ⟨place, path, []⟩ path := ⟨rfl, by simp⟩
      simp only [hentry]
      exact textsBelow_eq htop fs settings entry (h.named.get? hentry).2

theorem mem_findFiles_iff {fs : FileSystem} (h : fs.Genuine) (settings : Settings) (path : String)
    (f : Found) :
    f ∈ findFiles fs settings path ↔
      ∃ place dirs name, fs.locate path = .ok place ∧ fs.Offers settings place dirs name ∧
        f = ⟨Path.join (dirs.foldl Path.join path) name, Path.joinSlash (dirs ++ [name])⟩ := by
  unfold findFiles
  cases fs.locate path with
  | error cause => simp
  | ok place =>
    simp only [Except.ok.injEq, exists_and_left, exists_eq_left']
    cases hentry : fs.root.get? place with
    | none =>
      refine ⟨by simp, ?_⟩
      rintro ⟨dirs, name, hoffers, _⟩
      obtain ⟨entries, _, htop, _⟩ := hoffers.exists_directory
      simp [hentry] at htop
    | some e =>
      have hsearched : Site.Searched fs settings ⟨place, path, []⟩ e :=
        ⟨hentry, h.proper.get? hentry, (h.named.get? hentry).2, by simp⟩
      exact mem_filesBelow_iff hsearched f

/-- Of two ways down from a directory the first leads to the earlier file: the files of a directory
come before those of the directories in it, and both by name. -/
def Precedes : List String → List String → Prop
  | [a], [b] => a < b
  | [_], _ :: _ :: _ => True
  | a :: a' :: as, b :: b' :: bs => a < b ∨ (a = b ∧ Precedes (a' :: as) (b' :: bs))
  | _, _ => False

theorem precedes_cons_iff (dir : String) {names others : List String} (h : names ≠ [])
    (h' : others ≠ []) : Precedes (dir :: names) (dir :: others) ↔ Precedes names others := by
  obtain ⟨a, as, rfl⟩ := List.exists_cons_of_ne_nil h
  obtain ⟨b, bs, rfl⟩ := List.exists_cons_of_ne_nil h'
  have hirrefl : ¬ dir < dir := String.lt_irrefl dir
  simp only [Precedes, hirrefl, false_or, true_and]

theorem precedes_append_iff (above : List String) {names others : List String} (h : names ≠ [])
    (h' : others ≠ []) : Precedes (above ++ names) (above ++ others) ↔ Precedes names others := by
  induction above with
  | nil => rfl
  | cons dir rest ih =>
    rw [List.cons_append, List.cons_append, precedes_cons_iff dir (by simp [h]) (by simp [h']), ih]

theorem Precedes.asymm {names others : List String} (h : Precedes names others) :
    ¬ Precedes others names := by
  fun_induction Precedes names others with
  | case1 a b => exact String.lt_asymm h
  | case2 a b b' bs => simp [Precedes]
  | case3 a a' as b b' bs ih =>
    intro hback
    simp only [Precedes] at hback
    rcases h with hless | ⟨rfl, hrest⟩
    · rcases hback with hmore | ⟨rfl, _⟩
      · exact String.lt_asymm hless hmore
      · exact String.lt_irrefl _ hless
    · rcases hback with hmore | ⟨_, hback⟩
      · exact String.lt_irrefl _ hmore
      · exact ih hrest hback
  | case4 => exact h.elim

/-- Sorting by keys that differ gives a strictly increasing list. -/
theorem pairwise_lt_mergeSort {α : Type} (key : α → String) {l : List α} (h : (l.map key).Nodup) :
    (l.mergeSort (fun a b => key a ≤ key b)).Pairwise (fun a b => key a < key b) := by
  have hsorted : (l.mergeSort (fun a b => key a ≤ key b)).Pairwise
      (fun a b => decide (key a ≤ key b) = true) := by
    apply List.pairwise_mergeSort
    · intro a b c hab hbc
      exact decide_eq_true (String.le_trans (of_decide_eq_true hab) (of_decide_eq_true hbc))
    · intro a b
      simpa using String.le_total (key a) (key b)
  have hdistinct : (l.mergeSort (fun a b => key a ≤ key b)).Pairwise
      (fun a b => key a ≠ key b) := by
    have hperm := (List.mergeSort_perm l (fun a b => decide (key a ≤ key b))).map key
    exact List.pairwise_map.mp (hperm.nodup_iff.mpr h)
  refine (hsorted.and hdistinct).imp ?_
  rintro a b ⟨hle, hne⟩
  by_contra hnot
  exact hne (String.le_antisymm (of_decide_eq_true hle) (String.not_lt.mp hnot))

theorem pairwise_filesHere (fs : FileSystem) (settings : Settings) {site : Site}
    (hsite : ∀ n ∈ site.relative, '/' ∉ n.toList) {entries : List (String × Entry)}
    (hnames : (entries.map Prod.fst).Nodup) (hproper : AllProper entries) :
    (filesHere fs settings site entries).Pairwise (fun f g => Precedes f.names g.names) := by
  let kept := ((entries.filter (fun e => isFileEntry fs site e.2)).map Prod.fst).filter (fun n =>
    !settings.leavesOut (site.relativeTo n) && (Language.ofPath? (Path.join site.path n)).isSome)
  have hkept : kept.Sublist (entries.map Prod.fst) :=
    List.filter_sublist.trans (List.filter_sublist.map Prod.fst)
  have hsorted : (kept.mergeSort (fun a b => a ≤ b)).Pairwise (fun a b => a < b) := by
    apply pairwise_lt_mergeSort id
    rw [List.map_id]
    exact hnames.sublist hkept
  rw [filesHere, List.pairwise_map]
  refine hsorted.imp_of_mem ?_
  intro a b ha hb hless
  have hslash : ∀ n ∈ kept.mergeSort (fun a b => a ≤ b), '/' ∉ n.toList := by
    intro n hn
    obtain ⟨e, he, rfl⟩ := List.mem_map.mp (hkept.subset (List.mem_mergeSort.mp hn))
    exact (hproper.of_mem he).1
  rw [names_relativeTo hsite (hslash a ha), names_relativeTo hsite (hslash b hb),
    precedes_append_iff _ (by simp) (by simp)]
  exact hless

/-- Files that lie in directories with different names come in the order of these names. -/
theorem FoundBelow.precedes {above : List String} {dir dir' : String} {found found' : List Found}
    (h : FoundBelow (above ++ [dir]) found) (h' : FoundBelow (above ++ [dir']) found')
    (hless : dir < dir') {f g : Found} (hf : f ∈ found) (hg : g ∈ found') :
    Precedes f.names g.names := by
  obtain ⟨rest, hrest, hnames⟩ := h.below f hf
  obtain ⟨rest', hrest', hnames'⟩ := h'.below g hg
  obtain ⟨a, as, rfl⟩ := List.exists_cons_of_ne_nil hrest
  obtain ⟨b, bs, rfl⟩ := List.exists_cons_of_ne_nil hrest'
  rw [hnames, hnames', List.append_assoc, List.append_assoc,
    precedes_append_iff _ (by simp) (by simp)]
  exact .inl hless

theorem filesBelow_pairwise (fs : FileSystem) (settings : Settings) {site : Site}
    (hsite : ∀ n ∈ site.relative, '/' ∉ n.toList) {e : Entry} (he : e.Proper) :
    (filesBelow fs settings site e).Pairwise (fun f g => Precedes f.names g.names) := by
  induction e using Entry.inductionOn generalizing site with
  | file content => simp [filesBelow]
  | link target => simp [filesBelow]
  | directory entries ih =>
    have hinner : ∀ p ∈ filesOfEntries fs settings site entries,
        p.2.Pairwise (fun f g => Precedes f.names g.names) := by
      rw [filesOfEntries_eq_map]
      intro p hp
      obtain ⟨⟨name, entry⟩, hmem, rfl⟩ := List.mem_map.mp hp
      obtain ⟨hname, hentry⟩ := he.2.of_mem hmem
      rw [filesOfEntry]
      split
      · exact .nil
      · exact ih (name, entry) hmem (Path.forall_mem_snoc hsite hname) hentry
    have hbelow := filesOfEntries_foundBelow fs settings site hsite entries he.2
    have hsorted : ((filesOfEntries fs settings site entries).mergeSort
        (fun a b => a.1 ≤ b.1)).Pairwise (fun a b => a.1 < b.1) := by
      apply pairwise_lt_mergeSort Prod.fst
      rw [map_fst_filesOfEntries]
      exact he.1
    obtain ⟨names, _, hhere⟩ := names_filesHere fs settings hsite he.1 he.2
    rw [filesBelow, List.pairwise_append]
    refine ⟨pairwise_filesHere fs settings hsite he.1 he.2, List.pairwise_flatMap.mpr ⟨?_, ?_⟩, ?_⟩
    · exact fun p hp => hinner p (List.mem_mergeSort.mp hp)
    · refine hsorted.imp_of_mem ?_
      intro p q hp hq hless f hf g hg
      exact (hbelow p (List.mem_mergeSort.mp hp)).precedes (hbelow q (List.mem_mergeSort.mp hq))
        hless hf hg
    · intro f hf g hg
      have hmem : f.names ∈ names.map (fun n => site.relative ++ [n]) :=
        hhere ▸ List.mem_map_of_mem hf
      obtain ⟨n, _, hn⟩ := List.mem_map.mp hmem
      obtain ⟨p, hp, hg⟩ := List.mem_flatMap.mp hg
      obtain ⟨rest, hrest, hnames⟩ := (hbelow p (List.mem_mergeSort.mp hp)).below g hg
      obtain ⟨b, bs, rfl⟩ := List.exists_cons_of_ne_nil hrest
      rw [← hn, hnames, List.append_assoc, precedes_append_iff _ (by simp) (by simp)]
      trivial

theorem findFiles_pairwise {fs : FileSystem} (h : fs.root.Proper) (settings : Settings)
    (path : String) :
    (findFiles fs settings path).Pairwise (fun f g => Precedes f.names g.names) := by
  unfold findFiles
  split
  · exact .nil
  · rename_i place _
    split
    · rename_i entry hentry
      exact filesBelow_pairwise fs settings (by simp) (h.get? hentry)
    · exact .nil

end CallAtlas
