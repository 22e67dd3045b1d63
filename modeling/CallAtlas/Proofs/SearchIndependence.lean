import CallAtlas.Proofs.FileSearch
import Mathlib

/-!
What the list of found files does not depend on: the order in which directories list their entries,
where the scanned directory lies, and how the path to it is spelled. Since the order of the files is
fixed by their names, it is enough each time that the same files are offered.
-/

set_option autoImplicit false

namespace CallAtlas

instance : Std.Asymm Precedes :=
  ⟨fun _ _ h => h.asymm⟩

instance : Std.Asymm (fun f g : Found => Precedes f.names g.names) :=
  ⟨fun _ _ h => h.asymm⟩

theorem allProper_iff (entries : List (String × Entry)) :
    AllProper entries ↔ ∀ e ∈ entries, '/' ∉ e.1.toList ∧ e.2.Proper := by
  induction entries with
  | nil => simp [AllProper]
  | cons e rest ih => rw [AllProper, ih, List.forall_mem_cons]

theorem allNamed_iff (entries : List (String × Entry)) :
    AllNamed entries ↔ ∀ e ∈ entries, Path.IsName e.1 ∧ e.2.Named := by
  induction entries with
  | nil => simp [AllNamed]
  | cons e rest ih => rw [AllNamed, ih, List.forall_mem_cons]

section Relisted

variable (order : List String → List (String × Entry) → List (String × Entry))

mutual
/-- The same entry, with every directory listed in the order that is given for its place. -/
def Entry.relisted (place : List String) : Entry → Entry
  | .directory entries => .directory (order place (relistedAll place entries))
  | .file content => .file content
  | .link target => .link target

def relistedAll (place : List String) : List (String × Entry) → List (String × Entry)
  | [] => []
  | (name, e) :: rest => (name, e.relisted (place ++ [name])) :: relistedAll place rest
end

def FileSystem.relisted (fs : FileSystem) : FileSystem :=
  { fs with root := fs.root.relisted order [] }

theorem relistedAll_eq_map (place : List String) (entries : List (String × Entry)) :
    relistedAll order place entries =
      entries.map (fun e => (e.1, e.2.relisted order (place ++ [e.1]))) := by
  induction entries with
  | nil => simp [relistedAll]
  | cons e rest ih =>
    obtain ⟨name, e⟩ := e
    simp [relistedAll, ih]

theorem map_fst_relistedAll (place : List String) (entries : List (String × Entry)) :
    (relistedAll order place entries).map Prod.fst = entries.map Prod.fst := by
  rw [relistedAll_eq_map, List.map_map]
  rfl

variable {order} (hperm : ∀ place entries, (order place entries).Perm entries)

include hperm

theorem mem_order_iff (place : List String) (entries : List (String × Entry)) (name : String)
    (e : Entry) :
    (name, e) ∈ order place (relistedAll order place entries) ↔
      ∃ x, (name, x) ∈ entries ∧ x.relisted order (place ++ [name]) = e := by
  rw [(hperm place _).mem_iff, relistedAll_eq_map, List.mem_map]
  simp

theorem nodup_order {entries : List (String × Entry)} (h : (entries.map Prod.fst).Nodup)
    (place : List String) :
    ((order place (relistedAll order place entries)).map Prod.fst).Nodup := by
  rw [((hperm place _).map Prod.fst).nodup_iff, map_fst_relistedAll]
  exact h

theorem proper_relisted {e : Entry} (h : e.Proper) (place : List String) :
    (e.relisted order place).Proper := by
  induction e using Entry.inductionOn generalizing place with
  | file content => simp [Entry.relisted, Entry.Proper]
  | link target => simp [Entry.relisted, Entry.Proper]
  | directory entries ih =>
    rw [Entry.relisted]
    refine ⟨nodup_order hperm h.1 place, (allProper_iff _).mpr ?_⟩
    rintro ⟨name, e⟩ he
    obtain ⟨x, hx, rfl⟩ := (mem_order_iff hperm place entries name e).mp he
    obtain ⟨hname, hproper⟩ := h.2.of_mem hx
    exact ⟨hname, ih (name, x) hx hproper _⟩

theorem named_relisted {e : Entry} (h : e.Named) (place : List String) :
    (e.relisted order place).Named := by
  induction e using Entry.inductionOn generalizing place with
  | file content => simp [Entry.relisted, Entry.Named]
  | link target => simp [Entry.relisted, Entry.Named]
  | directory entries ih =>
    rw [Entry.relisted]
    refine (allNamed_iff _).mpr ?_
    rintro ⟨name, e⟩ he
    obtain ⟨x, hx, rfl⟩ := (mem_order_iff hperm place entries name e).mp he
    obtain ⟨hname, hnamed⟩ := h.of_mem hx
    exact ⟨hname, ih (name, x) hx hnamed _⟩

theorem FileSystem.Genuine.relisted {fs : FileSystem} (h : fs.Genuine) :
    (fs.relisted order).Genuine :=
  ⟨proper_relisted hperm h.proper [], named_relisted hperm h.named []⟩

theorem child?_relisted {e : Entry} (h : e.Proper) (place : List String) (name : String) :
    (e.relisted order place).child? name =
      (e.child? name).map (Entry.relisted order (place ++ [name])) := by
  cases e with
  | file content => simp [Entry.relisted, Entry.child?]
  | link target => simp [Entry.relisted, Entry.child?]
  | directory entries =>
    rw [Entry.relisted]
    ext x
    rw [Entry.child?_directory (nodup_order hperm h.1 place), mem_order_iff hperm]
    simp only [Option.map_eq_some_iff, Entry.child?_directory h.1]

theorem get?_relisted {e : Entry} (h : e.Proper) (place names : List String) :
    (e.relisted order place).get? names =
      (e.get? names).map (Entry.relisted order (place ++ names)) := by
  induction names generalizing e place with
  | nil => simp [Entry.get?]
  | cons name rest ih =>
    rw [Entry.get?, Entry.get?, child?_relisted hperm h]
    cases hchild : e.child? name with
    | none => rfl
    | some c =>
      have hc : c.Proper := h.get? ((e.get?_singleton name).trans hchild)
      simpa using ih hc (place ++ [name])

theorem follow_relisted {root : Entry} (h : root.Proper) (links : Nat) (place todo : List String) :
    follow (root.relisted order []) links place todo = follow root links place todo := by
  have hget := get?_relisted hperm h []
  fun_induction follow root links place todo with
  | case1 links place => simp [follow]
  | case2 links place piece rest hskip ih => simp [follow, hskip, ih]
  | case3 links place piece rest hskip hup ih => simp_all [follow]
  | case4 links place piece rest hskip hup hnone => simp [follow, hskip, hup, hget, hnone]
  | case5 links place piece rest hskip hup entries hdir ih =>
    simp [follow, hskip, hup, hget, hdir, Entry.relisted, ih]
  | case6 links place piece rest hskip hup content hfile hlast =>
    simp [follow, hskip, hup, hget, hfile, Entry.relisted, hlast]
  | case7 links place piece rest hskip hup content hfile hmore =>
    simp [follow, hskip, hup, hget, hfile, Entry.relisted, hmore]
  | case8 place piece rest hskip hup target hlink =>
    simp [follow, hskip, hup, hget, hlink, Entry.relisted]
  | case9 place piece rest hskip hup target hlink left ih =>
    simpa [follow, hskip, hup, hget, hlink, Entry.relisted] using ih

theorem linksToDirectory_relisted {fs : FileSystem} (h : fs.root.Proper) (place : List String)
    (target : String) :
    (fs.relisted order).linksToDirectory place target = fs.linksToDirectory place target := by
  simp only [FileSystem.linksToDirectory, FileSystem.relisted, follow_relisted hperm h]
  cases follow fs.root (linkLimit - 1) (if Path.isAbsolute target then [] else place)
      (Path.pieces target) with
  | error cause => rfl
  | ok found =>
    simp only [get?_relisted hperm h]
    cases fs.root.get? found with
    | none => rfl
    | some e =>
      cases e with
      | file content => simp [Entry.relisted]
      | directory entries => simp [Entry.relisted]
      | link target => simp [Entry.relisted]

theorem holdsFile_relisted_iff {fs : FileSystem} (h : fs.root.Proper) (place : List String)
    (name : String) : (fs.relisted order).HoldsFile place name ↔ fs.HoldsFile place name := by
  have hget : (fs.relisted order).root.get? (place ++ [name]) =
      (fs.root.get? (place ++ [name])).map (Entry.relisted order (place ++ [name])) :=
    get?_relisted hperm h [] (place ++ [name])
  unfold FileSystem.HoldsFile
  simp only [hget, linksToDirectory_relisted hperm h]
  cases fs.root.get? (place ++ [name]) with
  | none => simp
  | some e =>
    cases e with
    | file content => simp [Entry.relisted]
    | directory entries => simp [Entry.relisted]
    | link target => simp [Entry.relisted]

theorem offers_relisted_iff {fs : FileSystem} (h : fs.root.Proper) (settings : Settings)
    (place dirs : List String) (name : String) :
    (fs.relisted order).Offers settings place dirs name ↔ fs.Offers settings place dirs name :=
  FileSystem.offers_congr (holdsFile_relisted_iff hperm h (place ++ dirs) name) settings

theorem locate_relisted {fs : FileSystem} (h : fs.root.Proper) (path : String) :
    (fs.relisted order).locate path = fs.locate path := by
  simp only [FileSystem.locate, FileSystem.origin, FileSystem.relisted, follow_relisted hperm h]

theorem findFiles_relisted {fs : FileSystem} (h : fs.Genuine) (settings : Settings)
    (path : String) :
    findFiles (fs.relisted order) settings path = findFiles fs settings path := by
  have hgenuine := h.relisted hperm
  have hsorted := findFiles_pairwise hgenuine.proper settings path
  refine hsorted.eq_of_mem_iff (findFiles_pairwise h.proper settings path) ?_
  intro f
  simp only [mem_findFiles_iff h, mem_findFiles_iff hgenuine, locate_relisted hperm h.proper,
    offers_relisted_iff hperm h.proper]

end Relisted

theorem FileSystem.Offers.isName {fs : FileSystem} (h : fs.Genuine) {settings : Settings}
    {place dirs : List String} {name : String} (ho : fs.Offers settings place dirs name) :
    ∀ n ∈ dirs ++ [name], Path.IsName n := by
  obtain ⟨entries, e, htop, he⟩ := ho.exists_directory
  exact ((h.named.get? htop).2.get? he).1

theorem map_relative_eq {fs : FileSystem} (h : fs.Genuine) (settings : Settings) (path : String) :
    (findFiles fs settings path).map Found.relative =
      ((findFiles fs settings path).map Found.names).map Path.joinSlash := by
  rw [List.map_map]
  apply List.map_congr_left
  intro f hf
  obtain ⟨place, dirs, name, _, hoffers, rfl⟩ := (mem_findFiles_iff h settings path f).mp hf
  exact congrArg Path.joinSlash (Path.pieces_joinSlash_names (by simp) (hoffers.isName h)).symm

theorem mem_map_names_iff {fs : FileSystem} (h : fs.Genuine) (settings : Settings) (path : String)
    (names : List String) :
    names ∈ (findFiles fs settings path).map Found.names ↔
      ∃ dirs name, (∃ place, fs.locate path = .ok place ∧ fs.Offers settings place dirs name) ∧
        names = dirs ++ [name] := by
  have hnames : ∀ place dirs name, fs.Offers settings place dirs name →
      Path.pieces (Path.joinSlash (dirs ++ [name])) = dirs ++ [name] :=
    fun place dirs name ho => Path.pieces_joinSlash_names (by simp) (ho.isName h)
  rw [List.mem_map]
  constructor
  · rintro ⟨f, hf, rfl⟩
    obtain ⟨place, dirs, name, hplace, hoffers, rfl⟩ := (mem_findFiles_iff h settings path f).mp hf
    exact ⟨dirs, name, ⟨place, hplace, hoffers⟩, hnames place dirs name hoffers⟩
  · rintro ⟨dirs, name, ⟨place, hplace, hoffers⟩, rfl⟩
    have hfound := (mem_findFiles_iff h settings path _).mpr
      ⟨place, dirs, name, hplace, hoffers, rfl⟩
    exact ⟨_, hfound, hnames place dirs name hoffers⟩

/-- Two searches that are offered the same files list them by the same relative paths. -/
theorem relatives_eq_of_offers_iff {fs fs' : FileSystem} (h : fs.Genuine) (h' : fs'.Genuine)
    (settings : Settings) {path path' : String}
    (hoffers : ∀ dirs name,
      (∃ place, fs.locate path = .ok place ∧ fs.Offers settings place dirs name) ↔
        ∃ place', fs'.locate path' = .ok place' ∧ fs'.Offers settings place' dirs name) :
    (findFiles fs settings path).map Found.relative =
      (findFiles fs' settings path').map Found.relative := by
  have hnames : (findFiles fs settings path).map Found.names =
      (findFiles fs' settings path').map Found.names := by
    have hsorted := List.pairwise_map.mpr (findFiles_pairwise h.proper settings path)
    have hsorted' := List.pairwise_map.mpr (findFiles_pairwise h'.proper settings path')
    refine hsorted.eq_of_mem_iff hsorted' ?_
    intro names
    simp only [mem_map_names_iff h, mem_map_names_iff h', hoffers]
  rw [map_relative_eq h, map_relative_eq h', hnames]

/-- What stands at `place'` is what stands at `place` of the other file system, and its links lead
to directories where they do there. -/
structure FileSystem.Copies (fs' : FileSystem) (place' : List String) (fs : FileSystem)
    (place : List String) : Prop where
  entry : fs'.root.get? place' = fs.root.get? place
  links : ∀ dirs name target, fs.root.get? (place ++ dirs ++ [name]) = some (.link target) →
    fs'.linksToDirectory (place' ++ dirs) target = fs.linksToDirectory (place ++ dirs) target

theorem FileSystem.Copies.offers_iff {fs' fs : FileSystem} {place' place : List String}
    (h : fs'.Copies place' fs place) (settings : Settings) (dirs : List String) (name : String) :
    fs.Offers settings place dirs name ↔ fs'.Offers settings place' dirs name := by
  have hget : fs'.root.get? (place' ++ dirs ++ [name]) =
      fs.root.get? (place ++ dirs ++ [name]) := by
    rw [List.append_assoc, List.append_assoc, Entry.get?_append, Entry.get?_append, h.entry]
  have hfile : fs.HoldsFile (place ++ dirs) name ↔ fs'.HoldsFile (place' ++ dirs) name := by
    unfold FileSystem.HoldsFile
    rw [hget]
    refine or_congr_right (exists_congr fun target => and_congr_right fun hlink => ?_)
    rw [h.links dirs name target hlink]
  exact FileSystem.offers_congr hfile settings

theorem FileSystem.Copies.relatives_eq {fs fs' : FileSystem} (h : fs.Genuine) (h' : fs'.Genuine)
    (settings : Settings) {path path' : String} {place place' : List String}
    (hplace : fs.locate path = .ok place) (hplace' : fs'.locate path' = .ok place')
    (hcopies : fs'.Copies place' fs place) :
    (findFiles fs settings path).map Found.relative =
      (findFiles fs' settings path').map Found.relative := by
  apply relatives_eq_of_offers_iff h h'
  intro dirs name
  simp [hplace, hplace', hcopies.offers_iff]

section Follow

variable (root : Entry)

theorem follow_skip {piece : String} (h : piece = "" ∨ piece = ".") (links : Nat)
    (place rest : List String) :
    follow root links place (piece :: rest) = follow root links place rest := by
  rcases h with rfl | rfl
  · simp [follow]
  · simp [follow]

theorem follow_up (links : Nat) (place rest : List String) :
    follow root links place (".." :: rest) = follow root links place.dropLast rest := by
  simp [follow]

theorem follow_directory {root : Entry} {place : List String} {name : String}
    {entries : List (String × Entry)} (hname : Path.IsName name)
    (h : root.get? (place ++ [name]) = some (.directory entries))
    (links : Nat) (rest : List String) :
    follow root links place (name :: rest) = follow root links (place ++ [name]) rest := by
  simp [follow, h, hname.nonempty, hname.notHere, hname.notUp]

/-- The first pieces of a path lead to a directory, from which the others are followed, or to a
file, behind which nothing may come, or they fail whatever comes behind them. -/
theorem follow_append (links : Nat) (place before : List String) :
    (∃ left found, ∀ rest, follow root links place (before ++ rest) = follow root left found rest) ∨
    (∃ found content, follow root links place before = .ok found ∧
      root.get? found = some (.file content) ∧
      ∀ piece rest, follow root links place (before ++ piece :: rest) = .error .notDirectory) ∨
    ∃ cause, ∀ rest, follow root links place (before ++ rest) = .error cause := by
  fun_induction follow root links place before with
  | case1 links place => exact .inl ⟨links, place, fun rest => rfl⟩
  | case2 links place piece rest hskip ih =>
    have hstep : ∀ more, follow root links place (piece :: rest ++ more) =
        follow root links place (rest ++ more) := by simp [follow, hskip]
    simpa only [hstep] using ih
  | case3 links place piece rest hskip hup ih =>
    have hstep : ∀ more, follow root links place (piece :: rest ++ more) =
        follow root links place.dropLast (rest ++ more) := by simp [follow, hskip, hup]
    simpa only [hstep] using ih
  | case4 links place piece rest hskip hup hnone =>
    exact .inr (.inr ⟨.notFound, by simp [follow, hskip, hup, hnone]⟩)
  | case5 links place piece rest hskip hup entries hdir ih =>
    have hstep : ∀ more, follow root links place (piece :: rest ++ more) =
        follow root links (place ++ [piece]) (rest ++ more) := by simp [follow, hskip, hup, hdir]
    simpa only [hstep] using ih
  | case6 links place piece rest hskip hup content hfile hlast =>
    obtain rfl : rest = [] := List.isEmpty_iff.mp hlast
    refine .inr (.inl ⟨place ++ [piece], content, rfl, hfile, ?_⟩)
    simp [follow, hskip, hup, hfile]
  | case7 links place piece rest hskip hup content hfile hmore =>
    have hne : rest ≠ [] := fun he => hmore (List.isEmpty_iff.mpr he)
    exact .inr (.inr ⟨.notDirectory, by simp [follow, hskip, hup, hfile, hne]⟩)
  | case8 place piece rest hskip hup target hlink =>
    exact .inr (.inr ⟨.tooManyLinks, by simp [follow, hskip, hup, hlink]⟩)
  | case9 place piece rest hskip hup target hlink left ih =>
    have hstep : ∀ more, follow root (left + 1) place (piece :: rest ++ more) =
        follow root left (if Path.isAbsolute target then [] else place)
          (Path.pieces target ++ rest ++ more) := by simp [follow, hskip, hup, hlink]
    simpa only [hstep, dite_eq_ite] using ih

end Follow

/-- The second way through directories is the first without an empty piece or a single dot, or
without a step into a directory and out of it again. -/
inductive FileSystem.Detours (fs : FileSystem) (origin : List String) :
    List String → List String → Prop where
  | skip (before rest : List String) {piece : String} (h : piece = "" ∨ piece = ".") :
    Detours fs origin (before ++ piece :: rest) (before ++ rest)
  | back (before rest : List String) {place : List String} {dir : String}
    {entries : List (String × Entry)} (hplace : follow fs.root linkLimit origin before = .ok place)
    (hdir : fs.root.get? (place ++ [dir]) = some (.directory entries)) :
    Detours fs origin (before ++ dir :: ".." :: rest) (before ++ rest)

theorem FileSystem.Detours.follow_iff {fs : FileSystem} (h : fs.Genuine)
    {origin todo todo' : List String} (hd : fs.Detours origin todo todo') {place : List String}
    {entries : List (String × Entry)} (hplace : fs.root.get? place = some (.directory entries)) :
    follow fs.root linkLimit origin todo = .ok place ↔
      follow fs.root linkLimit origin todo' = .ok place := by
  cases hd with
  | skip before rest hpiece =>
    rcases follow_append fs.root linkLimit origin before with
      ⟨left, found, hgo⟩ | ⟨found, content, hok, hfile, hend⟩ | ⟨cause, hfail⟩
    · rw [hgo, hgo, follow_skip fs.root hpiece]
    · rw [hend]
      cases rest with
      | nil =>
        rw [List.append_nil, hok]
        refine ⟨by simp, ?_⟩
        rintro ⟨⟩
        simp [hfile] at hplace
      | cons piece rest => rw [hend]
    · rw [hfail, hfail]
  | @back before rest place' dir entries' hbefore hdir =>
    have hname : Path.IsName dir := (h.named.get? hdir).1 dir (by simp)
    rcases follow_append fs.root linkLimit origin before with
      ⟨left, found, hgo⟩ | ⟨found, content, hok, hfile, hend⟩ | ⟨cause, hfail⟩
    · obtain rfl : found = place' := by
        have hnil := hgo []
        rw [List.append_nil, hbefore, follow] at hnil
        exact (Except.ok.inj hnil).symm
      rw [hgo, hgo, follow_directory hname hdir, follow_up, List.dropLast_concat]
    · obtain rfl : found = place' := Except.ok.inj (hok.symm.trans hbefore)
      rw [Entry.get?_append, hfile] at hdir
      simp [Entry.get?, Entry.child?] at hdir
    · rw [← List.append_nil before, hfail] at hbefore
      cases hbefore

/-- A path that leads where the other one does, by one detour more. -/
def FileSystem.Respells (fs : FileSystem) (path' path : String) : Prop :=
  path' ≠ "" ∧ path ≠ "" ∧ Path.isAbsolute path' = Path.isAbsolute path ∧
    fs.Detours (fs.origin path) (Path.pieces path') (Path.pieces path)

theorem FileSystem.Respells.relatives_eq {fs : FileSystem} (h : fs.Genuine) {path' path : String}
    (hr : fs.Respells path' path) (settings : Settings) :
    (findFiles fs settings path').map Found.relative =
      (findFiles fs settings path).map Found.relative := by
  obtain ⟨hne', hne, habsolute, hdetours⟩ := hr
  have horigin : fs.origin path' = fs.origin path := by
    simp [FileSystem.origin, habsolute]
  apply relatives_eq_of_offers_iff h h
  intro dirs name
  refine exists_congr fun place => and_congr_left fun hoffers => ?_
  obtain ⟨entries, _, htop, _⟩ := hoffers.exists_directory
  simp only [FileSystem.locate, String.isEmpty_iff, hne, hne', if_false, horigin]
  exact hdetours.follow_iff h htop

/-- A search lists each file it is offered once, by the names that lead to it and in their order.
Neither the order of the entries in a directory nor the place of the scanned directory nor the
spelling of its path changes anything about that. -/
theorem findFiles_lists_offered {fs : FileSystem} (h : fs.Genuine) (settings : Settings)
    (path : String) :
    (∀ f, f ∈ findFiles fs settings path ↔
      ∃ place dirs name, fs.locate path = .ok place ∧ fs.Offers settings place dirs name ∧
        f = ⟨Path.join (dirs.foldl Path.join path) name, Path.joinSlash (dirs ++ [name])⟩) ∧
    ((findFiles fs settings path).map Found.relative).Nodup ∧
    (findFiles fs settings path).Pairwise (fun f g => Precedes f.names g.names) ∧
    (∀ dirs name, (∀ n ∈ dirs ++ [name], Path.IsName n) →
      let text := Path.join (Path.relative fs.hereText (dirs.foldl Path.join path) path) name
      Path.normalize text = Path.joinSlash (dirs ++ [name]) ∧
        settings.leavesOut text = settings.leavesOut (Path.joinSlash (dirs ++ [name]))) ∧
    (∀ order : List String → List (String × Entry) → List (String × Entry),
      (∀ place entries, (order place entries).Perm entries) →
      findFiles (fs.relisted order) settings path = findFiles fs settings path) ∧
    (∀ (fs' : FileSystem) (path' : String) (place place' : List String), fs'.Genuine →
      fs.locate path = .ok place → fs'.locate path' = .ok place' → fs'.Copies place' fs place →
      (findFiles fs' settings path').map Found.relative =
        (findFiles fs settings path).map Found.relative) ∧
    (∀ path', Relation.EqvGen fs.Respells path' path →
      (findFiles fs settings path').map Found.relative =
        (findFiles fs settings path).map Found.relative) := by
  refine ⟨mem_findFiles_iff h settings path, findFiles_distinct h.proper settings path,
    findFiles_pairwise h.proper settings path, ?_, ?_, ?_, ?_⟩
  · intro dirs name hnames
    obtain ⟨hdirs, hname⟩ := List.forall_mem_append.mp hnames
    have hsite : Site.ReachedFrom ⟨[], dirs.foldl Path.join path, dirs⟩ path := ⟨rfl, hdirs⟩
    have hname := List.forall_mem_singleton.mp hname
    exact ⟨hsite.normalize_text hname fs.hereText, hsite.leavesOut_text hname fs.hereText settings⟩
  · exact fun order hperm => findFiles_relisted hperm h settings path
  · intro fs' path' place place' h' hplace hplace' hcopies
    exact (hcopies.relatives_eq h h' settings hplace hplace').symm
  · intro path' hspelled
    induction hspelled with
    | rel _ _ hr => exact hr.relatives_eq h settings
    | refl _ => rfl
    | symm _ _ _ ih => exact ih.symm
    | trans _ _ _ _ _ ih ih' => exact ih.trans ih'

def vendoredFiles : FileSystem :=
  let repository : List (String × Entry) :=
    [("lib", .directory [("b.JSX", .link "../a.js"), ("up", .link "..")]),
      ("a.js", .file "f()".toUTF8), (".c.js", .file "".toUTF8)]
  ⟨.directory [("vendor", .directory [("tool", .directory repository)])], [], []⟩

/-- The scanned directory lies in one that is ignored, and holds a hidden file and two links. -/
theorem findFiles_lists_offered_in_vendoredFiles :
    ⟨"vendor/tool/lib/b.JSX", "lib/b.JSX"⟩ ∈ findFiles vendoredFiles {} "vendor/tool" ∧
    ⟨"vendor/tool/.c.js", ".c.js"⟩ ∉ findFiles vendoredFiles {} "vendor/tool" ∧
    findFiles (vendoredFiles.relisted (fun _ => List.reverse)) {} "vendor/tool" =
      findFiles vendoredFiles {} "vendor/tool" ∧
    (findFiles { vendoredFiles with here := ["vendor"] } {} "tool").map Found.relative =
      (findFiles vendoredFiles {} "vendor/tool").map Found.relative ∧
    (findFiles vendoredFiles {} "vendor/tool/lib/../").map Found.relative =
      (findFiles vendoredFiles {} "vendor/tool").map Found.relative := by
  have hgenuine : vendoredFiles.Genuine := by
    constructor
    · simp [vendoredFiles, Entry.Proper, AllProper]
    · simp [vendoredFiles, Entry.Named, AllNamed]
      decide
  have hplace : vendoredFiles.locate "vendor/tool" = .ok ["vendor", "tool"] := by cbv
  have hlink : vendoredFiles.linksToDirectory ["vendor", "tool", "lib"] "../a.js" = false := by cbv
  obtain ⟨hmem, _, _, _, hlisted, hmoved, hspelled⟩ :=
    findFiles_lists_offered hgenuine {} "vendor/tool"
  refine ⟨?_, ?_, ?_, ?_, ?_⟩
  · rw [hmem]
    refine ⟨_, ["lib"], "b.JSX", hplace, ⟨.inr ⟨"../a.js", rfl, hlink⟩, by decide, ?_⟩,
      by decide +kernel⟩
    exact ⟨['b'], ['J', 'S', 'X'], rfl, by decide, ⟨'b', by simp, by decide⟩, by decide⟩
  · rw [hmem]
    rintro ⟨place, dirs, name, _, hoffers, hf⟩
    have hrelative : ".c.js" = Path.joinSlash (dirs ++ [name]) := congrArg Found.relative hf
    have hnames : dirs ++ [name] = [".c.js"] := by
      rw [← Path.pieces_joinSlash_names (by simp) (hoffers.isName hgenuine), ← hrelative]
      rfl
    have hpasses := hoffers.passes ".c.js" (by simp [hnames])
    revert hpasses
    decide
  · exact hlisted _ (fun _ entries => entries.reverse_perm)
  · exact hmoved _ _ _ ["vendor", "tool"] ⟨hgenuine.proper, hgenuine.named⟩ hplace (by cbv)
      ⟨rfl, fun _ _ _ _ => rfl⟩
  · have hslash : vendoredFiles.Respells "vendor/tool/lib/../" "vendor/tool/lib/.." := by
      refine ⟨by decide, by decide, by decide +kernel, ?_⟩
      exact .skip ["vendor", "tool", "lib", ".."] [] (.inl rfl)
    have hback : vendoredFiles.Respells "vendor/tool/lib/.." "vendor/tool" := by
      refine ⟨by decide, by decide, by decide +kernel, ?_⟩
      exact .back ["vendor", "tool"] [] hplace rfl
    exact hspelled _ (.trans _ _ _ (.rel _ _ hslash) (.rel _ _ hback))

end CallAtlas
