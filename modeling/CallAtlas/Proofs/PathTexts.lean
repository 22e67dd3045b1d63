import CallAtlas.Proofs.RelativePaths

/-!
Paths as they are put together while a directory is searched. Going down by a name adds this name
to the pieces of a path, however the path is spelled, so the way from the scanned directory to one
below it is read off the two paths as the names in between.
-/

set_option autoImplicit false

namespace CallAtlas.Path

/-- What an entry of a directory can be called. -/
structure IsName (name : String) : Prop where
  nonempty : name ≠ ""
  notHere : name ≠ "."
  notUp : name ≠ ".."
  noSlash : '/' ∉ name.toList

instance (name : String) : Decidable (IsName name) :=
  decidable_of_iff (name ≠ "" ∧ name ≠ "." ∧ name ≠ ".." ∧ '/' ∉ name.toList)
    ⟨fun h => ⟨h.1, h.2.1, h.2.2.1, h.2.2.2⟩, fun h => ⟨h.1, h.2, h.3, h.4⟩⟩

theorem forall_mem_snoc {p : String → Prop} {names : List String} {name : String}
    (h : ∀ n ∈ names, p n) (hname : p name) : ∀ n ∈ names ++ [name], p n :=
  List.forall_mem_append.mpr ⟨h, List.forall_mem_singleton.mpr hname⟩

theorem splitSlash_append (cs rest : List Char) :
    splitSlash (cs ++ '/' :: rest) = splitSlash cs ++ splitSlash rest := by
  induction cs with
  | nil =>
    obtain ⟨piece, pieces, hrest⟩ := List.exists_cons_of_ne_nil (splitSlash_ne_nil rest)
    simp [splitSlash, hrest]
  | cons c cs ih =>
    obtain ⟨piece, pieces, hcs⟩ := List.exists_cons_of_ne_nil (splitSlash_ne_nil cs)
    rw [List.cons_append, splitSlash, ih, splitSlash, hcs]
    by_cases hc : c = '/'
    · simp [hc]
    · simp [hc]

theorem pieces_append (a b : String) : pieces (a ++ "/" ++ b) = pieces a ++ pieces b := by
  have hchars : (a ++ "/" ++ b).toList = a.toList ++ '/' :: b.toList := by simp
  rw [pieces, hchars, splitSlash_append, List.map_append, pieces, pieces]

theorem pieces_of_noSlash {name : String} (h : '/' ∉ name.toList) : pieces name = [name] := by
  rw [pieces, splitSlash_of_not_mem h, List.map_singleton, String.ofList_toList]

theorem isAbsolute_iff (path : String) : isAbsolute path = true ↔ path.toList.head? = some '/' := by
  rw [isAbsolute, String.startsWith_string_iff]
  cases path.toList with
  | nil => simp
  | cons c rest => simp [List.cons_prefix_cons, eq_comm]

theorem isAbsolute_append {a : String} (ha : a ≠ "") (b : String) :
    isAbsolute (a ++ b) = isAbsolute a := by
  have hne : a.toList ≠ [] := by simpa using ha
  obtain ⟨c, rest, hchars⟩ := List.exists_cons_of_ne_nil hne
  rw [Bool.eq_iff_iff, isAbsolute_iff, isAbsolute_iff, String.toList_append, hchars]
  simp

theorem isAbsolute_of_noSlash {name : String} (h : '/' ∉ name.toList) :
    isAbsolute name = false := by
  rw [← Bool.not_eq_true, isAbsolute_iff]
  intro hhead
  exact h (List.mem_of_head? hhead)

theorem join_of_isAbsolute {b : String} (hb : isAbsolute b = true) (a : String) : join a b = b := by
  simp [join, hb]

/-- The three ways of putting a relative path behind another one. -/
theorem join_cases {a b : String} (hb : isAbsolute b = false) :
    (a = "" ∧ join a b = b) ∨
    (∃ front, a = front ++ "/" ∧ join a b = front ++ "/" ++ b) ∨
    (a ≠ "" ∧ join a b = a ++ "/" ++ b) := by
  by_cases hempty : a = ""
  · left
    subst hempty
    simp [join, hb]
  · right
    by_cases hslash : a.endsWith "/" = true
    · left
      have hsuffix : "/".toList <:+ a.toList := by
        rw [String.endsWith_eq_endsWith_toSlice, String.Slice.endsWith_string_iff] at hslash
        simpa using hslash
      obtain ⟨front, hfront⟩ := hsuffix
      have ha : a = String.ofList front ++ "/" := by
        apply String.toList_inj.mp
        simp [← hfront]
      refine ⟨String.ofList front, ha, ?_⟩
      rw [join, hb, hslash, ← ha]
      simp
    · right
      refine ⟨hempty, ?_⟩
      simp [join, hb, hslash, hempty]

theorem isAbsolute_join {a b : String} (hb : isAbsolute b = false) :
    isAbsolute (join a b) = isAbsolute a := by
  rcases join_cases (a := a) hb with ⟨ha, hjoin⟩ | ⟨front, ha, hjoin⟩ | ⟨ha, hjoin⟩
  · rw [hjoin, hb, ha]
    rfl
  · rw [hjoin, ← ha, isAbsolute_append]
    simp [ha]
  · rw [hjoin, String.append_assoc, isAbsolute_append ha]

theorem basename_join {a name : String} (hname : '/' ∉ name.toList) :
    basename (join a name) = name := by
  have hpieces := pieces_of_noSlash hname
  unfold basename
  rcases join_cases (a := a) (isAbsolute_of_noSlash hname) with
    ⟨_, hjoin⟩ | ⟨_, _, hjoin⟩ | ⟨_, hjoin⟩
  · rw [hjoin, hpieces]
    rfl
  · rw [hjoin, pieces_append, hpieces]
    simp
  · rw [hjoin, pieces_append, hpieces]
    simp

@[simp] theorem normalStep_empty (absolute : Bool) (done : List String) :
    normalStep absolute done "" = done := by
  simp [normalStep]

theorem normalStep_name {name : String} (h : IsName name) (absolute : Bool) (done : List String) :
    normalStep absolute done name = name :: done := by
  simp [normalStep, h.nonempty, h.notHere, h.notUp]

/-- Resolving a joined path goes on from where resolving the first part has come to. -/
theorem foldl_pieces_join {a b : String} (hb : isAbsolute b = false) (absolute : Bool)
    (done : List String) :
    (pieces (join a b)).foldl (normalStep absolute) done =
      (pieces b).foldl (normalStep absolute) ((pieces a).foldl (normalStep absolute) done) := by
  have hnone : pieces "" = [""] := rfl
  rcases join_cases (a := a) hb with ⟨ha, hjoin⟩ | ⟨front, ha, hjoin⟩ | ⟨_, hjoin⟩
  · rw [hjoin, ha, hnone]
    simp
  · have hpieces : pieces a = pieces front ++ [""] := by
      have h := pieces_append front ""
      rwa [String.append_empty, ← ha, hnone] at h
    rw [hjoin, pieces_append, List.foldl_append, hpieces, List.foldl_append]
    simp
  · rw [hjoin, pieces_append, List.foldl_append]

theorem normalPieces_join_name {name : String} (h : IsName name) (here path : String) :
    normalPieces (join here (join path name)) = normalPieces (join here path) ++ [name] := by
  have hplain := isAbsolute_of_noSlash h.noSlash
  have hpieces := pieces_of_noSlash h.noSlash
  cases habsolute : isAbsolute path with
  | true =>
    have hjoin : isAbsolute (join path name) = true := (isAbsolute_join hplain).trans habsolute
    rw [join_of_isAbsolute hjoin, join_of_isAbsolute habsolute, normalPieces,
      foldl_pieces_join hplain, hpieces, isAbsolute_join hplain]
    simp [normalPieces, normalStep_name h]
  | false =>
    have hjoin : isAbsolute (join path name) = false := (isAbsolute_join hplain).trans habsolute
    rw [normalPieces, foldl_pieces_join hjoin, isAbsolute_join hjoin, foldl_pieces_join hplain,
      ← foldl_pieces_join habsolute, hpieces, ← isAbsolute_join habsolute]
    simp [normalPieces, normalStep_name h]

theorem normalPieces_foldl_join {names : List String} (h : ∀ n ∈ names, IsName n)
    (here path : String) :
    normalPieces (join here (names.foldl join path)) = normalPieces (join here path) ++ names := by
  induction names generalizing path with
  | nil => simp
  | cons name rest ih =>
    have hname := normalPieces_join_name (h name List.mem_cons_self) here path
    rw [List.foldl_cons, ih (fun n hn => h n (List.mem_cons_of_mem _ hn)), hname]
    simp

theorem dropCommon_append (common down : List String) :
    dropCommon (common ++ down) common = (down, []) := by
  induction common with
  | nil =>
    cases down with
    | nil => rfl
    | cons n rest => rfl
  | cons n rest ih => simp [dropCommon, ih]

/-- The way to a directory below as a text; the directory itself is a single dot. -/
def wayDown (names : List String) : String :=
  if names.isEmpty then "." else joinSlash names

theorem wayDown_cons (name : String) (rest : List String) :
    wayDown (name :: rest) = joinSlash (name :: rest) :=
  rfl

/-- The way from a directory to one below it are the names in between. -/
theorem relative_foldl_join {names : List String} (h : ∀ n ∈ names, IsName n)
    (here path : String) : relative here (names.foldl join path) path = wayDown names := by
  rw [relative, normalPieces_foldl_join h, dropCommon_append]
  simp [wayDown]

theorem foldl_normalStep_names {names : List String} (h : ∀ n ∈ names, IsName n)
    (absolute : Bool) (done : List String) :
    names.foldl (normalStep absolute) done = names.reverse ++ done := by
  induction names generalizing done with
  | nil => rfl
  | cons name rest ih =>
    rw [List.foldl_cons, normalStep_name (h name List.mem_cons_self),
      ih (fun n hn => h n (List.mem_cons_of_mem _ hn))]
    simp

theorem pieces_joinSlash_names {names : List String} (hne : names ≠ [])
    (h : ∀ n ∈ names, IsName n) : pieces (joinSlash names) = names :=
  pieces_joinSlash hne (fun n hn => (h n hn).noSlash)

theorem isAbsolute_joinSlash {names : List String} (hne : names ≠ []) (h : ∀ n ∈ names, IsName n) :
    isAbsolute (joinSlash names) = false := by
  obtain ⟨name, rest, rfl⟩ := List.exists_cons_of_ne_nil hne
  have hname := h name List.mem_cons_self
  have hplain := isAbsolute_of_noSlash hname.noSlash
  cases rest with
  | nil => simpa [joinSlash] using hplain
  | cons next rest =>
    have hjoin : joinSlash (name :: next :: rest) = name ++ ("/" ++ joinSlash (next :: rest)) := by
      simp [joinSlash, String.intercalate_cons_cons, String.append_assoc]
    rw [hjoin, isAbsolute_append hname.nonempty, hplain]

theorem joinSlash_ne_empty {names : List String} (hne : names ≠ []) (h : ∀ n ∈ names, IsName n) :
    joinSlash names ≠ "" := by
  intro hempty
  have hpieces := pieces_joinSlash_names hne h
  rw [hempty] at hpieces
  have hname : "" ∈ names := by
    rw [← hpieces]
    exact List.mem_singleton.mpr rfl
  exact (h "" hname).nonempty rfl

theorem leadingSlashes_of_relative {path : String} (h : isAbsolute path = false) :
    leadingSlashes path = "" := by
  rw [← Bool.not_eq_true, isAbsolute_iff] at h
  unfold leadingSlashes
  split
  · rename_i hchars
    simp [hchars] at h
  · rename_i hchars
    simp [hchars] at h
  · rename_i hchars
    simp [hchars] at h
  · rfl

theorem normalPieces_joinSlash {names : List String} (hne : names ≠ [])
    (h : ∀ n ∈ names, IsName n) : normalPieces (joinSlash names) = names := by
  rw [normalPieces, pieces_joinSlash_names hne h, foldl_normalStep_names h]
  simp

/-- A relative path that resolves to some names becomes the path made of them. -/
theorem normalize_eq {path : String} {names : List String} (hpath : isAbsolute path = false)
    (hpieces : normalPieces path = names) (hne : names ≠ []) (h : ∀ n ∈ names, IsName n) :
    normalize path = joinSlash names := by
  have hempty := joinSlash_ne_empty hne h
  simp [normalize, leadingSlashes_of_relative hpath, hpieces, hempty]

theorem normalize_joinSlash {names : List String} (hne : names ≠ []) (h : ∀ n ∈ names, IsName n) :
    normalize (joinSlash names) = joinSlash names :=
  normalize_eq (isAbsolute_joinSlash hne h) (normalPieces_joinSlash hne h) hne h

theorem isAbsolute_wayDown {names : List String} (h : ∀ n ∈ names, IsName n) :
    isAbsolute (wayDown names) = false := by
  cases names with
  | nil => decide +kernel
  | cons name rest =>
    rw [wayDown_cons]
    exact isAbsolute_joinSlash (List.cons_ne_nil _ _) h

theorem normalPieces_wayDown {names : List String} (h : ∀ n ∈ names, IsName n) :
    normalPieces (wayDown names) = names := by
  cases names with
  | nil => decide +kernel
  | cons name rest =>
    rw [wayDown_cons]
    exact normalPieces_joinSlash (List.cons_ne_nil _ _) h

theorem normalize_join_wayDown {names : List String} {name : String} (h : ∀ n ∈ names, IsName n)
    (hname : IsName name) :
    normalize (join (wayDown names) name) = joinSlash (names ++ [name]) := by
  have hplain := isAbsolute_of_noSlash hname.noSlash
  apply normalize_eq
  · rw [isAbsolute_join hplain, isAbsolute_wayDown h]
  · rw [normalPieces, foldl_pieces_join hplain, isAbsolute_join hplain,
      pieces_of_noSlash hname.noSlash, List.foldl_cons, List.foldl_nil, normalStep_name hname,
      List.reverse_cons, ← normalPieces, normalPieces_wayDown h]
  · simp
  · exact forall_mem_snoc h hname

theorem basename_joinSlash {names : List String} {name : String} (h : ∀ n ∈ names, IsName n)
    (hname : IsName name) : basename (joinSlash (names ++ [name])) = name := by
  have hne : names ++ [name] ≠ [] := by simp
  rw [basename, pieces_joinSlash_names hne (forall_mem_snoc h hname)]
  simp

end CallAtlas.Path
