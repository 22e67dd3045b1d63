import CallAtlas.Proofs.FileSearch

/-!
A file that was written is read back by the same path. What the way to it leads through, links
included, is still there once the file stands at its end.
-/

set_option autoImplicit false

namespace CallAtlas

namespace Entry

theorem child?_putChild_self (name : String) (new : Entry) (entries : List (String × Entry)) :
    (directory (putChild name new entries)).child? name = some new := by
  simp only [child?]
  induction entries with
  | nil => simp [putChild]
  | cons first rest ih =>
    by_cases hname : first.1 = name
    · simp [putChild, hname]
    · simp [putChild, hname, ih]

theorem child?_putChild_of_ne {name other : String} (h : other ≠ name) (new : Entry)
    (entries : List (String × Entry)) :
    (directory (putChild name new entries)).child? other = (directory entries).child? other := by
  simp only [child?]
  induction entries with
  | nil => simp [putChild, Ne.symm h]
  | cons first rest ih =>
    by_cases hname : first.1 = name
    · simp [putChild, hname, Ne.symm h]
    · by_cases hother : first.1 = other
      · simp [putChild, hother, h]
      · simp [putChild, hname, hother, ih]

theorem get?_put_self (new e : Entry) (place : List String) :
    (put new e place).get? place = some new := by
  induction place generalizing e with
  | nil => rfl
  | cons name rest ih => simp [put, get?, child?_putChild_self, ih]

theorem exists_directory_of_child? {e c : Entry} {name : String} (h : e.child? name = some c) :
    ∃ entries, e = .directory entries := by
  cases e with
  | directory entries => exact ⟨entries, rfl⟩
  | file content => simp [child?] at h
  | link target => simp [child?] at h

/-- Above its place a new entry changes what a directory holds and nothing else. -/
theorem get?_put_above {new e x : Entry} {above below : List String} (h : e.get? above = some x) :
    (put new e (above ++ below)).get? above = some (put new x below) := by
  induction above generalizing e with
  | nil =>
    obtain rfl : e = x := by simpa [get?] using h
    rfl
  | cons name rest ih =>
    simp only [get?] at h
    cases hchild : e.child? name with
    | none => simp [hchild] at h
    | some c =>
      rw [hchild] at h
      simp [put, get?, child?_putChild_self, hchild, ih h]

/-- Beside its place a new entry changes nothing. -/
theorem get?_put_beside {new e x : Entry} {place other : List String} (h : e.get? other = some x)
    (hbelow : ¬ place <+: other) (habove : ¬ other <+: place) :
    (put new e place).get? other = some x := by
  induction other generalizing e place with
  | nil => simp at habove
  | cons name rest ih =>
    cases place with
    | nil => simp at hbelow
    | cons first more =>
      simp only [get?] at h
      cases hchild : e.child? name with
      | none => simp [hchild] at h
      | some c =>
        rw [hchild] at h
        obtain ⟨entries, rfl⟩ := exists_directory_of_child? hchild
        by_cases hname : name = first
        · subst hname
          have hrest := ih h (by simpa using hbelow) (by simpa using habove)
          simp [put, get?, child?_putChild_self, hchild, hrest]
        · simp [put, get?, child?_putChild_of_ne hname, hchild, h]

theorem exists_directory_of_get? {root x : Entry} {dir : List String} {name : String}
    (h : root.get? (dir ++ [name]) = some x) :
    ∃ entries, root.get? dir = some (.directory entries) := by
  rw [get?_append] at h
  obtain ⟨e, he, hchild⟩ := Option.bind_eq_some_iff.mp h
  rw [get?_singleton] at hchild
  obtain ⟨entries, rfl⟩ := exists_directory_of_child? hchild
  exact ⟨entries, he⟩

theorem exists_directory_dropLast {root : Entry} {place : List String}
    {entries : List (String × Entry)} (h : root.get? place = some (.directory entries)) :
    ∃ entries', root.get? place.dropLast = some (.directory entries') := by
  cases hlast : place.getLast? with
  | none =>
    obtain rfl := List.getLast?_eq_none_iff.mp hlast
    exact ⟨entries, h⟩
  | some name =>
    obtain ⟨dir, rfl⟩ := List.getLast?_eq_some_iff.mp hlast
    rw [List.dropLast_concat]
    exact exists_directory_of_get? h

end Entry

/-- A file can stand under the name: its directory is there, and at most a file is in its place. -/
structure Entry.Fits (root : Entry) (dir : List String) (name : String) : Prop where
  parent : ∃ entries, root.get? dir = some (.directory entries)
  free : ∀ x, root.get? (dir ++ [name]) = some x → ∃ content, x = .file content

theorem exists_directory_of_link {root x : Entry} {place : List String} {piece : String}
    (h : root.get? (place ++ [piece]) = some x) (absolute : Bool) :
    ∃ entries, root.get? (if absolute then [] else place) = some (.directory entries) := by
  cases absolute with
  | false => exact Entry.exists_directory_of_get? h
  | true =>
    obtain ⟨name, rest, hsplit⟩ : ∃ name rest, place ++ [piece] = name :: rest :=
      List.exists_cons_of_ne_nil (by simp)
    rw [hsplit, ← List.singleton_append, Entry.get?_append] at h
    obtain ⟨c, hc, _⟩ := Option.bind_eq_some_iff.mp h
    have hfirst : root.get? ([] ++ [name]) = some c := hc
    exact Entry.exists_directory_of_get? hfirst

theorem writable_fits {root : Entry} {links : Nat} {place pieces target : List String}
    (hplace : ∃ entries, root.get? place = some (.directory entries))
    (h : writable root links place pieces = .ok target) :
    ∃ dir name, target = dir ++ [name] ∧ root.Fits dir name := by
  -- every step, a link included, leads to a directory that is there
  fun_induction writable root links place pieces with
  | case1 => cases h
  | case2 links place piece rest hdot ih => exact ih hplace h
  | case3 links place piece rest hdot hup ih =>
    obtain ⟨entries, hentries⟩ := hplace
    exact ih (Entry.exists_directory_dropLast hentries) h
  | case4 links place piece rest hdot hup hnone hlast =>
    cases h
    exact ⟨place, piece, rfl, hplace, by simp [hnone]⟩
  | case5 => cases h
  | case6 => cases h
  | case7 links place piece rest hdot hup entries hdirectory ih => exact ih ⟨entries, hdirectory⟩ h
  | case8 links place piece rest hdot hup content hfile hlast =>
    cases h
    refine ⟨place, piece, rfl, hplace, ?_⟩
    intro x hx
    exact ⟨content, by simpa [hfile, eq_comm] using hx⟩
  | case9 => cases h
  | case10 => cases h
  | case11 place piece rest hdot hup link hlink left ih =>
    simp only [dite_eq_ite] at ih
    exact ih (exists_directory_of_link hlink _) h

section Kept

variable {root : Entry} {dir place : List String} {name : String}

/-- What is no file stands above the new file or beside it. -/
theorem Entry.Fits.above_or_beside (h : root.Fits dir name) {x : Entry}
    (hx : root.get? place = some x) (hkind : ∀ content, x ≠ .file content) :
    place <+: dir ∨ (¬ dir ++ [name] <+: place ∧ ¬ place <+: dir ++ [name]) := by
  have hnot : ¬ dir ++ [name] <+: place := by
    rintro ⟨below, rfl⟩
    rw [Entry.get?_append] at hx
    obtain ⟨y, hy, hbelow⟩ := Option.bind_eq_some_iff.mp hx
    obtain ⟨content, rfl⟩ := h.free y hy
    cases below with
    | nil => exact hkind content (by simpa [Entry.get?, eq_comm] using hbelow)
    | cons first rest => simp [Entry.get?, Entry.child?] at hbelow
  by_cases habove : place <+: dir ++ [name]
  · rcases List.prefix_concat_iff.mp habove with rfl | habove
    · exact absurd (List.prefix_refl _) hnot
    · exact .inl habove
  · exact .inr ⟨hnot, habove⟩

theorem Entry.Fits.directory_kept (h : root.Fits dir name) {entries : List (String × Entry)}
    (hplace : root.get? place = some (.directory entries)) (new : Entry) :
    ∃ entries', (new.put root (dir ++ [name])).get? place = some (.directory entries') := by
  rcases h.above_or_beside hplace (by simp) with ⟨between, rfl⟩ | ⟨hbelow, habove⟩
  · rw [List.append_assoc, Entry.get?_put_above hplace]
    cases between with
    | nil => exact ⟨_, rfl⟩
    | cons first rest => exact ⟨_, rfl⟩
  · exact ⟨entries, Entry.get?_put_beside hplace hbelow habove⟩

theorem Entry.Fits.link_kept (h : root.Fits dir name) {target : String}
    (hplace : root.get? place = some (.link target)) (new : Entry) :
    (new.put root (dir ++ [name])).get? place = some (.link target) := by
  rcases h.above_or_beside hplace (by simp) with ⟨between, rfl⟩ | ⟨hbelow, habove⟩
  · -- a directory stands above the file, and a link has nothing below it
    obtain ⟨entries, hparent⟩ := h.parent
    rw [Entry.get?_append, hplace] at hparent
    cases between with
    | nil => simp [Entry.get?] at hparent
    | cons first rest => simp [Entry.get?, Entry.child?] at hparent
  · exact Entry.get?_put_beside hplace hbelow habove

end Kept

/-- Following a path leads to the file that was put where the path allowed it. -/
theorem follow_put {root : Entry} {links : Nat} {place pieces target : List String}
    (h : writable root links place pieces = .ok target) (content : ByteArray) :
    follow (.put (.file content) root target) links place pieces = .ok target := by
  -- the target is the same all along, so the new file never stands on the way to itself
  fun_induction writable root links place pieces with
  | case1 => cases h
  | case2 links place piece rest hdot ih => simp [follow, hdot, ih h]
  | case3 links place piece rest hdot hup ih => simp [follow, hdot, hup, ih h]
  | case4 links place piece rest hdot hup hnone hlast =>
    cases h
    simp [follow, hdot, hup, hlast, Entry.get?_put_self]
  | case5 => cases h
  | case6 => cases h
  | case7 links place piece rest hdot hup entries hdirectory ih =>
    obtain ⟨dir, name, rfl, hfits⟩ := writable_fits ⟨entries, hdirectory⟩ h
    obtain ⟨entries', hkept⟩ := hfits.directory_kept hdirectory (.file content)
    simp [follow, hdot, hup, hkept, ih h]
  | case8 links place piece rest hdot hup content hfile hlast =>
    cases h
    simp [follow, hdot, hup, hlast, Entry.get?_put_self]
  | case9 => cases h
  | case10 => cases h
  | case11 place piece rest hdot hup link hlink left ih =>
    simp only [dite_eq_ite] at ih
    obtain ⟨dir, name, rfl, hfits⟩ := writable_fits (exists_directory_of_link hlink _) h
    have hkept := hfits.link_kept hlink (.file content)
    simp [follow, hdot, hup, hkept, ih h]

/-- A file that was written is read back by the same path. -/
theorem FileSystem.read_of_write {fs after : FileSystem} {path : String} {content : ByteArray}
    (h : fs.write path content = .ok after) : after.read path = .ok content := by
  unfold write at h
  split at h
  · cases h
  · rename_i hempty
    cases hplace : writable fs.root linkLimit (fs.origin path) (Path.pieces path) with
    | error cause => simp [hplace, bind, Except.bind] at h
    | ok place =>
      simp only [hplace, bind, Except.bind] at h
      split at h
      · cases h
      · rename_i hunlocked
        cases h
        have hlocate : FileSystem.locate
            { fs with root := Entry.put (.file content) fs.root place } path = .ok place := by
          simpa [locate, hempty, origin] using follow_put hplace content
        simp [read, hlocate, Entry.get?_put_self, hunlocked, bind, Except.bind]

end CallAtlas
