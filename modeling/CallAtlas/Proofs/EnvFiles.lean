import CallAtlas.EnvFile

/-!
What a file of settings can do to the environment. Variables that are set stay as they are, and a
file that neither sets a variable nor refers to it does the same whatever the variable holds.
-/

set_option autoImplicit false

namespace CallAtlas

/-- The two environments differ in this variable at most. -/
def Environment.AgreesExcept (variableName : String) (env env' : Environment) : Prop :=
  ∀ name, name ≠ variableName → env.get? name = env'.get? name

theorem Environment.AgreesExcept.symm {variableName : String} {env env' : Environment}
    (h : env.AgreesExcept variableName env') : env'.AgreesExcept variableName env :=
  fun name hname => (h name hname).symm

theorem Environment.get?_append_singleton (env : Environment) (name value other : String) :
    Environment.get? (env ++ [(name, value)]) other =
      (env.get? other).or (if name = other then some value else none) := by
  unfold Environment.get?
  rw [List.find?_append, Option.map_or]
  by_cases h : name = other
  · simp [h]
  · simp [h, beq_eq_false_iff_ne.mpr h]

/-- Taking in the file ends alike for all values of the variable, and does the same to all
others. -/
structure Loader.Overlooks (loader : Loader) (fs : FileSystem) (path : Option String)
    (variableName : String) : Prop where
  fails : ∀ {env env' fault}, env.AgreesExcept variableName env' →
    (loader fs env path).environment = .error fault →
    (loader fs env' path).environment = .error fault
  agrees : ∀ {env env' after after'}, env.AgreesExcept variableName env' →
    (loader fs env path).environment = .ok after →
    (loader fs env' path).environment = .ok after' → after.AgreesExcept variableName after'

namespace EnvFile

theorem setVariable_keeps {env after : Environment} {name other value : String}
    {new : Option String} (h : setVariable env name new = .ok after)
    (hset : env.get? other = some value) : after.get? other = some value := by
  unfold setVariable at h
  split at h
  · split at h
    · cases h
    · cases h
      rw [Environment.get?_append_singleton, hset, Option.some_or]
  · cases h
    exact hset

theorem foldlM_setVariable_keeps {new : String → Option String} {names : List String}
    {env after : Environment} {other value : String}
    (h : names.foldlM (fun env name => setVariable env name (new name)) env = .ok after)
    (hset : env.get? other = some value) : after.get? other = some value := by
  induction names generalizing env with
  | nil =>
    cases h
    exact hset
  | cons name rest ih =>
    rw [List.foldlM_cons] at h
    cases hstep : setVariable env name (new name) with
    | error fault => simp [hstep, bind, Except.bind] at h
    | ok next =>
      simp only [hstep, bind, Except.bind] at h
      exact ih h (setVariable_keeps hstep hset)

theorem loader_keepsVariables : loader.KeepsVariables := by
  intro fs env path after h name value hset
  unfold loader at h
  split at h
  · cases h
  · rename_i contents _
    simp only [takeIn] at h
    split at h
    · cases h
    · rename_i env' happly
      cases h
      exact foldlM_setVariable_keeps happly hset

/-- An absent file, or a directory in its place, counts as none. -/
theorem loader_findsNoFile {fs : FileSystem} {path : Option String}
    (h : ∀ p ∈ path, Path.holdsZero p = false ∧
      ∃ cause, fs.read p = .error cause ∧ cause ≠ .denied) (env : Environment) :
    loader.FindsNoFile fs env path := by
  have hcontents : path.elim (.ok {}) (contentsAt fs) = .ok {} := by
    cases path with
    | none => rfl
    | some p =>
      obtain ⟨hzero, cause, hread, hcause⟩ := h p rfl
      simp only [Option.elim, contentsAt, hzero, hread]
      cases cause with
      | denied => exact absurd rfl hcause
      | _ => rfl
  rw [Loader.FindsNoFile, loader, hcontents]
  rfl

theorem contentsAt_of_read {fs : FileSystem} {path : String} {octets : ByteArray}
    {contents : Contents} (hzero : Path.holdsZero path = false)
    (hread : fs.read path = .ok octets) (hcontents : read octets.data.toList = .ok contents) :
    contentsAt fs path = .ok contents := by
  simp [contentsAt, hzero, hread, hcontents]

section Overlooked

variable {variableName : String} {env env' : Environment}

theorem expand_congr {look look' : String → Option String} {fuel : Nat} {cs : List Char}
    (h : ∀ name ∈ references fuel cs, look name = look' name) :
    expand look fuel cs = expand look' fuel cs := by
  fun_induction expand look fuel cs with
  | case1 cs => simp [expand]
  | case2 fuel => simp [expand]
  | case3 fuel rest name fallback after href ih =>
    simp only [references, href, List.mem_cons, forall_eq_or_imp] at h
    simp only [expand, href, h.1, ih h.2]
  | case4 fuel rest href ih =>
    simp only [references, href] at h
    simp only [expand, href, ih h]
  | case5 fuel c rest hother ih =>
    rw [references] at h
    · rw [expand, ih h]
      exact hother
    · exact hother

theorem resolve_congr (hagrees : env.AgreesExcept variableName env')
    {bindings : List (String × Option String)} (earlier : List (String × Option String))
    (h : ∀ name value, (name, some value) ∈ bindings →
      variableName ∉ references (value.length + 1) value.toList) :
    resolve env earlier bindings = resolve env' earlier bindings := by
  induction bindings generalizing earlier with
  | nil => rfl
  | cons b rest ih =>
    obtain ⟨name, value⟩ := b
    have hrest := fun earlier => ih earlier (fun n v hmem => h n v (List.mem_cons_of_mem _ hmem))
    cases value with
    | none =>
      simp only [resolve, Option.map_none]
      exact hrest _
    | some v =>
      have hnot := h name v List.mem_cons_self
      have hexpand : expand (look env earlier) (v.length + 1) v.toList =
          expand (look env' earlier) (v.length + 1) v.toList := by
        apply expand_congr
        intro n hn
        rw [look, look, hagrees n (ne_of_mem_of_not_mem hn hnot)]
      simp only [resolve, Option.map_some, hexpand]
      exact hrest _

theorem setVariable_agrees (hagrees : env.AgreesExcept variableName env') {name : String}
    (hname : name ≠ variableName) (new : Option String) :
    (∃ fault, setVariable env name new = .error fault ∧
      setVariable env' name new = .error fault) ∨
    ∃ next next', setVariable env name new = .ok next ∧ setVariable env' name new = .ok next' ∧
      next.AgreesExcept variableName next' := by
  unfold setVariable
  rw [← hagrees name hname]
  split
  · split
    · exact .inl ⟨_, rfl, rfl⟩
    · refine .inr ⟨_, _, rfl, rfl, ?_⟩
      intro other hother
      rw [Environment.get?_append_singleton, Environment.get?_append_singleton,
        hagrees other hother]
  · exact .inr ⟨_, _, rfl, rfl, hagrees⟩

theorem foldlM_setVariable_agrees (hagrees : env.AgreesExcept variableName env')
    {new : String → Option String} {names : List String} (hnames : variableName ∉ names) :
    let set := fun env name => setVariable env name (new name)
    (∃ fault, names.foldlM set env = .error fault ∧ names.foldlM set env' = .error fault) ∨
    ∃ after after', names.foldlM set env = .ok after ∧ names.foldlM set env' = .ok after' ∧
      after.AgreesExcept variableName after' := by
  intro set
  induction names generalizing env env' with
  | nil => exact .inr ⟨env, env', rfl, rfl, hagrees⟩
  | cons name rest ih =>
    simp only [List.foldlM_cons]
    have hname : name ≠ variableName := fun h => hnames (h ▸ List.mem_cons_self)
    rcases setVariable_agrees hagrees hname (new name) with
      ⟨fault, h, h'⟩ | ⟨next, next', h, h', hnext⟩
    · exact .inl ⟨fault, by simp [set, h, bind, Except.bind], by simp [set, h', bind, Except.bind]⟩
    · simp only [set, h, h', bind, Except.bind]
      exact ih hnext (fun hmem => hnames (List.mem_cons_of_mem _ hmem))

theorem apply_agrees (hagrees : env.AgreesExcept variableName env') {contents : Contents}
    (hnames : variableName ∉ contents.names) :
    (∃ fault, apply env contents.bindings = .error fault ∧
      apply env' contents.bindings = .error fault) ∨
    ∃ after after', apply env contents.bindings = .ok after ∧
      apply env' contents.bindings = .ok after' ∧ after.AgreesExcept variableName after' := by
  have hresolve : resolve env [] contents.bindings = resolve env' [] contents.bindings := by
    apply resolve_congr hagrees
    intro name value hmem href
    exact hnames (List.mem_flatMap.mpr ⟨_, hmem, List.mem_cons_of_mem _ href⟩)
  have hset : variableName ∉ (contents.bindings.map Prod.fst).eraseDups := by
    rw [List.mem_eraseDups, List.mem_map]
    rintro ⟨b, hmem, rfl⟩
    exact hnames (List.mem_flatMap.mpr ⟨b, hmem, List.mem_cons_self⟩)
  unfold apply
  rw [hresolve]
  exact foldlM_setVariable_agrees hagrees hset

/-- A file overlooks every variable that it neither sets nor refers to. -/
theorem loader_overlooks {fs : FileSystem} {path : Option String}
    (h : ∀ contents, path.elim (.ok {}) (contentsAt fs) = .ok contents →
      variableName ∉ contents.names) : loader.Overlooks fs path variableName := by
  cases hcontents : path.elim (.ok {}) (contentsAt fs) with
  | error fault =>
    constructor
    · intro env env' fault' _ hfails
      simpa [loader, hcontents] using hfails
    · intro env env' after after' _ hafter
      simp [loader, hcontents] at hafter
  | ok contents =>
    have hnames := h contents hcontents
    constructor
    · intro env env' fault hagrees hfails
      rcases apply_agrees hagrees hnames with ⟨_, happly, happly'⟩ | ⟨_, _, happly, _⟩
      · simpa [loader, hcontents, takeIn, happly, happly'] using hfails
      · simp [loader, hcontents, takeIn, happly] at hfails
    · intro env env' after after' hagrees hafter hafter'
      rcases apply_agrees hagrees hnames with ⟨_, happly, _⟩ | ⟨_, _, happly, happly', hnext⟩
      · simp [loader, hcontents, takeIn, happly] at hafter
      · simp only [loader, hcontents, takeIn, happly, happly', Except.ok.injEq] at hafter hafter'
        rwa [← hafter, ← hafter']

end Overlooked

end EnvFile

end CallAtlas
