import CallAtlas.Proofs.EnvFiles
import CallAtlas.Proofs.FirstOccurrences
import CallAtlas.Settings
import Mathlib.Data.Finset.Dedup
import Mathlib.Data.Finset.Insert

/-!
Settings written into the environment and read from it. A number is written in decimal digits and a
set of names to ignore as a list with commas, in any order, with repetitions and blanks as one
likes; what is read is what was written.
-/

set_option autoImplicit false

namespace CallAtlas

namespace Text

/-- No blank stands at either end. -/
def IsTrimmed (s : String) : Prop :=
  (∀ c ∈ s.toList.head?, isBlank c = false) ∧ ∀ c ∈ s.toList.getLast?, isBlank c = false

/-- The text `padded` is `s` with blanks around it. -/
def Pads (s padded : String) : Prop :=
  ∃ before after : List Char, (∀ c ∈ before, isBlank c = true) ∧
    (∀ c ∈ after, isBlank c = true) ∧ padded.toList = before ++ s.toList ++ after

theorem dropWhile_blanks {p : Char → Bool} {blanks rest : List Char}
    (hblanks : ∀ c ∈ blanks, p c = true) (hrest : ∀ c ∈ rest.head?, p c = false) :
    (blanks ++ rest).dropWhile p = rest := by
  rw [List.dropWhile_append_of_pos hblanks]
  cases rest with
  | nil => rfl
  | cons c rest => simp [hrest c rfl]

theorem trim_of_pads {s padded : String} (h : Pads s padded) (hs : IsTrimmed s) :
    trim padded = s := by
  obtain ⟨before, after, hbefore, hafter, hpadded⟩ := h
  rw [trim, hpadded, trimWith, dropTail]
  by_cases hempty : s.toList = []
  · have hall : (before ++ s.toList ++ after).dropWhile isBlank = [] := by
      have hblanks : ∀ c ∈ before ++ after, isBlank c = true := by
        intro c hc
        exact (List.mem_append.mp hc).elim (hbefore c) (hafter c)
      have hnothing : ∀ c ∈ ([] : List Char).head?, isBlank c = false := by simp
      simpa [hempty] using dropWhile_blanks hblanks hnothing
    rw [hall, ← String.ofList_toList (s := s), hempty]
    rfl
  · have hfront : (before ++ s.toList ++ after).dropWhile isBlank = s.toList ++ after := by
      rw [List.append_assoc]
      apply dropWhile_blanks hbefore
      rw [List.head?_append_of_ne_nil _ hempty]
      exact hs.1
    have hback : (s.toList ++ after).reverse.dropWhile isBlank = s.toList.reverse := by
      rw [List.reverse_append]
      apply dropWhile_blanks
      · simpa using hafter
      · rw [List.head?_reverse]
        exact hs.2
    rw [hfront, hback, List.reverse_reverse, String.ofList_toList]

/-- The value of a decimal digit of the first script. -/
def digitOf (c : Char) : Nat :=
  c.toNat - 0x30

theorem toNat_of_isDigit {c : Char} (h : c.isDigit = true) : 0x30 ≤ c.toNat ∧ c.toNat ≤ 0x39 := by
  simpa [Char.isDigit, UInt32.le_iff_toNat_le] using h

theorem digitValue?_of_isDigit {c : Char} (h : c.isDigit = true) :
    digitValue? c = some (digitOf c) := by
  obtain ⟨hlow, hhigh⟩ := toNat_of_isDigit h
  have hfound : zeros.find? (fun z => z ≤ c.toNat && c.toNat < z + 10) = some 0x30 := by
    apply List.find?_cons_of_pos
    simp
    omega
  rw [digitValue?, hfound, Option.map_some, digitOf]

theorem ne_of_isDigit {c d : Char} (h : c.isDigit = true) (hd : d.isDigit = false) : c ≠ d := by
  rintro rfl
  rw [h] at hd
  exact absurd hd (by decide)

theorem scanDigits_cons {c : Char} (h : c.isDigit = true) (seen : List Nat) (open' : Bool)
    (rest : List Char) :
    scanDigits seen open' (c :: rest) = scanDigits (digitOf c :: seen) false rest := by
  have hunderscore : c ≠ '_' := ne_of_isDigit h (by decide)
  rw [scanDigits, if_neg hunderscore, digitValue?_of_isDigit h]

theorem scanDigits_digits {cs : List Char} (h : ∀ c ∈ cs, c.isDigit = true) (seen : List Nat) :
    scanDigits seen false cs = some (seen.reverse ++ cs.map digitOf, []) := by
  induction cs generalizing seen with
  | nil => simp [scanDigits]
  | cons c rest ih =>
    rw [scanDigits_cons (h c List.mem_cons_self), ih (fun d hd => h d (List.mem_cons_of_mem c hd))]
    simp

theorem exists_toDigits_cons (n : Nat) :
    ∃ c rest, Nat.toDigits 10 n = c :: rest ∧ ∀ d ∈ c :: rest, d.isDigit = true := by
  cases hcs : Nat.toDigits 10 n with
  | nil => exact absurd hcs Nat.toDigits_ne_nil
  | cons c rest =>
    refine ⟨c, rest, rfl, ?_⟩
    intro d hd
    exact Nat.isDigit_of_mem_toDigits (b := 10) (n := n) (by omega) (by omega) (hcs ▸ hd)

theorem scanDigits_toDigits (n : Nat) :
    scanDigits [] true (Nat.toDigits 10 n) = some ((Nat.toDigits 10 n).map digitOf, []) := by
  obtain ⟨c, rest, hcs, hdigits⟩ := exists_toDigits_cons n
  rw [hcs, scanDigits_cons (hdigits c List.mem_cons_self),
    scanDigits_digits (fun d hd => hdigits d (List.mem_cons_of_mem c hd))]
  rfl

theorem ofDigits_toDigits (n : Nat) : ofDigits ((Nat.toDigits 10 n).map digitOf) = n := by
  have hfold : ofDigits ((Nat.toDigits 10 n).map digitOf) =
      Nat.ofDigitChars 10 (Nat.toDigits 10 n) 0 := by
    rw [ofDigits, List.foldl_map, Nat.ofDigitChars]
    simp only [digitOf, Nat.mul_comm]
    rfl
  rw [hfold, Nat.ofDigitChars_ten_toDigits]

/-- A sign, or none, and the digits. -/
theorem toList_toString_int (n : Int) :
    (toString n).toList =
      if n < 0 then '-' :: Nat.toDigits 10 n.natAbs else Nat.toDigits 10 n.natAbs := by
  rw [Int.toString_eq_repr, Int.repr_eq_if]
  by_cases hn : 0 ≤ n
  · have habs : n.toNat = n.natAbs := by omega
    have hpos : ¬ n < 0 := by omega
    simp [hn, hpos, habs, Nat.repr_eq_ofList_toDigits]
  · have habs : (-n).toNat = n.natAbs := by omega
    have hneg : n < 0 := by omega
    simp [hn, hneg, habs, Nat.repr_eq_ofList_toDigits]

theorem isNumberBlank_of_isDigit {c : Char} (h : c.isDigit = true) : isNumberBlank c = false := by
  obtain ⟨hlow, hhigh⟩ := toNat_of_isDigit h
  simp only [isNumberBlank, isPlainBlank, isBlank, Bool.or_eq_false_iff, Bool.and_eq_false_iff,
    decide_eq_false_iff_not, beq_eq_false_iff_ne]
  omega

theorem takeSign_of_isDigit {c : Char} (h : c.isDigit = true) (rest : List Char) :
    takeSign (c :: rest) = (false, c :: rest) := by
  have hminus : c ≠ '-' := ne_of_isDigit h (by decide)
  have hplus : c ≠ '+' := ne_of_isDigit h (by decide)
  simp [takeSign, hminus, hplus]

/-- What a number is written as splits into its sign and its digits. -/
theorem takeSign_toString (n : Int) :
    takeSign ((toString n).toList.dropWhile isNumberBlank) =
      (decide (n < 0), Nat.toDigits 10 n.natAbs) := by
  rw [toList_toString_int]
  split
  · rename_i hneg
    have hminus : isNumberBlank '-' = false := by decide
    simp [hminus, takeSign, hneg]
  · rename_i hpos
    obtain ⟨c, rest, hcs, hdigits⟩ := exists_toDigits_cons n.natAbs
    have hc := hdigits c List.mem_cons_self
    simp [hcs, isNumberBlank_of_isDigit hc, takeSign_of_isDigit hc, hpos]

theorem readInteger_toString {n : Int}
    (h : (Nat.toDigits 10 n.natAbs).length ≤ digitLimit) : readInteger (toString n) = .ok n := by
  have hlength : ¬ digitLimit < ((Nat.toDigits 10 n.natAbs).map digitOf).length := by
    rw [List.length_map]
    omega
  simp only [readInteger, takeSign_toString, scanDigits_toDigits, if_neg hlength, List.all_nil,
    if_true, ofDigits_toDigits, decide_eq_true_eq, Int.ofNat_eq_natCast]
  congr 1
  split
  · omega
  · omega

end Text

namespace Settings

/-- A name that can stand in a list with commas. -/
structure IsListable (name : String) : Prop where
  ne_empty : name ≠ ""
  noComma : ',' ∉ name.toList
  trimmed : Text.IsTrimmed name

/-- The text lists the names and no others, with commas between the entries. An entry is a name or
nothing, with blanks around it. -/
def Lists (text : String) (names : Finset String) : Prop :=
  ∃ entries : List String, entries ≠ [] ∧ text = ",".intercalate entries ∧
    (∀ entry ∈ entries, ∃ name, (name = "" ∨ name ∈ names) ∧ Text.Pads name entry) ∧
    ∀ name ∈ names, ∃ entry ∈ entries, Text.Pads name entry

theorem comma_notMem_of_pads {name entry : String} (h : Text.Pads name entry)
    (hname : ',' ∉ name.toList) : ',' ∉ entry.toList := by
  obtain ⟨before, after, hbefore, hafter, hentry⟩ := h
  have hcomma : Text.isBlank ',' ≠ true := by decide
  rw [hentry]
  simp only [List.mem_append, not_or]
  exact ⟨⟨fun h => hcomma (hbefore _ h), hname⟩, fun h => hcomma (hafter _ h)⟩

/-- A text splits into its entries again. -/
theorem splitOn_intercalate_comma {entries : List String} (hne : entries ≠ [])
    (h : ∀ entry ∈ entries, ',' ∉ entry.toList) :
    ((",".intercalate entries).toList.splitOn ',').map String.ofList = entries := by
  have hcommas : ∀ l ∈ entries.map String.toList, ',' ∉ l := by
    intro l hl
    obtain ⟨entry, hentry, rfl⟩ := List.mem_map.mp hl
    exact h entry hentry
  have hsplit := List.splitOn_intercalate ',' hcommas (by simpa using hne)
  have hcomma : ",".toList = [','] := rfl
  rw [String.toList_intercalate, hcomma, hsplit, List.map_map]
  simp [Function.comp_def]

/-- Of a list of names its names are read and nothing else. -/
theorem mem_ignoreList_iff {text : String} {names : Finset String} (h : Lists text names)
    (hnames : ∀ name ∈ names, IsListable name) (name : String) :
    name ∈ ignoreList text ↔ name ∈ names := by
  obtain ⟨entries, hne, rfl, hentries, hlisted⟩ := h
  have htrim : ∀ {name entry}, name = "" ∨ name ∈ names → Text.Pads name entry →
      Text.trim entry = name := by
    intro name entry hname hpads
    apply Text.trim_of_pads hpads
    rcases hname with rfl | hname
    · exact ⟨by simp, by simp⟩
    · exact (hnames name hname).trimmed
  have hcommas : ∀ entry ∈ entries, ',' ∉ entry.toList := by
    intro entry hentry
    obtain ⟨name, hname, hpads⟩ := hentries entry hentry
    apply comma_notMem_of_pads hpads
    rcases hname with rfl | hname
    · simp
    · exact (hnames name hname).noComma
  simp only [ignoreList, splitOn_intercalate_comma hne hcommas, List.mem_eraseDups,
    List.mem_filter, List.mem_map, Bool.not_eq_true', String.isEmpty_eq_false_iff]
  constructor
  · rintro ⟨⟨entry, hentry, rfl⟩, hnotEmpty⟩
    obtain ⟨name, hname, hpads⟩ := hentries entry hentry
    rw [htrim hname hpads] at hnotEmpty ⊢
    exact hname.resolve_left hnotEmpty
  · intro hname
    obtain ⟨entry, hentry, hpads⟩ := hlisted name hname
    exact ⟨⟨entry, hentry, htrim (.inr hname) hpads⟩, (hnames name hname).ne_empty⟩

theorem integerOr_of_written {env : Environment} {name : String} {n : Int}
    (henv : env.get? name = some (toString n))
    (h : (Nat.toDigits 10 n.natAbs).length ≤ Text.digitLimit) (default : Int) :
    integerOr env name default = .ok n := by
  rw [integerOr, henv]
  simp only [Text.readInteger_toString h]

/-- Without a file of settings the environment alone counts. -/
theorem load_of_findsNoFile {loader : Loader} {fs : FileSystem} {env : Environment}
    {envFile : Option String} (h : loader.FindsNoFile fs env envFile) :
    load loader fs env envFile = ([], ofEnvironment env) := by
  rw [load, h]

/-- Settings in the environment are read as they were written, if there is no file of settings:
both numbers with at most as many digits as are read, the level in capitals, and the names to
ignore however they are listed. -/
theorem load_of_written {loader : Loader} {fs : FileSystem} {envFile : Option String}
    {env : Environment} {detail : Detail} {size workers : Int} {level ignored : String}
    {names : Finset String} (hfile : loader.FindsNoFile fs env envFile)
    (hsize : (Nat.toDigits 10 size.natAbs).length ≤ 4300)
    (hworkers : (Nat.toDigits 10 workers.natAbs).length ≤ 4300) (hone : 1 ≤ workers)
    (hnames : ∀ name ∈ names, IsListable name) (hignored : Lists ignored names)
    (hdetailIn : env.get? "FUNCGRAPH_VARIANT" = some detail.name)
    (hsizeIn : env.get? "FUNCGRAPH_MAX_FILE_SIZE" = some (toString size))
    (hworkersIn : env.get? "FUNCGRAPH_WORKERS" = some (toString workers))
    (hlevelIn : env.get? "FUNCGRAPH_LOG_LEVEL" = some level)
    (hignoredIn : env.get? "FUNCGRAPH_IGNORE" = some ignored) :
    ∃ s : Settings, load loader fs env envFile = ([], .ok s) ∧ s.detail = detail ∧
      s.maxFileSize = size ∧ s.workers = workers ∧ s.logLevel = Text.upper level ∧
      s.ignore.Nodup ∧ s.ignore.toFinset = names := by
  have hnotLow : ¬ workers < 1 := by omega
  have hset : (ignoreList ignored).toFinset = names := by
    ext name
    rw [List.mem_toFinset, mem_ignoreList_iff hignored hnames]
  refine ⟨⟨detail, size, workers, Text.upper level, ignoreList ignored⟩, ?_, rfl, rfl, rfl, rfl,
    nodup_eraseDups _, hset⟩
  rw [load_of_findsNoFile hfile, ofEnvironment, integerOr_of_written hsizeIn hsize,
    integerOr_of_written hworkersIn hworkers]
  simp [bind, Except.bind, make, hdetailIn, hlevelIn, hignoredIn, Detail.ofName?_name, hnotLow]

def writtenEnvironment : Environment :=
  [("FUNCGRAPH_VARIANT", "signature"), ("FUNCGRAPH_MAX_FILE_SIZE", "-17"),
    ("FUNCGRAPH_WORKERS", "12"), ("FUNCGRAPH_LOG_LEVEL", "debug"),
    ("FUNCGRAPH_IGNORE", " gen ,,lib,gen,\t")]

/-- Two names to ignore, one of them listed twice, and two empty entries. -/
theorem load_of_writtenEnvironment :
    ∃ s : Settings,
      load EnvFile.loader ⟨.directory [], [], []⟩ writtenEnvironment none = ([], .ok s) ∧
      s.detail = .signature ∧ s.maxFileSize = -17 ∧ s.workers = 12 ∧
      s.logLevel = Text.upper "debug" ∧ s.ignore.Nodup ∧ s.ignore.toFinset = {"gen", "lib"} := by
  have hlistable : ∀ name ∈ ({"gen", "lib"} : Finset String), IsListable name := by
    intro name hname
    rcases (by simpa using hname : name = "gen" ∨ name = "lib") with rfl | rfl
    · exact ⟨by decide, by decide, by rintro c ⟨⟩; decide, by rintro c ⟨⟩; decide⟩
    · exact ⟨by decide, by decide, by rintro c ⟨⟩; decide, by rintro c ⟨⟩; decide⟩
  have hblank : ∀ c ∈ [' '], Text.isBlank c = true := List.forall_mem_singleton.mpr (by decide)
  have htab : ∀ c ∈ ['\t'], Text.isBlank c = true := List.forall_mem_singleton.mpr (by decide)
  have hlists : Lists " gen ,,lib,gen,\t" {"gen", "lib"} := by
    refine ⟨[" gen ", "", "lib", "gen", "\t"], by simp, by decide, ?_, ?_⟩
    · intro entry hentry
      simp only [List.mem_cons, List.not_mem_nil, or_false] at hentry
      rcases hentry with rfl | rfl | rfl | rfl | rfl
      · exact ⟨"gen", .inr (by simp), [' '], [' '], hblank, hblank, rfl⟩
      · exact ⟨"", .inl rfl, [], [], by simp, by simp, rfl⟩
      · exact ⟨"lib", .inr (by simp), [], [], by simp, by simp, rfl⟩
      · exact ⟨"gen", .inr (by simp), [], [], by simp, by simp, rfl⟩
      · exact ⟨"", .inl rfl, ['\t'], [], htab, by simp, rfl⟩
    · intro name hname
      rcases (by simpa using hname : name = "gen" ∨ name = "lib") with rfl | rfl
      · exact ⟨"gen", by simp, [], [], by simp, by simp, rfl⟩
      · exact ⟨"lib", by simp, [], [], by simp, by simp, rfl⟩
  have hfile : EnvFile.loader.FindsNoFile ⟨.directory [], [], []⟩ writtenEnvironment none :=
    EnvFile.loader_findsNoFile (by simp) _
  exact load_of_written hfile (by decide) (by decide) (by decide) hlistable hlists rfl rfl rfl
    rfl rfl

end Settings

end CallAtlas
