import CallAtlas.Proofs.Endings
import CallAtlas.Proofs.FileIsolation
import CallAtlas.Proofs.FileWriting
import CallAtlas.Proofs.JsonRoundTrip
import CallAtlas.Proofs.ScanState

/-!
The documents that the command puts out. Where only the records are wanted, standard output is one
document and nothing else. The document in an output file is the same one, with the callers of every
record that has some.
-/

set_option autoImplicit false

namespace CallAtlas

open JsonText (Datum Denotes)
open CommandLine (Request)

namespace JsonText.Datum

def mapMembers (f : Datum → Datum) : Datum → Datum
  | .object members => .object (members.map (fun m => (m.1, f m.2)))
  | d => d

def mapItems (f : Datum → Datum) : Datum → Datum
  | .list items => .list (items.map f)
  | d => d

def without (name : String) : Datum → Datum
  | .object members => .object (members.filter (fun m => m.1 ≠ name))
  | d => d

/-- Takes the callers out of every record of every file. The files themselves stay, also one whose
path is `calledBy`. -/
def withoutCallers : Datum → Datum :=
  mapMembers (mapItems (without "calledBy"))

def Has (name : String) : Datum → Prop
  | .object members => name ∈ members.map Prod.fst
  | _ => False

end JsonText.Datum

namespace Record

theorem calledBy_notMem_members (r : Record) : ∀ m ∈ r.members, m.1 ≠ "calledBy" := by
  intro m hm hname
  have hmem := r.names_members.subset (List.mem_map_of_mem hm)
  simp [hname] at hmem

theorem without_datum_json (r : Record) :
    (r.json true).datum.without "calledBy" = (r.json false).datum := by
  have hkeep : ∀ m ∈ r.members.map (fun m => (m.1, m.2.datum)),
      decide (m.1 ≠ "calledBy") = true := by
    intro m hm
    obtain ⟨n, hn, rfl⟩ := List.mem_map.mp hm
    exact decide_eq_true (r.calledBy_notMem_members n hn)
  simp only [json, Json.datum_object, Datum.without, List.map_append, List.filter_append,
    List.filter_eq_self.mpr hkeep]
  by_cases hcallers : r.calledBy.isEmpty
  · simp [hcallers]
  · simp [hcallers]

theorem has_datum_json_iff (r : Record) :
    (r.json true).datum.Has "calledBy" ↔ r.calledBy ≠ [] := by
  have hmembers : ∀ d, ("calledBy", d) ∉ r.members.map (fun m => (m.1, m.2.datum)) := by
    intro d hd
    obtain ⟨m, hm, heq⟩ := List.mem_map.mp hd
    exact r.calledBy_notMem_members m hm (Prod.ext_iff.mp heq).1
  by_cases hcallers : r.calledBy = []
  · simpa [json, Datum.Has, hcallers] using fun d => hmembers d
  · simp [json, Datum.Has, hcallers]

end Record

theorem withoutCallers_payload (results : List (String × List Record)) :
    (payload true results).withoutCallers = payload false results := by
  simp [payload, Datum.withoutCallers, Datum.mapMembers, Datum.mapItems, recordsJson,
    Record.without_datum_json, Function.comp_def]

namespace Catalog

/-- Without the callers nothing shows whether a catalog is linked. -/
theorem json_link (c : Catalog) : c.link.json false = c.json false := by
  have hrecord : ∀ i, (c.link.get? i).map (·.json false) = (c.get? i).map (·.json false) := by
    intro i
    simp only [get?, link, getElem?_linkAll, Option.map_map]
    rfl
  have hpick : ∀ positions, recordsJson (c.link.pick positions) false =
      recordsJson (c.pick positions) false := by
    intro positions
    simp [recordsJson, pick, List.map_filterMap, hrecord]
  have hfiles : c.link.files = c.files := rfl
  simp [json, byFile, hfiles, hpick, Function.comp_def]

/-- A catalog lists its files if they differ and all have a path. -/
theorem exists_lists {c : Catalog} (hdistinct : (c.byFile.map Prod.fst).Nodup)
    (hpaths : ∀ file ∈ c.byFile.map Prod.fst, file.isSome = true) :
    ∃ results, c.Lists results := by
  have hsome : ∀ p ∈ c.byFile, (some (p.1.getD ""), p.2) = p := by
    intro p hp
    obtain ⟨path, hpath⟩ := Option.isSome_iff_exists.mp (hpaths p.1 (List.mem_map_of_mem hp))
    rw [hpath, Option.getD_some, ← hpath]
  have hbyFile : c.byFile =
      (c.byFile.map (fun p => (p.1.getD "", p.2))).map (fun p => (some p.1, p.2)) := by
    have hsame := List.map_congr_left (g := id) hsome
    rw [List.map_id] at hsame
    rw [List.map_map]
    exact hsame.symm
  have hnames : ((c.byFile.map (fun p => (p.1.getD "", p.2))).map (some ∘ Prod.fst)).Nodup := by
    rw [hbyFile, List.map_map] at hdistinct
    exact hdistinct
  rw [← List.map_map] at hnames
  exact ⟨_, hnames.of_map some, hbyFile⟩

end Catalog

/-- The scan that a path asks for: of a directory, or of a single file that goes by its last
piece. -/
def asked (fs : FileSystem) (path : String) : Scan :=
  if fs.isDirectory path then .repository fs path else .oneFile fs path (some (Path.basename path))

theorem isSome_of_mem_asked {parser : Parser} {fs : FileSystem} {path : String}
    {settings : Settings} {m : Option String × List Record}
    (h : m ∈ (asked fs path).merged parser settings) : m.1.isSome = true := by
  obtain ⟨⟨file, outcome⟩, hmem, hm⟩ := List.mem_filterMap.mp h
  obtain ⟨e, _, rfl⟩ := Option.map_eq_some_iff.mp hm
  unfold asked at hmem
  split at hmem
  · obtain ⟨f, _, hf⟩ := List.mem_map.mp hmem
    cases hf
    rfl
  · cases List.mem_singleton.mp hmem
    rfl

namespace Command

/-- What a scan of a path comes to: the files that were scanned, each with the records of the last
time, and the same files with the callers of their records. -/
structure Finds (parser : Parser) (fs : FileSystem) (settings : Settings) (path : String)
    (found linked : List (String × List Record)) : Prop where
  scanned : ∀ file records, (file, records) ∈ found ↔
    IsMostRecent ((asked fs path).merged parser settings) (some file, records)
  lists : ∃ least scan, scanPath parser fs settings least path = .ok scan ∧
    scan.scanner.catalog.Lists found ∧ scan.scanner.catalog.link.Lists linked

section Scans

variable {parser : Parser} {fs : FileSystem} {settings : Settings} {least : Nat} {path : String}
  {scan : Scan}

theorem scanner_of_scanPath (h : scanPath parser fs settings least path = .ok scan) :
    scan.scanner = (Scanner.fresh parser settings).run [asked fs path] := by
  unfold scanPath at h
  unfold asked
  split at h
  · rename_i hdir
    cases h
    simp [hdir, Scanner.run, Scanner.after, Scanner.scanRepository]
  · rename_i hdir
    cases hscan : (Scanner.fresh parser settings).scanFile fs path
        (some (Path.basename path)) with
    | error e => simp [hscan, bind, Except.bind] at h
    | ok found =>
      simp only [hscan, bind, Except.bind, pure, Except.pure, Except.ok.injEq] at h
      subst h
      simp [hdir, Scanner.run, Scanner.after, hscan]

theorem exists_finds (h : scanPath parser fs settings least path = .ok scan) :
    ∃ found linked, Finds parser fs settings path found linked ∧
      scan.scanner.catalog.Lists found ∧ scan.scanner.catalog.link.Lists linked := by
  have hreflects := Scanner.reflects_fresh parser settings [asked fs path]
  rw [← scanner_of_scanPath h, List.flatMap_singleton] at hreflects
  have hperm := hreflects.catalog.byFile
  have hdistinct : (scan.scanner.catalog.byFile.map Prod.fst).Nodup :=
    (hperm.map Prod.fst).nodup_iff.mpr (nodup_latest _)
  have hpaths : ∀ file ∈ scan.scanner.catalog.byFile.map Prod.fst, file.isSome = true := by
    intro file hfile
    obtain ⟨p, hp, rfl⟩ := List.mem_map.mp hfile
    exact isSome_of_mem_asked (mem_of_mem_latest (hperm.mem_iff.mp hp))
  have hlinked : scan.scanner.catalog.link.byFile.map Prod.fst =
      scan.scanner.catalog.byFile.map Prod.fst := by
    rw [Catalog.map_fst_byFile, Catalog.map_fst_byFile]
    rfl
  obtain ⟨found, hfound⟩ := Catalog.exists_lists hdistinct hpaths
  obtain ⟨linked, hlists⟩ : ∃ linked, scan.scanner.catalog.link.Lists linked := by
    apply Catalog.exists_lists
    · rwa [hlinked]
    · rwa [hlinked]
  refine ⟨found, linked, ⟨?_, least, scan, h, hfound, hlists⟩, hfound, hlists⟩
  intro file records
  rw [← mem_latest_iff, ← hperm.mem_iff, hfound.byFile]
  simp

end Scans

section Runs

variable {host : Host} {fs : FileSystem} {env : Environment} {request : Request}

/-- A command that ends with 0 has scanned its path and put out all there is to put out. -/
theorem scanned_of_ends_zero (h : (perform host fs env request).ending = .status 0) :
    ∃ s least parser scan t, Scanned host fs env request s least parser scan t none ∧
      Writes host fs request scan.scanner ∧
      host.console.stdout.fault? t.stdout (lastLines request scan.scanner.link) = none := by
  cases (ending_eq_status_iff 0).mp h with
  | complaint hcomplains _ => cases hcomplains
  | success hscanned hwrites hlast => exact ⟨_, _, _, _, _, hscanned, hwrites, hlast⟩

theorem Configured.settings_eq {s : Settings} {least : Nat}
    (h : Configured host fs env request s least) :
    (settingsFor host.loader fs env request).2 = .ok s := by
  obtain ⟨seen, htaken, _, hs⟩ := h.made
  exact (settingsFor_of_takesIn htaken).trans hs

theorem linesOf_voiced_of_isQuiet (hquiet : isQuiet request = true) (events : List Event) :
    linesOf (voiced request events) = [] := by
  rw [voiced, if_pos hquiet, linesOf_filter_isRemark]

/-- Nothing is printed on the way where only the records are wanted. -/
theorem Scanned.stdout_of_isQuiet {s : Settings} {least : Nat} {parser : Parser} {scan : Scan}
    {t : Transcript} (h : Scanned host fs env request s least parser scan t none)
    (hquiet : isQuiet request = true) : t.stdout = [] := by
  have hplayed := Console.play_stdout (congrArg Prod.snd h.played)
  rw [h.played] at hplayed
  simpa [opening, linesOf_voiced_of_isQuiet hquiet, texts] using hplayed

theorem stdout_conclude {console : Console} {t : Transcript} {lines : List String}
    (h : console.stdout.fault? t.stdout lines = none) (files : FileSystem) :
    (conclude console t files lines).stdout = String.join (t.stdout ++ texts lines) := by
  have hnone := console.play_snd t (lines.map .line)
  rw [linesOf_map_line, h] at hnone
  have hout := Console.play_stdout hnone
  rw [linesOf_map_line] at hout
  unfold conclude
  generalize console.play t (lines.map .line) = played at hnone hout
  obtain ⟨after, fault⟩ := played
  simp only at hnone hout
  subst hnone
  simp only [stop, hout]

theorem files_conclude (console : Console) (t : Transcript) (files : FileSystem)
    (lines : List String) : (conclude console t files lines).files = files := by
  unfold conclude
  generalize console.play t (lines.map .line) = played
  obtain ⟨after, fault⟩ := played
  cases fault with
  | none => rfl
  | some fault => rfl

theorem stdout_deliver (hjson : request.json = true) (houtput : present? request.output = none)
    {scanner : Scanner} {t : Transcript}
    (h : host.console.stdout.fault? t.stdout (lastLines request scanner.link) = none) :
    (deliver host.console fs request scanner t).stdout =
      String.join t.stdout ++ (document scanner.link.catalog false ++ "\n") := by
  have hlast : lastLines request scanner.link = [document scanner.link.catalog false] := by
    simp [lastLines, houtput, hjson]
  simp only [deliver, houtput]
  rw [stdout_conclude h, hlast, String.join_append]
  simp [texts]

theorem written_deliver {file : String} (houtput : present? request.output = some file)
    {scanner : Scanner} (h : Writes host fs request scanner) (t : Transcript) :
    (deliver host.console fs request scanner t).written =
        some (file, document scanner.link.catalog true) ∧
      (deliver host.console fs request scanner t).files.read file =
        .ok (document scanner.link.catalog true).toUTF8 := by
  obtain ⟨hzero, hopens, htakes⟩ := h file houtput
  obtain ⟨opened, hopened⟩ := FileSystem.exists_write hopens ByteArray.empty
  obtain ⟨after, hafter⟩ :=
    FileSystem.exists_write hopens (document scanner.link.catalog true).toUTF8
  simp only [deliver, houtput, hzero, hopened, hafter, htakes, files_conclude]
  exact ⟨rfl, FileSystem.read_of_write hafter⟩

end Runs

/-- Where only the records are wanted, a command that ends with 0 prints one document with a line
break behind it. The document stands for the mapping from the path of each file to its records. The
same request with an output file writes a document that differs by the callers only, and these
stand with the records that have some. -/
theorem run_puts_out_documents (host : Host) (fs : FileSystem) (env : Environment)
    {words : List String} {request : Request} (hread : CommandLine.read words = .ok request)
    (hjson : request.json = true) (houtput : present? request.output = none)
    (hends : (run host fs env words).ending = .status 0) :
    ∃ parser settings found linked text,
      host.parser = .ok parser ∧
      (settingsFor host.loader fs env request).2 = .ok settings ∧
      Finds parser fs settings request.path found linked ∧
      (run host fs env words).stdout = text ++ "\n" ∧
      (∀ d, Denotes text d ↔ d = payload false found) ∧
      JsonText.read text = some (payload false found) ∧
      ∀ (words' : List String) (json : Bool) (file : String), file ≠ "" →
        CommandLine.read words' = .ok { request with json, output := some file } →
        (run host fs env words').ending = .status 0 →
        ∃ text', (run host fs env words').written = some (file, text') ∧
          (run host fs env words').files.read file = .ok text'.toUTF8 ∧
          (∀ d, Denotes text' d ↔ d = payload true linked) ∧
          (JsonText.read text').map Datum.withoutCallers = JsonText.read text ∧
          ∀ p ∈ linked, ∀ r ∈ p.2, (r.json true).datum.Has "calledBy" ↔ r.calledBy ≠ [] := by
  simp only [run, hread] at hends ⊢
  obtain ⟨settings, least, parser, scan, t, hscanned, _, hlast⟩ := scanned_of_ends_zero hends
  obtain ⟨found, linked, hfinds, hfound, hlinked⟩ := exists_finds hscanned.scanned
  have hsame : payload false linked = payload false found := by
    rw [← hlinked.datum_json, ← hfound.datum_json, Catalog.json_link]
  have hquiet : isQuiet request = true := by simp [isQuiet, hjson, houtput]
  have htext : ∀ d, Denotes (document scan.scanner.catalog.link false) d ↔
      d = payload false found := by
    intro d
    rw [← hsame]
    exact hlinked.denotes_iff false (some 2) d
  have hreadText := JsonText.read_of_denotes ((htext _).mpr rfl)
  refine ⟨parser, settings, found, linked, document scan.scanner.catalog.link false,
    hscanned.loaded, hscanned.settings_eq, hfinds, ?_, htext, hreadText, ?_⟩
  · rw [perform_of_scanned hscanned, proceed, stdout_deliver hjson houtput hlast,
      hscanned.stdout_of_isQuiet hquiet]
    rfl
  · intro words' json file hfile hread' hends'
    simp only [hread'] at hends' ⊢
    obtain ⟨settings', least', parser', scan', t', hscanned', hwrites', _⟩ :=
      scanned_of_ends_zero hends'
    -- neither the settings nor the scan of the path look at the two flags
    obtain rfl : settings = settings' :=
      Except.ok.inj (hscanned.settings_eq.symm.trans hscanned'.settings_eq)
    obtain rfl : least = least' := Option.some.inj (hscanned.level.symm.trans hscanned'.level)
    obtain rfl : parser = parser' := Except.ok.inj (hscanned.loaded.symm.trans hscanned'.loaded)
    obtain rfl : scan = scan' := Except.ok.inj (hscanned.scanned.symm.trans hscanned'.scanned)
    rw [perform_of_scanned hscanned', proceed]
    have hpresent : present? (some file) = some file := by simp [present?, hfile]
    obtain ⟨hwritten, hfiles⟩ := written_deliver hpresent hwrites' t'
    have htext' := hlinked.denotes_iff true (some 2)
    refine ⟨_, hwritten, hfiles, htext', ?_, fun p _ r _ => r.has_datum_json_iff⟩
    rw [hreadText, document, Scanner.link, hlinked.read_render, Option.map_some,
      withoutCallers_payload, hsame]

def selfCallFile : FileSystem :=
  ⟨.directory [("a.js", .file "function f() { f(); }".toUTF8)], [], []⟩

theorem extractFile_selfCallFile :
    ∃ e, extractFile JavaScript.parser selfCallFile {} "a.js" "a.js" = .ok e ∧
      e.records.map Record.name = ["f"] := by
  have hsource : readSource selfCallFile {} "a.js" = .ok "function f() { f(); }".toUTF8 :=
    Scanner.readSource_of_read (by decide) (by cbv : selfCallFile.size "a.js" = .ok 21)
      (by decide) (by cbv)
  have hnames : (analyze JavaScript.parser ({} : Settings).detail (some "a.js")
      (.octets "function f() { f(); }".toUTF8)).toOption.map
        (fun e => e.records.map Record.name) = some ["f"] := by decide +kernel
  rw [extractFile_of_readSource hsource]
  cases houtcome : analyze JavaScript.parser ({} : Settings).detail (some "a.js")
      (.octets "function f() { f(); }".toUTF8) with
  | error error =>
    rw [houtcome] at hnames
    cases hnames
  | ok e =>
    rw [houtcome] at hnames
    exact ⟨e, rfl, Option.some.inj hnames⟩

theorem not_refuses_selfCallFile (cause : FileCause) :
    ¬ selfCallFile.Refuses "b.json" cause := by
  have hpieces : Path.pieces "b.json" = ["b.json"] := by decide +kernel
  intro hrefuses
  have hwrite := hrefuses ByteArray.empty
  simp [FileSystem.write, hpieces, writable, selfCallFile, Entry.get?, Entry.child?, bind,
    Except.bind, FileSystem.origin] at hwrite

theorem run_puts_out_documents_of_selfCallFile :
    ∃ found linked text text',
      (∃ records, ("a.js", records) ∈ found ∧ records.map Record.name = ["f"]) ∧
      (run Host.standard selfCallFile [] ["a.js", "--json"]).stdout = text ++ "\n" ∧
      JsonText.read text = some (payload false found) ∧
      (run Host.standard selfCallFile [] ["a.js", "--output", "b.json"]).files.read "b.json" =
        .ok text'.toUTF8 ∧
      JsonText.read text' = some (payload true linked) ∧
      (JsonText.read text').map Datum.withoutCallers = JsonText.read text := by
  have hread : CommandLine.read ["a.js", "--json"] = .ok { path := "a.js", json := true } := by cbv
  have hread' : CommandLine.read ["a.js", "--output", "b.json"] =
      .ok { path := "a.js", output := some "b.json" } := by cbv
  have hdir : selfCallFile.isDirectory "a.js" = false := by cbv
  have hname : (present? (some (Path.basename "a.js"))).getD "a.js" = "a.js" := by decide +kernel
  obtain ⟨e, he, hnames⟩ := extractFile_selfCallFile
  obtain ⟨scan, hscan⟩ :
      ∃ scan, scanPath JavaScript.parser selfCallFile {} 30 "a.js" = .ok scan := by
    simp [scanPath, hdir, Scanner.scanFile, Scanner.fresh, hname, he, bind, Except.bind, pure,
      Except.pure]
  have hends : (run Host.standard selfCallFile [] ["a.js", "--json"]).ending = .status 0 := by
    obtain ⟨t, hscanned⟩ :=
      (prepared_default selfCallFile "a.js" true none).exists_scanned hscan
    simp only [run, hread]
    exact ending_of_reports
      (.success hscanned (by simp [Writes, present?]) (fault?_standard ..))
  have hends' : (run Host.standard selfCallFile [] ["a.js", "--output", "b.json"]).ending =
      .status 0 := by
    obtain ⟨t, hscanned⟩ :=
      (prepared_default selfCallFile "a.js" false (some "b.json")).exists_scanned hscan
    simp only [run, hread']
    refine ending_of_reports (.success hscanned ?_ (fault?_standard ..))
    intro path hpath
    obtain rfl : "b.json" = path := by simpa [present?] using hpath
    exact ⟨by decide, not_refuses_selfCallFile, rfl⟩
  obtain ⟨parser, settings, found, linked, text, hparser, hok, hfinds, hstdout, _, htext, hfile⟩ :=
    run_puts_out_documents Host.standard selfCallFile [] hread rfl rfl hends
  obtain rfl : JavaScript.parser = parser := Except.ok.inj hparser
  obtain rfl : {} = settings :=
    Except.ok.inj ((settings_default selfCallFile "a.js" true none).symm.trans hok)
  obtain ⟨text', _, hwritten, htext', hsame, _⟩ :=
    hfile ["a.js", "--output", "b.json"] false "b.json" (by decide) hread' hends'
  have hmem : ("a.js", e.records) ∈ found := by
    rw [hfinds.scanned]
    refine ⟨[], [], ?_, by simp⟩
    simp [asked, hdir, CallAtlas.Scan.merged, CallAtlas.Scan.outcomes, hname, he, Except.toOption]
  exact ⟨found, linked, text, text', ⟨e.records, hmem, hnames⟩, hstdout, htext, hwritten,
    JsonText.read_of_denotes ((htext' _).mpr rfl), hsame⟩

end Command

end CallAtlas
