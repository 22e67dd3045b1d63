import CallAtlas.Proofs.Failures
import CallAtlas.Proofs.Printing

/-!
How the command ends. Settings that cannot be made and paths that cannot be scanned are reported
and answered with a status. Other failures end the command without one: a level without a name, an
output file that cannot be written, a settings file that cannot be opened, a parser that cannot be
loaded, a zero character in a path, and a text that is refused where it is put out.
-/

set_option autoImplicit false

namespace CallAtlas

open CommandLine (Request)

namespace Command

section Ways

variable (host : Host) (fs : FileSystem) (env : Environment) (request : Request)

/-- What stands on standard error once the file of settings is taken in. -/
def noted : List String :=
  (host.console.play {} ((host.loader fs env request.envFile).complaints.map .remark)).1.stderr

/-- What is printed once the parser is there. -/
def opening : List String :=
  linesOf (voiced request [.line Progress.ready])

/-- The settings are made, and their level has a name. -/
structure Configured (s : Settings) (least : Nat) : Prop where
  made : ∃ seen, TakesIn host.loader fs request env seen ∧ Acceptable request seen ∧
    Settings.within request seen = .ok s
  level : threshold? s.logLevel = some least

structure Prepared (s : Settings) (least : Nat) (parser : Parser) : Prop extends
    Configured host fs env request s least where
  loaded : host.parser = .ok parser
  opened : host.console.stdout.fault? [] (opening request) = none

/-- The path is scanned, and what is put out on the way is, up to a fault. -/
structure Scanned (s : Settings) (least : Nat) (parser : Parser) (scan : Scan) (t : Transcript)
    (fault : Option Fault) : Prop extends Prepared host fs env request s least parser where
  scanned : scanPath parser fs s least request.path = .ok scan
  played : host.console.play ⟨texts (opening request), noted host fs env request⟩
    (voiced request scan.events) = (t, fault)

/-- The failures that are reported: the status that answers them, what stands on standard error
before, and the report. -/
inductive Complains : Nat → List String → String → Prop where
  | fileRefused {fault : LoadFault}
      (hload : (host.loader fs env request.envFile).environment = .error fault)
      (hopened : ∀ e, fault ≠ .unopened e) :
      Complains 2 (noted host fs env request) (settingsInvalid fault.message)
  | settingsFail {seen : Environment} {e : SettingsError}
      (hseen : TakesIn host.loader fs request env seen) (hinvalid : ¬ Acceptable request seen)
      (hfails : Settings.within request seen = .error e) :
      Complains 2 (noted host fs env request) (settingsInvalid e.message)
  | pathFails {s : Settings} {least : Nat} {parser : Parser} {e : Error}
      (hprepared : Prepared host fs env request s least parser)
      (hdir : fs.isDirectory request.path = false)
      (hfails : PathFails parser fs s.maxFileSize request.path (ownName request.path) e)
      (hzero : e ≠ .zeroInPath) :
      Complains 1 (noted host fs env request) (analysisFailed e.message)
  | deviceFails {s : Settings} {least : Nat} {parser : Parser} {scan : Scan} {t : Transcript}
      {reason : String}
      (hscanned : Scanned host fs env request s least parser scan t (some (.device reason))) :
      Complains 1 t.stderr (analysisFailed reason)

/-- The output file of a request, if there is one, can be opened and takes its text. -/
def Writes (scanner : Scanner) : Prop :=
  ∀ path, present? request.output = some path → Path.holdsZero path = false ∧
    (∀ cause, ¬ fs.Refuses path cause) ∧
    host.console.file path (document scanner.link.catalog true) = none

/-- All ways in which the command ends with a status. -/
inductive Reports : Nat → Prop where
  | complaint {code : Nat} {err : List String} {line : String}
      (hcomplains : Complains host fs env request code err line)
      (htaken : host.console.stderr err (line ++ "\n") = none) : Reports code
  | success {s : Settings} {least : Nat} {parser : Parser} {scan : Scan} {t : Transcript}
      (hscanned : Scanned host fs env request s least parser scan t none)
      (hwrites : Writes host fs request scan.scanner)
      (hlast : host.console.stdout.fault? t.stdout (lastLines request scan.scanner.link) = none) :
      Reports 0

/-- All ways in which the command ends without a status. -/
inductive Escapes : Ending → Prop where
  | settingsUnopened {e : Error}
      (hload : (host.loader fs env request.envFile).environment = .error (.unopened e)) :
      Escapes (.failure e)
  | levelUnknown {seen : Environment} {s : Settings}
      (hseen : TakesIn host.loader fs request env seen) (hvalid : Acceptable request seen)
      (hsettings : Settings.within request seen = .ok s) (hlevel : threshold? s.logLevel = none) :
      Escapes (.unknownLevel s.logLevel)
  | parserMissing {s : Settings} {least : Nat} {reason : String}
      (hconfigured : Configured host fs env request s least)
      (hparser : host.parser = .error reason)
      (htold : host.console.stdout.fault? []
        (linesOf (voiced request [.line (Progress.failed reason)])) = none) :
      Escapes (.noParser reason)
  | parserMissingUntold {s : Settings} {least : Nat} {reason : String} {fault : Fault}
      (hconfigured : Configured host fs env request s least)
      (hparser : host.parser = .error reason)
      (htold : host.console.stdout.fault? []
        (linesOf (voiced request [.line (Progress.failed reason)])) = some fault) :
      Escapes (.fault fault)
  | openingRefused {s : Settings} {least : Nat} {parser : Parser} {fault : Fault}
      (hconfigured : Configured host fs env request s least)
      (hparser : host.parser = .ok parser)
      (hopening : host.console.stdout.fault? [] (opening request) = some fault) :
      Escapes (.fault ((host.console.stdout.fault? []
        (linesOf (voiced request [.line (Progress.failed fault.reason)]))).getD fault))
  | pathHoldsZero {s : Settings} {least : Nat} {parser : Parser}
      (hprepared : Prepared host fs env request s least parser)
      (hdir : fs.isDirectory request.path = false)
      (hzero : Path.holdsZero request.path = true) : Escapes (.failure .zeroInPath)
  | progressRefused {s : Settings} {least : Nat} {parser : Parser} {scan : Scan} {t : Transcript}
      {reason : String}
      (hscanned : Scanned host fs env request s least parser scan t (some (.encoding reason))) :
      Escapes (.fault (.encoding reason))
  | outputHoldsZero {s : Settings} {least : Nat} {parser : Parser} {scan : Scan} {t : Transcript}
      {path : String} (hscanned : Scanned host fs env request s least parser scan t none)
      (houtput : present? request.output = some path) (hzero : Path.holdsZero path = true) :
      Escapes (.failure .zeroInPath)
  | outputUnopened {s : Settings} {least : Nat} {parser : Parser} {scan : Scan} {t : Transcript}
      {path : String} {cause : FileCause}
      (hscanned : Scanned host fs env request s least parser scan t none)
      (houtput : present? request.output = some path) (hzero : Path.holdsZero path = false)
      (hrefuses : fs.Refuses path cause) : Escapes (.failure (.access cause path))
  | outputRefused {s : Settings} {least : Nat} {parser : Parser} {scan : Scan} {t : Transcript}
      {path : String} {fault : Fault}
      (hscanned : Scanned host fs env request s least parser scan t none)
      (houtput : present? request.output = some path) (hzero : Path.holdsZero path = false)
      (hopens : ∀ cause, ¬ fs.Refuses path cause)
      (hfault : host.console.file path (document scan.scanner.link.catalog true) = some fault) :
      Escapes (.fault fault)
  | lastLineRefused {s : Settings} {least : Nat} {parser : Parser} {scan : Scan} {t : Transcript}
      {fault : Fault} (hscanned : Scanned host fs env request s least parser scan t none)
      (hwrites : Writes host fs request scan.scanner)
      (hlast : host.console.stdout.fault? t.stdout (lastLines request scan.scanner.link) =
        some fault) : Escapes (.fault fault)
  | complaintRefused {code : Nat} {err : List String} {line : String} {fault : Fault}
      (hcomplains : Complains host fs env request code err line)
      (hrefused : host.console.stderr err (line ++ "\n") = some fault) : Escapes (.fault fault)

end Ways

section Stages

variable {host : Host} {fs : FileSystem} {env : Environment} {request : Request}
variable {s : Settings} {least : Nat} {parser : Parser} {t : Transcript}

/-- Remarks leave standard output as it is. -/
theorem play_complaints (host : Host) (fs : FileSystem) (env : Environment) (request : Request) :
    (host.console.play {} ((settingsFor host.loader fs env request).1.map .remark)).1 =
      ⟨[], noted host fs env request⟩ := by
  have hsilent : linesOf ((settingsFor host.loader fs env request).1.map .remark) = [] :=
    linesOf_map_remark id _
  have hnone := host.console.play_snd {} ((settingsFor host.loader fs env request).1.map .remark)
  rw [hsilent] at hnone
  have hout := Console.play_stdout hnone
  rw [hsilent] at hout
  exact congrArg₂ Transcript.mk hout rfl

theorem play_voiced_line (console : Console) (t : Transcript) (request : Request)
    (text : String) :
    console.play t (voiced request [.line text]) =
      match console.stdout.fault? t.stdout (linesOf (voiced request [.line text])) with
      | some fault => (t, some fault)
      | none =>
        ({ t with stdout := t.stdout ++ texts (linesOf (voiced request [.line text])) }, none) := by
  unfold voiced
  split
  · simp [Console.play, Event.isRemark, linesOf, Stream.fault?, texts]
  · cases h : console.stdout t.stdout (text ++ "\n") with
    | none => simp [Console.play, linesOf, Stream.fault?, texts, h]
    | some fault => simp [Console.play, linesOf, Stream.fault?, h]

theorem ending_answer (console : Console) (t : Transcript) (files : FileSystem) (code : Nat)
    (line : String) :
    (answer console t files code line).ending =
      match console.stderr t.stderr (line ++ "\n") with
      | some fault => .fault fault
      | none => .status code := by
  unfold answer
  cases console.stderr t.stderr (line ++ "\n") with
  | none => rfl
  | some fault => rfl

theorem ending_conclude (console : Console) (t : Transcript) (files : FileSystem)
    (lines : List String) :
    (conclude console t files lines).ending =
      match console.stdout.fault? t.stdout lines with
      | some fault => .fault fault
      | none => .status 0 := by
  have hplay := console.play_snd t (lines.map .line)
  rw [linesOf_map_line] at hplay
  rw [← hplay]
  unfold conclude
  cases console.play t (lines.map .line) with
  | mk after fault =>
    cases fault with
    | none => rfl
    | some fault => rfl

theorem perform_eq (host : Host) (fs : FileSystem) (env : Environment) (request : Request) :
    perform host fs env request = respond host fs request ⟨[], noted host fs env request⟩
      (settingsFor host.loader fs env request).2 := by
  rw [← play_complaints]
  rfl

theorem perform_of_settings (h : (settingsFor host.loader fs env request).2 = .ok s) :
    perform host fs env request = carryOut host fs request s ⟨[], noted host fs env request⟩ := by
  rw [perform_eq, h, respond]

theorem perform_of_error {e : SettingsError}
    (h : (settingsFor host.loader fs env request).2 = .error e)
    (hopened : ∀ cause, e ≠ .file (.unopened cause)) :
    perform host fs env request =
      answer host.console ⟨[], noted host fs env request⟩ fs 2 (settingsInvalid e.message) := by
  rw [perform_eq, h, respond]
  exact hopened

theorem perform_of_unopened {e : Error}
    (h : (settingsFor host.loader fs env request).2 = .error (.file (.unopened e))) :
    perform host fs env request = stop ⟨[], noted host fs env request⟩ fs (.failure e) := by
  rw [perform_eq, h, respond]

theorem perform_of_configured (h : Configured host fs env request s least) :
    perform host fs env request = scanWith host.console fs request s least
      (setUp host request ⟨[], noted host fs env request⟩) := by
  obtain ⟨seen, hseen, _, hs⟩ := h.made
  rw [perform_of_settings ((settingsFor_of_takesIn hseen).trans hs)]
  simp only [carryOut, h.level]

theorem perform_of_prepared (h : Prepared host fs env request s least parser) :
    perform host fs env request = scanAndDeliver host.console parser fs request s least
      ⟨texts (opening request), noted host fs env request⟩ := by
  have hopened : host.console.stdout.fault? []
      (linesOf (voiced request [.line Progress.ready])) = none := h.opened
  rw [perform_of_configured h.toConfigured]
  simp only [setUp, h.loaded, play_voiced_line, hopened, List.nil_append]
  rfl

theorem perform_of_pathFails {e : Error} (h : Prepared host fs env request s least parser)
    (hdir : fs.isDirectory request.path = false)
    (hfails : PathFails parser fs s.maxFileSize request.path (ownName request.path) e) :
    perform host fs env request =
      if isExpected e then
        answer host.console ⟨texts (opening request), noted host fs env request⟩ fs 1
          (analysisFailed e.message)
      else stop ⟨texts (opening request), noted host fs env request⟩ fs (.failure e) := by
  have hscan := (scanPath_eq_error_iff parser fs s least request.path e).mpr ⟨hdir, hfails⟩
  rw [perform_of_prepared h]
  simp only [scanAndDeliver, hscan]

theorem perform_of_scanned {scan : Scan} {fault : Option Fault}
    (h : Scanned host fs env request s least parser scan t fault) :
    perform host fs env request = proceed host.console fs request scan.scanner (t, fault) := by
  rw [perform_of_prepared h.toPrepared]
  simp only [scanAndDeliver, h.scanned, h.played]

theorem ending_deliver_of_writes {scanner : Scanner} (h : Writes host fs request scanner) :
    (deliver host.console fs request scanner t).ending =
      match host.console.stdout.fault? t.stdout (lastLines request scanner.link) with
      | some fault => .fault fault
      | none => .status 0 := by
  unfold deliver
  cases houtput : present? request.output with
  | none => exact ending_conclude ..
  | some path =>
    obtain ⟨hzero, hopens, htakes⟩ := h path houtput
    obtain ⟨opened, hopened⟩ := FileSystem.exists_write hopens ByteArray.empty
    obtain ⟨after, hafter⟩ :=
      FileSystem.exists_write hopens (document scanner.link.catalog true).toUTF8
    simp only [hzero, hopened, hafter, htakes]
    exact ending_conclude ..

theorem ending_of_complains {code : Nat} {err : List String} {line : String}
    (h : Complains host fs env request code err line) :
    (perform host fs env request).ending =
      match host.console.stderr err (line ++ "\n") with
      | some fault => .fault fault
      | none => .status code := by
  cases h with
  | fileRefused hload hopened =>
    rw [perform_of_error (settingsFor_of_fault hload) (by simpa using hopened)]
    exact ending_answer ..
  | settingsFail hseen hinvalid hfails =>
    have hsettings := (settingsFor_of_takesIn hseen).trans hfails
    rw [perform_of_error hsettings (fun _ => Settings.within_ne_file hfails _)]
    exact ending_answer ..
  | pathFails hprepared hdir hfails hzero =>
    rw [perform_of_pathFails hprepared hdir hfails, if_pos (hfails.isExpected hzero)]
    exact ending_answer ..
  | deviceFails hscanned =>
    rw [perform_of_scanned hscanned]
    exact ending_answer ..

theorem ending_of_reports {code : Nat} (h : Reports host fs env request code) :
    (perform host fs env request).ending = .status code := by
  cases h with
  | complaint hcomplains htaken => rw [ending_of_complains hcomplains, htaken]
  | success hscanned hwrites hlast =>
    rw [perform_of_scanned hscanned]
    exact (ending_deliver_of_writes hwrites).trans (by rw [hlast])

theorem ending_of_escapes {ending : Ending} (h : Escapes host fs env request ending) :
    (perform host fs env request).ending = ending := by
  cases h with
  | settingsUnopened hload =>
    rw [perform_of_unopened (settingsFor_of_fault hload)]
    rfl
  | levelUnknown hseen hvalid hsettings hlevel =>
    rw [perform_of_settings ((settingsFor_of_takesIn hseen).trans hsettings)]
    simp only [carryOut, hlevel]
    rfl
  | parserMissing hconfigured hparser htold =>
    rw [perform_of_configured hconfigured]
    simp only [setUp, hparser, play_voiced_line, htold]
    rfl
  | parserMissingUntold hconfigured hparser htold =>
    rw [perform_of_configured hconfigured]
    simp only [setUp, hparser, play_voiced_line, htold]
    rfl
  | openingRefused hconfigured hparser hopening =>
    have hready : host.console.stdout.fault? []
        (linesOf (voiced request [.line Progress.ready])) = _ := hopening
    rw [perform_of_configured hconfigured]
    simp only [setUp, hparser, play_voiced_line, hready]
    cases host.console.stdout.fault? [] _ with
    | none => rfl
    | some fault => rfl
  | pathHoldsZero hprepared hdir hzero =>
    rw [perform_of_pathFails hprepared hdir (.zero hzero)]
    rfl
  | progressRefused hscanned =>
    rw [perform_of_scanned hscanned]
    rfl
  | outputHoldsZero hscanned houtput hzero =>
    rw [perform_of_scanned hscanned]
    simp only [proceed, deliver, houtput, hzero]
    rfl
  | outputUnopened hscanned houtput hzero hrefuses =>
    rw [perform_of_scanned hscanned]
    simp only [proceed, deliver, houtput, hzero, hrefuses ByteArray.empty]
    rfl
  | @outputRefused _ _ _ scan _ _ _ hscanned houtput hzero hopens hfault =>
    obtain ⟨opened, hopened⟩ := FileSystem.exists_write hopens ByteArray.empty
    obtain ⟨after, hafter⟩ := FileSystem.exists_write hopens
      (document scan.scanner.link.catalog true).toUTF8
    rw [perform_of_scanned hscanned]
    simp only [proceed, deliver, houtput, hzero, hopened, hafter, hfault]
    rfl
  | lastLineRefused hscanned hwrites hlast =>
    rw [perform_of_scanned hscanned]
    exact (ending_deliver_of_writes hwrites).trans (by rw [hlast])
  | complaintRefused hcomplains hrefused => rw [ending_of_complains hcomplains, hrefused]

end Stages

section Exhaustion

variable {host : Host} {fs : FileSystem} {env : Environment} {request : Request}

/-- Whether the command ends with a status or without one. -/
def Ends (host : Host) (fs : FileSystem) (env : Environment) (request : Request) : Prop :=
  (∃ code, Reports host fs env request code) ∨ ∃ ending, Escapes host fs env request ending

theorem Complains.ends {code : Nat} {err : List String} {line : String}
    (h : Complains host fs env request code err line) : Ends host fs env request := by
  cases htaken : host.console.stderr err (line ++ "\n") with
  | none => exact .inl ⟨code, .complaint h htaken⟩
  | some fault => exact .inr ⟨.fault fault, .complaintRefused h htaken⟩

section Scans

variable {s : Settings} {least : Nat} {parser : Parser} {scan : Scan} {t : Transcript}

theorem Writes.ends (h : Writes host fs request scan.scanner)
    (hscanned : Scanned host fs env request s least parser scan t none) :
    Ends host fs env request := by
  cases hlast : host.console.stdout.fault? t.stdout (lastLines request scan.scanner.link) with
  | none => exact .inl ⟨0, .success hscanned h hlast⟩
  | some fault => exact .inr ⟨.fault fault, .lastLineRefused hscanned h hlast⟩

/-- Once the events of a scan are out, only the output file and the last lines can fail. -/
theorem Scanned.ends_of_none (h : Scanned host fs env request s least parser scan t none) :
    Ends host fs env request := by
  cases houtput : present? request.output with
  | none => exact Writes.ends (by simp [Writes, houtput]) h
  | some path =>
    cases hzero : Path.holdsZero path with
    | true => exact .inr ⟨_, .outputHoldsZero h houtput hzero⟩
    | false =>
      by_cases hrefuses : ∃ cause, fs.Refuses path cause
      · obtain ⟨cause, hrefuses⟩ := hrefuses
        exact .inr ⟨_, .outputUnopened h houtput hzero hrefuses⟩
      · have hopens : ∀ cause, ¬ fs.Refuses path cause := not_exists.mp hrefuses
        cases htext : host.console.file path (document scan.scanner.link.catalog true) with
        | some fault => exact .inr ⟨_, .outputRefused h houtput hzero hopens htext⟩
        | none =>
          refine Writes.ends ?_ h
          intro other hother
          obtain rfl : path = other := Option.some.inj (houtput.symm.trans hother)
          exact ⟨hzero, hopens, htext⟩

theorem Prepared.ends (h : Prepared host fs env request s least parser) :
    Ends host fs env request := by
  cases hscan : scanPath parser fs s least request.path with
  | error e =>
    obtain ⟨hdir, hfails⟩ := (scanPath_eq_error_iff ..).mp hscan
    by_cases hzero : e = .zeroInPath
    · subst hzero
      exact .inr ⟨_, .pathHoldsZero h hdir hfails.holdsZero⟩
    · exact (Complains.pathFails h hdir hfails hzero).ends
  | ok scan =>
    rcases hplayed : host.console.play ⟨texts (opening request), noted host fs env request⟩
      (voiced request scan.events) with ⟨t, fault⟩
    have hscanned : Scanned host fs env request s least parser scan t fault := ⟨h, hscan, hplayed⟩
    match fault with
    | none => exact hscanned.ends_of_none
    | some (.device reason) => exact (Complains.deviceFails hscanned).ends
    | some (.encoding reason) => exact .inr ⟨_, .progressRefused hscanned⟩

theorem Configured.ends (h : Configured host fs env request s least) :
    Ends host fs env request := by
  cases hparser : host.parser with
  | error reason =>
    cases htold : host.console.stdout.fault? []
        (linesOf (voiced request [.line (Progress.failed reason)])) with
    | none => exact .inr ⟨_, .parserMissing h hparser htold⟩
    | some fault => exact .inr ⟨_, .parserMissingUntold h hparser htold⟩
  | ok parser =>
    cases hopening : host.console.stdout.fault? [] (opening request) with
    | none => exact Prepared.ends ⟨h, hparser, hopening⟩
    | some fault => exact .inr ⟨_, .openingRefused h hparser hopening⟩

end Scans

/-- The two lists miss no way to end. -/
theorem ends (host : Host) (fs : FileSystem) (env : Environment) (request : Request) :
    Ends host fs env request := by
  cases hload : (host.loader fs env request.envFile).environment with
  | error fault =>
    by_cases hopened : ∃ e, fault = .unopened e
    · obtain ⟨e, rfl⟩ := hopened
      exact .inr ⟨_, .settingsUnopened hload⟩
    · exact (Complains.fileRefused hload (not_exists.mp hopened)).ends
  | ok seen =>
    cases hs : Settings.within request seen with
    | error e =>
      have hinvalid : ¬ Acceptable request seen := by
        intro h
        obtain ⟨s, hok⟩ := (Settings.exists_within_iff request seen).mpr h
        exact absurd (hs.symm.trans hok) (by simp)
      exact (Complains.settingsFail hload hinvalid hs).ends
    | ok s =>
      have hvalid := (Settings.exists_within_iff request seen).mp ⟨s, hs⟩
      cases hlevel : threshold? s.logLevel with
      | none => exact .inr ⟨_, .levelUnknown hload hvalid hs hlevel⟩
      | some least => exact Configured.ends ⟨⟨seen, hload, hvalid, hs⟩, hlevel⟩

theorem Escapes.ne_status {ending : Ending} (h : Escapes host fs env request ending) (code : Nat) :
    ending ≠ .status code := by
  rintro rfl
  cases h

theorem Reports.code_le_two {code : Nat} (h : Reports host fs env request code) : code ≤ 2 := by
  cases h with
  | complaint hcomplains _ => cases hcomplains <;> decide
  | success => decide

theorem ending_eq_status_iff (code : Nat) :
    (perform host fs env request).ending = .status code ↔ Reports host fs env request code := by
  refine ⟨?_, ending_of_reports⟩
  intro h
  rcases ends host fs env request with ⟨other, hreports⟩ | ⟨ending, hescapes⟩
  · obtain rfl : other = code := by simpa [ending_of_reports hreports] using h
    exact hreports
  · exact absurd ((ending_of_escapes hescapes).symm.trans h) (hescapes.ne_status code)

theorem ending_eq_and_ne_status_iff (ending : Ending) :
    (perform host fs env request).ending = ending ∧ (∀ code, ending ≠ .status code) ↔
      Escapes host fs env request ending := by
  constructor
  · rintro ⟨rfl, hstatus⟩
    rcases ends host fs env request with ⟨code, hreports⟩ | ⟨ending, hescapes⟩
    · exact absurd (ending_of_reports hreports) (hstatus code)
    · rwa [ending_of_escapes hescapes]
  · intro hescapes
    exact ⟨ending_of_escapes hescapes, hescapes.ne_status⟩

theorem exists_status_iff_not_escapes :
    (∃ code ≤ 2, (perform host fs env request).ending = .status code) ↔
      ¬ ∃ ending, Escapes host fs env request ending := by
  constructor
  · rintro ⟨code, _, hstatus⟩ ⟨ending, hescapes⟩
    exact hescapes.ne_status code ((ending_of_escapes hescapes).symm.trans hstatus)
  · intro hnone
    obtain ⟨code, hreports⟩ := (ends host fs env request).resolve_right hnone
    exact ⟨code, hreports.code_le_two, ending_of_reports hreports⟩

end Exhaustion

/-- A status answers exactly the failures that are caught: 2 those of the settings and 1 those of
the path, each of them once its report is taken. All other failures end the command without one. -/
theorem ending_is_status_iff (host : Host) (fs : FileSystem) (env : Environment)
    {words : List String} {request : Request} (hread : CommandLine.read words = .ok request) :
    (∀ code, (run host fs env words).ending = .status code ↔ Reports host fs env request code) ∧
    (∀ ending, (run host fs env words).ending = ending ∧ (∀ code, ending ≠ .status code) ↔
      Escapes host fs env request ending) ∧
    ((∃ code ≤ 2, (run host fs env words).ending = .status code) ↔
      ¬ ∃ ending, Escapes host fs env request ending) := by
  have hrun : run host fs env words = perform host fs env request := by
    simp only [run, hread]
  rw [hrun]
  exact ⟨ending_eq_status_iff, ending_eq_and_ne_status_iff, exists_status_iff_not_escapes⟩

def noFiles : FileSystem :=
  ⟨.directory [], [], []⟩

theorem fault?_standard (out lines : List String) :
    Host.standard.console.stdout.fault? out lines = none := by
  induction lines generalizing out with
  | nil => rfl
  | cons line rest ih => exact ih _

theorem Prepared.exists_scanned {fs : FileSystem} {env : Environment} {request : Request}
    {s : Settings} {least : Nat} {parser : Parser} {scan : Scan}
    (h : Prepared Host.standard fs env request s least parser)
    (hscan : scanPath parser fs s least request.path = .ok scan) :
    ∃ t, Scanned Host.standard fs env request s least parser scan t none := by
  have hnone := (Host.standard.console.play_snd
    ⟨texts (opening request), noted Host.standard fs env request⟩
    (voiced request scan.events)).trans (fault?_standard ..)
  exact ⟨_, h, hscan, Prod.ext rfl hnone⟩

theorem made_standard {fs : FileSystem} {request : Request} {s : Settings}
    (henv : request.envFile = none) (hs : (settingsFor EnvFile.loader fs [] request).2 = .ok s) :
    ∃ seen, TakesIn Host.standard.loader fs request [] seen ∧ Acceptable request seen ∧
      Settings.within request seen = .ok s := by
  have htaken : TakesIn EnvFile.loader fs request [] [] :=
    congrArg Loaded.environment (EnvFile.loader_findsNoFile (by simp [henv]) [])
  have hwithin := (settingsFor_of_takesIn htaken).symm.trans hs
  exact ⟨[], htaken, (Settings.exists_within_iff request []).mp ⟨s, hwithin⟩, hwithin⟩

theorem settings_default (fs : FileSystem) (path : String) (json : Bool)
    (output : Option String) :
    (settingsFor EnvFile.loader fs [] { path, json, output }).2 = .ok {} := by
  have hupper : Text.upper "WARNING" = "WARNING" := Text.upper_of_capitals (by simp)
  rw [settingsFor_nil (EnvFile.loader_findsNoFile (by simp) [])]
  simp [present?, Settings.make, Detail.ofName?, hupper]

theorem prepared_default (fs : FileSystem) (path : String) (json : Bool)
    (output : Option String) :
    Prepared Host.standard fs [] { path, json, output } {} 30 JavaScript.parser where
  made := made_standard rfl (settings_default fs path json output)
  level := rfl
  loaded := rfl
  opened := fault?_standard ..

/-- A file that is not there is answered with 1. -/
theorem ending_is_status_of_missing_file :
    (run Host.standard noFiles [] ["a.js"]).ending = .status 1 := by
  have hread : CommandLine.read ["a.js"] = .ok { path := "a.js" } := by cbv
  have hdir : noFiles.isDirectory "a.js" = false := by cbv
  have hzero : Path.holdsZero "a.js" = false := by decide
  have hmissing : noFiles.size "a.js" = .error .notFound := by cbv
  have hcomplains := Complains.pathFails (prepared_default noFiles "a.js" false none) hdir
    (.missing hzero hmissing) (by simp)
  exact ((ending_is_status_iff Host.standard noFiles [] hread).1 1).mpr (.complaint hcomplains rfl)

theorem noFiles_refuses : noFiles.Refuses "no/a.json" .notFound := by
  have hpieces : Path.pieces "no/a.json" = ["no", "a.json"] := by decide +kernel
  intro content
  simp [FileSystem.write, hpieces, writable, noFiles, Entry.get?, Entry.child?, bind, Except.bind,
    FileSystem.origin]

/-- Both commands ask for something that cannot be, and neither is answered with a status. -/
theorem ending_is_not_status :
    (run Host.standard noFiles [] [".", "--log-level", "LOUD"]).ending = .unknownLevel "LOUD" ∧
    (run Host.standard noFiles [] [".", "--output", "no/a.json"]).ending =
      .failure (.access .notFound "no/a.json") := by
  constructor
  · have hread : CommandLine.read [".", "--log-level", "LOUD"] =
        .ok { path := ".", logLevel := some "LOUD" } := by cbv
    have hupper : Text.upper "LOUD" = "LOUD" := Text.upper_of_capitals (by simp)
    have hsettings : (settingsFor EnvFile.loader noFiles []
        { path := ".", logLevel := some "LOUD" }).2 = .ok { logLevel := "LOUD" } := by
      rw [settingsFor_nil (EnvFile.loader_findsNoFile (by simp) [])]
      simp [present?, Settings.make, Detail.ofName?, hupper]
    obtain ⟨seen, htaken, hvalid, hwithin⟩ := made_standard rfl hsettings
    simp only [run, hread]
    exact ending_of_escapes (.levelUnknown htaken hvalid hwithin (by decide))
  · have hread : CommandLine.read [".", "--output", "no/a.json"] =
        .ok { path := ".", output := some "no/a.json" } := by cbv
    have hdir : noFiles.isDirectory "." = true := by cbv
    obtain ⟨t, hscanned⟩ :=
      (prepared_default noFiles "." false (some "no/a.json")).exists_scanned (if_pos hdir)
    simp only [run, hread]
    exact ending_of_escapes
      (.outputUnopened hscanned (by simp [present?]) (by decide) noFiles_refuses)

end Command

end CallAtlas
