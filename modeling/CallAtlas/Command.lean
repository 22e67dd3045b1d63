import CallAtlas.CommandLine
import CallAtlas.Progress

/-!
The command as a function: from the words of a command line, the environment and the files to
what is printed, what is written and how the command ends.
-/

set_option autoImplicit false

namespace CallAtlas.Command

open CommandLine (Request)

/-- How the command ends: with a status, or with a failure that it does not report. -/
inductive Ending where
  | status (code : Nat)
  | unknownLevel (name : String)
  | noParser (reason : String)
  | failure (error : Error)
  | fault (fault : Fault)

structure Run where
  ending : Ending
  stdout : String := ""
  stderr : String := ""
  files : FileSystem
  written : Option (String × String) := none

/-- The least weight of a remark that is shown, by the name of a level. -/
def threshold? (level : String) : Option Nat :=
  [("CRITICAL", 50), ("FATAL", 50), ("ERROR", 40), ("WARN", 30), ("WARNING", 30), ("INFO", 20),
    ("DEBUG", 10), ("NOTSET", 0)].lookup level

def unknownLevelMessage (name : String) : String :=
  "Unknown level: " ++ Text.quoted name

/-- What the command line says goes before what the environment says. -/
def override (request : Request) (settings : Settings) : Except SettingsError Settings :=
  Settings.make ((present? request.variant).getD settings.detail.name) settings.maxFileSize
    (request.workers.getD settings.workers)
    (Text.upper ((present? request.logLevel).getD settings.logLevel)) settings.ignore

/-- The settings of a request, with what is said about the file of settings. -/
def settingsFor (loader : Loader) (fs : FileSystem) (env : Environment) (request : Request) :
    List String × Except SettingsError Settings :=
  let (complaints, settings) := Settings.load loader fs env request.envFile
  (complaints, settings.bind (override request))

structure Scan where
  scanner : Scanner
  events : List Event

/-- Scans a directory, or a single file that goes by its last piece. -/
def scanPath (parser : Parser) (fs : FileSystem) (settings : Settings) (least : Nat)
    (path : String) : Except Error Scan :=
  let fresh := Scanner.fresh parser settings
  if fs.isDirectory path then
    let all := fresh.outcomes fs path
    .ok ⟨fresh.absorbAll all, Progress.events least fresh path all⟩
  else do
    let (e, scanner) ← fresh.scanFile fs path (some (Path.basename path))
    return ⟨scanner, Progress.remarks least e.notices⟩

/-- Only the records are wanted on standard output. -/
def isQuiet (request : Request) : Bool :=
  request.json && (present? request.output).isNone

def voiced (request : Request) (events : List Event) : List Event :=
  if isQuiet request then events.filter Event.isRemark else events

def document (catalog : Catalog) (withCallers : Bool) : String :=
  (catalog.json withCallers).render (some 2)

def report (request : Request) (scanner : Scanner) : List String :=
  match present? request.function, present? request.owner with
  | some name, _ => Report.functionDetails name (searchFunction scanner.records name)
  | none, some name => Report.classDetails name (searchClass scanner.records name)
  | none, none =>
    if (present? request.output).isSome then []
    else Report.listing scanner.catalog.byFile ++ Report.summaryLines scanner.statistics

def stop (t : Transcript) (files : FileSystem) (ending : Ending) : Run :=
  { ending, stdout := String.join t.stdout, stderr := String.join t.stderr, files }

/-- Reports a failure and ends with a status. -/
def answer (console : Console) (t : Transcript) (files : FileSystem) (code : Nat)
    (line : String) : Run :=
  match console.stderr t.stderr (line ++ "\n") with
  | some fault => stop t files (.fault fault)
  | none => stop { t with stderr := t.stderr ++ [line ++ "\n"] } files (.status code)

def conclude (console : Console) (t : Transcript) (files : FileSystem) (lines : List String) :
    Run :=
  match console.play t (lines.map .line) with
  | (t, some fault) => stop t files (.fault fault)
  | (t, none) => stop t files (.status 0)

/-- What is printed once a scan is done and its output file, if there is one, is written. -/
def lastLines (request : Request) (scanner : Scanner) : List String :=
  match present? request.output with
  | some path => ("✅ Records written to " ++ path) :: report request scanner
  | none => if request.json then [document scanner.catalog false] else report request scanner

def deliver (console : Console) (fs : FileSystem) (request : Request) (scanner : Scanner)
    (t : Transcript) : Run :=
  let scanner := scanner.link
  match present? request.output with
  | none => conclude console t fs (lastLines request scanner)
  | some path =>
    let text := document scanner.catalog true
    if Path.holdsZero path then stop t fs (.failure .zeroInPath)
    else
      match fs.write path ByteArray.empty, fs.write path text.toUTF8 with
      | .ok opened, .ok after =>
        match console.file path text with
        | some fault => stop t opened (.fault fault)
        | none =>
          { conclude console t after (lastLines request scanner) with
            written := some (path, text) }
      | .error cause, _ | _, .error cause => stop t fs (.failure (.access cause path))

/-- Loads the parser. That it is there is told, and a line that cannot be printed is told like a
parser that cannot be loaded. -/
def setUp (host : Host) (request : Request) (t : Transcript) :
    Transcript × Except Ending Parser :=
  let tell (t : Transcript) (line : String) : Transcript × Option Fault :=
    host.console.play t (voiced request [.line line])
  match host.parser with
  | .error reason =>
    match tell t (Progress.failed reason) with
    | (t, some fault) => (t, .error (.fault fault))
    | (t, none) => (t, .error (.noParser reason))
  | .ok parser =>
    match tell t Progress.ready with
    | (t, none) => (t, .ok parser)
    | (t, some fault) =>
      match tell t (Progress.failed fault.reason) with
      | (t, again) => (t, .error (.fault (again.getD fault)))

/-- Failures that a scan is expected to have. -/
def isExpected : Error → Bool
  | .zeroInPath | .unknownDetail _ => false
  | _ => true

def analysisFailed (reason : String) : String :=
  "❌ Error during analysis: " ++ reason

def settingsInvalid (reason : String) : String :=
  "❌ Invalid configuration: " ++ reason

/-- Goes on once the events of a scan are out, or one of them is refused. -/
def proceed (console : Console) (fs : FileSystem) (request : Request) (scanner : Scanner) :
    Transcript × Option Fault → Run
  | (t, none) => deliver console fs request scanner t
  | (t, some (.device reason)) => answer console t fs 1 (analysisFailed reason)
  | (t, some fault) => stop t fs (.fault fault)

/-- Scans the path of a request and delivers what was found. -/
def scanAndDeliver (console : Console) (parser : Parser) (fs : FileSystem) (request : Request)
    (settings : Settings) (least : Nat) (t : Transcript) : Run :=
  match scanPath parser fs settings least request.path with
  | .error e =>
    if isExpected e then answer console t fs 1 (analysisFailed e.message)
    else stop t fs (.failure e)
  | .ok scan =>
    proceed console fs request scan.scanner (console.play t (voiced request scan.events))

/-- Goes on with the parser that was loaded, or stops without one. -/
def scanWith (console : Console) (fs : FileSystem) (request : Request) (settings : Settings)
    (least : Nat) : Transcript × Except Ending Parser → Run
  | (t, .error ending) => stop t fs ending
  | (t, .ok parser) => scanAndDeliver console parser fs request settings least t

/-- Carries out a request once its settings are known. -/
def carryOut (host : Host) (fs : FileSystem) (request : Request) (settings : Settings)
    (t : Transcript) : Run :=
  match threshold? settings.logLevel with
  | none => stop t fs (.unknownLevel settings.logLevel)
  | some least => scanWith host.console fs request settings least (setUp host request t)

/-- Answers settings that cannot be made, a settings file that cannot be opened apart. -/
def respond (host : Host) (fs : FileSystem) (request : Request) (t : Transcript) :
    Except SettingsError Settings → Run
  | .error (.file (.unopened e)) => stop t fs (.failure e)
  | .error e => answer host.console t fs 2 (settingsInvalid e.message)
  | .ok settings => carryOut host fs request settings t

def perform (host : Host) (fs : FileSystem) (env : Environment) (request : Request) : Run :=
  let (complaints, settings) := settingsFor host.loader fs env request
  respond host fs request (host.console.play {} (complaints.map .remark)).1 settings

/-- Help and complaints about the words are dropped by a device that fails. -/
def offer (stream : Stream) (text : String) : Except Fault String :=
  match stream [] text with
  | none => .ok text
  | some (.device _) => .ok ""
  | some fault => .error fault

def run (host : Host) (fs : FileSystem) (env : Environment) (words : List String) : Run :=
  match CommandLine.read words with
  | .error .help =>
    match offer host.console.stdout CommandLine.help with
    | .ok text => { ending := .status 0, stdout := text, files := fs }
    | .error fault => { ending := .fault fault, files := fs }
  | .error (.wrong e) =>
    match offer host.console.stderr (CommandLine.complaint e) with
    | .ok text => { ending := .status 2, stderr := text, files := fs }
    | .error fault => { ending := .fault fault, files := fs }
  | .ok request => perform host fs env request

end CallAtlas.Command
