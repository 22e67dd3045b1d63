import CallAtlas.Analysis
import CallAtlas.FileSystem
import CallAtlas.Language
import CallAtlas.Settings
import CallAtlas.Statistics

/-!
Scanning files and directories. A scanner collects what it finds in a catalog and counts files,
failures and malformed nodes. A scan of a directory goes on after a file that fails.
-/

set_option autoImplicit false

namespace CallAtlas

structure Scanner where
  settings : Settings
  parser : Parser
  catalog : Catalog := {}
  fileCount : Nat := 0
  errorCount : Nat := 0
  skippedCount : Nat := 0

def Scanner.fresh (parser : Parser) (settings : Settings) : Scanner :=
  { settings, parser }

/-- Names that are never looked into. -/
def defaultIgnore : List String :=
  [".git", ".svn", "node_modules", "__pycache__", ".venv", "venv", "build", "dist", ".idea",
    ".vscode", "coverage", "out", ".next", ".nuxt", "bower_components", "vendor"]

def Settings.ignores (settings : Settings) (name : String) : Bool :=
  defaultIgnore.contains name || settings.ignore.contains name

/-- A path is left out for any of its pieces, or because its last piece is hidden. -/
def Settings.leavesOut (settings : Settings) (path : String) : Bool :=
  let name := Path.basename path
  settings.ignores name
    || (Path.pieces (Path.normalize path)).any settings.ignores
    || (name.startsWith "." && name != "." && name != "..")

/-- A file with the path below the scanned directory. -/
structure Found where
  path : String
  relative : String
  deriving DecidableEq, Repr

/-- The directory a search has come to: where it stands in the file system, how its path is
written, and the path below the scanned directory. -/
structure Site where
  place : List String
  path : String
  relative : List String

def Site.below (site : Site) (name : String) : Site :=
  ⟨site.place ++ [name], Path.join site.path name, site.relative ++ [name]⟩

def Site.relativeTo (site : Site) (name : String) : String :=
  Path.joinSlash (site.relative ++ [name])

/-- An entry that is listed as a file: a link is one unless it leads to a directory. -/
def isFileEntry (fs : FileSystem) (site : Site) : Entry → Bool
  | .file _ => true
  | .directory _ => false
  | .link target => !fs.linksToDirectory site.place target

def filesHere (fs : FileSystem) (settings : Settings) (site : Site)
    (entries : List (String × Entry)) : List Found :=
  let names := (entries.filter (fun e => isFileEntry fs site e.2)).map Prod.fst
  let kept := names.filter (fun n =>
    !settings.leavesOut (site.relativeTo n) && (Language.ofPath? (Path.join site.path n)).isSome)
  (kept.mergeSort (fun a b => a ≤ b)).map (fun n => ⟨Path.join site.path n, site.relativeTo n⟩)

mutual
/-- The files in and below a directory: its own first, then those of its directories by name. -/
def filesBelow (fs : FileSystem) (settings : Settings) (site : Site) : Entry → List Found
  | .directory entries =>
    filesHere fs settings site entries
      ++ ((filesOfEntries fs settings site entries).mergeSort (fun a b => a.1 ≤ b.1)).flatMap
        Prod.snd
  | .file _ => []
  | .link _ => []

def filesOfEntries (fs : FileSystem) (settings : Settings) (site : Site) :
    List (String × Entry) → List (String × List Found)
  | [] => []
  | e :: rest => filesOfEntry fs settings site e :: filesOfEntries fs settings site rest

def filesOfEntry (fs : FileSystem) (settings : Settings) (site : Site) :
    String × Entry → String × List Found
  | (name, entry) =>
    (name,
      if settings.leavesOut (site.relativeTo name) then []
      else filesBelow fs settings (site.below name) entry)
end

/-- The files to scan below a path; what is no directory has none. -/
def findFiles (fs : FileSystem) (settings : Settings) (path : String) : List Found :=
  match fs.locate path with
  | .error _ => []
  | .ok place =>
    match fs.root.get? place with
    | some entry => filesBelow fs settings ⟨place, path, []⟩ entry
    | none => []

/-- Reads a file unless it is too large. -/
def readSource (fs : FileSystem) (settings : Settings) (path : String) : Except Error Source :=
  if Path.holdsZero path then .error .zeroInPath
  else
    match fs.size path with
    | .error cause => .error (.access cause path)
    | .ok size =>
      if settings.maxFileSize < size then .error (.tooLarge path size settings.maxFileSize)
      else
        match fs.read path with
        | .error cause => .error (.access cause path)
        | .ok source => .ok source

def extractFile (parser : Parser) (fs : FileSystem) (settings : Settings) (path file : String) :
    Except Error Extraction := do
  analyze parser settings.detail (some file) (.octets (← readSource fs settings path))

namespace Scanner

def merge (s : Scanner) (file : Option String) (e : Extraction) : Scanner :=
  { s with
    catalog := s.catalog.merge file e.records
    skippedCount := s.skippedCount + e.skipped
    fileCount := s.fileCount + 1 }

def scanSource (s : Scanner) (file : Option String) (given : Given) :
    Except Error (Extraction × Scanner) := do
  let e ← analyze s.parser s.settings.detail file given
  return (e, s.merge file e)

/-- Scans one file, which goes by the name `relative` or, if that is empty, by its path. -/
def scanFile (s : Scanner) (fs : FileSystem) (path : String) (relative : Option String) :
    Except Error (Extraction × Scanner) := do
  let file := (present? relative).getD path
  let e ← extractFile s.parser fs s.settings path file
  return (e, s.merge (some file) e)

/-- Takes in the outcome of one file of many: a failure is counted and nothing else. -/
def absorb (s : Scanner) (file : String) : Except Error Extraction → Scanner
  | .ok e => s.merge (some file) e
  | .error _ => { s with errorCount := s.errorCount + 1 }

def outcomes (s : Scanner) (fs : FileSystem) (path : String) :
    List (Found × Except Error Extraction) :=
  (findFiles fs s.settings path).map (fun f =>
    (f, extractFile s.parser fs s.settings f.path f.relative))

def absorbAll (s : Scanner) (all : List (Found × Except Error Extraction)) : Scanner :=
  all.foldl (fun s (f, outcome) => s.absorb f.relative outcome) s

def scanRepository (s : Scanner) (fs : FileSystem) (path : String) : Scanner :=
  s.absorbAll (s.outcomes fs path)

def link (s : Scanner) : Scanner :=
  { s with catalog := s.catalog.link }

def records (s : Scanner) : List Record :=
  s.catalog.records.toList

def statistics (s : Scanner) : Statistics :=
  .ofRecords s.fileCount s.errorCount s.records

end Scanner

end CallAtlas
