import CallAtlas.Host
import CallAtlas.Report
import CallAtlas.Scanner

/-!
What a scan tells while it goes on.
-/

set_option autoImplicit false

namespace CallAtlas.Progress

/-- Said once the parser is there. -/
def ready : String :=
  "✓ JavaScript parser loaded"

def failed (reason : String) : String :=
  "✗ JavaScript parser failed: " ++ reason

def failureLine? : Except Error Extraction → Option String
  | .ok _ => none
  | .error e => some ("    ✗ Error: " ++ e.message)

/-- The state of a scanner at the end of a scan. The records are counted one after the other. -/
def closing (s : Scanner) : List String :=
  let told := s.records.foldl Tally.count {}
  ["\n" ++ Report.rule 60,
    "✓ Successfully parsed: " ++ toString s.fileCount ++ " files",
    "✗ Errors: " ++ toString s.errorCount ++ " files",
    "✓ Total functions: " ++ toString told.functions,
    "✓ Total methods: " ++ toString told.methods]
  ++ (if s.skippedCount = 0 then [] else
      ["✗ Skipped malformed nodes: " ++ toString s.skippedCount])
  ++ [Report.rule 60 ++ "\n"]

/-- The remarks of at least the given weight. -/
def remarks (least : Nat) (notices : List Notice) : List Event :=
  (notices.filter (fun n => least ≤ n.level.weight)).map (fun n => .remark n.line)

def fileEvents (least : Nat) : Found × Except Error Extraction → List Event
  | (f, outcome) =>
    .line ("  [javascript] Parsing: " ++ f.relative) ::
      (match outcome with
        | .ok e => remarks least e.notices
        | .error _ => [])

/-- Everything put out during the scan of a directory by the scanner `s`. All files are read before
the first failure is told. -/
def events (least : Nat) (s : Scanner) (path : String)
    (all : List (Found × Except Error Extraction)) : List Event :=
  .line ("\nScanning repository: " ++ path ++ "\n") :: all.flatMap (fileEvents least)
    ++ (all.filterMap (fun o => failureLine? o.2) ++ closing (s.absorbAll all)).map .line

end CallAtlas.Progress
