import CallAtlas.Statistics

/-!
The printed reports. Each is a list of lines, and every line ends with a line break.
-/

set_option autoImplicit false

namespace CallAtlas.Report

def ofLines (lines : List String) : String :=
  String.join (lines.map (· ++ "\n"))

def rule (width : Nat) : String :=
  String.ofList (List.replicate width '=')

/-- Fills up with blanks on the right. -/
def padded (width : Nat) (s : String) : String :=
  s ++ String.ofList (List.replicate (width - s.length) ' ')

def arrow (r : Record) : String :=
  match present? r.returnType with
  | some label => " -> " ++ label
  | none => ""

def summaryLines (s : Statistics) : List String :=
  ["\n" ++ rule 70, "REPOSITORY SUMMARY", rule 70,
    "Total Files: " ++ toString s.totalFiles,
    "Total Functions: " ++ toString s.totalFunctions,
    "Total Methods: " ++ toString s.totalMethods,
    "Total Calls: " ++ toString s.totalCalls]
  ++ (if s.byReturnType.isEmpty then [] else
      "\nBy Return Type:" :: s.sortedReturnTypes.map (fun (label, n) =>
        "  " ++ padded 14 label ++ " " ++ toString n))
  ++ "\nTop 10 Files by Function Count:" :: s.topFiles.map (fun (file, t) =>
      "  " ++ fileLabel file ++ ": " ++ toString t.total ++ " (" ++ toString t.methods
        ++ " methods)")

def summary (s : Statistics) : String :=
  ofLines (summaryLines s)

/-- At most ten of the names, with a count of the rest. -/
def firstTen (mark : String) (names : List String) : List String :=
  (names.take 10).map (fun n => "    " ++ mark ++ " " ++ n)
    ++ (if names.length > 10 then
        ["    ... and " ++ toString (names.length - 10) ++ " more"] else [])

def functionLines (r : Record) : List String :=
  ["\n" ++ fileLabel r.file ++ "::" ++ r.qualifiedName ++ r.parameters]
    ++ (match present? r.owner with
      | some c => ["  Class: " ++ c]
      | none => [])
    ++ (match present? r.returnType with
      | some label => ["  Return Type: " ++ label]
      | none => [])
    ++ (match r.position with
      | some (start, stop) =>
        ["  Lines: " ++ toString (start.row + 1) ++ "-" ++ toString (stop.row + 1)]
      | none => [])
    ++ ["  Calls: " ++ toString r.calls.length ++ " functions"]
    ++ firstTen "->" r.calls
    ++ ["  Called by: " ++ toString r.calledBy.length ++ " functions"]
    ++ firstTen "<-" r.calledBy

def functionDetails (name : String) (found : List Record) : List String :=
  if found.isEmpty then ["\nNo function named '" ++ name ++ "' found."]
  else
    ["\n" ++ rule 70, "FUNCTION DETAILS: " ++ name, rule 70] ++ found.flatMap functionLines

def methodLines (r : Record) : List String :=
  ["  • " ++ r.name ++ r.parameters ++ arrow r,
    "      Calls: " ++ toString r.calls.length ++ " | Called by: "
      ++ toString r.calledBy.length]

def classDetails (name : String) (methods : List Record) : List String :=
  if methods.isEmpty then ["\nNo methods found for class '" ++ name ++ "'."]
  else
    ["\n" ++ rule 70, "CLASS DETAILS: " ++ name, rule 70,
        "Total Methods: " ++ toString methods.length]
      ++ methods.flatMap methodLines

def recordLines (r : Record) : List String :=
  ("  • " ++ (present? r.signature).getD (r.qualifiedName ++ r.parameters) ++ arrow r)
    :: r.calls.map (fun c => "      -> " ++ c)

/-- Every record under its file. -/
def listing (files : List (Option String × List Record)) : List String :=
  files.flatMap (fun (file, records) =>
    ("\n" ++ fileLabel file ++ ":") :: records.flatMap recordLines)

end CallAtlas.Report
