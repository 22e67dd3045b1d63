import CallAtlas.Extraction
import CallAtlas.Json

/-!
All records found so far. A record is known by its position, so that the list of all records,
the lists of the files and the keys speak about the same records, and a change to one is seen
through all three.
-/

set_option autoImplicit false

namespace CallAtlas

/-- `files` lists the positions of each file's latest records, files in the order in which they
first came. -/
structure Catalog where
  records : Array Record := #[]
  files : List (Option String × List Nat) := []
  keys : KeyMap := {}

/-- Sets the positions of a file; a file seen before keeps its place. -/
def putFile (file : Option String) (positions : List Nat) :
    List (Option String × List Nat) → List (Option String × List Nat)
  | [] => [(file, positions)]
  | (f, ps) :: rest =>
    if f = file then (file, positions) :: rest else (f, ps) :: putFile file positions rest

namespace Catalog

def get? (c : Catalog) (i : Nat) : Option Record :=
  c.records[i]?

def pick (c : Catalog) (positions : List Nat) : List Record :=
  positions.filterMap c.get?

def byFile (c : Catalog) : List (Option String × List Record) :=
  c.files.map (fun (file, positions) => (file, c.pick positions))

/-- Takes in the records of one file; earlier records of the file stay among all records. -/
def merge (c : Catalog) (file : Option String) (records : List Record) : Catalog :=
  let first := c.records.size
  { records := c.records ++ records.toArray
    files := putFile file (List.range' first records.length) c.files
    keys := c.keys.extend first records }

def positions? (c : Catalog) (file : Option String) : Option (List Nat) :=
  (c.files.find? (fun p => p.1 = file)).map Prod.snd

/-- Takes in one record, which joins the earlier records of its file. -/
def push (c : Catalog) (r : Record) : Catalog :=
  let i := c.records.size
  { records := c.records.push r
    files := putFile r.file ((c.positions? r.file).getD [] ++ [i]) c.files
    keys := c.keys.insert r.key i }

def ofRecords (records : List Record) : Catalog :=
  records.foldl push {}

end Catalog

/-- The caller joins the callers of the record at a position, once. -/
def addCaller (records : Array Record) (target : Nat) (caller : String) : Array Record :=
  records.modify target (fun r =>
    if r.calledBy.contains caller then r else { r with calledBy := r.calledBy ++ [caller] })

/-- A call is looked up within the file of the caller only. -/
def linkCall (keys : KeyMap) (file : Option String) (caller : String)
    (records : Array Record) (called : String) : Array Record :=
  match keys[recordKey file called]? with
  | some target => addCaller records target caller
  | none => records

def linkCalls (keys : KeyMap) (records : Array Record) (position : Nat) : Array Record :=
  match records[position]? with
  | some r => r.calls.foldl (linkCall keys r.file r.qualifiedName) records
  | none => records

/-- Enters every caller at the records it calls, going through the callers in the given order. -/
def linkAll (keys : KeyMap) (records : Array Record) (callers : List Nat) : Array Record :=
  callers.foldl (linkCalls keys) records

def Catalog.link (c : Catalog) : Catalog :=
  { c with records := linkAll c.keys c.records (List.range c.records.size) }

def searchFunction (records : List Record) (name : String) : List Record :=
  records.filter (fun r => r.name == name || r.qualifiedName == name)

def searchClass (records : List Record) (name : String) : List Record :=
  records.filter (fun r => r.owner == some name)

def Point.json (p : Point) : Json :=
  .object [("row", .number p.row), ("column", .number p.column)]

def textList (texts : List String) : Json :=
  .list (texts.map .text)

/-- A member that is there only with a value. -/
def member? (name : String) (value : Option Json) : List (String × Json) :=
  match value with
  | some v => [(name, v)]
  | none => []

/-- A signature replaces name and parameters. -/
def Record.members (r : Record) : List (String × Json) :=
  member? "type" (r.kind.map .text)
    ++ (match r.signature with
      | some s => [("name", .text s)]
      | none => [("name", .text r.name), ("parameters", .text r.parameters)])
    ++ member? "returnType" (r.returnType.map .text)
    ++ member? "class" (r.owner.map .text)
    ++ (if r.calls.isEmpty then [] else [("calls", textList r.calls)])
    ++ (match r.position with
      | some (start, stop) => [("startPosition", start.json), ("endPosition", stop.json)]
      | none => [])

def Record.json (r : Record) (withCallers : Bool) : Json :=
  .object (r.members
    ++ (if withCallers && !r.calledBy.isEmpty then [("calledBy", textList r.calledBy)] else []))

def recordsJson (records : List Record) (withCallers : Bool) : Json :=
  .list (records.map (·.json withCallers))

def Catalog.json (c : Catalog) (withCallers : Bool) : Json :=
  .object (c.byFile.map (fun (file, records) =>
    (file.getD "null", recordsJson records withCallers)))

end CallAtlas
