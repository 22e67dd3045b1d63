import CallAtlas.Calls
import CallAtlas.Record
import CallAtlas.ReturnLabel
import Std.Data.HashMap

/-!
Finding the functions of a tree. The walk goes through the nodes in reading order and keeps a
record for every named function that has no function around it; a form without parameters is
counted and otherwise ignored. How much a record holds depends on the level of detail.
-/

set_option autoImplicit false

namespace CallAtlas

/-- `rich` keeps return labels and calls, `signature` keeps signatures and positions. -/
inductive Detail where
  | rich
  | signature
  deriving DecidableEq, Repr

def Detail.name : Detail → String
  | .rich => "rich"
  | .signature => "signature"

def Detail.ofName? (s : String) : Option Detail :=
  if s == "rich" then some .rich
  else if s == "signature" then some .signature
  else none

theorem Detail.ofName?_name (d : Detail) : Detail.ofName? d.name = some d := by
  cases d <;> rfl

/-- The parameters as a signature shows them: a bare one gets parentheses. -/
def Candidate.shownParameters (c : Candidate) : String :=
  match c.function.child? "parameters" with
  | some _ => c.parameters
  | none => "(" ++ c.parameters ++ ")"

def Candidate.signature (c : Candidate) : String :=
  match present? c.owner with
  | some owner => owner ++ "." ++ c.name ++ c.shownParameters
  | none => c.name ++ c.shownParameters

def Candidate.record (source : Source) (detail : Detail) (file : Option String)
    (c : Candidate) : Record :=
  let base : Record :=
    { name := c.name, parameters := c.parameters, owner := c.owner, file := file }
  match detail with
  | .rich =>
    { base with
      returnType := some (c.function.returnLabel c.isAsync c.isArrow).text
      calls := c.function.calls source }
  | .signature =>
    { base with
      signature := some c.signature
      kind := some c.function.kind
      position := some (c.function.span.start, c.function.span.stop) }

/-- What a walk has found so far. -/
structure Findings where
  records : Array Record := #[]
  skipped : Nat := 0
  notices : Array Notice := #[]

structure Survey where
  source : Source
  detail : Detail
  file : Option String

/-- The context for a node and what is below it: a class with a name takes over. -/
def Context.at (source : Source) (context : Context) (n : Node) : Context :=
  if n.isClass then
    match n.child? "name" with
    | some name => context.enterClass (name.text source)
    | none => context
  else context

/-- The context for the children of a node. -/
def Context.below (context : Context) (n : Node) (verdict : Verdict) : Context :=
  if verdict.candidate?.isSome || n.isFunction then context.enterFunction else context

/-- Adds what one node contributes, its children apart. -/
def Findings.add (survey : Survey) (found : Findings) (context : Context)
    (ancestors : List Node) : Verdict → Findings
  | .ordinary => found
  | .passedOver why => { found with notices := found.notices.push why }
  | .malformed node =>
    { found with
      skipped := found.skipped + 1
      notices := found.notices.push (.malformed survey.file node) }
  | .function c =>
    if context.insideFunction || c.isNested ancestors then found
    else
      { found with
        records := found.records.push (c.record survey.source survey.detail survey.file) }

mutual
/-- Walks a node and everything below it. `ancestors` lists the nodes above, innermost first. -/
def Node.survey (survey : Survey) (found : Findings) (context : Context)
    (ancestors : List Node) : Node → Findings
  | .mk kind named field span children =>
    let n := Node.mk kind named field span children
    let context := context.at survey.source n
    let verdict := classify survey.source context n
    surveyAmong survey (found.add survey context ancestors verdict) (context.below n verdict)
      (n :: ancestors) children

def surveyAmong (survey : Survey) (found : Findings) (context : Context)
    (ancestors : List Node) : List Node → Findings
  | [] => found
  | n :: rest =>
    surveyAmong survey (n.survey survey found context ancestors) context ancestors rest
end

/-- Positions by key; the last record with a key is the one it names. -/
abbrev KeyMap := Std.HashMap String Nat

/-- The keys of records that stand at `first`, `first + 1` and so on. -/
def KeyMap.extend (keys : KeyMap) (first : Nat) (records : List Record) : KeyMap :=
  (records.zipIdx first).foldl (fun keys (r, i) => keys.insert r.key i) keys

def KeyMap.ofRecords (records : List Record) : KeyMap :=
  KeyMap.extend {} 0 records

structure Extraction where
  records : List Record := []
  skipped : Nat := 0
  notices : List Notice := []

def Extraction.keys (e : Extraction) : KeyMap :=
  KeyMap.ofRecords e.records

def extract (survey : Survey) (root : Node) : Extraction :=
  let found := root.survey survey {} {} []
  ⟨found.records.toList, found.skipped, found.notices.toList⟩

def extract? (survey : Survey) : Option Node → Except Error Extraction
  | none => .error .missingTree
  | some root => .ok (extract survey root)

/-- What an extraction leaves behind after another attempt: the new outcome, or without a tree
the old one. -/
def Extraction.next (previous : Extraction) (survey : Survey) (root : Option Node) :
    Extraction × Option Error :=
  match extract? survey root with
  | .ok e => (e, none)
  | .error e => (previous, some e)

end CallAtlas
