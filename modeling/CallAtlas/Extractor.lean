import CallAtlas.Extraction

/-!
An extractor is asked again and again. In between it keeps what its last walk has found and the
setting of that walk. It goes through a tree with a stack of the nodes that are still to come, so
how deep a tree is does not matter.
-/

set_option autoImplicit false

namespace CallAtlas

structure Extractor where
  detail : Detail
  records : Array Record := #[]
  keys : KeyMap := {}
  skipped : Nat := 0
  notices : Array Notice := #[]
  source : Source := .empty
  file : Option String := none
  /-- The source from which classified nodes get their texts. -/
  classifier : Source := .empty

namespace Extractor

/-- A node still to be visited, with what is known from above. -/
structure Pending where
  node : Node
  context : Context
  ancestors : List Node

/-- The children come next, the first one first. -/
def Pending.below (p : Pending) (context : Context) : List Pending :=
  p.node.children.map (fun c => ⟨c, context, p.node :: p.ancestors⟩)

theorem Pending.node_below (p : Pending) (context : Context) :
    (p.below context).map Pending.node = p.node.children := by
  simp [Pending.below, Function.comp_def]

/-- What a walk goes by: how it classifies a node, and which candidates it drops for what stands
above their function. -/
structure Rules where
  classify : Source → Context → Node → Verdict
  isNested : Candidate → List Node → Bool

def Rules.usual : Rules where
  classify := CallAtlas.classify
  isNested := Candidate.isNested

def prepare (e : Extractor) (source : Source) (file : Option String) : Extractor :=
  { e with
    records := #[]
    keys := {}
    skipped := 0
    notices := #[]
    source := source
    file := file
    classifier := source }

/-- A key names the position of the last record that has it. -/
def addRecord (e : Extractor) (r : Record) : Extractor :=
  { e with records := e.records.push r, keys := e.keys.insert r.key e.records.size }

def take (rules : Rules) (e : Extractor) (context : Context) (ancestors : List Node) :
    Verdict → Extractor
  | .ordinary => e
  | .passedOver why => { e with notices := e.notices.push why }
  | .malformed node =>
    { e with
      skipped := e.skipped + 1
      notices := e.notices.push (.malformed e.file node) }
  | .function c =>
    if context.insideFunction || rules.isNested c ancestors then e
    else e.addRecord (c.record e.source e.detail e.file)

def visit (rules : Rules) (e : Extractor) (p : Pending) : Extractor × Context :=
  let context := p.context.at e.source p.node
  let verdict := rules.classify e.classifier context p.node
  (e.take rules context p.ancestors verdict, context.below p.node verdict)

/-- Visits what is on the stack and everything below it. -/
def walk (rules : Rules) (e : Extractor) (stack : List Pending) : Extractor :=
  match stack with
  | [] => e
  | p :: rest =>
    let (e, context) := e.visit rules p
    walk rules e (p.below context ++ rest)
termination_by sizeAmong (stack.map Pending.node)
decreasing_by
  rw [List.map_append, Pending.node_below, sizeAmong_append, List.map_cons, sizeAmong,
    Node.size_eq]
  omega

/-- One request: a source, the name of its file and its tree, if there is one. -/
structure Call where
  source : Source
  file : Option String
  root : Option Node

/-- The answer to a request, and the extractor as it is afterwards. -/
def answer (rules : Rules) (e : Extractor) (call : Call) :
    Except Error (List Record) × Extractor :=
  match call.root with
  | none => (.error .missingTree, e)
  | some root =>
    let walked := (e.prepare call.source call.file).walk rules [⟨root, {}, []⟩]
    (.ok walked.records.toList, walked)

end Extractor

end CallAtlas
