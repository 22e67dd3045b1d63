import CallAtlas.Tree

/-!
A tree written as rows. Each row gives the row of its parent, which stands before it, and
siblings stand in their order; so going through the rows from the last to the first finds every
child finished before its parent.
-/

set_option autoImplicit false

namespace CallAtlas

structure Row where
  parent : Option Nat
  kind : String
  named : Bool
  field : Option String
  span : Span

/-- The nodes from the last row down to the first: `pending` holds, for each row, the children
seen so far. -/
def buildRows (pending : Array (List Node)) (done : List Node) :
    List (Row × Nat) → List Node
  | [] => done
  | (row, i) :: rest =>
    let n := Node.mk row.kind row.named row.field row.span (pending.getD i [])
    let pending :=
      match row.parent with
      | some p => pending.modify p (n :: ·)
      | none => pending
    buildRows pending (n :: done) rest

/-- The node of every row, with its whole subtree. -/
def nodesOfRows (rows : List Row) : Array Node :=
  (buildRows (Array.replicate rows.length []) [] rows.zipIdx.reverse).toArray

def rootOfRows? (rows : List Row) : Option Node :=
  (nodesOfRows rows)[0]?

/-- The rows above a row, innermost first. -/
def ancestorRows (rows : Array Row) (i : Nat) : List Nat :=
  match rows[i]? with
  | none => []
  | some row =>
    match row.parent with
    | none => []
    | some p => if _h : p < i then p :: ancestorRows rows p else []
termination_by i

/-- The rows of the children, in order. -/
def childRows (rows : Array Row) (i : Nat) : List Nat :=
  (List.range rows.size).filter (fun j => (rows[j]?.bind Row.parent) == some i)

/-- The row reached by going down through children at the given positions. -/
def rowAt? (rows : Array Row) (i : Nat) : List Nat → Option Nat
  | [] => some i
  | k :: path =>
    match (childRows rows i)[k]? with
    | some j => rowAt? rows j path
    | none => none

end CallAtlas
