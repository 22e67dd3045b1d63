import CallAtlas.Text.Utf8

/-!
Trees over a source text. A node knows its kind, whether it is named (keywords and punctuation
are not), the field it fills in its parent, and the stretch of source it covers. Trees are
taken as they come: nothing here asks a span to lie inside its parent's.
-/

set_option autoImplicit false

namespace CallAtlas

/-- A place in the source: lines are counted from zero, columns in octets. -/
structure Point where
  row : Nat
  column : Nat
  deriving DecidableEq, Repr

/-- Lines as people count them, columns as the source does. -/
def Point.shown (p : Point) : String :=
  toString (p.row + 1) ++ ":" ++ toString p.column

structure Span where
  startByte : Nat
  endByte : Nat
  start : Point
  stop : Point
  deriving DecidableEq, Repr

inductive Node where
  | mk (kind : String) (named : Bool) (field : Option String) (span : Span)
      (children : List Node)

namespace Node

def kind : Node → String
  | .mk k _ _ _ _ => k

def named : Node → Bool
  | .mk _ n _ _ _ => n

def field : Node → Option String
  | .mk _ _ f _ _ => f

def span : Node → Span
  | .mk _ _ _ s _ => s

def children : Node → List Node
  | .mk _ _ _ _ cs => cs

/-- The first child that fills the field. -/
def child? (n : Node) (name : String) : Option Node :=
  n.children.find? (fun c => c.field == some name)

def namedChildren (n : Node) : List Node :=
  n.children.filter named

/-- Some child, named or not, has the kind. -/
def hasChildOfKind (n : Node) (k : String) : Bool :=
  n.children.any (fun c => c.kind == k)

end Node

/-- Source text as octets. -/
abbrev Source := ByteArray

/-- The characters between two offsets; what lies past the end of the source is not there. -/
def Source.slice (source : Source) (start stop : Nat) : List Char :=
  Text.Utf8.decode (source.extract start stop).data.toList

def Source.text (source : Source) (start stop : Nat) : String :=
  String.ofList (source.slice start stop)

/-- The source a node covers. -/
def Node.text (source : Source) (n : Node) : String :=
  source.text n.span.startByte n.span.endByte

mutual
/-- The number of nodes of a tree. -/
def Node.size : Node → Nat
  | .mk _ _ _ _ children => sizeAmong children + 1

def sizeAmong : List Node → Nat
  | [] => 0
  | n :: rest => n.size + sizeAmong rest
end

theorem Node.size_eq (n : Node) : n.size = sizeAmong n.children + 1 := by
  cases n with
  | mk kind named field span children => simp only [Node.size, Node.children]

theorem sizeAmong_append (xs ys : List Node) :
    sizeAmong (xs ++ ys) = sizeAmong xs + sizeAmong ys := by
  induction xs with
  | nil => simp [sizeAmong]
  | cons n rest ih =>
    simp only [List.cons_append, sizeAmong, ih]
    omega

end CallAtlas
