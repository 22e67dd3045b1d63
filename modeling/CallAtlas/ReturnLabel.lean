import CallAtlas.Candidate

/-!
A coarse label for what a function gives back. The first rule that applies decides: an async
function promises, an arrow with an expression gives anything, and otherwise the first returned
literal among the function's own return statements counts.
-/

set_option autoImplicit false

namespace CallAtlas

inductive ReturnLabel where
  | void
  | any
  | number
  | string
  | promise
  deriving DecidableEq, Repr

def ReturnLabel.text : ReturnLabel → String
  | .void => "void"
  | .any => "any"
  | .number => "number"
  | .string => "string"
  | .promise => "Promise<void>"

/-- The label of a literal, by the kind of its node. -/
def literalLabel? (kind : String) : Option ReturnLabel :=
  if kind == "number" then some .number
  else if kind == "string" || kind == "template_string" then some .string
  else none

/-- What a return statement returns; a comment is not it. -/
def returnedNode? (n : Node) : Option Node :=
  n.namedChildren.find? (fun c => c.kind != "comment")

/-- The label of what a return statement returns. -/
def Node.literal? (r : Node) : Option ReturnLabel :=
  (returnedNode? r).bind (fun e => literalLabel? e.kind)

/-- The first label among the return statements on a stack or below it, in reading order. Nested
functions have returns of their own, and nothing below a return statement is looked at. -/
def firstLabel? (stack : List Node) : Option ReturnLabel :=
  match stack with
  | [] => none
  | n :: rest =>
    if n.isFunction then firstLabel? rest
    else if n.kind == "return_statement" then
      match n.literal? with
      | some label => some label
      | none => firstLabel? rest
    else firstLabel? (n.children ++ rest)
termination_by sizeAmong stack
decreasing_by
  all_goals
    simp only [sizeAmong_append, sizeAmong, Node.size_eq]
    omega

/-- The body is looked into whatever its own kind is. -/
def Node.returnLabel (f : Node) (isAsync isArrow : Bool) : ReturnLabel :=
  if isAsync then .promise
  else
    match f.child? "body" with
    | none => .void
    | some body =>
      if isArrow && body.kind != "statement_block" then .any
      else (firstLabel? body.children).getD .void

end CallAtlas
