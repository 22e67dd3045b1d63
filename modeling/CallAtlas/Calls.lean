import CallAtlas.Tree
import Std.Data.HashMap
import Std.Data.HashSet

/-!
The functions called from within a function. One pass in reading order remembers which local
names hold a fresh instance of a class, so that a call on such a name is listed under the class;
a call before the instance is made is listed under the name itself.
-/

set_option autoImplicit false

namespace CallAtlas

/-- Calls on this object are never listed. -/
def ignoredObject : String := "console"

def ignoredCall : String := "console.log"

/-- The state of the pass: class names of instances by variable, and the calls found so far,
each once. -/
structure CallTable where
  aliases : Std.HashMap String String := {}
  listed : Std.HashSet String := {}
  calls : Array String := #[]

/-- The instance a declarator makes: the variable and the text of the constructor. -/
def instance? (source : Source) (n : Node) : Option (String × String) :=
  match n.child? "name", n.child? "value" with
  | some name, some value =>
    if name.kind == "identifier" && value.kind == "new_expression" then
      (value.child? "constructor").map (fun c => (name.text source, c.text source))
    else none
  | _, _ => none

/-- The class an object stands for, or the object itself. -/
def receiver (aliases : Std.HashMap String String) (object : String) : String :=
  match aliases[object]? with
  | some c => if c.isEmpty then object else c
  | none => object

def calledName? (source : Source) (aliases : Std.HashMap String String) (n : Node) :
    Option String :=
  match n.child? "function" with
  | none => none
  | some callee =>
    if callee.kind == "identifier" then some (callee.text source)
    else if callee.kind == "member_expression" then
      match callee.child? "object", callee.child? "property" with
      | some object, some property =>
        let objectText := object.text source
        if objectText == ignoredObject then none
        else some (receiver aliases objectText ++ "." ++ property.text source)
      | _, _ => none
    else none

namespace CallTable

def addCall (t : CallTable) (name : String) : CallTable :=
  if name.isEmpty || name == ignoredCall || t.listed.contains name then t
  else { t with listed := t.listed.insert name, calls := t.calls.push name }

/-- Takes one node into account, its children apart. -/
def enter (source : Source) (t : CallTable) (n : Node) : CallTable :=
  if n.kind == "variable_declarator" then
    match instance? source n with
    | some (name, constructor) => { t with aliases := t.aliases.insert name constructor }
    | none => t
  else if n.kind == "call_expression" then
    match calledName? source t.aliases n with
    | some name => t.addCall name
    | none => t
  else t

/-- Takes the nodes of a stack into account and everything below them. The children of a node come
next, from left to right. -/
def pass (source : Source) (t : CallTable) (stack : List Node) : CallTable :=
  match stack with
  | [] => t
  | n :: rest => pass source (t.enter source n) (n.children ++ rest)
termination_by sizeAmong stack
decreasing_by
  rw [sizeAmong_append, sizeAmong, Node.size_eq]
  omega

end CallTable

def Node.calls (source : Source) (f : Node) : List String :=
  (CallTable.pass source {} [f]).calls.toList

end CallAtlas
