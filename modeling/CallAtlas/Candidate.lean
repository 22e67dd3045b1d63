import CallAtlas.Context
import CallAtlas.Notice

/-!
The forms in which a function gets a name: a method, a function declaration, and a declaration
that binds exactly one function to an identifier. `classify` says which form a node has, if
any, and where its function is.
-/

set_option autoImplicit false

namespace CallAtlas

/-- Kinds whose nodes open the scope of a function. -/
def functionKinds : List String :=
  ["method_definition", "function_declaration", "arrow_function", "function_expression",
    "function", "generator_function", "generator_function_declaration"]

/-- Kinds of function that a declaration may bind. -/
def initializerKinds : List String :=
  ["arrow_function", "function_expression", "function"]

def declarationKinds : List String :=
  ["lexical_declaration", "variable_declaration"]

def classKinds : List String :=
  ["class_declaration", "class"]

def methodNameKinds : List String :=
  ["property_identifier", "private_property_identifier"]

namespace Node

/-- A keyword may be spelled like a kind, so only named nodes count. -/
def isFunction (n : Node) : Bool :=
  n.named && functionKinds.contains n.kind

def isClass (n : Node) : Bool :=
  n.named && classKinds.contains n.kind

def isAsync (n : Node) : Bool :=
  n.hasChildOfKind "async"

def isInitializer (n : Node) : Bool :=
  n.named && initializerKinds.contains n.kind

end Node

/-- A named function. The function node is either the classified node itself or lies below it;
`path` gives the positions of the children that lead down to it, and `holders` the nodes above
it, innermost first, up to the classified one. -/
structure Candidate where
  name : String
  parameters : String
  function : Node
  owner : Option String
  path : List Nat
  holders : List Node

def Candidate.isAsync (c : Candidate) : Bool :=
  c.function.isAsync

def Candidate.isArrow (c : Candidate) : Bool :=
  c.function.kind == "arrow_function"

/-- What a node turns out to be. -/
inductive Verdict where
  | ordinary
  /-- A function form that is left out, with the remark it deserves. -/
  | passedOver (why : Notice)
  | malformed (node : MalformedNode)
  | function (candidate : Candidate)

def Verdict.candidate? : Verdict → Option Candidate
  | .function c => some c
  | _ => none

/-- The parameter list; an arrow function may have a single bare parameter instead. -/
def parameterNode? (f : Node) : Option Node :=
  match f.child? "parameters" with
  | some p => some p
  | none => if f.kind == "arrow_function" then f.child? "parameter" else none

/-- A form with a name is a candidate once its parameters are found. -/
def Verdict.ofForm (source : Source) (name : Node) (f : Node) (owner : Option String)
    (path : List Nat) (holders : List Node) : Verdict :=
  match parameterNode? f with
  | some p => .function ⟨name.text source, p.text source, f, owner, path, holders⟩
  | none =>
    .malformed ⟨f.kind, f.span.start.row, f.span.start.column, "missing parameter list"⟩

def classifyMethod (source : Source) (context : Context) (n : Node) : Verdict :=
  match n.child? "name" with
  | none => .ordinary
  | some name =>
    if !methodNameKinds.contains name.kind then
      .passedOver (.methodName name.kind n.span.start)
    else if n.hasChildOfKind "*" then
      .passedOver (.generatorMethod n.span.start)
    else .ofForm source name n context.currentClass [] []

def classifyFunction (source : Source) (n : Node) : Verdict :=
  match n.child? "name" with
  | none => .ordinary
  | some name => .ofForm source name n none [] []

/-- A declarator that binds a function: its position in the declaration, the declarator, the
position of the value in it, and the value. -/
structure Binding where
  position : Nat
  declarator : Node
  slot : Nat
  value : Node

/-- The value of a declarator, if that is a function. -/
def bindingOf? (position : Nat) (c : Node) : Option Binding :=
  if c.named && c.kind == "variable_declarator" then
    match c.children.zipIdx.find? (fun p => p.1.field == some "value") with
    | some (value, slot) =>
      if value.isInitializer then some ⟨position, c, slot, value⟩ else none
    | none => none
  else none

def bindings (n : Node) : List Binding :=
  n.children.zipIdx.filterMap (fun (c, i) => bindingOf? i c)

/-- A pattern binds no single name, and several functions have no single one. -/
def classifyDeclaration (source : Source) (n : Node) : Verdict :=
  match bindings n with
  | [] => .ordinary
  | [b] =>
    match b.declarator.child? "name" with
    | none => .ordinary
    | some name =>
      if name.kind == "identifier" then
        .ofForm source name b.value none [b.position, b.slot] [b.declarator, n]
      else .ordinary
  | bs => .passedOver (.severalFunctions bs.length n.span.start)

def classify (source : Source) (context : Context) (n : Node) : Verdict :=
  if n.kind == "method_definition" then classifyMethod source context n
  else if n.kind == "function_declaration" then classifyFunction source n
  else if declarationKinds.contains n.kind then classifyDeclaration source n
  else .ordinary

/-- Some node on the way up opens a function scope. -/
def enclosedByFunction (ancestors : List Node) : Bool :=
  ancestors.any Node.isFunction

/-- The function of a candidate lies inside another one. `ancestors` are the nodes above the
classified node. -/
def Candidate.isNested (c : Candidate) (ancestors : List Node) : Bool :=
  enclosedByFunction (c.holders ++ ancestors)

end CallAtlas
