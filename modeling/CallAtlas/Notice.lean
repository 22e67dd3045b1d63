import CallAtlas.Error

/-!
Remarks made along the way, each with its level and the part of the program that makes it.
-/

set_option autoImplicit false

namespace CallAtlas

inductive Level where
  | debug
  | warning
  deriving DecidableEq, Repr

def Level.name : Level → String
  | .debug => "DEBUG"
  | .warning => "WARNING"

def Level.weight : Level → Nat
  | .debug => 10
  | .warning => 30

inductive Notice where
  /-- A method whose name is not a plain or private name. -/
  | methodName (kind : String) (place : Point)
  | generatorMethod (place : Point)
  /-- A declaration that binds several functions at once. -/
  | severalFunctions (count : Nat) (place : Point)
  | malformed (file : Option String) (node : MalformedNode)
  /-- The source has faults, and only part of it was understood. -/
  | partialTree (file : Option String)
  deriving DecidableEq, Repr

namespace Notice

def level : Notice → Level
  | .malformed _ _ => .warning
  | _ => .debug

def origin : Notice → String
  | .methodName _ _ | .generatorMethod _ | .severalFunctions _ _ =>
    "funcgraph.extractors.function_classifier"
  | .malformed _ _ => "funcgraph.extractors.base_extractor"
  | .partialTree _ => "funcgraph.parsers.javascript_parser"

def message : Notice → String
  | .methodName kind place => "Skipping method with " ++ kind ++ " name at " ++ place.shown
  | .generatorMethod place => "Skipping generator method at " ++ place.shown
  | .severalFunctions count place =>
    "Skipping declaration binding " ++ toString count ++ " functions at " ++ place.shown
  | .malformed file node =>
    file.getD "None" ++ ": " ++ node.message
  | .partialTree file =>
    file.getD "None" ++ ": syntax errors present, extracting from partial tree"

/-- Level, origin and message on one line. -/
def line (n : Notice) : String :=
  n.level.name ++ " " ++ n.origin ++ ": " ++ n.message

end Notice

end CallAtlas
