import CallAtlas.Tree

/-!
What is kept about one function: its name and parameters, the class it belongs to, the file it
was found in, and whatever the chosen level of detail adds.
-/

set_option autoImplicit false

namespace CallAtlas

structure Record where
  name : String
  parameters : String
  owner : Option String := none
  file : Option String := none
  signature : Option String := none
  returnType : Option String := none
  kind : Option String := none
  position : Option (Point × Point) := none
  calls : List String := []
  calledBy : List String := []
  deriving DecidableEq, Repr

/-- A text that is there and not empty. -/
def present? : Option String → Option String
  | some s => if s.isEmpty then none else some s
  | none => none

/-- How a file is named in messages and keys, a missing one included. -/
def fileLabel (file : Option String) : String :=
  file.getD "None"

/-- A record is a method if it has a class with a name. -/
def Record.isMethod (r : Record) : Bool :=
  (present? r.owner).isSome

/-- The class and the name with a dot between them, or the bare name outside any class. -/
def Record.qualifiedName (r : Record) : String :=
  match present? r.owner with
  | some c => c ++ "." ++ r.name
  | none => r.name

/-- Names a function within a file. Two records may share a key. -/
def recordKey (file : Option String) (name : String) : String :=
  fileLabel file ++ "::" ++ name

def Record.key (r : Record) : String :=
  recordKey r.file r.qualifiedName

def Record.shown (r : Record) : String :=
  "<" ++ r.key ++ ">"

end CallAtlas
