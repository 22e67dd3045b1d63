/-!
What a walk down a tree carries along: the class around the current node and whether a function
is around it. Entering never changes the context of the nodes beside.
-/

set_option autoImplicit false

namespace CallAtlas

structure Context where
  currentClass : Option String := none
  insideFunction : Bool := false
  deriving DecidableEq, Repr

namespace Context

def enterClass (c : Context) (name : String) : Context :=
  { c with currentClass := some name }

def enterFunction (c : Context) : Context :=
  { c with insideFunction := true }

end Context

end CallAtlas
