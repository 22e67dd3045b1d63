import CallAtlas.Path

/-!
Which files hold JavaScript, by their extension in either case.
-/

set_option autoImplicit false

namespace CallAtlas

inductive Language where
  | javascript
  deriving DecidableEq, Repr

def Language.name : Language → String
  | .javascript => "javascript"

def javascriptExtensions : List String :=
  [".js", ".mjs", ".cjs", ".jsx"]

/-- Only plain letters have to be lowered: no other character becomes one of theirs. -/
def Language.ofPath? (path : String) : Option Language :=
  if javascriptExtensions.contains (String.ofList ((Path.extension path).toList.map Char.toLower))
  then some .javascript else none

end CallAtlas
