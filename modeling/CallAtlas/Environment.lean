import CallAtlas.FileSystem

/-!
Variables of the environment, and what takes a file of settings into them. The loader of such files
comes from outside; it also knows where to look when no file is named.
-/

set_option autoImplicit false

namespace CallAtlas

/-- Variables with their values; the first entry of a name counts. -/
abbrev Environment := List (String × String)

def Environment.get? (env : Environment) (name : String) : Option String :=
  (env.find? (fun e => e.1 == name)).map Prod.snd

/-- Why a file of settings is not taken in: it is there and cannot be opened, or what it holds is
refused. -/
inductive LoadFault where
  | unopened (error : Error)
  | undecoded (fault : Text.Utf8.Fault)
  | refused (reason : String)

def LoadFault.message : LoadFault → String
  | .unopened error => error.message
  | .undecoded fault => fault.message
  | .refused reason => reason

structure Loaded where
  complaints : List String
  environment : Except LoadFault Environment

/-- Takes in the file at a path or, without a path, the file that is found in its usual place. -/
abbrev Loader := FileSystem → Environment → Option String → Loaded

/-- No file is taken in, and nothing is said. -/
def Loader.FindsNoFile (loader : Loader) (fs : FileSystem) (env : Environment)
    (path : Option String) : Prop :=
  loader fs env path = ⟨[], .ok env⟩

/-- Variables that are set already stay as they are. -/
def Loader.KeepsVariables (loader : Loader) : Prop :=
  ∀ fs env path after, (loader fs env path).environment = .ok after →
    ∀ name value, env.get? name = some value → after.get? name = some value

end CallAtlas
