import CallAtlas.Environment
import CallAtlas.Extraction
import CallAtlas.Text.Integer
import CallAtlas.Text.Upper

/-!
The settings of a scan and how they are read from the environment and a file of settings.
-/

set_option autoImplicit false

namespace CallAtlas

structure Settings where
  detail : Detail := .rich
  maxFileSize : Int := 5000000
  workers : Int := 1
  logLevel : String := "WARNING"
  ignore : List String := []

inductive SettingsError where
  | detail (name : String)
  | workers (count : Int)
  | integer (error : Text.IntegerError)
  | file (fault : LoadFault)

def SettingsError.message : SettingsError → String
  | .detail name => "Unsupported extractor variant: " ++ name
  | .workers count => "workers must be at least 1, got " ++ toString count
  | .integer error => error.message
  | .file fault => fault.message

namespace Settings

/-- The level of detail is checked before the number of workers. -/
def make (detail : String) (maxFileSize workers : Int) (logLevel : String)
    (ignore : List String) : Except SettingsError Settings :=
  match Detail.ofName? detail with
  | none => .error (.detail detail)
  | some d =>
    if workers < 1 then .error (.workers workers)
    else .ok ⟨d, maxFileSize, workers, logLevel, ignore⟩

/-- The entries between commas without surrounding blanks; empty ones and repetitions do not
count. -/
def ignoreList (text : String) : List String :=
  let entries := (text.toList.splitOn ',').map String.ofList
  ((entries.map Text.trim).filter (fun p => !p.isEmpty)).eraseDups

def integerOr (env : Environment) (name : String) (default : Int) :
    Except SettingsError Int :=
  match env.get? name with
  | none => .ok default
  | some text =>
    match Text.readInteger text with
    | .ok n => .ok n
    | .error e => .error (.integer e)

def variableNames : List String :=
  ["FUNCGRAPH_IGNORE", "FUNCGRAPH_MAX_FILE_SIZE", "FUNCGRAPH_WORKERS", "FUNCGRAPH_VARIANT",
    "FUNCGRAPH_LOG_LEVEL"]

def ofEnvironment (env : Environment) : Except SettingsError Settings := do
  let ignore := ignoreList ((env.get? "FUNCGRAPH_IGNORE").getD "")
  let maxFileSize ← integerOr env "FUNCGRAPH_MAX_FILE_SIZE" 5000000
  let workers ← integerOr env "FUNCGRAPH_WORKERS" 1
  make ((env.get? "FUNCGRAPH_VARIANT").getD "rich") maxFileSize workers
    (Text.upper ((env.get? "FUNCGRAPH_LOG_LEVEL").getD "WARNING")) ignore

/-- Settings from the environment once a file of settings is taken in, with what is said about the
file. -/
def load (loader : Loader) (fs : FileSystem) (env : Environment) (envFile : Option String) :
    List String × Except SettingsError Settings :=
  let loaded := loader fs env envFile
  (loaded.complaints,
    match loaded.environment with
    | .error fault => .error (.file fault)
    | .ok env => ofEnvironment env)

end Settings

end CallAtlas
