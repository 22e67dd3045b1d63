import CallAtlas.Command

/-!
The command on real files. What the command may look at is read into a file system value, the
command runs on that, and its output is written out.
-/

set_option autoImplicit false

namespace CallAtlas.Main

/-- A path leads to a directory. -/
def isDirectory (path : String) : IO Bool :=
  try return ← (← IO.FS.realPath path).isDir
  catch _ => return false

/-- The names in a directory. A link to a directory comes with its target. -/
def namesIn (path : String) : IO (List (String × Option String)) := do
  (← (← IO.FS.realPath path).readDir).toList.mapM (fun e => do
    let isLink := (← e.path.symlinkMetadata).type == .symlink
    if isLink && (← e.path.isDir) then
      return (e.fileName, some (← IO.FS.realPath e.path).toString)
    else return (e.fileName, none))

/-- What a link that leads nowhere is taken to lead to. -/
def deadLink : Entry :=
  .link "/absent"

/-- Reads a file or a directory with all that is below it. Of files inside a directory only those
that are scanned are read; the others count by name alone. -/
partial def load (path : String) (inside : Bool) : IO (Option Entry) := do
  if ← isDirectory path then
    let entries ← (← namesIn path).mapM (fun (name, target) => do
      match target with
      | some place => return (name, Entry.link place)
      | none => return (name, (← load (Path.join path name) true).getD deadLink))
    return some (.directory entries)
  else if inside && (Language.ofPath? path).isNone then return some (.file ByteArray.empty)
  else
    try return some (.file (← IO.FS.readBinFile path))
    catch _ => return none

def put (fs : FileSystem) (path : String) (entry : Entry) : FileSystem :=
  { fs with
    root := entry.put fs.root (Path.normalPieces (Path.join fs.hereText path)) }

def isThere (path : String) : IO Bool :=
  try
    let _ ← (← IO.FS.realPath path).metadata
    return true
  catch _ => return false

/-- Takes in what is at a path, if anything is. A file that is there and cannot be read is
locked. -/
def takeIn (fs : FileSystem) (path : String) : IO FileSystem := do
  match ← load path false with
  | some entry => return put fs path entry
  | none =>
    if ← isThere path then
      let place := Path.normalPieces (Path.join fs.hereText path)
      return { put fs path (.file ByteArray.empty) with locked := place :: fs.locked }
    else return fs

/-- Takes in the directory that a file is to be written to, without what is in it. -/
def takeInParent (fs : FileSystem) (path : String) : IO FileSystem := do
  let parent := Path.normalize (Path.join path "..")
  if ← isDirectory path then return put fs path (.directory [])
  else if ← isDirectory parent then return put fs parent (.directory [])
  else return fs

def lookUp (names : List String) : IO Environment :=
  names.filterMapM (fun name => do
    return (← IO.getEnv name).map (fun value => (name, value)))

/-- The files and variables that a request may look at. -/
def surroundings (request : CommandLine.Request) : IO (FileSystem × Environment) := do
  let here := Path.normalPieces (← IO.currentDir).toString
  let empty : FileSystem := { root := Entry.put (.directory []) (.directory []) here, here }
  let withOutput ←
    match present? request.output with
    | some path => takeInParent empty path
    | none => pure empty
  let withPath ← if request.path.isEmpty then pure withOutput else takeIn withOutput request.path
  let fs ←
    match present? request.envFile with
    | some path => takeIn withPath path
    | none => pure withPath
  let mentioned :=
    match request.envFile.map (EnvFile.contentsAt fs) with
    | some (.ok contents) => contents.names
    | _ => []
  return (fs, ← lookUp (Settings.variableNames ++ mentioned).eraseDups)

def finish (run : Command.Run) : IO UInt32 := do
  IO.print run.stdout
  IO.eprint run.stderr
  match run.written with
  | some (path, text) => IO.FS.writeFile path text
  | none => pure ()
  match run.ending with
  | .status code => return code.toUInt32
  | .unknownLevel name =>
    IO.eprintln (Command.unknownLevelMessage name)
    return 1
  | .noParser reason =>
    IO.eprintln reason
    return 1
  | .failure e =>
    IO.eprintln e.message
    return 1
  | .fault fault =>
    IO.eprintln fault.reason
    return 1

end CallAtlas.Main

def main (words : List String) : IO UInt32 := do
  let (fs, env) ←
    match CallAtlas.CommandLine.read words with
    | .ok request => CallAtlas.Main.surroundings request
    | .error _ => pure ({ root := .directory [], here := [] }, [])
  CallAtlas.Main.finish (CallAtlas.Command.run .standard fs env words)
