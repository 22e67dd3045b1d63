import CallAtlas.Error
import CallAtlas.Path

/-!
A file system as a value: directories, files and symbolic links, and the directory from which
relative paths are read.
-/

set_option autoImplicit false

namespace CallAtlas

inductive Entry where
  | file (content : ByteArray)
  | directory (entries : List (String × Entry))
  | link (target : String)

namespace Entry

def child? : Entry → String → Option Entry
  | .directory entries, name => (entries.find? (fun e => e.1 == name)).map Prod.snd
  | _, _ => none

/-- The entry at a place below, links not followed. -/
def get? (e : Entry) : List String → Option Entry
  | [] => some e
  | name :: rest =>
    match e.child? name with
    | some c => c.get? rest
    | none => none

def putChild (name : String) (new : Entry) : List (String × Entry) → List (String × Entry)
  | [] => [(name, new)]
  | (n, e) :: rest => if n = name then (n, new) :: rest else (n, e) :: putChild name new rest

/-- Puts an entry at a place below; the directories on the way are made if they are missing. -/
def put (new : Entry) : Entry → List String → Entry
  | _, [] => new
  | e, name :: rest =>
    let entries :=
      match e with
      | .directory entries => entries
      | _ => []
    .directory (putChild name (put new ((e.child? name).getD (.directory [])) rest) entries)

end Entry

/-- `here` is the place of the current directory, from the root down, and `locked` holds the
places of files that may not be opened. -/
structure FileSystem where
  root : Entry
  here : List String
  locked : List (List String) := []

/-- More links than this on the way to a file are taken for a circle. -/
def linkLimit : Nat := 40

/-- Goes from the directory at `place` through the pieces of a path, following links, to the
place of a file or directory. -/
def follow (root : Entry) (links : Nat) (place : List String) :
    List String → Except FileCause (List String)
  | [] => .ok place
  | piece :: rest =>
    if piece == "" || piece == "." then follow root links place rest
    else if piece == ".." then follow root links place.dropLast rest
    else
      match root.get? (place ++ [piece]) with
      | none => .error .notFound
      | some (.directory _) => follow root links (place ++ [piece]) rest
      | some (.file _) =>
        if rest.isEmpty then .ok (place ++ [piece]) else .error .notDirectory
      | some (.link target) =>
        match links with
        | 0 => .error .tooManyLinks
        | left + 1 =>
          follow root left (if Path.isAbsolute target then [] else place)
            (Path.pieces target ++ rest)
termination_by todo => (links, todo.length)

/-- Where a file to be written would stand: its directory must be there, the file need not. -/
def writable (root : Entry) (links : Nat) (place : List String) :
    List String → Except FileCause (List String)
  | [] => .error .isDirectory
  | piece :: rest =>
    if piece == "" || piece == "." then writable root links place rest
    else if piece == ".." then writable root links place.dropLast rest
    else
      match root.get? (place ++ [piece]) with
      | none =>
        if rest.isEmpty then .ok (place ++ [piece])
        else if rest.all (· == "") then .error .isDirectory
        else .error .notFound
      | some (.directory _) => writable root links (place ++ [piece]) rest
      | some (.file _) =>
        if rest.isEmpty then .ok (place ++ [piece]) else .error .notDirectory
      | some (.link target) =>
        match links with
        | 0 => .error .tooManyLinks
        | left + 1 =>
          writable root left (if Path.isAbsolute target then [] else place)
            (Path.pieces target ++ rest)
termination_by todo => (links, todo.length)

namespace FileSystem

def origin (fs : FileSystem) (path : String) : List String :=
  if Path.isAbsolute path then [] else fs.here

def hereText (fs : FileSystem) : String :=
  "/" ++ Path.joinSlash fs.here

def locate (fs : FileSystem) (path : String) : Except FileCause (List String) :=
  if path.isEmpty then .error .notFound
  else follow fs.root linkLimit (fs.origin path) (Path.pieces path)

def entry (fs : FileSystem) (path : String) : Except FileCause Entry := do
  let place ← fs.locate path
  match fs.root.get? place with
  | some e => .ok e
  | none => .error .notFound

def isDirectory (fs : FileSystem) (path : String) : Bool :=
  match fs.entry path with
  | .ok (.directory _) => true
  | _ => false

def read (fs : FileSystem) (path : String) : Except FileCause ByteArray := do
  let place ← fs.locate path
  match fs.root.get? place with
  | some (.file content) => if place ∈ fs.locked then .error .denied else .ok content
  | some _ => .error .isDirectory
  | none => .error .notFound

/-- The size in octets; a directory takes one block. -/
def size (fs : FileSystem) (path : String) : Except FileCause Nat := do
  match ← fs.entry path with
  | .file content => .ok content.size
  | _ => .ok 4096

def write (fs : FileSystem) (path : String) (content : ByteArray) :
    Except FileCause FileSystem := do
  if path.isEmpty then .error .notFound
  else
    let place ← writable fs.root linkLimit (fs.origin path) (Path.pieces path)
    if place ∈ fs.locked then .error .denied
    else .ok { fs with root := Entry.put (.file content) fs.root place }

/-- A link in the directory at `place` leads to a directory. -/
def linksToDirectory (fs : FileSystem) (place : List String) (target : String) : Bool :=
  match follow fs.root (linkLimit - 1) (if Path.isAbsolute target then [] else place)
      (Path.pieces target) with
  | .ok found =>
    match fs.root.get? found with
    | some (.directory _) => true
    | _ => false
  | .error _ => false

end FileSystem

end CallAtlas
