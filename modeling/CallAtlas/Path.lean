/-!
Paths as texts with slashes. Nothing here looks at a file system: the rules are about the text
alone.
-/

set_option autoImplicit false

namespace CallAtlas.Path

/-- The pieces between slashes; a text without a slash is one piece. -/
def splitSlash : List Char → List (List Char)
  | [] => [[]]
  | c :: rest =>
    match splitSlash rest with
    | [] => [[c]]
    | piece :: pieces =>
      if c = '/' then [] :: piece :: pieces else (c :: piece) :: pieces

def pieces (path : String) : List String :=
  (splitSlash path.toList).map String.ofList

def joinSlash (parts : List String) : String :=
  "/".intercalate parts

def isAbsolute (path : String) : Bool :=
  path.startsWith "/"

/-- No path of a file system has a zero character in it. -/
def holdsZero (path : String) : Bool :=
  path.toList.any (fun c => c.toNat == 0)

def basename (path : String) : String :=
  (pieces path).getLastD ""

/-- One path below another; an absolute second path stands alone. -/
def join (a b : String) : String :=
  if isAbsolute b then b
  else if a.isEmpty || a.endsWith "/" then a ++ b
  else a ++ "/" ++ b

/-- Takes up one piece; `done` holds the pieces kept so far, newest first. A step up removes the
piece before it, is dropped at the root, and is kept when there is nothing to remove. -/
def normalStep (absolute : Bool) (done : List String) (piece : String) : List String :=
  if piece == "" || piece == "." then done
  else if piece == ".." then
    match done with
    | [] => if absolute then [] else [".."]
    | last :: rest => if last == ".." then ".." :: done else rest
  else piece :: done

/-- The pieces that remain once empty ones, single dots and steps up are resolved. -/
def normalPieces (path : String) : List String :=
  ((pieces path).foldl (normalStep (isAbsolute path)) []).reverse

/-- Exactly two leading slashes are kept, any other number becomes one. -/
def leadingSlashes (path : String) : String :=
  match path.toList with
  | '/' :: '/' :: '/' :: _ => "/"
  | '/' :: '/' :: _ => "//"
  | '/' :: _ => "/"
  | _ => ""

def normalize (path : String) : String :=
  let result := leadingSlashes path ++ joinSlash (normalPieces path)
  if result.isEmpty then "." else result

/-- The part from the last dot of the last piece on; leading dots do not count. -/
def extension (path : String) : String :=
  let name := (basename path).toList
  let bare := name.dropWhile (· == '.')
  if bare.contains '.' then
    String.ofList ('.' :: (bare.reverse.takeWhile (· != '.')).reverse)
  else ""

def dropCommon : List String → List String → List String × List String
  | a :: as, b :: bs => if a = b then dropCommon as bs else (a :: as, b :: bs)
  | as, bs => (as, bs)

/-- The way from one directory to a path, both read from the directory `here`. -/
def relative (here path start : String) : String :=
  let (down, up) := dropCommon (normalPieces (join here path)) (normalPieces (join here start))
  let parts := up.map (fun _ => "..") ++ down
  if parts.isEmpty then "." else joinSlash parts

end CallAtlas.Path
