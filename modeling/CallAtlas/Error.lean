import CallAtlas.Text.Integer
import CallAtlas.Tree

/-!
Everything that can go wrong, by cause, and the sentence for each.
-/

set_option autoImplicit false

namespace CallAtlas

/-- A node of a function form without a part it must have. Rows and columns may come from
outside, so they are whole numbers of either sign. -/
structure MalformedNode where
  kind : String
  row : Int
  column : Int
  reason : String
  deriving DecidableEq, Repr

def MalformedNode.message (m : MalformedNode) : String :=
  "Malformed " ++ m.kind ++ " at " ++ toString (m.row + 1) ++ ":" ++ toString m.column ++ ": "
    ++ m.reason

/-- Why reading or writing a file failed. -/
inductive FileCause where
  | notFound
  | notDirectory
  | isDirectory
  | tooManyLinks
  | denied
  deriving DecidableEq, Repr

def FileCause.message : FileCause → String
  | .notFound => "[Errno 2] No such file or directory"
  | .notDirectory => "[Errno 20] Not a directory"
  | .isDirectory => "[Errno 21] Is a directory"
  | .tooManyLinks => "[Errno 40] Too many levels of symbolic links"
  | .denied => "[Errno 13] Permission denied"

inductive Error where
  /-- A walk was asked for without a tree to walk. -/
  | noTree (message : String)
  | malformed (node : MalformedNode)
  | unreadable (file : String) (reason : String)
  | tooLarge (file : String) (size limit : Int)
  | access (cause : FileCause) (path : String)
  /-- A zero character stands in a path. -/
  | zeroInPath
  /-- No level of detail has this name. -/
  | unknownDetail (name : String)
  deriving DecidableEq, Repr

/-- What is said when no tree is given. -/
def Error.missingTree : Error :=
  .noTree "No syntax tree given; parse the source before extracting"

def Error.message : Error → String
  | .noTree message => message
  | .malformed node => node.message
  | .unreadable file reason => "Failed to parse " ++ file ++ " as javascript: " ++ reason
  | .tooLarge file size limit =>
    "File " ++ file ++ " is " ++ Text.grouped size ++ " bytes, exceeds limit of "
      ++ Text.grouped limit ++ " bytes. Set FUNCGRAPH_MAX_FILE_SIZE to increase the limit."
  | .access cause path => cause.message ++ ": " ++ Text.quoted path
  | .zeroInPath => "embedded null byte"
  | .unknownDetail name => Text.quoted name

/-- A place given as a list must have exactly two entries. -/
inductive PairError where
  | tooFew (given : Nat)
  | tooMany
  deriving DecidableEq, Repr

def PairError.message : PairError → String
  | .tooFew given =>
    "not enough values to unpack (expected 2, got " ++ toString given ++ ")"
  | .tooMany => "too many values to unpack (expected 2)"

def MalformedNode.ofPlace (kind : String) (place : List Int) (reason : String) :
    Except PairError MalformedNode :=
  match place with
  | [row, column] => .ok ⟨kind, row, column, reason⟩
  | [] | [_] => .error (.tooFew place.length)
  | _ => .error .tooMany

end CallAtlas
