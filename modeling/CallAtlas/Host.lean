import CallAtlas.EnvFile
import CallAtlas.JavaScript.Program

/-!
What the command relies on: a parser, a loader of settings files, and the places it prints and
writes to. Each of them may fail. A line that cannot be printed stops whoever prints it, and a
remark that cannot be made is lost.
-/

set_option autoImplicit false

namespace CallAtlas

/-- Why a text is not taken: its device fails, or has no spelling for one of its characters. -/
inductive Fault where
  | device (reason : String)
  | encoding (reason : String)
  deriving DecidableEq, Repr

def Fault.reason : Fault → String
  | .device reason => reason
  | .encoding reason => reason

/-- What stands against the next text, after those that were taken. -/
abbrev Stream := List String → String → Option Fault

/-- `file` tells what stands against a text in the open file at a path. -/
structure Console where
  stdout : Stream
  stderr : Stream
  file : String → String → Option Fault

/-- The parser is there, or cannot be loaded for a reason. -/
structure Host where
  parser : Except String Parser
  loader : Loader
  console : Console

def Host.standard : Host where
  parser := .ok JavaScript.parser
  loader := EnvFile.loader
  console := ⟨fun _ _ => none, fun _ _ => none, fun _ _ => none⟩

/-- What is put out along the way, without the line break at its end. -/
inductive Event where
  | line (text : String)
  | remark (text : String)

def Event.isRemark : Event → Bool
  | .line _ => false
  | .remark _ => true

structure Transcript where
  stdout : List String := []
  stderr : List String := []

namespace Console

/-- Puts out one event after the other, up to the first line that is refused. -/
def play (console : Console) (t : Transcript) : List Event → Transcript × Option Fault
  | [] => (t, none)
  | .line text :: rest =>
    match console.stdout t.stdout (text ++ "\n") with
    | some fault => (t, some fault)
    | none => console.play { t with stdout := t.stdout ++ [text ++ "\n"] } rest
  | .remark text :: rest =>
    match console.stderr t.stderr (text ++ "\n") with
    | some _ => console.play t rest
    | none => console.play { t with stderr := t.stderr ++ [text ++ "\n"] } rest

end Console

end CallAtlas
