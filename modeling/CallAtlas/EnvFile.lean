import CallAtlas.Environment
import CallAtlas.Text.Blank

/-!
Files of settings, one `NAME=value` a statement. Values may be bare, in single or in double
quotation marks; a reference to another name in braces stands for its value. A statement that
cannot be read is dropped up to the end of its line and remembered by the line it starts on.
-/

set_option autoImplicit false

namespace CallAtlas.EnvFile

def isInlineBlank (c : Char) : Bool :=
  Text.isBlank c && c != '\n' && c != '\r'

def isLineEnd (c : Char) : Bool :=
  c == '\n' || c == '\r'

def plainLineEnds : List Char → List Char
  | '\r' :: '\n' :: rest => '\n' :: plainLineEnds rest
  | '\r' :: rest => '\n' :: plainLineEnds rest
  | c :: rest => c :: plainLineEnds rest
  | [] => []

def dropMark : List Char → List Char
  | c :: rest => if c.toNat == 0xFEFF then rest else c :: rest
  | [] => []

/-- A reading step: what was read and what is left, or where reading got stuck. -/
abbrev Step (α : Type) := Except (List Char) (α × List Char)

/-- The text of a quoted value up to its closing mark. A backslash before the mark keeps it in the
text, unless no mark is left after it to close the value; `spare` remembers the last such mark
as the text before it and what follows it. -/
def closeQuote (mark : Char) (seen : List Char) (spare : Option (List Char × List Char)) :
    List Char → Option (List Char × List Char)
  | [] => spare
  | '\\' :: c :: rest =>
    if c = mark then closeQuote mark (c :: '\\' :: seen) (some (('\\' :: seen).reverse, rest)) rest
    else closeQuote mark ('\\' :: seen) spare (c :: rest)
  | c :: rest =>
    if c = mark then some (seen.reverse, rest) else closeQuote mark (c :: seen) spare rest

def escape? (mark c : Char) : Option Char :=
  if c == '\\' || c == '\'' then some c
  else if mark == '"' then
    match c with
    | '"' => some '"'
    | 'a' => some (Char.ofNat 0x07)
    | 'b' => some (Char.ofNat 0x08)
    | 'f' => some (Char.ofNat 0x0C)
    | 'n' => some '\n'
    | 'r' => some '\r'
    | 't' => some '\t'
    | 'v' => some (Char.ofNat 0x0B)
    | _ => none
  else none

def unescape (mark : Char) : List Char → List Char
  | '\\' :: c :: rest =>
    match escape? mark c with
    | some e => e :: unescape mark rest
    | none => '\\' :: unescape mark (c :: rest)
  | c :: rest => c :: unescape mark rest
  | [] => []

def cutComment : List Char → List Char
  | [] => []
  | c :: rest =>
    if Text.isBlank c && (rest.dropWhile Text.isBlank).head? == some '#' then []
    else c :: cutComment rest

def readQuoted (mark : Char) (cs : List Char) : Step (List Char) :=
  match closeQuote mark [] none cs with
  | some (text, rest) => .ok (unescape mark text, rest)
  | none => .error (mark :: cs)

def readValue : List Char → Step (List Char)
  | '\'' :: rest => readQuoted '\'' rest
  | '"' :: rest => readQuoted '"' rest
  | cs =>
    let line := cs.takeWhile (fun c => !isLineEnd c)
    .ok (Text.dropTail Text.isBlank (cutComment line), cs.drop line.length)

def dropExport (cs : List Char) : List Char :=
  match cs with
  | 'e' :: 'x' :: 'p' :: 'o' :: 'r' :: 't' :: c :: rest =>
    if isInlineBlank c then rest.dropWhile isInlineBlank else cs
  | _ => cs

def isKeyChar (c : Char) : Bool :=
  c != '=' && c != '#' && !Text.isBlank c

def readName (cs : List Char) : Step (Option (List Char)) :=
  match cs with
  | '#' :: _ => .ok (none, cs)
  | '\'' :: rest =>
    let name := rest.takeWhile (· != '\'')
    match rest.drop name.length with
    | _ :: after => if name.isEmpty then .error cs else .ok (some name, after)
    | [] => .error cs
  | _ =>
    let name := cs.takeWhile isKeyChar
    if name.isEmpty then .error cs else .ok (some name, cs.drop name.length)

def dropComment (cs : List Char) : List Char :=
  match cs.dropWhile isInlineBlank with
  | '#' :: rest => rest.dropWhile (fun c => !isLineEnd c)
  | _ => cs

def readLineEnd (cs : List Char) : Step Unit :=
  match cs.dropWhile isInlineBlank with
  | [] => .ok ((), [])
  | '\n' :: rest => .ok ((), rest)
  | _ => .error cs

abbrev Statement := Option (List Char) × Option (List Char)

def readStatement (cs : List Char) : Except (List Char) (Statement × List Char) := do
  let (name, cs) ← readName (dropExport cs)
  let cs := cs.dropWhile isInlineBlank
  let (value, cs) ← match cs with
    | '=' :: rest => do
      let (value, cs) ← readValue (rest.dropWhile isInlineBlank)
      pure (some value, cs)
    | _ => pure (none, cs)
  let ((), cs) ← readLineEnd (dropComment cs)
  pure ((name, value), cs)

def dropLine (cs : List Char) : List Char :=
  (cs.dropWhile (fun c => !isLineEnd c)).drop 1

structure Contents where
  bindings : List (String × Option String) := []
  badLines : List Nat := []
  deriving DecidableEq, Repr

/-- Every turn uses up at least one character, so `fuel` above the length is never used up.
A statement starts where the one before it ends, blank lines included. -/
def readStatements : Nat → Nat → List Char → Contents
  | 0, _, _ => {}
  | _, _, [] => {}
  | fuel + 1, line, cs =>
    let body := cs.dropWhile Text.isBlank
    if body.isEmpty then {}
    else
      let (found, bad, rest) :=
        match readStatement body with
        | .ok ((some name, value), rest) =>
          ([(String.ofList name, value.map String.ofList)], [], rest)
        | .ok ((none, _), rest) => ([], [], rest)
        | .error stuck => ([], [line], dropLine stuck)
      let used := cs.take (cs.length - rest.length)
      let more := readStatements fuel (line + used.count '\n') rest
      ⟨found ++ more.bindings, bad ++ more.badLines⟩

/-- The first closing brace ends a reference, and a colon with a dash gives a default. -/
def reference? (cs : List Char) : Option (List Char × Option (List Char) × List Char) :=
  let name := cs.takeWhile (fun c => c != '}' && c != ':')
  match cs.drop name.length with
  | '}' :: rest => some (name, none, rest)
  | ':' :: '-' :: more =>
    let fallback := more.takeWhile (· != '}')
    match more.drop fallback.length with
    | '}' :: rest => some (name, some fallback, rest)
    | _ => none
  | _ => none

/-- Replaces references by what `look` finds; `fuel` above the length is never used up. -/
def expand (look : String → Option String) : Nat → List Char → List Char
  | 0, cs => cs
  | _, [] => []
  | fuel + 1, '$' :: '{' :: rest =>
    match reference? rest with
    | some (name, fallback, after) =>
      (match look (String.ofList name) with
        | some value => value.toList
        | none => fallback.getD []) ++ expand look fuel after
    | none => '$' :: expand look fuel ('{' :: rest)
  | fuel + 1, c :: rest => c :: expand look fuel rest

def references : Nat → List Char → List String
  | 0, _ => []
  | _, [] => []
  | fuel + 1, '$' :: '{' :: rest =>
    match reference? rest with
    | some (name, _, after) => String.ofList name :: references fuel after
    | none => references fuel ('{' :: rest)
  | fuel + 1, _ :: rest => references fuel rest

/-- Every variable that taking a file in may look at. -/
def Contents.names (contents : Contents) : List String :=
  contents.bindings.flatMap (fun (name, value) =>
    name :: match value with
      | some v => references (v.length + 1) v.toList
      | none => [])

/-- The value of a name in the environment or else among those set so far, where the last setting
counts. A name without a value hides an earlier one and stands for nothing. -/
def look (env : Environment) (earlier : List (String × Option String)) (name : String) :
    Option String :=
  (env.get? name).or ((earlier.find? (fun e => e.1 == name)).map (fun e => e.2.getD ""))

def resolve (env : Environment) (earlier : List (String × Option String)) :
    List (String × Option String) → List (String × Option String)
  | [] => earlier
  | (name, value) :: rest =>
    let expanded := value.map (fun v =>
      String.ofList (expand (look env earlier) (v.length + 1) v.toList))
    resolve env ((name, expanded) :: earlier) rest

inductive VariableFault where
  | zeroCharacter
  | equalsSign
  deriving DecidableEq, Repr

def VariableFault.message : VariableFault → String
  | .zeroCharacter => "embedded null byte"
  | .equalsSign => "illegal environment variable name"

def variableFault? (name value : String) : Option VariableFault :=
  if Path.holdsZero name || Path.holdsZero value then some .zeroCharacter
  else if name.toList.contains '=' then some .equalsSign
  else none

def setVariable (env : Environment) (name : String) (value : Option String) :
    Except VariableFault Environment :=
  match env.get? name, value with
  | none, some v =>
    match variableFault? name v with
    | some fault => .error fault
    | none => .ok (env ++ [(name, v)])
  | _, _ => .ok env

def apply (env : Environment) (bindings : List (String × Option String)) :
    Except VariableFault Environment :=
  let resolved := resolve env [] bindings
  let names := (bindings.map Prod.fst).eraseDups
  names.foldlM (fun env name =>
    setVariable env name ((resolved.find? (fun e => e.1 == name)).bind Prod.snd)) env

def read (octets : List UInt8) : Except Text.Utf8.Fault Contents :=
  match Text.Utf8.fault? octets with
  | some fault => .error fault
  | none =>
    let cs := plainLineEnds (dropMark (Text.Utf8.decode octets))
    .ok (readStatements (cs.length + 1) 1 cs)

def complaint (line : Nat) : String :=
  "python-dotenv could not parse statement starting at line " ++ toString line

/-- What the file at a path holds. Without a file, or with a directory in its place, that is
nothing. -/
def contentsAt (fs : FileSystem) (path : String) : Except LoadFault Contents :=
  if Path.holdsZero path then .error (.refused VariableFault.zeroCharacter.message)
  else
    match fs.read path with
    | .error .denied => .error (.unopened (.access .denied path))
    | .error _ => .ok {}
    | .ok content =>
      match read content.data.toList with
      | .error fault => .error (.undecoded fault)
      | .ok contents => .ok contents

def takeIn (env : Environment) (contents : Contents) : Loaded where
  complaints := contents.badLines.map complaint
  environment :=
    match apply env contents.bindings with
    | .error fault => .error (.refused fault.message)
    | .ok env => .ok env

/-- Only a file that is named is looked at. -/
def loader : Loader := fun fs env path =>
  match path.elim (.ok {}) (contentsAt fs) with
  | .error fault => ⟨[], .error fault⟩
  | .ok contents => takeIn env contents

end CallAtlas.EnvFile
