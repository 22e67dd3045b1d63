import CallAtlas.JavaScript.Phrase

/-!
Reading steps: each starts at an offset of the source and either gives a result and the offset
behind it, or fails. The grammar refers to itself only through `Rules`, one phrase for each
goal, so that its productions are ordinary definitions.
-/

set_option autoImplicit false

namespace CallAtlas.JavaScript

abbrev Reading := ReaderT Source (StateT Nat Option)

/-- How an expression is read: `noIn` keeps the operator `in` for the head of a loop, and
`ends` says that the end of a line may end the statement around the expression. -/
structure Mode where
  noIn : Bool := false
  ends : Bool := false

inductive Goal where
  | expression (mode : Mode)
  | operand (mode : Mode)
  | construction
  | statement
  | element

abbrev Rules := Goal → Reading Phrase

def gap : Reading Unit := do
  set (skipGap (← read) false (← get))

def operandGap : Reading Unit := do
  set (skipGap (← read) true (← get))

def octet (ahead : Nat) : Reading UInt8 := do
  return octetAt (← read) ((← get) + ahead)

def sees (text : String) : Reading Bool := do
  return startsAt (← read) text (← get)

def markHere (text : String) : Reading Phrase := do
  if ← sees text then
    let i ← get
    let j := i + text.utf8ByteSize
    set j
    return .mark text i j
  else failure

def mark (text : String) : Reading Phrase := do
  gap
  markHere text

def seesNext (text : String) : Reading Bool := do
  return startsAt (← read) text (skipGap (← read) false (← get))

/-- The name after the gap, if one comes; nothing is taken. -/
def wordNext? : Reading (Option String) := do
  let src ← read
  let i := skipGap src true (← get)
  return (nameEnd? src i).map (fun j => src.text i j)

def wordIs (word : String) : Reading Bool := do
  let src ← read
  let i := skipGap src false (← get)
  return startsAt src word i && nameEnd? src i == some (i + word.utf8ByteSize)

def keyword (word : String) : Reading Phrase := do
  if ← wordIs word then mark word else failure

def keyword? (word : String) : Reading (List Phrase) := do
  if ← wordIs word then return [← mark word] else return []

def mark? (text : String) : Reading (List Phrase) := do
  if ← seesNext text then return [← mark text] else return []

def nameAs (kind : String) : Reading Phrase := do
  gap
  let i ← get
  match nameEnd? (← read) i with
  | some j =>
    set j
    return .leaf kind i j
  | none => failure

def reservedWords : List String :=
  ["break", "case", "catch", "class", "const", "continue", "debugger", "default", "delete", "do",
    "else", "extends", "false", "finally", "for", "function", "if", "import", "in",
    "instanceof", "new", "null", "return", "super", "switch", "this", "throw", "true", "try",
    "typeof", "var", "void", "while", "with"]

def identifier : Reading Phrase := do
  match ← wordNext? with
  | some w => if reservedWords.contains w then failure else nameAs "identifier"
  | none => failure

/-- How many octets are left, and one more: no loop that takes something takes more turns. -/
def turns : Reading Nat := do
  return (← read).size - (← get) + 1

def repeatStep (step : Reading (Option (List Phrase))) :
    Nat → List Phrase → Reading (List Phrase)
  | 0, _ => failure
  | fuel + 1, done => do
    match ← step with
    | some parts => repeatStep step fuel (parts.reverse ++ done)
    | none => return done.reverse

def many (step : Reading (Option (List Phrase))) : Reading (List Phrase) := do
  repeatStep step (← turns) []

/-- A semicolon is left out here, or behind a comment that then belongs to the statement. -/
def omitted? (operand : Bool) : Reading (Option Nat) := do
  return missingSemicolon? (← read) operand (← turns) (← get)

def endsLine (operand : Bool) : Reading Bool := do
  return (← omitted? operand).isSome

def semicolon (operand : Bool) : Reading (List Phrase) := do
  match ← omitted? operand with
  | some i =>
    set i
    return []
  | none => return [← mark ";"]

def optionalEnd (operand : Bool) : Reading Unit := do
  match ← omitted? operand with
  | some i => set i
  | none => return ()

def upToHere (kind : String) (parts : List Phrase) : Reading Phrase := do
  return .nodeTo kind parts (← get)

/-- Runs a step; if it fails, reading stands where it stood. -/
def attempt {α : Type} (step : Reading α) : Reading (Option α) :=
  (do return some (← step)) <|> return none

/-- Items between two marks with commas between them; an item may be left out. -/
def commaItems (close : String) (item : Reading (List Phrase)) : Reading (List Phrase) :=
  many do
    if ← seesNext close then return none
    else if ← seesNext "," then return some [← mark ","]
    else
      let parts ← item
      if (← seesNext close) || (← seesNext ",") then return some parts else failure

end CallAtlas.JavaScript
