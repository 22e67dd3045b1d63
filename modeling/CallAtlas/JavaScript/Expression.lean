import CallAtlas.JavaScript.Member

/-!
Expressions. What stands between parentheses is read once, as a list of items, and becomes
parameters if an arrow follows. Operators with two operands wait on a stack until one that binds
less tightly comes, so a long sum takes no deep recursion.
-/

set_option autoImplicit false

namespace CallAtlas.JavaScript

def arrowFrom (rules : Rules) (mode : Mode) (before : List Phrase) : Reading Phrase := do
  let sign ← mark "=>"
  let body ←
    if ← seesNext "\x7b" then blockOr rules true (rules (.expression mode))
    else rules (.expression mode)
  return .node "arrow_function" (before ++ [sign, body.as "body"])

def alternates : List Phrase → Bool
  | [] => false
  | [p] => p.kind != ","
  | p :: q :: rest => p.kind != "," && q.kind == "," && alternates rest

def group (rules : Rules) (mode : Mode) : Reading Phrase := do
  let list ← arguments rules
  if ← seesNext "=>" then arrowFrom rules mode [(toParameters list).as "parameters"]
  else
    match list.parts with
    | left :: rest =>
      let items := rest.dropLast
      let right := rest.drop items.length
      if !alternates items || items.any (fun p => p.kind == "spread_element") then failure
      else
        match items with
        | [e] => return .node "parenthesized_expression" (left :: e :: right)
        | es =>
          return .node "parenthesized_expression"
            (left :: .node "sequence_expression" es :: right)
    | [] => failure

def functionFrom (rules : Rules) (before : List Phrase) : Reading Phrase := do
  let word ← keyword "function"
  let star ← mark? "*"
  let name ← if ← seesNext "(" then pure [] else pure [(← identifier).as "name"]
  let rest ← signatureAndBody rules true
  let kind := if star.isEmpty then "function_expression" else "generator_function"
  return .node kind (before ++ word :: star ++ name ++ rest)

def classExpression (rules : Rules) : Reading Phrase := do
  let marks ← decorators rules
  let (parts, _) ← classParts rules
  return .node "class" (marks ++ parts)

def asyncExpression (rules : Rules) (mode : Mode) : Reading Phrase := do
  let word ← keyword "async"
  let name := word.asLeaf "identifier"
  if mode.ends && (← endsLine true) then return name
  else if ← wordIs "function" then functionFrom rules [word]
  else if ← seesNext "=>" then arrowFrom rules mode [name.as "parameter"]
  else if ← seesNext "(" then
    let list ← arguments rules
    if ← seesNext "=>" then arrowFrom rules mode [word, (toParameters list).as "parameters"]
    else return .node "call_expression" [name.as "function", list.as "arguments"]
  else
    (do
      let param ← identifier
      arrowFrom rules mode [word, param.as "parameter"]) <|> return name

def importExpression : Reading Phrase := do
  let word ← keyword "import"
  if ← seesNext "." then
    let dot ← mark "."
    return .node "meta_property" [word, dot, ← keyword "meta"]
  else if ← seesNext "(" then return word.asLeaf "import"
  else failure

def constantWords : List String :=
  ["this", "super", "null", "true", "false", "undefined"]

def wordExpression (rules : Rules) (mode : Mode) (word : String) : Reading Phrase := do
  if word == "function" then functionFrom rules []
  else if word == "class" then classExpression rules
  else if word == "new" then rules .construction
  else if word == "import" then importExpression
  else if word == "async" then asyncExpression rules mode
  else if constantWords.contains word then nameAs word
  else
    let name ← identifier
    if ← seesNext "=>" then arrowFrom rules mode [name.as "parameter"] else return name

/-- A private name, which stands alone only before `in`. -/
def privateName : Reading Phrase := do
  match nameEnd? (← read) ((← get) + 1) with
  | some j =>
    let name ← leafTo "private_property_identifier" j
    if ← wordIs "in" then return name else failure
  | none => failure

def primary (rules : Rules) (mode : Mode) : Reading Phrase := do
  operandGap
  let b ← octet 0
  if b == 40 then group rules mode
  else if b == 91 then array rules
  else if b == 123 then object rules
  else if b == 96 then template rules
  else if b == 34 || b == 39 then string
  else if b == 47 then regex
  else if b == 60 then rules .element
  else if b == 35 then privateName
  else if b == 64 then classExpression rules
  else if isDigit b || b == 46 then number
  else
    match ← wordNext? with
    | some word => wordExpression rules mode word
    | none => failure

def memberName : Reading Phrase := do
  gap
  if (← octet 0) == 35 then
    match nameEnd? (← read) ((← get) + 1) with
    | some j => leafTo "private_property_identifier" j
    | none => failure
  else nameAs "property_identifier"

/-- The source continues with `?.` that is not the start of a condition and a fraction. -/
def seesOptional : Reading Bool := do
  let src ← read
  let i := skipGap src false (← get)
  return startsAt src "?." i && !isDigit (octetAt src (i + 2))

def subscriptFrom (rules : Rules) (before : List Phrase) : Reading Phrase := do
  let left ← mark "["
  let index ← expressions rules {}
  return .node "subscript_expression" (before ++ [left, index.as "index", ← mark "]"])

def callFrom (rules : Rules) (before : List Phrase) : Reading Phrase := do
  return .node "call_expression" (before ++ [(← arguments rules).as "arguments"])

/-- One more member, subscript, template or call; `calls` allows the last and optional ones. -/
def link? (rules : Rules) (calls : Bool) (e : Phrase) : Reading (Option Phrase) := do
  if ← seesNext "." then
    let dot ← mark "."
    return some (.node "member_expression" [e.as "object", dot, (← memberName).as "property"])
  else if ← seesNext "[" then return some (← subscriptFrom rules [e.as "object"])
  else if ← seesNext "\x60" then
    return some (.node "call_expression"
      [e.as "function", (← template rules).as "arguments"])
  else if !calls then return none
  else if ← seesNext "(" then return some (← callFrom rules [e.as "function"])
  else if ← seesOptional then
    let chain := ((← mark "?.").asLeaf "optional_chain").as "optional_chain"
    if ← seesNext "(" then return some (← callFrom rules [e.as "function", chain])
    else if ← seesNext "[" then return some (← subscriptFrom rules [e.as "object", chain])
    else
      return some (.node "member_expression"
        [e.as "object", chain, (← memberName).as "property"])
  else return none

def linksFrom (rules : Rules) (calls : Bool) : Nat → Phrase → Reading Phrase
  | 0, _ => failure
  | fuel + 1, e => do
    match ← link? rules calls e with
    | some longer => linksFrom rules calls fuel longer
    | none => return e

def construction (rules : Rules) : Reading Phrase := do
  let word ← keyword "new"
  if ← seesNext "." then
    let dot ← mark "."
    return .node "meta_property" [word, dot, ← keyword "target"]
  else
    let maker ← linksFrom rules false (← turns) (← primary rules {})
    let list ← if ← seesNext "(" then pure [(← arguments rules).as "arguments"] else pure []
    return .node "new_expression" (word :: maker.as "constructor" :: list)

def targetKinds : List String :=
  ["identifier", "undefined", "member_expression", "subscript_expression",
    "parenthesized_expression", "object", "array"]

def augmentedSigns : List String :=
  [">>>=", "**=", "<<=", ">>=", "&&=", "||=", "??=", "+=", "-=", "*=", "/=", "%=", "&=", "^=",
    "|="]

def firstSeen? (marks : List String) : Reading (Option String) := do
  let src ← read
  let i := skipGap src false (← get)
  return marks.find? (fun m => startsAt src m i)

def assignmentFrom (rules : Rules) (mode : Mode) (e : Phrase) : Reading Phrase := do
  if !targetKinds.contains e.kind then return e
  else if (← firstSeen? ["==", "=>", "="]) == some "=" then
    let sign ← mark "="
    let value ← rules (.expression mode)
    return .node "assignment_expression" [e.asTarget.as "left", sign, value.as "right"]
  else
    match ← firstSeen? augmentedSigns with
    | some text =>
      let sign ← mark text
      let value ← rules (.expression mode)
      return .node "augmented_assignment_expression"
        [e.as "left", sign.as "operator", value.as "right"]
    | none => return e

def countedFrom (mode : Mode) (e : Phrase) : Reading Phrase := do
  match ← firstSeen? ["++", "--"] with
  | some text =>
    if mode.ends && (← endsLine true) then return e
    else
      let sign ← mark text
      return .node "update_expression" [e.as "argument", sign.as "operator"]
  | none => return e

def isClosing (b : UInt8) : Bool :=
  b == 41 || b == 93 || b == 125 || b == 44 || b == 58 || b == 59 || b == 0

def yieldExpression (rules : Rules) (mode : Mode) : Reading Phrase := do
  let word ← keyword "yield"
  if mode.ends && (← endsLine true) then return .node "yield_expression" [word]
  else if ← seesNext "*" then
    let star ← mark "*"
    return .node "yield_expression" [word, star, ← rules (.expression mode)]
  else
    let src ← read
    if isClosing (octetAt src (skipGap src false (← get))) then
      return .node "yield_expression" [word]
    else return .node "yield_expression" [word, ← rules (.expression mode)]

/-- An operator that cannot start an operand, or no operator and no operand at all, comes next. -/
def lacksOperand : Reading Bool := do
  let src ← read
  let i := skipGap src false (← get)
  let b := octetAt src i
  return isClosing b || [37, 38, 42, 61, 62, 63, 94, 124].contains b.toNat
    || (b == 46 && !isDigit (octetAt src (i + 1)))
    || (← wordIs "in") || (← wordIs "instanceof") || (← wordIs "of")

/-- The word `await` comes next and is not a name, since something follows to be waited for. -/
def awaits (mode : Mode) : Reading Bool := do
  let i ← get
  match ← keyword? "await" with
  | [] => return false
  | _ =>
    let alone := (mode.ends && (← endsLine true)) || (← lacksOperand)
    set i
    return !alone

def awaitExpression (rules : Rules) (mode : Mode) : Reading Phrase := do
  let word ← keyword "await"
  return .node "await_expression" [word, ← rules (.operand mode)]

def signed (rules : Rules) (mode : Mode) (kind : String) (sign : Phrase) : Reading Phrase := do
  return .node kind [sign.as "operator", (← rules (.operand mode)).as "argument"]

def operand (rules : Rules) (mode : Mode) : Reading Phrase := do
  operandGap
  match ← firstSeen? ["++", "--", "!", "~", "+", "-"] with
  | some text =>
    let kind := if text == "++" || text == "--" then "update_expression" else "unary_expression"
    signed rules mode kind (← mark text)
  | none =>
    let word := (← wordNext?).getD ""
    if word == "typeof" || word == "void" || word == "delete" then
      signed rules mode "unary_expression" (← keyword word)
    else if word == "yield" then yieldExpression rules mode
    else if ← awaits mode then awaitExpression rules mode
    else
      let e ← linksFrom rules true (← turns) (← primary rules mode)
      let counted ← countedFrom mode e
      assignmentFrom rules mode counted

/-- Operators between two operands, each before those it starts with, and how tightly they bind. -/
def binarySigns : List (String × Nat) :=
  [(">>>", 9), ("===", 7), ("!==", 7), ("**", 12), ("<<", 9), (">>", 9), ("<=", 8), (">=", 8),
    ("==", 7), ("!=", 7), ("&&", 3), ("||", 2), ("??", 1), ("*", 11), ("/", 11), ("%", 11),
    ("+", 10), ("-", 10), ("<", 8), (">", 8), ("&", 6), ("^", 5), ("|", 4)]

/-- A sign of comparison is whole as it stands; any other is part of an assignment if an equals
sign follows. -/
def isComparison (level : Nat) : Bool :=
  level == 7 || level == 8

def binarySign? (mode : Mode) : Reading (Option (String × Nat)) := do
  let src ← read
  let i := skipGap src false (← get)
  match binarySigns.find? (fun s => startsAt src s.1 i) with
  | some (text, level) =>
    if startsAt src "++" i || startsAt src "--" i then return none
    else if !isComparison level && octetAt src (i + text.utf8ByteSize) == 61 then return none
    else return some (text, level)
  | none =>
    if ← wordIs "instanceof" then return some ("instanceof", 8)
    else if !mode.noIn && (← wordIs "in") then return some ("in", 8)
    else return none

structure Waiting where
  left : Phrase
  sign : Phrase
  level : Nat

def Waiting.close (w : Waiting) (right : Phrase) : Phrase :=
  .node "binary_expression" [w.left.as "left", w.sign.as "operator", right.as "right"]

/-- An operator of this level ends the operand of the one that waits; powers group to the right. -/
def Waiting.endedBy (w : Waiting) (level : Nat) : Bool :=
  level < w.level || (level == w.level && level != 12)

def settle (level : Nat) : List Waiting → Phrase → List Waiting × Phrase
  | [], e => ([], e)
  | w :: rest, e => if w.endedBy level then settle level rest (w.close e) else (w :: rest, e)

def binaryFrom (rules : Rules) (mode : Mode) : Nat → List Waiting → Phrase → Reading Phrase
  | 0, _, _ => failure
  | fuel + 1, waiting, e => do
    match ← binarySign? mode with
    | none => return (settle 0 waiting e).2
    | some (text, level) =>
      let (waiting, left) := settle level waiting e
      let sign ← mark text
      let next ← rules (.operand mode)
      binaryFrom rules mode fuel (⟨left, sign, level⟩ :: waiting) next

def expression (rules : Rules) (mode : Mode) : Reading Phrase := do
  let e ← binaryFrom rules mode (← turns) [] (← operand rules mode)
  if (← seesNext "?") && !(← seesOptional) then
    let sign ← mark "?"
    let yes ← rules (.expression {})
    let colon ← mark ":"
    let no ← rules (.expression mode)
    return .node "ternary_expression"
      [e.as "condition", sign, yes.as "consequence", colon, no.as "alternative"]
  else return e

end CallAtlas.JavaScript
