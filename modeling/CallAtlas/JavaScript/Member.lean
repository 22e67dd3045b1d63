import CallAtlas.JavaScript.Literal

/-!
Members of objects and classes, and classes themselves.
-/

set_option autoImplicit false

namespace CallAtlas.JavaScript

def propertyName (rules : Rules) : Reading Phrase := do
  gap
  let b ← octet 0
  if b == 91 then
    let left ← mark "["
    let body ← rules (.expression {})
    return .node "computed_property_name" [left, body, ← mark "]"]
  else if b == 34 || b == 39 then string
  else if b == 35 then
    match nameEnd? (← read) ((← get) + 1) with
    | some j => leafTo "private_property_identifier" j
    | none => failure
  else if isDigit b || b == 46 then number
  else nameAs "property_identifier"

/-- Octets after which a word such as `get` turns out to be the name itself. -/
def isNameStop (inClass : Bool) (b : UInt8) : Bool :=
  b == 40 || b == 61 || b == 125 || b == 0
    || (if inClass then b == 59 else b == 44 || b == 58)

/-- A word that modifies the member after it; in a class the end of the line may make it a name. -/
def modifier? (inClass : Bool) (word : String) : Reading (List Phrase) := do
  if ← wordIs word then
    let i ← get
    let taken ← mark word
    let broken ← if inClass then endsLine false else pure false
    let src ← read
    if broken || isNameStop inClass (octetAt src (skipGap src false (← get))) then
      set i
      return []
    else return [taken]
  else return []

def accessor? (inClass : Bool) : Reading (List Phrase) := do
  if ← seesNext "*" then return [← mark "*"]
  else
    match ← modifier? inClass "get" with
    | [] => modifier? inClass "set"
    | taken => return taken

def methodFrom (rules : Rules) (before : List Phrase) (name : Phrase) : Reading Phrase := do
  let rest ← signatureAndBody rules false
  return .node "method_definition" (before ++ name.as "name" :: rest)

/-- A member of an object. A name with a value that only a pattern may have is read as well. -/
def objectMember (rules : Rules) : Reading (List Phrase) := do
  if ← seesNext "..." then return [← spread rules]
  else
    let fixed ← modifier? false "static"
    let async ← modifier? false "async"
    let access ← accessor? false
    let name ← propertyName rules
    let before := fixed ++ async ++ access
    if ← seesNext "(" then return [← methodFrom rules before name]
    else if !before.isEmpty then failure
    else if ← seesNext ":" then
      let colon ← mark ":"
      let value ← rules (.expression {})
      return [.node "pair" [name.as "key", colon, value.as "value"]]
    else if ← seesNext "=" then
      let equals ← mark "="
      let value ← rules (.expression {})
      return [.node "object_assignment_pattern"
        [(name.ofKind "shorthand_property_identifier_pattern").as "left", equals,
          value.as "right"]]
    else return [name.ofKind "shorthand_property_identifier"]

def object (rules : Rules) : Reading Phrase := do
  let left ← mark "\x7b"
  let members ← commaItems "\x7d" (objectMember rules)
  return .node "object" (left :: members ++ [← mark "\x7d"])

def target (rules : Rules) : Reading Phrase := do
  if ← seesNext "[" then return (← array rules).asTarget
  else if ← seesNext "\x7b" then return (← object rules).asTarget
  else identifier

def dottedName (head : Phrase) : Nat → Reading Phrase
  | 0 => return head
  | fuel + 1 => do
    if ← seesNext "." then
      let dot ← mark "."
      let name ← nameAs "property_identifier"
      dottedName (.node "member_expression" [head.as "object", dot, name.as "property"]) fuel
    else return head

def decorator (rules : Rules) : Reading Phrase := do
  let sign ← mark "@"
  if ← seesNext "(" then return .node "decorator" [sign, ← parenthesized rules]
  else
    let name ← dottedName (← identifier) (← turns)
    if ← seesNext "(" then
      let call :=
        .node "call_expression" [name.as "function", (← arguments rules).as "arguments"]
      return .node "decorator" [sign, call]
    else return .node "decorator" [sign, name]

def decorators (rules : Rules) : Reading (List Phrase) :=
  many do
    if ← seesNext "@" then return some [(← decorator rules).as "decorator"] else return none

/-- Behind `static get` and the line end after it, which make one word together. -/
def staticGetEnd? (src : Source) (i : Nat) : Option Nat :=
  if startsAt src "static" i then
    let j := skipBlanks src (i + 6)
    if i + 6 < j && startsAt src "get" j then
      let rec lastLine (fuel k : Nat) (found : Option Nat) : Option Nat :=
        match fuel with
        | 0 => found
        | fuel + 1 =>
          if octetAt src k == 10 then lastLine fuel (k + 1) (some (k + 1))
          else if 0 < blankWidth src k then lastLine fuel (k + blankWidth src k) found
          else found
      lastLine (src.size - j) (j + 3) none
    else none
  else none

def static? : Reading (List Phrase) := do
  gap
  match staticGetEnd? (← read) (← get) with
  | some j =>
    let i ← get
    set j
    return [.mark "static get" i j]
  | none => modifier? true "static"

def staticBlock? (rules : Rules) : Reading (Option Phrase) := do
  if ← wordIs "static" then
    let i ← get
    let word ← mark "static"
    if ← seesNext "\x7b" then
      let body ← block rules false
      return some (.node "class_static_block" [word, body.as "body"])
    else
      set i
      return none
  else return none

/-- A member of a class. The semicolon after a field is no part of it. -/
def classMember (rules : Rules) : Reading (List Phrase) := do
  match ← staticBlock? rules with
  | some p => return [p.as "member"]
  | none =>
    let marks ← decorators rules
    let fixed ← static?
    let async ← modifier? true "async"
    let access ← accessor? true
    let name ← propertyName rules
    let before := marks ++ fixed ++ async ++ access
    if ← seesNext "(" then return [(← methodFrom rules before name).as "member"]
    else if ← seesNext "=" then
      let equals ← mark "="
      let value ← rules (.expression { ends := true })
      let field :=
        Phrase.node "field_definition"
          (before ++ [name.as "property", equals, value.as "value"])
      return field.as "member" :: (← semicolon true)
    else
      let field := Phrase.node "field_definition" (before ++ [name.as "property"])
      return field.as "member" :: (← semicolon false)

def classBody (rules : Rules) : Reading Phrase := do
  let left ← mark "\x7b"
  let members ← many do
    if ← seesNext "\x7d" then return none
    else if ← seesNext ";" then return some [← mark ";"]
    else return some (← classMember rules)
  return .node "class_body" (left :: members ++ [← mark "\x7d"])

def heritage? (rules : Rules) : Reading (List Phrase) := do
  if ← wordIs "extends" then
    let word ← mark "extends"
    return [.node "class_heritage" [word, ← rules (.expression {})]]
  else return []

def classParts (rules : Rules) : Reading (List Phrase × Bool) := do
  let word ← keyword "class"
  let name ←
    if (← seesNext "\x7b") || (← wordIs "extends") then pure []
    else pure [(← identifier).as "name"]
  let base ← heritage? rules
  let body ← classBody rules
  return (word :: name ++ base ++ [body.as "body"], !name.isEmpty)

end CallAtlas.JavaScript
