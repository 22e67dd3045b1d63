import CallAtlas.JavaScript.Literal

/-!
Elements in the manner of markup, as expressions.
-/

set_option autoImplicit false

namespace CallAtlas.JavaScript

def isTagOctet (b : UInt8) : Bool :=
  isNameOctet b || b == 45

def tagName (kind : String) : Reading Phrase := do
  gap
  let src ← read
  let i ← get
  match nameEnd? src i with
  | none => failure
  | some j =>
    if octetAt src j == 45 then leafTo kind (skipOctets src isTagOctet j) else leafTo kind j

/-- The dotted name of an element, taken as far as it goes. -/
def dottedTag (head : Phrase) : Nat → Reading Phrase
  | 0 => return head
  | fuel + 1 => do
    if ← seesNext "." then
      let dot ← mark "."
      let name ← tagName "property_identifier"
      dottedTag (.node "member_expression" [head.as "object", dot, name.as "property"]) fuel
    else return head

def elementName : Reading Phrase := do
  let first ← tagName "identifier"
  if ← seesNext ":" then
    let colon ← mark ":"
    return .node "jsx_namespace_name" [first, colon, ← tagName "identifier"]
  else dottedTag first (← turns)

def embedded (rules : Rules) : Reading Phrase := do
  let left ← mark "\x7b"
  let body ←
    if ← seesNext "\x7d" then pure []
    else if ← seesNext "..." then pure [← spread rules]
    else pure [← expressions rules {}]
  return .node "jsx_expression" (left :: body ++ [← mark "\x7d"])

def referenceEnd? (src : Source) (i : Nat) : Option Nat :=
  if octetAt src i == 38 then
    let j := skipOctets src (fun b => isLetter b || isDigit b || b == 35) (i + 1)
    if octetAt src j == 59 then some (j + 1) else none
  else none

/-- One piece of a quoted attribute; there are no escapes in it. -/
def quotedPiece (quote : UInt8) : Reading (Option (List Phrase)) := do
  let src ← read
  let i ← get
  if octetAt src i == quote then return none
  else if src.size ≤ i then failure
  else
    match referenceEnd? src i with
    | some j => return some [← leafTo "html_character_reference" j]
    | none =>
      return some [← leafTo "string_fragment"
        (skipOctets src (fun b => b != quote && b != 38) (i + 1))]

def quotedAttribute : Reading Phrase := do
  let text := if (← octet 0) == 34 then "\"" else "'"
  let quote ← octet 0
  let left ← markHere text
  let pieces ← many (quotedPiece quote)
  return .node "string" (left :: pieces ++ [← markHere text])

def attributeName : Reading Phrase := do
  let first ← tagName "property_identifier"
  if ← seesNext ":" then
    let colon ← mark ":"
    return .node "jsx_namespace_name"
      [first.ofKind "identifier", colon, ← tagName "identifier"]
  else return first

def tagAttribute (rules : Rules) : Reading Phrase := do
  if ← seesNext "\x7b" then embedded rules
  else
    let name ← attributeName
    if ← seesNext "=" then
      let equals ← mark "="
      gap
      let b ← octet 0
      let value ←
        if b == 34 || b == 39 then quotedAttribute
        else if b == 123 then embedded rules
        else rules .element
      return .node "jsx_attribute" [name, equals, value]
    else return .node "jsx_attribute" [name]

/-- The text from `i` on up to a brace, an angle bracket or an ampersand: where it ends, and
whether it is more than line ends with blanks after them. -/
def textRun (src : Source) (fresh seen : Bool) (i : Nat) : Nat × Bool :=
  if i < src.size then
    let b := octetAt src i
    if b == 60 || b == 62 || b == 123 || b == 125 || b == 38 then (i, seen)
    else if b == 10 then textRun src true seen (i + 1)
    else
      let fresh := fresh && isPassageBlank src i
      textRun src fresh (seen || !fresh) (i + 1)
  else (i, seen)
termination_by src.size - i

def childPiece (rules : Rules) : Reading (Option (List Phrase)) := do
  let src ← read
  let i ← get
  let (j, seen) := textRun src false false i
  if seen then return some [← leafTo "jsx_text" j]
  else
    set j
    if ← sees "</" then return none
    else if ← sees "<" then return some [← rules .element]
    else if ← sees "\x7b" then return some [← embedded rules]
    else
      match referenceEnd? src j with
      | some k => return some [← leafTo "html_character_reference" k]
      | none => failure

def attributes (rules : Rules) : Reading (List Phrase) :=
  many do
    if (← seesNext ">") || (← seesNext "/>") then return none
    else return some [(← tagAttribute rules).as "attribute"]

def elementFrom (rules : Rules) (opening : Phrase) : Reading Phrase := do
  let children ← many (childPiece rules)
  let left ← markHere "</"
  let name ← if ← seesNext ">" then pure [] else pure [(← elementName).as "name"]
  let closing := Phrase.node "jsx_closing_element" (left :: name ++ [← mark ">"])
  return .node "jsx_element" (opening.as "open_tag" :: children ++ [closing.as "close_tag"])

def element (rules : Rules) : Reading Phrase := do
  let left ← mark "<"
  if ← seesNext ">" then
    let right ← mark ">"
    elementFrom rules (.node "jsx_opening_element" [left, right])
  else
    let name ← elementName
    let marks ← attributes rules
    if ← seesNext "/>" then
      return .node "jsx_self_closing_element"
        (left :: name.as "name" :: marks ++ [← mark "/>"])
    else
      let right ← mark ">"
      elementFrom rules
        (.node "jsx_opening_element" (left :: name.as "name" :: marks ++ [right]))

end CallAtlas.JavaScript
