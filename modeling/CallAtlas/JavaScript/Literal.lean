import CallAtlas.JavaScript.Reading

/-!
Literals and the phrases between brackets: strings, templates, regular expressions, numbers,
argument lists, blocks and parameters.
-/

set_option autoImplicit false

namespace CallAtlas.JavaScript

def leafTo (kind : String) (stop : Nat) : Reading Phrase := do
  let i ← get
  set stop
  return .leaf kind i stop

def number : Reading Phrase := do
  match numberEnd? (← read) (← get) with
  | some j => leafTo "number" j
  | none => failure

def isFragmentOctet (quote b : UInt8) : Bool :=
  b != quote && b != 92 && b != 10 && b != 13

def stringPiece (quote : UInt8) : Reading (Option (List Phrase)) := do
  let src ← read
  let i ← get
  let b := octetAt src i
  if b == quote then return none
  else if src.size ≤ i then failure
  else if b == 92 then return some [← leafTo "escape_sequence" (escapeEnd src i)]
  else
    let j := skipOctets src (isFragmentOctet quote) i
    if i < j then return some [← leafTo "string_fragment" j] else failure

def string : Reading Phrase := do
  let text := if (← octet 0) == 34 then "\"" else "'"
  let quote ← octet 0
  let left ← markHere text
  let pieces ← many (stringPiece quote)
  let right ← markHere text
  return .node "string" (left :: pieces ++ [right])

def templateTextEnd (src : Source) (i : Nat) : Nat :=
  if i < src.size then
    let b := octetAt src i
    if b == 96 || b == 92 || (b == 36 && octetAt src (i + 1) == 123) then i
    else templateTextEnd src (i + 1)
  else i
termination_by src.size - i

def expressions (rules : Rules) (mode : Mode) : Reading Phrase := do
  let first ← rules (.expression mode)
  let rest ← many do
    if ← seesNext "," then
      let comma ← mark ","
      return some [comma, ← rules (.expression mode)]
    else return none
  if rest.isEmpty then return first
  else return .node "sequence_expression" (first :: rest)

def templatePiece (rules : Rules) : Reading (Option (List Phrase)) := do
  let src ← read
  let i ← get
  let b := octetAt src i
  if b == 96 then return none
  else if src.size ≤ i then failure
  else if b == 92 then return some [← leafTo "escape_sequence" (escapeEnd src i)]
  else if ← sees "$\x7b" then
    let left ← markHere "$\x7b"
    let body ← expressions rules {}
    let right ← mark "\x7d"
    return some [.node "template_substitution" [left, body, right]]
  else return some [← leafTo "string_fragment" (templateTextEnd src i)]

def template (rules : Rules) : Reading Phrase := do
  let left ← mark "\x60"
  let pieces ← many (templatePiece rules)
  let right ← markHere "\x60"
  return .node "template_string" (left :: pieces ++ [right])

def regex : Reading Phrase := do
  let left ← markHere "/"
  let src ← read
  match patternEnd? src false (← get) with
  | none => failure
  | some j =>
    let pattern ← leafTo "regex_pattern" j
    let right ← markHere "/"
    let k := skipOctets src (fun b => 97 ≤ b && b ≤ 122) (← get)
    if (← get) < k then
      let flags ← leafTo "regex_flags" k
      return .node "regex" [left, pattern.as "pattern", right, flags.as "flags"]
    else return .node "regex" [left, pattern.as "pattern", right]

def spread (rules : Rules) : Reading Phrase := do
  let dots ← mark "..."
  return .node "spread_element" [dots, ← rules (.expression {})]

def item (rules : Rules) : Reading (List Phrase) := do
  if ← seesNext "..." then return [← spread rules]
  else return [← rules (.expression {})]

def arguments (rules : Rules) : Reading Phrase := do
  let left ← mark "("
  let items ← commaItems ")" (item rules)
  return .node "arguments" (left :: items ++ [← mark ")"])

def toParameters (p : Phrase) : Phrase :=
  .node "formal_parameters" (p.parts.map Phrase.asTarget)

def parameters (rules : Rules) : Reading Phrase := do
  return toParameters (← arguments rules)

def array (rules : Rules) : Reading Phrase := do
  let left ← mark "["
  let items ← commaItems "]" (item rules)
  return .node "array" (left :: items ++ [← mark "]"])

def seesStatement (text : String) : Reading Bool := do
  return startsAt (← read) text (skipGap (← read) true (← get))

/-- A block; `operand` says that an operator could follow it. -/
def block (rules : Rules) (operand : Bool) : Reading Phrase := do
  let left ← mark "\x7b"
  let body ← many do
    if ← seesStatement "\x7d" then return none
    else return some [← rules .statement]
  operandGap
  let right ← markHere "\x7d"
  optionalEnd operand
  upToHere "statement_block" (left :: body ++ [right])

/-- The block holds nothing but a statement with a label, so that it reads like an object with one
member. -/
def holdsLabel (p : Phrase) : Bool :=
  match p.parts with
  | [_, body, _] => body.kind == "labeled_statement"
  | _ => false

/-- A name, parameters without brackets in them, and a brace on the same line follow: a method
and not a call. -/
def seesPlainMethod (src : Source) (i : Nat) : Bool :=
  let isPlain (b : UInt8) : Bool := !([34, 39, 40, 41, 96, 123, 125].contains b.toNat)
  let j := skipOctets src isPlain i
  octetAt src j == 41
    && octetAt src (skipOctets src (fun b => b == 32 || b == 9) (j + 1)) == 123

/-- What follows the brace here may be the members of an object. A call would be read twice over
in vain, so a method counts only if that is plain. -/
def seesMembers : Reading Bool := do
  let src ← read
  let i := skipGap src false (← get)
  let j := skipGap src false (i + 1)
  match nameEnd? src j with
  | none => return true
  | some k =>
    let m := skipGap src false k
    return octetAt src m != 40 || seesPlainMethod src (m + 1)

/-- A block, or what `other` makes of the same brace: that comes first where the block would hold
only a label, and is tried where there is no block. -/
def blockOr (rules : Rules) (operand : Bool) (other : Reading Phrase) : Reading Phrase := do
  let i ← get
  match ← attempt (block rules operand) with
  | none => if ← seesMembers then other else failure
  | some p =>
    if holdsLabel p then
      let j ← get
      set i
      match ← attempt other with
      | some q => return q
      | none =>
        set j
        return p
    else return p

def parenthesized (rules : Rules) : Reading Phrase := do
  let left ← mark "("
  let body ← expressions rules {}
  return .node "parenthesized_expression" [left, body, ← mark ")"]

def signatureAndBody (rules : Rules) (operand : Bool) : Reading (List Phrase) := do
  let params ← parameters rules
  let body ← block rules operand
  return [params.as "parameters", body.as "body"]

end CallAtlas.JavaScript
