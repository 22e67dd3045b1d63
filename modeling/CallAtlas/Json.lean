/-!
JSON values whose objects keep their members in order, and their text. With an indentation every
element and member stands on a line of its own; without one all is on a single line.
-/

set_option autoImplicit false

namespace CallAtlas

inductive Json where
  | text (s : String)
  | number (n : Int)
  | list (items : List Json)
  | object (members : List (String × Json))

namespace Json

/-- Four digits of base sixteen. -/
def hexDigits (n : Nat) : List Char :=
  let digits := Nat.toDigits 16 n
  List.replicate (4 - digits.length) '0' ++ digits

/-- Only the quotation mark, the backslash and control characters are escaped. -/
def escapeChar (c : Char) : List Char :=
  if c == '"' then ['\\', '"']
  else if c == '\\' then ['\\', '\\']
  else if c == '\n' then ['\\', 'n']
  else if c == '\r' then ['\\', 'r']
  else if c == '\t' then ['\\', 't']
  else if c.toNat == 0x08 then ['\\', 'b']
  else if c.toNat == 0x0C then ['\\', 'f']
  else if c.toNat < 0x20 then '\\' :: 'u' :: hexDigits c.toNat
  else [c]

def quote (s : String) : String :=
  "\"" ++ String.ofList (s.toList.flatMap escapeChar) ++ "\""

/-- The break before an element at a depth. -/
def lineBreak (indent : Option Nat) (depth : Nat) : String :=
  match indent with
  | none => ""
  | some width => String.ofList ('\n' :: List.replicate (width * depth) ' ')

/-- What stands between two elements at a depth. -/
def separator (indent : Option Nat) (depth : Nat) : String :=
  match indent with
  | none => ", "
  | some _ => "," ++ lineBreak indent depth

/-- Elements between brackets; nothing at all stands between the brackets of an empty list. -/
def enclose (indent : Option Nat) (depth : Nat) (left right : String) : List String → String
  | [] => left ++ right
  | parts =>
    left ++ lineBreak indent (depth + 1) ++ (separator indent (depth + 1)).intercalate parts
      ++ lineBreak indent depth ++ right

mutual
def write (indent : Option Nat) (depth : Nat) : Json → String
  | .text s => quote s
  | .number n => toString n
  | .list items => enclose indent depth "[" "]" (writeItems indent (depth + 1) items)
  | .object members =>
    enclose indent depth "\x7b" "\x7d" (writeMembers indent (depth + 1) members)

def writeItems (indent : Option Nat) (depth : Nat) : List Json → List String
  | [] => []
  | v :: rest => v.write indent depth :: writeItems indent depth rest

def writeMembers (indent : Option Nat) (depth : Nat) : List (String × Json) → List String
  | [] => []
  | m :: rest => writeMember indent depth m :: writeMembers indent depth rest

def writeMember (indent : Option Nat) (depth : Nat) : String × Json → String
  | (name, value) => quote name ++ ": " ++ value.write indent depth
end

/-- The text of a value. -/
def render (indent : Option Nat) (v : Json) : String :=
  v.write indent 0

end Json

end CallAtlas
