import CallAtlas.Tree

/-!
The characters and lexemes of JavaScript, found by their offsets in the source. Each scan takes
the offset at which a lexeme starts and gives the offset behind it.
-/

set_option autoImplicit false

namespace CallAtlas.JavaScript

/-- The octet at an offset; past the end it is zero. -/
def octetAt (src : Source) (i : Nat) : UInt8 :=
  if h : i < src.size then src.get i h else 0

def skipOctets (src : Source) (p : UInt8 → Bool) (i : Nat) : Nat :=
  if i < src.size then
    if p (octetAt src i) then skipOctets src p (i + 1) else i
  else i
termination_by src.size - i

def matchFrom (src : Source) (word : ByteArray) (i k : Nat) : Bool :=
  if k < word.size then
    octetAt src (i + k) == octetAt word k && matchFrom src word i (k + 1)
  else true
termination_by word.size - k

def startsAt (src : Source) (word : String) (i : Nat) : Bool :=
  i + word.utf8ByteSize ≤ src.size && matchFrom src word.toUTF8 i 0

/-- How many octets the blank at `i` has; zero if there is none. The byte order mark, the word
joiner and the zero-width space count as blanks. -/
def blankWidth (src : Source) (i : Nat) : Nat :=
  let a := octetAt src i
  if a == 32 || (9 ≤ a && a ≤ 13) then 1
  else if a < 0xC2 then 0
  else
    let b := octetAt src (i + 1)
    let c := octetAt src (i + 2)
    if a == 0xC2 then if b == 0xA0 || b == 0x85 then 2 else 0
    else if a == 0xE1 then if b == 0x9A && c == 0x80 then 3 else 0
    else if a == 0xE2 then
      if b == 0x80 then
        if (0x80 ≤ c && c ≤ 0x8B) || c == 0xA8 || c == 0xA9 || c == 0xAF then 3 else 0
      else if b == 0x81 then if c == 0x9F || c == 0xA0 then 3 else 0
      else 0
    else if a == 0xE3 then if b == 0x80 && c == 0x80 then 3 else 0
    else if a == 0xEF then if b == 0xBB && c == 0xBF then 3 else 0
    else 0

def lineEndWidth (src : Source) (i : Nat) : Nat :=
  let a := octetAt src i
  if a == 10 then 1
  else if a == 0xE2 && octetAt src (i + 1) == 0x80
      && (octetAt src (i + 2) == 0xA8 || octetAt src (i + 2) == 0xA9) then 3
  else 0

def charWidth (src : Source) (i : Nat) : Nat :=
  let a := octetAt src i
  if a < 0xC0 then 1 else if a < 0xE0 then 2 else if a < 0xF0 then 3 else 4

def skipBlanks (src : Source) (i : Nat) : Nat :=
  if i < src.size ∧ 0 < blankWidth src i then skipBlanks src (i + blankWidth src i) else i
termination_by src.size - i

/-- The end of the line that `i` lies on; with `returns`, a carriage return ends it too. -/
def lineEnd (src : Source) (returns : Bool) (i : Nat) : Nat :=
  if i < src.size then
    if 0 < lineEndWidth src i || (returns && octetAt src i == 13) then i
    else lineEnd src returns (i + 1)
  else i
termination_by src.size - i

def blockEnd? (src : Source) (i : Nat) : Option Nat :=
  if i < src.size then
    if octetAt src i == 42 && octetAt src (i + 1) == 47 then some (i + 2)
    else blockEnd? src (i + 1)
  else none
termination_by src.size - i

def commentEnd? (src : Source) (i : Nat) : Option Nat :=
  if octetAt src i == 47 then
    if octetAt src (i + 1) == 47 then some (lineEnd src true (i + 2))
    else if octetAt src (i + 1) == 42 then blockEnd? src (i + 2)
    else none
  else none

def markupCommentEnd? (src : Source) (i : Nat) : Option Nat :=
  if startsAt src "<!--" i || startsAt src "-->" i then some (lineEnd src false i) else none

/-- Behind blanks and comments. Comments in the manner of markup count only where an operand or a
statement may start, which `markup` says; elsewhere they are operators. -/
def skipGap (src : Source) (markup : Bool) (i : Nat) : Nat :=
  let j := skipBlanks src i
  match commentEnd? src j with
  | some k => if i < k ∧ i < src.size then skipGap src markup k else j
  | none =>
    match if markup then markupCommentEnd? src j else none with
    | some k => if i < k ∧ i < src.size then skipGap src markup k else j
    | none => j
termination_by src.size - i

def isDigit (b : UInt8) : Bool :=
  48 ≤ b && b ≤ 57

def isHexDigit (b : UInt8) : Bool :=
  isDigit b || (97 ≤ b && b ≤ 102) || (65 ≤ b && b ≤ 70)

def isLetter (b : UInt8) : Bool :=
  (97 ≤ b && b ≤ 122) || (65 ≤ b && b ≤ 90)

/-- Plain characters that may stand in a name: letters, digits, the dollar sign, the underscore
and the delete character. -/
def isNameOctet (b : UInt8) : Bool :=
  isLetter b || isDigit b || b == 36 || b == 95 || b == 127

def unicodeEscapeEnd? (src : Source) (i : Nat) : Option Nat :=
  if octetAt src i == 92 && octetAt src (i + 1) == 117 then
    if octetAt src (i + 2) == 123 then
      let j := skipOctets src isHexDigit (i + 3)
      if i + 3 < j && octetAt src j == 125 then some (j + 1) else none
    else if (List.range 4).all (fun k => isHexDigit (octetAt src (i + 2 + k))) then some (i + 6)
    else none
  else none

def nameCharWidth (src : Source) (i : Nat) : Nat :=
  let b := octetAt src i
  if b < 128 then
    if isNameOctet b then 1
    else
      match unicodeEscapeEnd? src i with
      | some j => j - i
      | none => 0
  else if 0 < blankWidth src i then 0
  else charWidth src i

def nameEnd (src : Source) (i : Nat) : Nat :=
  if i < src.size ∧ 0 < nameCharWidth src i then nameEnd src (i + nameCharWidth src i)
  else i
termination_by src.size - i

def nameEnd? (src : Source) (i : Nat) : Option Nat :=
  if isDigit (octetAt src i) then none
  else
    let j := min (nameEnd src i) src.size
    if i < j then some j else none

def digitsEnd (src : Source) (p : UInt8 → Bool) (i : Nat) : Nat :=
  let j := skipOctets src p i
  if i < j ∧ octetAt src j == 95 ∧ p (octetAt src (j + 1)) ∧ j < src.size
  then digitsEnd src p (j + 1) else j
termination_by src.size - i
decreasing_by
  rename_i h
  omega

def exponentEnd (src : Source) (i : Nat) : Nat :=
  let e := octetAt src i
  if e == 101 || e == 69 then
    let sign := octetAt src (i + 1)
    let j := if sign == 43 || sign == 45 then i + 2 else i + 1
    if isDigit (octetAt src j) then digitsEnd src isDigit j else i
  else i

def bigEnd (src : Source) (i : Nat) : Nat :=
  if octetAt src i == 110 then i + 1 else i

def wholeEnd? (src : Source) (p : UInt8 → Bool) (i : Nat) : Option Nat :=
  let j := digitsEnd src p i
  if i < j then some (bigEnd src j) else none

def numberEnd? (src : Source) (i : Nat) : Option Nat :=
  let a := octetAt src i
  let b := octetAt src (i + 1)
  if a == 48 && (b == 120 || b == 88) then wholeEnd? src isHexDigit (i + 2)
  else if a == 48 && (b == 98 || b == 66 || b == 111 || b == 79) then
    wholeEnd? src isDigit (i + 2)
  else if isDigit a then
    let j := digitsEnd src isDigit i
    if octetAt src j == 110 then some (j + 1)
    else if octetAt src j == 46 then some (exponentEnd src (digitsEnd src isDigit (j + 1)))
    else some (exponentEnd src j)
  else if a == 46 && isDigit b then some (exponentEnd src (digitsEnd src isDigit (i + 1)))
  else none

def escapeEnd (src : Source) (i : Nat) : Nat :=
  let b := octetAt src (i + 1)
  if b == 117 then (unicodeEscapeEnd? src i).getD (i + 2)
  else if b == 120 then i + 4
  else if 48 ≤ b && b ≤ 55 then
    let digit (k : Nat) : Bool := 48 ≤ octetAt src k && octetAt src k ≤ 55
    if digit (i + 2) then if digit (i + 3) then i + 4 else i + 3 else i + 2
  else if b == 13 && octetAt src (i + 2) == 10 then i + 3
  else i + 1 + charWidth src (i + 1)

/-- Behind the pattern of a regular expression that starts at `i`; in a class of characters the
slash does not end it. -/
def patternEnd? (src : Source) (inClass : Bool) (i : Nat) : Option Nat :=
  if i < src.size then
    let b := octetAt src i
    if b == 10 then none
    else if b == 92 then patternEnd? src inClass (i + 2)
    else if b == 91 then patternEnd? src true (i + 1)
    else if b == 93 then patternEnd? src false (i + 1)
    else if b == 47 && !inClass then some i
    else patternEnd? src inClass (i + 1)
  else none
termination_by src.size - i

inductive Passage where
  | barred
  | sameLine
  | newLine
  deriving DecidableEq, Repr

def isPassageBlank (src : Source) (i : Nat) : Bool :=
  let w := blankWidth src i
  w == 1 || (w == 3 && octetAt src i != 0xEF && octetAt src (i + 1) != 0x81
    && octetAt src (i + 2) != 0x8B && octetAt src (i + 2) != 0xAF)

def blockLines (src : Source) (seen : Bool) (i : Nat) : Bool × Nat :=
  if i < src.size then
    if octetAt src i == 42 && octetAt src (i + 1) == 47 then (seen, i + 2)
    else blockLines src (seen || 0 < lineEndWidth src i) (i + 1)
  else (seen, i)
termination_by src.size - i

/-- Passes blanks and comments. Unless `through`, a block comment that no other comment touches
ends the passage, and it matters whether a line ended within it. -/
def pass (src : Source) (through : Bool) : Nat → Bool → Nat → Passage × Nat
  | 0, _, i => (.newLine, i)
  | fuel + 1, seen, i =>
    if isPassageBlank src i then pass src through fuel seen (i + blankWidth src i)
    else if octetAt src i == 47 then
      if octetAt src (i + 1) == 47 then pass src through fuel seen (lineEnd src false (i + 2))
      else if octetAt src (i + 1) == 42 then
        let (seen, j) := blockLines src seen (i + 2)
        if !through && octetAt src j != 47 then (if seen then .newLine else .sameLine, j)
        else pass src through fuel seen j
      else (.barred, i + 1)
    else (.newLine, i)

/-- The text after a line end lets the statement before it end. It does not if it can only go on
with an expression: an operator, a bracket, `in` or `instanceof`. -/
def startsAfresh (src : Source) (i : Nat) : Bool :=
  let a := octetAt src i
  let b := octetAt src (i + 1)
  if a == 0 then true
  else if [96, 44, 58, 59, 42, 37, 62, 60, 61, 91, 40, 63, 94, 124, 38, 47].contains a.toNat then
    false
  else if a == 46 then isDigit b
  else if a == 43 then b == 43
  else if a == 45 then b == 45
  else if a == 33 then b != 61
  else if a == 105 then
    if b != 110 then true
    else if !isLetter (octetAt src (i + 2)) then false
    else if startsAt src "stanceof" (i + 2) then isLetter (octetAt src (i + 10))
    else true
  else true

def endsHere (src : Source) (again : Nat → Bool) (i : Nat) : Bool :=
  if octetAt src i == 125 then true
  else if 0 < lineEndWidth src i then
    match pass src true (src.size - i + 1) false (i + lineEndWidth src i) with
    | (.barred, _) => false
    | (_, j) => startsAfresh src j
  else if isPassageBlank src i then again (i + blankWidth src i)
  else false

/-- A semicolon may be left out at `i`. With `operand` an operator could follow here, and a
comment alone is then no reason to end the statement. -/
def endsAt (src : Source) (operand : Bool) : Nat → Nat → Bool
  | 0, _ => true
  | fuel + 1, i =>
    if octetAt src i == 0 then true
    else if octetAt src i == 47 then
      match pass src false (src.size - i + 1) false i with
      | (.barred, _) => false
      | (.newLine, j) =>
        if !operand && octetAt src j != 44 && octetAt src j != 61 then true
        else endsHere src (endsAt src operand fuel) j
      | (.sameLine, j) => endsHere src (endsAt src operand fuel) j
    else endsHere src (endsAt src operand fuel) i

def missingSemicolon? (src : Source) (operand : Bool) : Nat → Nat → Option Nat
  | 0, _ => none
  | fuel + 1, i =>
    if endsAt src operand (src.size - i + 1) i then some i
    else
      match commentEnd? src (skipBlanks src i) with
      | some j => missingSemicolon? src operand fuel j
      | none => none

end CallAtlas.JavaScript
