import CallAtlas.Text.Blank
import CallAtlas.Text.Digit
import CallAtlas.Text.Quoted

/-!
Whole numbers as text. `readInteger` takes blanks around the number, a sign, digits of any
script, and single underscores between digits; `grouped` writes thousands apart.
-/

set_option autoImplicit false

namespace CallAtlas.Text

/-- A number with more digits than this is refused. -/
def digitLimit : Nat := 4300

inductive IntegerError where
  | notInteger (text : String)
  | tooLong (digits : Nat)
  deriving DecidableEq, Repr

/-- A text that is no number is shown quoted, and cut after two hundred characters. -/
def IntegerError.message : IntegerError → String
  | .notInteger text =>
    "invalid literal for int() with base 10: " ++ String.ofList ((quoted text).toList.take 200)
  | .tooLong digits =>
    "Exceeds the limit (4300 digits) for integer string conversion: value has "
      ++ toString digits ++ " digits; use sys.set_int_max_str_digits() to increase the limit"

/-- Blanks that may surround a number: the separators among the plain characters may not. -/
def isNumberBlank (c : Char) : Bool :=
  isPlainBlank c || (0x80 ≤ c.toNat && isBlank c)

/-- The digits at the front, newest first in `seen`, and what follows them. An underscore must
stand between two digits; `open'` says that a digit has to come next. -/
def scanDigits (seen : List Nat) (open' : Bool) : List Char → Option (List Nat × List Char)
  | [] => if open' then none else some (seen.reverse, [])
  | c :: rest =>
    if c = '_' then
      if open' then none else scanDigits seen true rest
    else
      match digitValue? c with
      | some d => scanDigits (d :: seen) false rest
      | none => if open' then none else some (seen.reverse, c :: rest)

def ofDigits (ds : List Nat) : Nat :=
  ds.foldl (fun n d => n * 10 + d) 0

/-- Splits off a sign; true means negative. -/
def takeSign : List Char → Bool × List Char
  | '-' :: rest => (true, rest)
  | '+' :: rest => (false, rest)
  | cs => (false, cs)

/-- The length is looked at before what follows the digits. -/
def readInteger (text : String) : Except IntegerError Int :=
  let (negative, body) := takeSign (text.toList.dropWhile isNumberBlank)
  match scanDigits [] true body with
  | none => .error (.notInteger text)
  | some (ds, rest) =>
    if digitLimit < ds.length then .error (.tooLong ds.length)
    else if rest.all isNumberBlank then
      .ok (if negative then -(Int.ofNat (ofDigits ds)) else Int.ofNat (ofDigits ds))
    else .error (.notInteger text)

/-- A comma before every third digit from the end. -/
def groupDigits (ds : List Char) : List Char :=
  (ds.reverse.zipIdx.flatMap (fun (c, i) => if i ≠ 0 ∧ i % 3 = 0 then [',', c] else [c])).reverse

def grouped (n : Int) : String :=
  let digits := String.ofList (groupDigits (Nat.toDigits 10 n.natAbs))
  if n < 0 then "-" ++ digits else digits

end CallAtlas.Text
