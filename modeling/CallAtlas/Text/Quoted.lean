import CallAtlas.Text.Printable

/-!
Texts between quotation marks, for messages. Single marks are used, unless the text holds a
single mark and no double one.
-/

set_option autoImplicit false

namespace CallAtlas.Text

/-- `n` in base sixteen, filled with zeros up to `width` digits. -/
def hexPadded (width n : Nat) : String :=
  let digits := Nat.toDigits 16 n
  String.ofList (List.replicate (width - digits.length) '0' ++ digits)

/-- One character as it stands between the marks `mark`. -/
def quotedChar (mark c : Char) : String :=
  if c == mark || c == '\\' then String.ofList ['\\', c]
  else if c == '\n' then "\\n"
  else if c == '\r' then "\\r"
  else if c == '\t' then "\\t"
  else if isPrintable c then String.ofList [c]
  else if c.toNat < 0x100 then "\\x" ++ hexPadded 2 c.toNat
  else if c.toNat < 0x10000 then "\\u" ++ hexPadded 4 c.toNat
  else "\\U" ++ hexPadded 8 c.toNat

def quoteMark (s : String) : Char :=
  if s.toList.contains '\'' && !s.toList.contains '"' then '"' else '\''

def quoted (s : String) : String :=
  let mark := quoteMark s
  String.ofList [mark] ++ String.join (s.toList.map (quotedChar mark)) ++ String.ofList [mark]

end CallAtlas.Text
