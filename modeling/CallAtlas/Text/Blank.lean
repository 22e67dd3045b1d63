/-!
Blank characters, and texts without them at their ends.
-/

set_option autoImplicit false

namespace CallAtlas.Text

/-- Spaces, line ends and the four information separators. -/
def isBlank (c : Char) : Bool :=
  let n := c.toNat
  (0x09 ≤ n && n ≤ 0x0D) || (0x1C ≤ n && n ≤ 0x20) || n == 0x85 || n == 0xA0 || n == 0x1680
    || (0x2000 ≤ n && n ≤ 0x200A) || n == 0x2028 || n == 0x2029 || n == 0x202F || n == 0x205F
    || n == 0x3000

/-- The blanks below 128 that are not separators. -/
def isPlainBlank (c : Char) : Bool :=
  let n := c.toNat
  (0x09 ≤ n && n ≤ 0x0D) || n == 0x20

/-- Drops what satisfies `p` from the end. -/
def dropTail (p : Char → Bool) (cs : List Char) : List Char :=
  (cs.reverse.dropWhile p).reverse

/-- Drops what satisfies `p` from both ends. -/
def trimWith (p : Char → Bool) (cs : List Char) : List Char :=
  dropTail p (cs.dropWhile p)

def trim (s : String) : String :=
  String.ofList (trimWith isBlank s.toList)

end CallAtlas.Text
