import CallAtlas.Analysis
import CallAtlas.JavaScript.Markup
import CallAtlas.JavaScript.Statement

/-!
Whole programs. `parse` gives a tree for every source: one that the grammar does not accept
becomes a single node of the kind `ERROR`.
-/

set_option autoImplicit false

namespace CallAtlas.JavaScript

/-- The grammar, nested at most so many levels deep. -/
def rules : Nat → Rules
  | 0, _ => failure
  | depth + 1, goal =>
    match goal with
    | .expression mode => expression (rules depth) mode
    | .operand mode => operand (rules depth) mode
    | .construction => construction (rules depth)
    | .statement => statement (rules depth)
    | .element => element (rules depth)

def hashBang? : Reading (List Phrase) := do
  if ← seesNext "#!" then
    gap
    return [← leafTo "hash_bang_line" (lineEnd (← read) false (← get))]
  else return []

def statements (rules : Rules) : Reading (List Phrase) :=
  many do
    operandGap
    if (← read).size ≤ (← get) then return none
    else return some [← rules .statement]

def program (rules : Rules) : Reading (List Phrase) := do
  let first ← hashBang?
  return first ++ (← statements rules)

/-- The tree of a source. No phrase contains another one more than twice over the same text, so
the depth bound is never met. -/
def parse (src : Source) : Parsed :=
  let starts := lineStarts src
  let whole := spanAt starts (skipBlanks src 0) src.size
  match (program (rules (4 * src.size + 8))).run src |>.run 0 with
  | some (parts, _) =>
    ⟨.mk "program" true none whole (partsToNodes src starts src.size 0 [] parts), false⟩
  | none => ⟨.mk "program" true none whole [.mk "ERROR" true none whole []], true⟩

def parser : Parser where
  parse src := .ok (parse src)
  refusal
    | .number => "source must be a bytestring or a callable, not int"
    | _ => "source must be a bytestring or a callable, not NoneType"

end CallAtlas.JavaScript
