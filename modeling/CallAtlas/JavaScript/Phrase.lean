import CallAtlas.JavaScript.Lexeme

/-!
Phrases: what the grammar recognises, over offsets and without comments. `Phrase.toNode` turns a
phrase into a tree; since between two neighbouring parts there is nothing but blanks and
comments, the comments of the tree are found by looking into these gaps.
-/

set_option autoImplicit false

namespace CallAtlas.JavaScript

inductive Phrase where
  | mk (kind : String) (named : Bool) (role : Option String) (start stop : Nat)
      (parts : List Phrase)

namespace Phrase

def kind : Phrase → String
  | .mk k _ _ _ _ _ => k

def start : Phrase → Nat
  | .mk _ _ _ s _ _ => s

def stop : Phrase → Nat
  | .mk _ _ _ _ s _ => s

def parts : Phrase → List Phrase
  | .mk _ _ _ _ _ ps => ps

def hasRole (p : Phrase) (role : String) : Bool :=
  match p with
  | .mk _ _ r _ _ _ => r == some role

def leaf (kind : String) (start stop : Nat) : Phrase :=
  .mk kind true none start stop []

/-- A keyword or a mark; its kind is its own text. -/
def mark (text : String) (start stop : Nat) : Phrase :=
  .mk text false none start stop []

def nodeTo (kind : String) (parts : List Phrase) (stop : Nat) : Phrase :=
  .mk kind true none ((parts.head?.map start).getD stop) stop parts

def node (kind : String) (parts : List Phrase) : Phrase :=
  nodeTo kind parts ((parts.getLast?.map stop).getD 0)

def as (p : Phrase) (role : String) : Phrase :=
  match p with
  | .mk k n _ s e ps => .mk k n (some role) s e ps

def ofKind (p : Phrase) (kind : String) : Phrase :=
  match p with
  | .mk _ n r s e ps => .mk kind n r s e ps

def asLeaf (p : Phrase) (kind : String) : Phrase :=
  leaf kind p.start p.stop

def targetKind (kind : String) : String :=
  if kind == "object" then "object_pattern"
  else if kind == "array" then "array_pattern"
  else if kind == "assignment_expression" then "assignment_pattern"
  else if kind == "pair" then "pair_pattern"
  else if kind == "spread_element" then "rest_pattern"
  else if kind == "shorthand_property_identifier" then "shorthand_property_identifier_pattern"
  else kind

/-- Parts of these kinds are targets themselves; of an assignment and of a pair, only the part in
the given role is. -/
def targetRole? (kind : String) : Option (Option String) :=
  if kind == "object" || kind == "array" || kind == "spread_element" then some none
  else if kind == "assignment_expression" then some (some "left")
  else if kind == "pair" then some (some "value")
  else none

mutual
/-- Reads an expression again as a target of assignment. -/
def asTarget : Phrase → Phrase
  | .mk kind named role start stop parts =>
    match targetRole? kind with
    | some wanted => .mk (targetKind kind) named role start stop (asTargets wanted parts)
    | none => .mk (targetKind kind) named role start stop parts

def asTargets (wanted : Option String) : List Phrase → List Phrase
  | [] => []
  | .mk kind named role start stop parts :: rest =>
    (if wanted.isNone || role == wanted then asTarget (.mk kind named role start stop parts)
      else .mk kind named role start stop parts) :: asTargets wanted rest
end

end Phrase

def lineStartsFrom (src : Source) (starts : Array Nat) (i : Nat) : Array Nat :=
  if i < src.size then
    if octetAt src i == 10 then lineStartsFrom src (starts.push (i + 1)) (i + 1)
    else lineStartsFrom src starts (i + 1)
  else starts
termination_by src.size - i

def lineStarts (src : Source) : Array Nat :=
  lineStartsFrom src #[0] 0

/-- The last of the positions `low` up to `high` whose line starts at or before `offset`; each
turn halves what is left, so `fuel` need only exceed the number of binary digits of a position. -/
def rowBetween (starts : Array Nat) (offset : Nat) : Nat → Nat → Nat → Nat
  | 0, low, _ => low
  | fuel + 1, low, high =>
    if high ≤ low then low
    else
      let middle := (low + high + 1) / 2
      if starts.getD middle 0 ≤ offset then rowBetween starts offset fuel middle high
      else rowBetween starts offset fuel low (middle - 1)

def pointAt (starts : Array Nat) (offset : Nat) : Point :=
  let row := rowBetween starts offset 64 0 (starts.size - 1)
  ⟨row, offset - starts.getD row 0⟩

def spanAt (starts : Array Nat) (start stop : Nat) : Span :=
  ⟨start, stop, pointAt starts start, pointAt starts stop⟩

def gapComments (src : Source) (starts : Array Nat) (stop : Nat) :
    Nat → Nat → List Node → List Node
  | 0, _, done => done
  | fuel + 1, i, done =>
    let j := skipBlanks src i
    if stop ≤ j then done
    else
      match commentEnd? src j with
      | some k =>
        gapComments src starts stop fuel k
          (.mk "comment" true none (spanAt starts j k) [] :: done)
      | none =>
        match markupCommentEnd? src j with
        | some k =>
          gapComments src starts stop fuel k
            (.mk "html_comment" true none (spanAt starts j k) [] :: done)
        | none => done

mutual
def Phrase.toNode (src : Source) (starts : Array Nat) : Phrase → Node
  | .mk kind named role start stop parts =>
    .mk kind named role (spanAt starts start stop)
      (match parts with
        | [] => []
        | p :: rest => partsToNodes src starts stop p.start [] (p :: rest))

/-- The trees of the parts, newest first in `done`; `last` is where the previous part ends. -/
def partsToNodes (src : Source) (starts : Array Nat) (stop last : Nat) (done : List Node) :
    List Phrase → List Node
  | [] => (gapComments src starts stop (stop - last + 1) last done).reverse
  | p :: rest =>
    partsToNodes src starts stop p.stop
      (p.toNode src starts :: gapComments src starts p.start (p.start - last + 1) last done)
      rest
end

end CallAtlas.JavaScript
