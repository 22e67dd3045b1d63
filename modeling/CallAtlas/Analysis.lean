import CallAtlas.Extraction

/-!
From a source to its records: parse, then extract. A source with faults is still looked through.
The parser comes from outside and may fail.
-/

set_option autoImplicit false

namespace CallAtlas

/-- What may be handed in as a source; only octets can be parsed. -/
inductive Given where
  | octets (source : Source)
  | nothing
  | number

def Given.ofText (text : String) : Given :=
  .octets text.toUTF8

structure Parsed where
  root : Node
  faulty : Bool

/-- What makes trees of octets, or says why it cannot. It has its own words for what are no
octets. -/
structure Parser where
  parse : Source → Except String Parsed
  refusal : Given → String

structure Parsing where
  source : Source
  root : Node
  notices : List Notice

/-- The records of a parsed source; what parsing has to say comes before what extracting has. -/
def Parsing.extraction (p : Parsing) (detail : Detail) (file : Option String) : Extraction :=
  let e := extract ⟨p.source, detail, file⟩ p.root
  { e with notices := p.notices ++ e.notices }

section

variable (parser : Parser)

def parseGiven (file : Option String) : Given → Except Error Parsing
  | .octets source =>
    match parser.parse source with
    | .ok parsed => .ok ⟨source, parsed.root, if parsed.faulty then [.partialTree file] else []⟩
    | .error reason => .error (.unreadable (fileLabel file) reason)
  | other => .error (.unreadable (fileLabel file) (parser.refusal other))

def analyze (detail : Detail) (file : Option String) (given : Given) :
    Except Error Extraction := do
  return (← parseGiven parser file given).extraction detail file

/-- The same with the level of detail by name; the name is looked at after parsing. -/
def analyzeNamed (detail : String) (file : Option String) (given : Given) :
    Except Error Extraction := do
  let parsing ← parseGiven parser file given
  match Detail.ofName? detail with
  | some d => return parsing.extraction d file
  | none => throw (.unknownDetail detail)

end

end CallAtlas
