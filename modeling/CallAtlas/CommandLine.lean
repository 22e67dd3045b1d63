import CallAtlas.Text.Digit
import CallAtlas.Text.Integer

/-!
The words of a command line. A word is an option, a plain word, or the double dash after which
every word is plain. Long options may be cut short and may carry their value behind an equals
sign. All words are sorted before the first one takes effect.
-/

set_option autoImplicit false

namespace CallAtlas.CommandLine

/-- The options, `help` aside each with a setting of its own. -/
inductive Switch where
  | help
  | variant
  | json
  | output
  | workers
  | function
  | owner
  | logLevel
  | envFile
  deriving DecidableEq, Repr

/-- How an option is written, in the order in which options are listed. -/
def spellings : List (String × Switch) :=
  [("-h", .help), ("--help", .help), ("--variant", .variant), ("--json", .json),
    ("--output", .output), ("--workers", .workers), ("--function", .function),
    ("--class", .owner), ("--log-level", .logLevel), ("--env-file", .envFile)]

def Switch.name (s : Switch) : String :=
  "/".intercalate ((spellings.filter (fun p => p.2 == s)).map Prod.fst)

def Switch.takesValue : Switch → Bool
  | .help | .json => false
  | _ => true

/-- What a value behind an option is attached with. -/
inductive Attached where
  | equals
  | directly
  deriving DecidableEq, Repr

inductive Word where
  | plain (text : String)
  | stop
  | option (switch : Switch) (value : Option (Attached × String))
  | unknown (text : String)
  deriving DecidableEq, Repr

inductive UsageError where
  | ambiguous (text : String) (matching : List String)
  | valueMissing (switch : Switch)
  | valueIgnored (switch : Switch) (value : String)
  | badChoice (value : String)
  | badInteger (value : String)
  | pathMissing
  | unrecognized (words : List String)
  deriving DecidableEq, Repr

def variantNames : List String := ["rich", "signature"]

def UsageError.message : UsageError → String
  | .ambiguous text matching =>
    "ambiguous option: " ++ text ++ " could match " ++ ", ".intercalate matching
  | .valueMissing switch => "argument " ++ switch.name ++ ": expected one argument"
  | .valueIgnored switch value =>
    "argument " ++ switch.name ++ ": ignored explicit argument " ++ Text.quoted value
  | .badChoice value =>
    "argument " ++ Switch.variant.name ++ ": invalid choice: " ++ Text.quoted value
      ++ " (choose from " ++ ", ".intercalate (variantNames.map Text.quoted) ++ ")"
  | .badInteger value =>
    "argument " ++ Switch.workers.name ++ ": invalid int value: " ++ Text.quoted value
  | .pathMissing => "the following arguments are required: path"
  | .unrecognized words => "unrecognized arguments: " ++ " ".intercalate words

def isDigit (c : Char) : Bool :=
  (Text.digitValue? c).isSome

/-- A minus sign and a whole number, or one with a point and digits behind it; a line break may
follow. -/
def looksNegative (text : String) : Bool :=
  let body := if text.endsWith "\n" then text.toList.dropLast else text.toList
  match body with
  | '-' :: rest =>
    let afterDigits := rest.dropWhile isDigit
    match afterDigits with
    | [] => !rest.isEmpty
    | '.' :: fraction => !fraction.isEmpty && fraction.all isDigit
    | _ => false
  | _ => false

/-- The text before the first equals sign and, if there is one, the text behind it. -/
def splitEquals (text : String) : String × Option String :=
  let before := text.toList.takeWhile (· != '=')
  match text.toList.drop before.length with
  | _ :: after => (String.ofList before, some (String.ofList after))
  | [] => (text, none)

/-- The options that a word may stand for which is not itself the spelling of one. -/
def abbreviated (text : String) : List (String × Word) :=
  if text.startsWith "--" then
    let (head, value) := splitEquals text
    (spellings.filter (fun p => p.1.startsWith head)).map (fun p =>
      (p.1, .option p.2 (value.map (fun v => (.equals, v)))))
  else
    let short := String.ofList (text.toList.take 2)
    (spellings.filter (fun p => p.1 == short)).map (fun p =>
      (p.1, .option p.2 (some (.directly, String.ofList (text.toList.drop 2)))))

/-- What is left once a word is known not to be an option: a negative number and a text with a
blank are plain words. -/
def notAnOption (text : String) : Word :=
  if looksNegative text || text.toList.contains ' ' then .plain text else .unknown text

def sortWord (text : String) : Except UsageError Word :=
  if !text.startsWith "-" then .ok (.plain text)
  else
    match spellings.lookup text with
    | some switch => .ok (.option switch none)
    | none =>
      if text == "-" then .ok (.plain text)
      else
        match splitEquals text with
        | (head, some value) =>
          match spellings.lookup head with
          | some switch => .ok (.option switch (some (.equals, value)))
          | none => ofAbbreviated text
        | (_, none) => ofAbbreviated text
where
  ofAbbreviated (text : String) : Except UsageError Word :=
    match abbreviated text with
    | [] => .ok (notAnOption text)
    | [(_, word)] => .ok word
    | several => .error (.ambiguous text (several.map Prod.fst))

def sortWords : List String → Except UsageError (List Word)
  | [] => .ok []
  | text :: rest =>
    if text == "--" then .ok (.stop :: rest.map .plain)
    else do
      let word ← sortWord text
      return word :: (← sortWords rest)

structure Request where
  path : String
  variant : Option String := none
  json : Bool := false
  output : Option String := none
  workers : Option Int := none
  function : Option String := none
  owner : Option String := none
  logLevel : Option String := none
  envFile : Option String := none
  deriving DecidableEq, Repr

/-- A request in the making, with the words nothing could be done with, newest first. -/
structure Draft where
  request : Request := { path := "" }
  path : Option String := none
  extras : List String := []

/-- Why reading a command line stops early. -/
inductive Halt where
  | help
  | wrong (error : UsageError)
  deriving DecidableEq, Repr

/-- The letters directly behind `-h`, each an option of its own. Whatever comes of them, help is
shown unless a value turns up that cannot be used. -/
def helpLetters : List Char → Halt
  | [] => .help
  | 'h' :: '=' :: value => .wrong (.valueIgnored .help (String.ofList value))
  | 'h' :: rest => helpLetters rest
  | '-' :: rest => .wrong (.valueIgnored .help (String.ofList ('-' :: rest)))
  | _ => .help

def setFlag (d : Draft) (switch : Switch) : Except Halt Draft :=
  match switch with
  | .json => .ok { d with request := { d.request with json := true } }
  | _ => .error .help

def setValue (d : Draft) (switch : Switch) (value : String) : Except Halt Draft :=
  let r := d.request
  match switch with
  | .help => .error .help
  | .json => .ok { d with request := { r with json := true } }
  | .variant =>
    if variantNames.contains value then .ok { d with request := { r with variant := some value } }
    else .error (.wrong (.badChoice value))
  | .output => .ok { d with request := { r with output := some value } }
  | .workers =>
    match Text.readInteger value with
    | .ok n => .ok { d with request := { r with workers := some n } }
    | .error _ => .error (.wrong (.badInteger value))
  | .function => .ok { d with request := { r with function := some value } }
  | .owner => .ok { d with request := { r with owner := some value } }
  | .logLevel => .ok { d with request := { r with logLevel := some value } }
  | .envFile => .ok { d with request := { r with envFile := some value } }

def spuriousValue (switch : Switch) (attached : Attached) (value : String) : Halt :=
  match attached with
  | .directly => helpLetters value.toList
  | .equals => .wrong (.valueIgnored switch value)

/-- A plain word is the path if there is none yet. -/
def takePlain (d : Draft) (text : String) : Draft :=
  match d.path with
  | none => { d with path := some text }
  | some _ => { d with extras := text :: d.extras }

def Word.text : Word → String
  | .plain text => text
  | .stop => "--"
  | .unknown text => text
  | .option switch _ => switch.name

/-- The words from the last one before the double dash on: the dash is dropped if it stands beside
the path, and is itself a word too many otherwise. -/
def takeStop (d : Draft) (fresh : Bool) (rest : List Word) : Draft :=
  let rest := rest.map Word.text
  match d.path, rest with
  | none, path :: more => { d with path := some path, extras := more.reverse ++ d.extras }
  | none, [] => { d with extras := "--" :: d.extras }
  | some _, more =>
    { d with extras := more.reverse ++ (if fresh then d.extras else "--" :: d.extras) }

/-- The words take effect one after the other; `fresh` says that the word before was the path. -/
def takeWords (d : Draft) (fresh : Bool) : List Word → Except Halt Draft
  | [] => .ok d
  | .plain text :: rest => takeWords (takePlain d text) d.path.isNone rest
  | .stop :: rest => .ok (takeStop d fresh rest)
  | .unknown text :: rest => takeWords { d with extras := text :: d.extras } false rest
  | .option switch (some (attached, value)) :: rest =>
    if switch.takesValue then do
      takeWords (← setValue d switch value) false rest
    else .error (spuriousValue switch attached value)
  | .option switch none :: rest =>
    if switch.takesValue then
      match rest with
      | .plain value :: more => do
        takeWords (← setValue d switch value) false more
      | _ => .error (.wrong (.valueMissing switch))
    else do
      takeWords (← setFlag d switch) false rest

def Draft.finish (d : Draft) : Except Halt Request :=
  match d.path with
  | none => .error (.wrong .pathMissing)
  | some path =>
    if d.extras.isEmpty then .ok { d.request with path := path }
    else .error (.wrong (.unrecognized d.extras.reverse))

def read (words : List String) : Except Halt Request :=
  match sortWords words with
  | .error e => .error (.wrong e)
  | .ok sorted => do
    (← takeWords {} false sorted).finish

def usage : String :=
  "usage: funcgraph [-h] [--variant \x7brich,signature\x7d] [--json] [--output OUTPUT]\n"
  ++ "                 [--workers WORKERS] [--function FUNCTION]\n"
  ++ "                 [--class CLASS_NAME] [--log-level LOG_LEVEL]\n"
  ++ "                 [--env-file ENV_FILE]\n"
  ++ "                 path\n"

def help : String :=
  usage
  ++ "\nExtract function metadata and call lists from JavaScript code\n"
  ++ "\npositional arguments:\n"
  ++ "  path                  JavaScript file or directory to analyze\n"
  ++ "\noptions:\n"
  ++ "  -h, --help            show this help message and exit\n"
  ++ "  --variant \x7brich,signature\x7d\n"
  ++ "                        rich: return types and calls; signature: signatures\n"
  ++ "                        with positions (default: rich)\n"
  ++ "  --json                Print records as JSON\n"
  ++ "  --output OUTPUT       Write JSON records to this file\n"
  ++ "  --workers WORKERS     Files to extract in parallel (default: 1)\n"
  ++ "  --function FUNCTION   Show details for a function or Class.method\n"
  ++ "  --class CLASS_NAME    Show the methods of a class\n"
  ++ "  --log-level LOG_LEVEL\n"
  ++ "                        Logging level (default: WARNING)\n"
  ++ "  --env-file ENV_FILE   Path to a .env file\n"

def complaint (e : UsageError) : String :=
  usage ++ "funcgraph: error: " ++ e.message ++ "\n"

end CallAtlas.CommandLine
