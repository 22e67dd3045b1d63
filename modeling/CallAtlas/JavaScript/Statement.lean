import CallAtlas.JavaScript.Expression

/-!
Statements. Where a semicolon is left out, the statement ends with what comes before it.
-/

set_option autoImplicit false

namespace CallAtlas.JavaScript

/-- Expressions as a statement has them: the end of a line may end them. -/
def wholeExpression (rules : Rules) : Reading Phrase :=
  expressions rules { ends := true }

def closed (kind : String) (operand : Bool) (parts : List Phrase) : Reading Phrase := do
  let stop ← semicolon operand
  upToHere kind (parts ++ stop)

def expressionStatement (rules : Rules) : Reading Phrase := do
  closed "expression_statement" true [← wholeExpression rules]

/-- A variable and its first value; the flag says that there is a value. -/
def declarator (rules : Rules) (mode : Mode) : Reading (Phrase × Bool) := do
  let name ← target rules
  if (← firstSeen? ["==", "="]) == some "=" then
    let equals ← mark "="
    let value ← rules (.expression mode)
    return (.node "variable_declarator" [name.as "name", equals, value.as "value"], true)
  else return (.node "variable_declarator" [name.as "name"], false)

/-- Variables with commas between them, added newest first to `done`. -/
def declarators (rules : Rules) (mode : Mode) :
    Nat → List Phrase → Reading (List Phrase × Bool)
  | 0, _ => failure
  | fuel + 1, done => do
    let (p, valued) ← declarator rules mode
    if ← seesNext "," then
      let comma ← mark ","
      declarators rules mode fuel (comma :: p :: done)
    else return ((p :: done).reverse, valued)

def declarationKind (word : String) : String :=
  if word == "var" then "variable_declaration"
  else if word == "using" then "using_declaration"
  else "lexical_declaration"

def declarationWords (word : String) (before : List Phrase) : Reading (List Phrase) := do
  let taken ← keyword word
  if word == "var" then return [taken]
  else return (before ++ [taken]).map (fun p => p.as "kind")

def declarationFrom (rules : Rules) (mode : Mode) (word : String) (words : List Phrase) :
    Reading Phrase := do
  let (parts, valued) ← declarators rules mode (← turns) []
  closed (declarationKind word) valued (words ++ parts)

def seesBinding : Reading Bool := do
  if (← seesNext "[") || (← seesNext "\x7b") then return true
  else
    match ← wordNext? with
    | some w => return w != "in" && w != "instanceof"
    | none => return false

def declaration? (rules : Rules) (mode : Mode) (word : String) : Reading (Option Phrase) := do
  let i ← get
  if word == "var" || word == "const" then
    let words ← declarationWords word []
    return some (← declarationFrom rules mode word words)
  else if word == "let" || word == "using" then
    let words ← declarationWords word []
    if (← seesBinding) && !(← endsLine true) then
      return some (← declarationFrom rules mode word words)
    else
      set i
      return none
  else if word == "await" then
    let first ← keyword "await"
    if ← wordIs "using" then
      let words ← declarationWords "using" [first]
      return some (← declarationFrom rules mode "using" words)
    else
      set i
      return none
  else return none

/-- The source goes on with a sign that cannot start a statement, so that the function or class
before it is an operand. -/
def continues : Reading Bool := do
  if ← endsLine true then return false
  else
    let src ← read
    let i := skipGap src false (← get)
    let b := octetAt src i
    return [37, 38, 42, 44, 62, 63, 94, 124].contains b.toNat
      || (b == 46 && !isDigit (octetAt src (i + 1)))
      || ["!=", "<=", "<<", "="].any (fun m => startsAt src m i)
      || (← wordIs "in") || (← wordIs "instanceof")

/-- A function with a name, if one starts here; `operand` says that it might as well be the start
of an expression. -/
def functionDeclaration? (rules : Rules) (operand : Bool) : Reading (Option Phrase) := do
  let i ← get
  let async ← keyword? "async"
  if (!async.isEmpty && (← endsLine true)) || !(← wordIs "function") then
    set i
    return none
  else
    let word ← keyword "function"
    let star ← mark? "*"
    if ← seesNext "(" then
      set i
      return none
    else
      let name ← identifier
      let rest ← signatureAndBody rules operand
      if operand && (← continues) then
        set i
        return none
      else
        optionalEnd operand
        let kind :=
          if star.isEmpty then "function_declaration" else "generator_function_declaration"
        return some (← upToHere kind (async ++ word :: star ++ name.as "name" :: rest))

/-- A class from its first word on: a declaration if it has a name, and none otherwise. -/
def classDeclaration? (rules : Rules) (operand : Bool) (marks : List Phrase) :
    Reading (Option Phrase) := do
  let i ← get
  let (parts, nameGiven) ← classParts rules
  if !nameGiven || (operand && (← continues)) then
    set i
    return none
  else
    optionalEnd operand
    return some (← upToHere "class_declaration" (marks ++ parts))

def namedDeclaration? (rules : Rules) (operand : Bool) (word : String) :
    Reading (Option Phrase) := do
  if word == "function" || word == "async" then functionDeclaration? rules operand
  else if word == "class" then classDeclaration? rules operand []
  else declaration? rules { ends := true } word

def moduleName : Reading Phrase := do
  gap
  let b ← octet 0
  if b == 34 || b == 39 then string
  else if ← wordIs "default" then mark "default"
  else nameAs "identifier"

def specifier (kind : String) : Reading (List Phrase) := do
  let name ← moduleName
  if ← wordIs "as" then
    let word ← mark "as"
    return [.node kind [name.as "name", word, (← moduleName).as "alias"]]
  else return [.node kind [name.as "name"]]

def specifiers (kind itemKind : String) : Reading Phrase := do
  let left ← mark "\x7b"
  let items ← commaItems "\x7d" (specifier itemKind)
  return .node kind (left :: items ++ [← mark "\x7d"])

def sourceString : Reading Phrase := do
  gap
  return (← string).as "source"

def fromClause : Reading (List Phrase) := do
  let word ← keyword "from"
  return [word, ← sourceString]

def importConditions? (rules : Rules) : Reading (List Phrase) := do
  if ← wordIs "with" then
    let word ← mark "with"
    return [.node "import_attribute" [word, ← object rules]]
  else return []

def namespaceImport : Reading Phrase := do
  let star ← mark "*"
  let word ← keyword "as"
  return .node "namespace_import" [star, word, ← identifier]

def importedNames : Reading Phrase := do
  if ← seesNext "*" then namespaceImport else specifiers "named_imports" "import_specifier"

def importClause : Reading Phrase := do
  if (← seesNext "*") || (← seesNext "\x7b") then return .node "import_clause" [← importedNames]
  else
    let name ← identifier
    if ← seesNext "," then
      let comma ← mark ","
      return .node "import_clause" [name, comma, ← importedNames]
    else return .node "import_clause" [name]

def importStatement (rules : Rules) : Reading Phrase := do
  let word ← keyword "import"
  gap
  let b ← octet 0
  let parts ←
    if b == 34 || b == 39 then pure [← sourceString]
    else
      let clause ← importClause
      pure (clause :: (← fromClause))
  let conditions ← importConditions? rules
  closed "import_statement" false (word :: parts ++ conditions)

def exportNames? (rules : Rules) : Reading (Option (List Phrase)) := do
  if ← seesNext "*" then
    let star ← mark "*"
    let head ←
      if ← wordIs "as" then
        let word ← mark "as"
        pure (Phrase.node "namespace_export" [star, word, ← moduleName])
      else pure star
    let rest ← fromClause
    return some (head :: rest ++ (← importConditions? rules))
  else if ← seesNext "\x7b" then
    let clause ← specifiers "export_clause" "export_specifier"
    if ← wordIs "from" then
      let rest ← fromClause
      return some (clause :: rest ++ (← importConditions? rules))
    else return some [clause]
  else return none

def exported? (rules : Rules) (operand : Bool) : Reading (Option Phrase) := do
  if ← seesNext "@" then
    let i ← get
    let marks ← decorators rules
    match ← classDeclaration? rules operand marks with
    | some p => return some p
    | none =>
      set i
      return none
  else namedDeclaration? rules operand ((← wordNext?).getD "")

def exportStatement (rules : Rules) (marks : List Phrase) : Reading Phrase := do
  let word ← keyword "export"
  match ← exportNames? rules with
  | some parts => closed "export_statement" false (word :: parts)
  | none =>
    let preset ← keyword? "default"
    match ← exported? rules (!preset.isEmpty) with
    | some p => return .node "export_statement" (marks ++ word :: preset ++ [p.as "declaration"])
    | none =>
      let value ← rules (.expression { ends := true })
      closed "export_statement" true (marks ++ word :: preset ++ [value.as "value"])

def ifStatement (rules : Rules) : Reading Phrase := do
  let word ← keyword "if"
  let condition ← parenthesized rules
  let yes ← rules .statement
  let parts := [word, condition.as "condition", yes.as "consequence"]
  if ← wordIs "else" then
    let other ← mark "else"
    let no := Phrase.node "else_clause" [other, ← rules .statement]
    return .node "if_statement" (parts ++ [no.as "alternative"])
  else return .node "if_statement" parts

/-- An expression up to its semicolon, both in a role, or a lone semicolon as a statement. -/
def loopPart (rules : Rules) (role : String) (semicolonRole : Bool) : Reading (List Phrase) := do
  if ← seesNext ";" then
    let stop ← mark ";"
    return [(Phrase.node "empty_statement" [stop]).as role]
  else
    let e ← expressions rules {}
    let stop ← mark ";"
    return [e.as role, if semicolonRole then stop.as role else stop]

def countedLoopFrom (rules : Rules) (before : List Phrase) : Reading Phrase := do
  let condition ← loopPart rules "condition" true
  let step ←
    if ← seesNext ")" then pure [] else pure [(← expressions rules {}).as "increment"]
  let right ← mark ")"
  let body ← rules .statement
  return .node "for_statement" (before ++ condition ++ step ++ [right, body.as "body"])

def loopWord? : Reading (Option String) := do
  if ← wordIs "in" then return some "in"
  else if ← wordIs "of" then return some "of"
  else return none

def eachLoopFrom (rules : Rules) (before : List Phrase) (word : String) : Reading Phrase := do
  let sign ← mark word
  let right ← expressions rules {}
  let close ← mark ")"
  let body ← rules .statement
  return .node "for_in_statement"
    (before ++ [sign.as "operator", right.as "right", close, body.as "body"])

/-- The words that declare the variable of a loop, each in the role of the kind. -/
def loopWords? : Reading (Option (String × List Phrase)) := do
  let i ← get
  let word := (← wordNext?).getD ""
  if word == "var" || word == "const" then return some (word, [← keyword word])
  else if word == "let" || word == "using" then
    let taken ← keyword word
    if ← seesBinding then return some (word, [taken])
    else
      set i
      return none
  else if word == "await" then
    let first ← keyword "await"
    if ← wordIs "using" then return some ("using", [first, ← keyword "using"])
    else
      set i
      return none
  else return none

def declaringLoop (rules : Rules) (before : List Phrase) (word : String)
    (words : List Phrase) : Reading Phrase := do
  let inKind := words.map (fun p => p.as "kind")
  let i ← get
  let name ← target rules
  match ← loopWord? with
  | some sign => eachLoopFrom rules (before ++ inKind ++ [name.as "left"]) sign
  | none =>
    set i
    let (parts, _) ← declarators rules { noIn := true } (← turns) []
    match ← loopWord?, parts with
    | some sign, [single] =>
      eachLoopFrom rules
        (before ++ inKind
          ++ single.parts.map (fun p => if p.hasRole "name" then p.as "left" else p))
        sign
    | _, _ =>
      let stop ← mark ";"
      let kept := if word == "var" then words else inKind
      let first := Phrase.node (declarationKind word) (kept ++ parts ++ [stop])
      countedLoopFrom rules (before ++ [first.as "initializer"])

def forStatement (rules : Rules) : Reading Phrase := do
  let word ← keyword "for"
  let pause ← keyword? "await"
  let left ← mark "("
  let before := word :: pause ++ [left]
  if ← seesNext ";" then
    countedLoopFrom rules (before ++ (← loopPart rules "initializer" false))
  else
    match ← loopWords? with
    | some (kind, words) => declaringLoop rules before kind words
    | none =>
      let e ← expressions rules { noIn := true }
      match ← loopWord? with
      | some sign => eachLoopFrom rules (before ++ [e.asTarget.as "left"]) sign
      | none =>
        let stop ← mark ";"
        countedLoopFrom rules (before ++ [e.as "initializer", stop])

def whileStatement (rules : Rules) : Reading Phrase := do
  let word ← keyword "while"
  let condition ← parenthesized rules
  let body ← rules .statement
  return .node "while_statement" [word, condition.as "condition", body.as "body"]

def doStatement (rules : Rules) : Reading Phrase := do
  let word ← keyword "do"
  let body ← rules .statement
  let again ← keyword "while"
  let condition ← parenthesized rules
  let parts := [word, body.as "body", again, condition.as "condition"]
  match ← omitted? false with
  | some i =>
    set i
    upToHere "do_statement" parts
  | none => return .node "do_statement" (parts ++ (← mark? ";"))

def caseBody (rules : Rules) : Reading (List Phrase) :=
  many do
    if (← seesStatement "\x7d") || (← wordIs "case") || (← wordIs "default") then return none
    else return some [(← rules .statement).as "body"]

def switchCase (rules : Rules) : Reading Phrase := do
  if ← wordIs "default" then
    let word ← mark "default"
    let colon ← mark ":"
    return .node "switch_default" (word :: colon :: (← caseBody rules))
  else
    let word ← keyword "case"
    let value ← expressions rules {}
    let colon ← mark ":"
    return .node "switch_case" (word :: value.as "value" :: colon :: (← caseBody rules))

def switchStatement (rules : Rules) : Reading Phrase := do
  let word ← keyword "switch"
  let value ← parenthesized rules
  let left ← mark "\x7b"
  let cases ← many do
    if ← seesNext "\x7d" then return none else return some [← switchCase rules]
  let body := Phrase.node "switch_body" (left :: cases ++ [← mark "\x7d"])
  return .node "switch_statement" [word, value.as "value", body.as "body"]

def catchClause? (rules : Rules) : Reading (List Phrase) := do
  if ← wordIs "catch" then
    let word ← mark "catch"
    let param ←
      if ← seesNext "(" then
        let left ← mark "("
        let name ← target rules
        pure [left, name.as "parameter", ← mark ")"]
      else pure []
    let body ← block rules false
    return [(Phrase.node "catch_clause" (word :: param ++ [body.as "body"])).as "handler"]
  else return []

def finallyClause? (rules : Rules) : Reading (List Phrase) := do
  if ← wordIs "finally" then
    let word ← mark "finally"
    let body ← block rules false
    return [(Phrase.node "finally_clause" [word, body.as "body"]).as "finalizer"]
  else return []

def tryStatement (rules : Rules) : Reading Phrase := do
  let word ← keyword "try"
  let body ← block rules false
  let handler ← catchClause? rules
  let finalizer ← finallyClause? rules
  return .node "try_statement" (word :: body.as "body" :: handler ++ finalizer)

def withStatement (rules : Rules) : Reading Phrase := do
  let word ← keyword "with"
  let value ← parenthesized rules
  let body ← rules .statement
  return .node "with_statement" [word, value.as "object", body.as "body"]

def seesStop : Reading Bool := do
  let src ← read
  let b := octetAt src (skipGap src false (← get))
  return b == 59 || b == 125 || b == 0

def returnStatement (rules : Rules) : Reading Phrase := do
  let word ← keyword "return"
  if (← endsLine false) || (← seesStop) then closed "return_statement" false [word]
  else closed "return_statement" true [word, ← wholeExpression rules]

def jumpStatement (word kind : String) : Reading Phrase := do
  let taken ← keyword word
  if (← endsLine false) || (← seesStop) then closed kind false [taken]
  else closed kind false [taken, (← nameAs "statement_identifier").as "label"]

def throwStatement (rules : Rules) : Reading Phrase := do
  let word ← keyword "throw"
  closed "throw_statement" true [word, ← wholeExpression rules]

def debuggerStatement : Reading Phrase := do
  closed "debugger_statement" false [← keyword "debugger"]

/-- A statement with a label in front of it, if there is one here. -/
def labelled? (rules : Rules) (word : String) : Reading (Option Phrase) := do
  if reservedWords.contains word then return none
  else
    let i ← get
    let label ← nameAs "statement_identifier"
    if ← seesNext ":" then
      let colon ← mark ":"
      let body ← rules .statement
      return some (.node "labeled_statement" [label.as "label", colon, body.as "body"])
    else
      set i
      return none

def plainStatement (rules : Rules) (word : String) : Reading Phrase := do
  match ← namedDeclaration? rules true word with
  | some p => return p
  | none =>
    match ← labelled? rules word with
    | some p => return p
    | none => expressionStatement rules

def decorated (rules : Rules) : Reading Phrase := do
  let i ← get
  let marks ← decorators rules
  if ← wordIs "export" then exportStatement rules marks
  else
    match ← classDeclaration? rules true marks with
    | some p => return p
    | none =>
      set i
      expressionStatement rules

def importIsExpression : Reading Bool := do
  let src ← read
  let i := skipGap src false (← get)
  let j := skipGap src false (i + 6)
  return octetAt src j == 40 || octetAt src j == 46

/-- The line or the source ends behind the word, which is then a name. -/
def standsAlone (word : String) : Reading Bool := do
  let i ← get
  let _ ← keyword word
  let alone := (← endsLine true) || (← seesStop)
  set i
  return alone

def wordStatement (rules : Rules) (word : String) : Reading Phrase := do
  if word == "if" then ifStatement rules
  else if word == "for" then forStatement rules
  else if word == "while" then whileStatement rules
  else if word == "do" then doStatement rules
  else if word == "switch" then switchStatement rules
  else if word == "try" then tryStatement rules
  else if word == "with" then withStatement rules
  else if word == "return" then returnStatement rules
  else if word == "break" then jumpStatement word "break_statement"
  else if word == "continue" then jumpStatement word "continue_statement"
  else if word == "throw" then throwStatement rules
  else if word == "debugger" then debuggerStatement
  else if word == "export" then
    if ← standsAlone word then expressionStatement rules else exportStatement rules []
  else if word == "import" then
    if ← importIsExpression then expressionStatement rules else importStatement rules
  else plainStatement rules word

def braced (rules : Rules) : Reading Phrase := do
  let i ← get
  let p ← blockOr rules false (expressionStatement rules)
  if p.kind == "statement_block" && (← continues) then
    set i
    expressionStatement rules
  else return p

def statement (rules : Rules) : Reading Phrase := do
  operandGap
  if ← sees ";" then return .node "empty_statement" [← markHere ";"]
  else if ← sees "\x7b" then braced rules
  else if ← sees "@" then decorated rules
  else
    match ← wordNext? with
    | some word => wordStatement rules word
    | none => expressionStatement rules

end CallAtlas.JavaScript
