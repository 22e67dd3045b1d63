import Mathlib

/-!
The texts of JSON. A text is a row of tokens with white space anywhere between them; rules say
which characters spell a token and which tokens make up a value. A name that an object gives twice
keeps its first place and its last value. Every text that the rules allow is read, and so stands
for one value only.
-/

set_option autoImplicit false

namespace CallAtlas.JsonText

/-- What a text can stand for. A number with a fraction or an exponent is kept as it is written. -/
inductive Datum where
  | null
  | boolean (b : Bool)
  | integer (n : Int)
  | decimal (written : String)
  | text (s : String)
  | list (items : List Datum)
  | object (members : List (String × Datum))

/-- A token: one of the six marks, a text, or a number or name that stands for itself. -/
inductive Token where
  | mark (c : Char)
  | text (s : String)
  | plain (d : Datum)

def isSpace (c : Char) : Bool :=
  c == ' ' || c == '\n' || c == '\r' || c == '\t'

def isMark (c : Char) : Bool :=
  ['[', ']', '{', '}', ',', ':'].contains c

def isWordChar (c : Char) : Bool :=
  c.isAlphanum || c == '-' || c == '+' || c == '.'

/-! ### Texts -/

/-- The character that a single character behind a backslash stands for. -/
def shortEscape? : Char → Option Char
  | '"' => some '"'
  | '\\' => some '\\'
  | '/' => some '/'
  | 'b' => some (Char.ofNat 0x08)
  | 'f' => some (Char.ofNat 0x0C)
  | 'n' => some '\n'
  | 'r' => some '\r'
  | 't' => some '\t'
  | _ => none

def hexDigit? (c : Char) : Option Nat :=
  if '0' ≤ c ∧ c ≤ '9' then some (c.toNat - '0'.toNat)
  else if 'a' ≤ c ∧ c ≤ 'f' then some (c.toNat - 'a'.toNat + 10)
  else if 'A' ≤ c ∧ c ≤ 'F' then some (c.toNat - 'A'.toNat + 10)
  else none

def hexUnit? (a b c d : Char) : Option Nat := do
  return (((← hexDigit? a) * 16 + (← hexDigit? b)) * 16 + (← hexDigit? c)) * 16 + (← hexDigit? d)

/-- The first half of a character beyond the basic plane. -/
def isHigh (n : Nat) : Bool := 0xD800 ≤ n && n < 0xDC00

def isLow (n : Nat) : Bool := 0xDC00 ≤ n && n < 0xE000

def joinHalves (high low : Nat) : Char :=
  Char.ofNat (0x10000 + (high - 0xD800) * 0x400 + (low - 0xDC00))

/-- What stands behind a backslash, and what is left. A half of a character must have its other
half. -/
inductive Escape : List Char → Char → List Char → Prop where
  | short {e c : Char} {rest : List Char} (h : shortEscape? e = some c) : Escape (e :: rest) c rest
  | unit {a b c d : Char} {n : Nat} {rest : List Char} (h : hexUnit? a b c d = some n)
      (hhigh : isHigh n = false) (hlow : isLow n = false) :
      Escape ('u' :: a :: b :: c :: d :: rest) (Char.ofNat n) rest
  | halves {a b c d a' b' c' d' : Char} {high low : Nat} {rest : List Char}
      (h : hexUnit? a b c d = some high) (hhigh : isHigh high = true)
      (h' : hexUnit? a' b' c' d' = some low) (hlow : isLow low = true) :
      Escape ('u' :: a :: b :: c :: d :: '\\' :: 'u' :: a' :: b' :: c' :: d' :: rest)
        (joinHalves high low) rest

/-- The characters of a text behind its first quotation mark, and what follows its last one. -/
inductive Inside : List Char → List Char → List Char → Prop where
  | close {rest : List Char} : Inside ('"' :: rest) [] rest
  | char {c : Char} {cs s rest : List Char} (hcontrol : 0x20 ≤ c.toNat) (hquote : c ≠ '"')
      (hslash : c ≠ '\\') (h : Inside cs s rest) : Inside (c :: cs) (c :: s) rest
  | escape {cs : List Char} {c : Char} {more s rest : List Char} (hc : Escape cs c more)
      (h : Inside more s rest) : Inside ('\\' :: cs) (c :: s) rest

def readEscape : List Char → Option (Char × List Char)
  | 'u' :: a :: b :: c :: d :: rest => do
    let n ← hexUnit? a b c d
    if isHigh n then
      match rest with
      | '\\' :: 'u' :: a' :: b' :: c' :: d' :: more => do
        let low ← hexUnit? a' b' c' d'
        if isLow low then some (joinHalves n low, more) else none
      | _ => none
    else if isLow n then none
    else some (Char.ofNat n, rest)
  | e :: rest => (shortEscape? e).map (fun c => (c, rest))
  | [] => none

/-- Every turn uses up a character, so `fuel` as high as the length is enough. -/
def readInside : Nat → List Char → Option (List Char × List Char)
  | fuel + 1, c :: cs =>
    if c = '"' then some ([], cs)
    else if c = '\\' then do
      let (e, more) ← readEscape cs
      let (s, rest) ← readInside fuel more
      return (e :: s, rest)
    else if c.toNat < 0x20 then none
    else do
      let (s, rest) ← readInside fuel cs
      return (c :: s, rest)
  | _, _ => none

theorem readEscape_of_escape {cs : List Char} {c : Char} {rest : List Char}
    (h : Escape cs c rest) : readEscape cs = some (c, rest) := by
  cases h with
  | @short e c rest h =>
    have hu : e ≠ 'u' := by
      rintro rfl
      simp [shortEscape?] at h
    unfold readEscape
    split
    · simp_all
    · simp_all
    · simp_all
  | unit h hhigh hlow => simp [readEscape, h, hhigh, hlow]
  | halves h hhigh h' hlow => simp [readEscape, h, hhigh, h', hlow]

theorem Escape.length_lt {cs : List Char} {c : Char} {rest : List Char} (h : Escape cs c rest) :
    rest.length < cs.length := by
  cases h with
  | short h => simp
  | unit h hhigh hlow => simp; omega
  | halves h hhigh h' hlow => simp; omega

theorem Inside.length_lt {cs s rest : List Char} (h : Inside cs s rest) :
    rest.length < cs.length := by
  induction h with
  | close => simp
  | char hcontrol hquote hslash h ih => simp; omega
  | escape hc h ih =>
    have := hc.length_lt
    simp
    omega

theorem readInside_of_inside {cs s rest : List Char} (h : Inside cs s rest) {fuel : Nat}
    (hfuel : cs.length ≤ fuel) : readInside fuel cs = some (s, rest) := by
  induction h generalizing fuel with
  | close =>
    cases fuel with
    | zero => simp at hfuel
    | succ fuel => simp [readInside]
  | @char c cs s rest hcontrol hquote hslash h ih =>
    cases fuel with
    | zero => simp at hfuel
    | succ fuel =>
      have hnot : ¬ c.toNat < 0x20 := by omega
      have hcs : cs.length ≤ fuel := by simpa using hfuel
      simp [readInside, hquote, hslash, hnot, ih hcs]
  | escape hc h ih =>
    cases fuel with
    | zero => simp at hfuel
    | succ fuel =>
      have hlt := hc.length_lt
      have hmore := ih (show _ ≤ fuel by simp at hfuel; omega)
      simp [readInside, readEscape_of_escape hc, hmore]

/-! ### Numbers and names -/

/-- Digits without a needless zero in front. -/
def isWhole : List Char → Bool
  | [] => false
  | ['0'] => true
  | c :: cs => c != '0' && (c :: cs).all Char.isDigit

def areDigits (cs : List Char) : Bool :=
  !cs.isEmpty && cs.all Char.isDigit

/-- Nothing, or a point with digits behind it. -/
def isFraction : List Char → Bool
  | [] => true
  | c :: cs => c == '.' && areDigits cs

def isExponentMark (c : Char) : Bool :=
  c == 'e' || c == 'E'

/-- Nothing, or a mark with digits behind it that may have a sign. -/
def isExponent : List Char → Bool
  | [] => true
  | e :: '+' :: cs => isExponentMark e && areDigits cs
  | e :: '-' :: cs => isExponentMark e && areDigits cs
  | e :: cs => isExponentMark e && areDigits cs

def minus (negative : Bool) : List Char :=
  if negative then ['-'] else []

def signed (negative : Bool) (n : Nat) : Int :=
  if negative then -n else n

inductive Plain : List Char → Datum → Prop where
  | nullName : Plain ['n', 'u', 'l', 'l'] .null
  | trueName : Plain ['t', 'r', 'u', 'e'] (.boolean true)
  | falseName : Plain ['f', 'a', 'l', 's', 'e'] (.boolean false)
  | integer {digits : List Char} (negative : Bool) (h : isWhole digits = true) :
      Plain (minus negative ++ digits)
        (.integer (signed negative (Nat.ofDigitChars 10 digits 0)))
  | decimal {digits fraction exponent : List Char} (negative : Bool) (h : isWhole digits = true)
      (hfraction : isFraction fraction = true) (hexponent : isExponent exponent = true)
      (hmore : fraction ++ exponent ≠ []) :
      Plain (minus negative ++ digits ++ fraction ++ exponent)
        (.decimal (String.ofList (minus negative ++ digits ++ fraction ++ exponent)))

def takeMinus : List Char → Bool × List Char
  | '-' :: rest => (true, rest)
  | cs => (false, cs)

def readNumber (word : List Char) : Option Datum :=
  let (negative, body) := takeMinus word
  let digits := body.takeWhile Char.isDigit
  let more := body.dropWhile Char.isDigit
  let fraction := more.takeWhile (fun c => !isExponentMark c)
  let exponent := more.dropWhile (fun c => !isExponentMark c)
  if isWhole digits && isFraction fraction && isExponent exponent then
    if more.isEmpty then some (.integer (signed negative (Nat.ofDigitChars 10 digits 0)))
    else some (.decimal (String.ofList word))
  else none

def readPlain : List Char → Option Datum
  | ['n', 'u', 'l', 'l'] => some .null
  | ['t', 'r', 'u', 'e'] => some (.boolean true)
  | ['f', 'a', 'l', 's', 'e'] => some (.boolean false)
  | word => readNumber word

theorem all_isDigit_of_isWhole {digits : List Char} (h : isWhole digits = true) :
    ∀ c ∈ digits, c.isDigit = true := by
  unfold isWhole at h
  split at h
  · cases h
  · simp
  · simpa using And.right (by simpa using h)

theorem ne_nil_of_isWhole {digits : List Char} (h : isWhole digits = true) : digits ≠ [] := by
  rintro rfl
  cases h

theorem not_isExponentMark_of_isDigit {c : Char} (h : c.isDigit = true) :
    isExponentMark c = false := by
  have he : c ≠ 'e' := by
    rintro rfl
    simp at h
  have hE : c ≠ 'E' := by
    rintro rfl
    simp at h
  simp [isExponentMark, he, hE]

/-- A part of a word is found again if what follows it does not start like it. -/
theorem span_append {p : Char → Bool} {part rest : List Char} (hpart : ∀ c ∈ part, p c = true)
    (hrest : ∀ c ∈ rest.head?, p c = false) :
    (part ++ rest).takeWhile p = part ∧ (part ++ rest).dropWhile p = rest := by
  rw [List.takeWhile_append_of_pos hpart, List.dropWhile_append_of_pos hpart]
  cases rest with
  | nil => simp
  | cons c cs =>
    have hc : p c = false := hrest c rfl
    simp [hc]

theorem mem_of_isFraction {fraction : List Char} (h : isFraction fraction = true) {c : Char}
    (hc : c ∈ fraction) : c = '.' ∨ c.isDigit = true := by
  cases fraction with
  | nil => simp at hc
  | cons d ds =>
    simp only [isFraction, areDigits, Bool.and_eq_true, beq_iff_eq, List.all_eq_true] at h
    rcases List.mem_cons.mp hc with rfl | hc
    · exact .inl h.1
    · exact .inr (h.2.2 c hc)

theorem head_of_isExponent {exponent : List Char} (h : isExponent exponent = true) :
    ∀ c ∈ exponent.head?, isExponentMark c = true := by
  intro c hc
  unfold isExponent at h
  split at h
  · simp at hc
  · obtain rfl : _ = c := by simpa using hc
    exact (Bool.and_eq_true_iff.mp h).1
  · obtain rfl : _ = c := by simpa using hc
    exact (Bool.and_eq_true_iff.mp h).1
  · obtain rfl : _ = c := by simpa using hc
    exact (Bool.and_eq_true_iff.mp h).1

theorem takeMinus_append {digits rest : List Char} (negative : Bool) (h : isWhole digits = true) :
    takeMinus (minus negative ++ (digits ++ rest)) = (negative, digits ++ rest) := by
  cases negative with
  | true => rfl
  | false =>
    cases digits with
    | nil => cases h
    | cons c cs =>
      have hc : c.isDigit = true := all_isDigit_of_isWhole h c List.mem_cons_self
      have hne : c ≠ '-' := by
        rintro rfl
        simp at hc
      simp [takeMinus, minus, hne]

theorem readNumber_append {digits fraction exponent : List Char} (negative : Bool)
    (h : isWhole digits = true) (hfraction : isFraction fraction = true)
    (hexponent : isExponent exponent = true) :
    readNumber (minus negative ++ (digits ++ (fraction ++ exponent))) =
      if (fraction ++ exponent).isEmpty then
        some (.integer (signed negative (Nat.ofDigitChars 10 digits 0)))
      else
        some (.decimal (String.ofList (minus negative ++ (digits ++ (fraction ++ exponent))))) := by
  have hmark : ∀ c ∈ fraction, (!isExponentMark c) = true := by
    intro c hc
    rcases mem_of_isFraction hfraction hc with rfl | hdigit
    · rfl
    · simp [not_isExponentMark_of_isDigit hdigit]
  have hexp : ∀ c ∈ exponent.head?, (!isExponentMark c) = false := by
    intro c hc
    simp [head_of_isExponent hexponent c hc]
  have hmore : ∀ c ∈ (fraction ++ exponent).head?, c.isDigit = false := by
    intro c hc
    cases fraction with
    | nil =>
      by_contra hdigit
      have := not_isExponentMark_of_isDigit (by simpa using hdigit)
      simp [head_of_isExponent hexponent c hc] at this
    | cons d ds =>
      obtain rfl : d = c := by simpa using hc
      have hd : d = '.' := (by simpa [isFraction] using hfraction : _ ∧ _).1
      subst hd
      rfl
  -- digits, fraction and exponent are told apart by how the next one starts
  obtain ⟨hdigits, hafter⟩ := span_append (all_isDigit_of_isWhole h) hmore
  obtain ⟨hfrac, hrest⟩ := span_append hmark hexp
  simp [readNumber, takeMinus_append negative h, hdigits, hafter, hfrac, hrest, h, hfraction,
    hexponent]

theorem readPlain_of_number {word : List Char} (h : ∀ c ∈ word.head?, c.isAlpha = false) :
    readPlain word = readNumber word := by
  unfold readPlain
  split
  · simp at h
  · simp at h
  · simp at h
  · rfl

theorem head_number {digits rest : List Char} (negative : Bool) (h : isWhole digits = true) :
    ∀ c ∈ (minus negative ++ (digits ++ rest)).head?, c.isAlpha = false := by
  intro c hc
  cases negative with
  | true =>
    obtain rfl : '-' = c := by simpa [minus] using hc
    rfl
  | false =>
    cases digits with
    | nil => cases h
    | cons d ds =>
      obtain rfl : d = c := by simpa [minus] using hc
      have hd : d.isDigit = true := all_isDigit_of_isWhole h d List.mem_cons_self
      simp [Char.isDigit, Char.isAlpha, Char.isUpper, Char.isLower, UInt32.le_iff_toNat_le] at hd ⊢
      omega

theorem readPlain_of_plain {word : List Char} {d : Datum} (h : Plain word d) :
    readPlain word = some d := by
  cases h with
  | nullName => rfl
  | trueName => rfl
  | falseName => rfl
  | @integer digits negative h =>
    have hnumber := @readNumber_append digits [] [] negative h rfl rfl
    have hhead := @head_number digits [] negative h
    simp only [List.append_nil, List.isEmpty_nil, if_true] at hnumber hhead
    rw [readPlain_of_number hhead, hnumber]
  | @decimal digits fraction exponent negative h hfraction hexponent hmore =>
    have hnumber := readNumber_append negative h hfraction hexponent
    have hempty : (fraction ++ exponent).isEmpty = false := by simpa using hmore
    rw [hempty] at hnumber
    simp only [List.append_assoc] at hnumber ⊢
    rw [readPlain_of_number (head_number negative h), hnumber]
    rfl

/-! ### Tokens -/

/-- No number and no name goes on here. -/
def EndsWord (rest : List Char) : Prop :=
  ∀ c ∈ rest.head?, isWordChar c = false

inductive Spells : List Char → List Token → Prop where
  | done : Spells [] []
  | space {c : Char} {cs : List Char} {ts : List Token} (hc : isSpace c = true)
      (h : Spells cs ts) : Spells (c :: cs) ts
  | mark {c : Char} {cs : List Char} {ts : List Token} (hc : isMark c = true)
      (h : Spells cs ts) : Spells (c :: cs) (.mark c :: ts)
  | text {cs s rest : List Char} {ts : List Token} (hs : Inside cs s rest) (h : Spells rest ts) :
      Spells ('"' :: cs) (.text (String.ofList s) :: ts)
  | plain {word rest : List Char} {d : Datum} {ts : List Token} (hd : Plain word d)
      (hends : EndsWord rest) (h : Spells rest ts) : Spells (word ++ rest) (.plain d :: ts)

def readTokens : Nat → List Char → Option (List Token)
  | _, [] => some []
  | 0, _ :: _ => none
  | fuel + 1, c :: cs =>
    if isSpace c then readTokens fuel cs
    else if isMark c then (readTokens fuel cs).map (Token.mark c :: ·)
    else if c = '"' then do
      let (s, rest) ← readInside cs.length cs
      return .text (String.ofList s) :: (← readTokens fuel rest)
    else do
      let d ← readPlain ((c :: cs).takeWhile isWordChar)
      return .plain d :: (← readTokens fuel ((c :: cs).dropWhile isWordChar))

theorem isWordChar_of_isDigit {c : Char} (h : c.isDigit = true) : isWordChar c = true := by
  simp [isWordChar, Char.isAlphanum, h]

theorem isWordChar_of_isExponent {exponent : List Char} (h : isExponent exponent = true) :
    ∀ c ∈ exponent, isWordChar c = true := by
  have hmark : ∀ c, isExponentMark c = true → isWordChar c = true := by
    intro c hc
    simp only [isExponentMark, Bool.or_eq_true, beq_iff_eq] at hc
    rcases hc with rfl | rfl
    · rfl
    · rfl
  have hdigits : ∀ cs, areDigits cs = true → ∀ c ∈ cs, isWordChar c = true := by
    intro cs hcs c hc
    simp only [areDigits, Bool.and_eq_true, List.all_eq_true] at hcs
    exact isWordChar_of_isDigit (hcs.2 c hc)
  unfold isExponent at h
  split at h
  · simp
  · simp only [Bool.and_eq_true] at h
    simpa [hmark _ h.1] using ⟨rfl, hdigits _ h.2⟩
  · simp only [Bool.and_eq_true] at h
    simpa [hmark _ h.1] using ⟨rfl, hdigits _ h.2⟩
  · simp only [Bool.and_eq_true] at h
    simpa [hmark _ h.1] using hdigits _ h.2

theorem Plain.isWordChar {word : List Char} {d : Datum} (h : Plain word d) :
    ∀ c ∈ word, isWordChar c = true := by
  have hminus : ∀ negative, ∀ c ∈ minus negative, JsonText.isWordChar c = true := by
    simp [minus, JsonText.isWordChar]
  cases h with
  | nullName => simp [JsonText.isWordChar]
  | trueName => simp [JsonText.isWordChar]
  | falseName => simp [JsonText.isWordChar]
  | integer negative h =>
    intro c hc
    rcases List.mem_append.mp hc with hc | hc
    · exact hminus negative c hc
    · exact isWordChar_of_isDigit (all_isDigit_of_isWhole h c hc)
  | decimal negative h hfraction hexponent hmore =>
    intro c hc
    simp only [List.mem_append] at hc
    rcases hc with ((hc | hc) | hc) | hc
    · exact hminus negative c hc
    · exact isWordChar_of_isDigit (all_isDigit_of_isWhole h c hc)
    · rcases mem_of_isFraction hfraction hc with rfl | hdigit
      · rfl
      · exact isWordChar_of_isDigit hdigit
    · exact isWordChar_of_isExponent hexponent c hc

theorem Plain.ne_nil {word : List Char} {d : Datum} (h : Plain word d) : word ≠ [] := by
  cases h with
  | nullName => simp
  | trueName => simp
  | falseName => simp
  | integer negative h => simp [ne_nil_of_isWhole h]
  | decimal negative h hfraction hexponent hmore => simp [ne_nil_of_isWhole h]

theorem not_mark_of_isWordChar {c : Char} (h : isWordChar c = true) :
    isSpace c = false ∧ isMark c = false ∧ c ≠ '"' := by
  have hothers : ∀ d ∈ [' ', '\n', '\r', '\t', '[', ']', '{', '}', ',', ':', '"'],
      isWordChar d = false := by simp [isWordChar]
  have hne : ∀ d ∈ [' ', '\n', '\r', '\t', '[', ']', '{', '}', ',', ':', '"'], c ≠ d := by
    rintro d hd rfl
    have hfalse := hothers _ hd
    simp [h] at hfalse
  simpa [isSpace, isMark, and_assoc] using hne

theorem not_isSpace_of_isMark {c : Char} (h : isMark c = true) : isSpace c = false := by
  have hmarks : ∀ d ∈ ['[', ']', '{', '}', ',', ':'], isSpace d = false := by simp [isSpace]
  exact hmarks c (by simpa [isMark] using h)

theorem readTokens_of_spells {cs : List Char} {ts : List Token} (h : Spells cs ts) {fuel : Nat}
    (hfuel : cs.length ≤ fuel) : readTokens fuel cs = some ts := by
  induction h generalizing fuel with
  | done => simp [readTokens]
  | space hc h ih =>
    cases fuel with
    | zero => simp at hfuel
    | succ fuel => simp [readTokens, hc, ih (by simpa using hfuel)]
  | @mark c cs ts hc h ih =>
    cases fuel with
    | zero => simp at hfuel
    | succ fuel =>
      simp [readTokens, not_isSpace_of_isMark hc, hc, ih (by simpa using hfuel)]
  | text hs h ih =>
    cases fuel with
    | zero => simp at hfuel
    | succ fuel =>
      have hlt := hs.length_lt
      have hrest := ih (show _ ≤ fuel by simp at hfuel; omega)
      have hspace : isSpace '"' = false := rfl
      have hmark : isMark '"' = false := rfl
      simp [readTokens, hspace, hmark, readInside_of_inside hs (Nat.le_refl _), hrest]
  | @plain word rest d ts hd hends h ih =>
    -- what follows a word does not go on with it, so all of the word is taken and no more
    obtain ⟨htake, hdrop⟩ := span_append hd.isWordChar hends
    cases word with
    | nil => exact absurd rfl hd.ne_nil
    | cons c cs =>
      cases fuel with
      | zero => simp at hfuel
      | succ fuel =>
        obtain ⟨hspace, hmark, hquote⟩ := not_mark_of_isWordChar (hd.isWordChar c List.mem_cons_self)
        have hrest := ih (show _ ≤ fuel by simp at hfuel; omega)
        simp only [List.cons_append] at htake hdrop ⊢
        simp [readTokens, hspace, hmark, hquote, htake, hdrop, readPlain_of_plain hd, hrest]

/-! ### Values -/

/-- Gives a name a value; a name that is there keeps its place. -/
def putMember (name : String) (value : Datum) :
    List (String × Datum) → List (String × Datum)
  | [] => [(name, value)]
  | m :: rest => if m.1 = name then (name, value) :: rest else m :: putMember name value rest

def collect (members : List (String × Datum)) : List (String × Datum) :=
  members.foldl (fun done m => putMember m.1 m.2 done) []

theorem putMember_of_notMem {name : String} {value : Datum} {done : List (String × Datum)}
    (h : name ∉ done.map Prod.fst) : putMember name value done = done ++ [(name, value)] := by
  induction done with
  | nil => rfl
  | cons m rest ih =>
    simp only [List.map_cons, List.mem_cons, not_or] at h
    simp [putMember, Ne.symm h.1, ih h.2]

/-- Members with different names stay as they are. -/
theorem collect_of_nodup {members : List (String × Datum)}
    (h : (members.map Prod.fst).Nodup) : collect members = members := by
  have hfold : ∀ done : List (String × Datum), ((done ++ members).map Prod.fst).Nodup →
      members.foldl (fun done m => putMember m.1 m.2 done) done = done ++ members := by
    clear h
    induction members with
    | nil => simp
    | cons m rest ih =>
      intro done hdone
      have hnew : m.1 ∉ done.map Prod.fst := by
        intro hmem
        simp only [List.map_append, List.map_cons, List.nodup_append] at hdone
        exact hdone.2.2 _ hmem _ List.mem_cons_self rfl
      rw [List.foldl_cons, putMember_of_notMem hnew, ih _ (by simpa using hdone)]
      simp
  simpa [collect] using hfold [] (by simpa using h)

mutual
/-- A value at the front of tokens, and what is left. -/
inductive Value : List Token → Datum → List Token → Prop where
  | text {s : String} {rest : List Token} : Value (.text s :: rest) (.text s) rest
  | plain {d : Datum} {rest : List Token} : Value (.plain d :: rest) d rest
  | emptyList {rest : List Token} : Value (.mark '[' :: .mark ']' :: rest) (.list []) rest
  | list {ts rest : List Token} {items : List Datum} (h : Items ts items rest) :
      Value (.mark '[' :: ts) (.list items) rest
  | emptyObject {rest : List Token} : Value (.mark '{' :: .mark '}' :: rest) (.object []) rest
  | object {ts rest : List Token} {members : List (String × Datum)} (h : Members ts members rest) :
      Value (.mark '{' :: ts) (.object (collect members)) rest

/-- The values of a list behind its first mark, up to its last one. -/
inductive Items : List Token → List Datum → List Token → Prop where
  | last {ts rest : List Token} {d : Datum} (h : Value ts d (.mark ']' :: rest)) : Items ts [d] rest
  | more {ts us rest : List Token} {d : Datum} {ds : List Datum}
      (h : Value ts d (.mark ',' :: us)) (hmore : Items us ds rest) : Items ts (d :: ds) rest

inductive Members : List Token → List (String × Datum) → List Token → Prop where
  | last {ts rest : List Token} {name : String} {d : Datum} (h : Value ts d (.mark '}' :: rest)) :
      Members (.text name :: .mark ':' :: ts) [(name, d)] rest
  | more {ts us rest : List Token} {name : String} {d : Datum} {ms : List (String × Datum)}
      (h : Value ts d (.mark ',' :: us)) (hmore : Members us ms rest) :
      Members (.text name :: .mark ':' :: ts) ((name, d) :: ms) rest
end

/-- A list or an object that is not closed yet, with what is in it so far. -/
inductive Frame where
  | list (done : List Datum)
  | member (done : List (String × Datum)) (name : String)

mutual
/-- Reads on where a value has to come; `stack` holds what is open around it, innermost first. -/
def readValue (stack : List Frame) : List Token → Option Datum
  | .text s :: rest => readAfter (.text s) stack rest
  | .plain d :: rest => readAfter d stack rest
  | .mark '[' :: .mark ']' :: rest => readAfter (.list []) stack rest
  | .mark '[' :: rest => readValue (.list [] :: stack) rest
  | .mark '{' :: .mark '}' :: rest => readAfter (.object []) stack rest
  | .mark '{' :: .text name :: .mark ':' :: rest => readValue (.member [] name :: stack) rest
  | _ => none

def readAfter (d : Datum) : List Frame → List Token → Option Datum
  | [], [] => some d
  | .list done :: stack, .mark ',' :: rest => readValue (.list (done ++ [d]) :: stack) rest
  | .list done :: stack, .mark ']' :: rest => readAfter (.list (done ++ [d])) stack rest
  | .member done name :: stack, .mark ',' :: .text next :: .mark ':' :: rest =>
    readValue (.member (putMember name d done) next :: stack) rest
  | .member done name :: stack, .mark '}' :: rest =>
    readAfter (.object (putMember name d done)) stack rest
  | _, _ => none
end

theorem not_value_of_close {rest more : List Token} {d : Datum} :
    ¬ Value (.mark ']' :: rest) d more := by
  intro h
  cases h

theorem not_items_of_close {rest more : List Token} {ds : List Datum} :
    ¬ Items (.mark ']' :: rest) ds more := by
  intro h
  cases h with
  | last h => exact not_value_of_close h
  | more h _ => exact not_value_of_close h

theorem Members.exists_name {ts rest : List Token} {ms : List (String × Datum)}
    (h : Members ts ms rest) : ∃ name us, ts = .text name :: .mark ':' :: us := by
  cases h with
  | last h => exact ⟨_, _, rfl⟩
  | more h hmore => exact ⟨_, _, rfl⟩

mutual
/-- Reading a value leaves the reader behind it, with the same things open. -/
theorem readValue_of_value {ts rest : List Token} {d : Datum} (h : Value ts d rest)
    (stack : List Frame) : readValue stack ts = readAfter d stack rest :=
  match h with
  | .text => by rw [readValue]
  | .plain => by rw [readValue]
  | .emptyList => by rw [readValue]
  | .list hitems => by
    rw [readValue]
    · exact readValue_of_items hitems [] stack
    · rintro more rfl
      exact not_items_of_close hitems
  | .emptyObject => by rw [readValue]
  | .object hmembers => by
    obtain ⟨name, us, hts⟩ := hmembers.exists_name
    have hread := readValue_of_members hmembers hts [] stack
    rw [hts, readValue]
    exact hread

theorem readValue_of_items {ts rest : List Token} {ds : List Datum} (h : Items ts ds rest)
    (done : List Datum) (stack : List Frame) :
    readValue (.list done :: stack) ts = readAfter (.list (done ++ ds)) stack rest :=
  match h with
  | .last hvalue => by rw [readValue_of_value hvalue, readAfter]
  | .more hvalue hmore => by
    rw [readValue_of_value hvalue, readAfter, readValue_of_items hmore, List.append_assoc,
      List.singleton_append]

theorem readValue_of_members {ts us rest : List Token} {ms : List (String × Datum)}
    (h : Members ts ms rest) {name : String} (hts : ts = .text name :: .mark ':' :: us)
    (done : List (String × Datum)) (stack : List Frame) :
    readValue (.member done name :: stack) us =
      readAfter (.object (ms.foldl (fun done m => putMember m.1 m.2 done) done)) stack rest :=
  match h with
  | .last hvalue => by
    have hread := readValue_of_value hvalue (.member done name :: stack)
    cases hts
    rw [hread, readAfter]
    rfl
  | .more hvalue hmore => by
    have hread := readValue_of_value hvalue (.member done name :: stack)
    obtain ⟨next, vs, hvs⟩ := hmore.exists_name
    have hrest := readValue_of_members hmore hvs
    cases hts
    rw [hread, hvs, readAfter, hrest]
    rfl
end

/-! ### Documents -/

/-- A text is valid and stands for a value. -/
def Denotes (text : String) (d : Datum) : Prop :=
  ∃ ts, Spells text.toList ts ∧ Value ts d []

def read (text : String) : Option Datum := do
  readValue [] (← readTokens text.toList.length text.toList)

/-- Every valid text is read as what it stands for. -/
theorem read_of_denotes {text : String} {d : Datum} (h : Denotes text d) : read text = some d := by
  obtain ⟨ts, hspells, hvalue⟩ := h
  have htokens := readTokens_of_spells hspells (Nat.le_refl _)
  have hread := readValue_of_value hvalue []
  rw [readAfter] at hread
  simp [read, htokens, hread]

example : read "\x7b\"a\": 1, \"b\": [-2.5e3, \"\\ud83d\\ude00\"], \"a\": null\x7d" =
    some (.object [("a", .null), ("b", .list [.decimal "-2.5e3", .text "😀"])]) := by cbv

example : read "[1,]" = none := by cbv

end CallAtlas.JsonText
