/-!
Text held as octets. `decode` reads every octet string: a well-formed sequence gives its
character, and each longest run of octets that starts a sequence without finishing it gives one
replacement character. `fault?` finds the first such run and says why it is none.
-/

set_option autoImplicit false

namespace CallAtlas.Text.Utf8

/-- Stands in the decoded text for octets that are no character. -/
def replacement : Char := Char.ofNat 0xFFFD

/-- A sequence that has begun: how many octets it still wants, the range the next one must lie
in, and the bits read so far. Only the second octet ever has a range of its own; it is what
keeps overlong forms, surrogates and values past the last code point out. -/
structure Pending where
  wanted : Nat
  low : Nat
  high : Nat
  bits : Nat
  deriving DecidableEq, Repr

/-- What a first octet announces. -/
inductive Lead where
  | single (c : Char)
  | start (p : Pending)
  | never
  deriving DecidableEq, Repr

def Lead.of (octet : UInt8) : Lead :=
  let b := octet.toNat
  if b < 0x80 then .single (Char.ofNat b)
  else if b < 0xC2 then .never
  else if b < 0xE0 then .start ⟨1, 0x80, 0xBF, b - 0xC0⟩
  else if b = 0xE0 then .start ⟨2, 0xA0, 0xBF, 0⟩
  else if b = 0xED then .start ⟨2, 0x80, 0x9F, 0xD⟩
  else if b < 0xF0 then .start ⟨2, 0x80, 0xBF, b - 0xE0⟩
  else if b = 0xF0 then .start ⟨3, 0x90, 0xBF, 0⟩
  else if b < 0xF4 then .start ⟨3, 0x80, 0xBF, b - 0xF0⟩
  else if b = 0xF4 then .start ⟨3, 0x80, 0x8F, 4⟩
  else .never

/-- The next octet may go on with the sequence. -/
def Pending.admits (p : Pending) (octet : UInt8) : Bool :=
  p.low ≤ octet.toNat && octet.toNat ≤ p.high

/-- The sequence with one more octet: a character when that was the last one wanted. -/
def Pending.push (p : Pending) (octet : UInt8) : Char ⊕ Pending :=
  let bits := p.bits * 64 + octet.toNat % 64
  if p.wanted ≤ 1 then .inl (Char.ofNat bits)
  else .inr ⟨p.wanted - 1, 0x80, 0xBF, bits⟩

/-- A decoder between two octets: the characters written so far, newest first, and the
sequence under way. -/
structure Decoder where
  written : List Char
  pending : Option Pending
  deriving Repr

def Decoder.start : Decoder := ⟨[], none⟩

/-- Takes an octet that begins a sequence. -/
def Decoder.lead (written : List Char) (octet : UInt8) : Decoder :=
  match Lead.of octet with
  | .single c => ⟨c :: written, none⟩
  | .start p => ⟨written, some p⟩
  | .never => ⟨replacement :: written, none⟩

/-- An octet that a sequence cannot hold ends it and is looked at afresh. -/
def Decoder.feed (d : Decoder) (octet : UInt8) : Decoder :=
  match d.pending with
  | none => Decoder.lead d.written octet
  | some p =>
    if p.admits octet then
      match p.push octet with
      | .inl c => ⟨c :: d.written, none⟩
      | .inr q => ⟨d.written, some q⟩
    else Decoder.lead (replacement :: d.written) octet

/-- The characters in reading order; a sequence cut off by the end counts as one bad run. -/
def Decoder.finish (d : Decoder) : List Char :=
  match d.pending with
  | none => d.written.reverse
  | some _ => (replacement :: d.written).reverse

def decode (octets : List UInt8) : List Char :=
  (octets.foldl Decoder.feed Decoder.start).finish

/-- Why a run of octets is no character. -/
inductive Cause where
  | badStart
  | badContinuation
  | cutOff
  deriving DecidableEq, Repr

def Cause.message : Cause → String
  | .badStart => "invalid start byte"
  | .badContinuation => "invalid continuation byte"
  | .cutOff => "unexpected end of data"

/-- The first run that is no character: where it starts, its octets, and why. -/
structure Fault where
  position : Nat
  octets : List UInt8
  cause : Cause
  deriving DecidableEq, Repr

/-- `run` holds the octets of the sequence under way, newest first. -/
def faultFrom (position : Nat) (run : List UInt8) (pending : Option Pending) :
    List UInt8 → Option Fault
  | [] =>
    match pending with
    | none => none
    | some _ => some ⟨position, run.reverse, .cutOff⟩
  | octet :: rest =>
    match pending with
    | none =>
      match Lead.of octet with
      | .single _ => faultFrom (position + 1) [] none rest
      | .start p => faultFrom position [octet] (some p) rest
      | .never => some ⟨position, [octet], .badStart⟩
    | some p =>
      if p.admits octet then
        match p.push octet with
        | .inl _ => faultFrom (position + run.length + 1) [] none rest
        | .inr q => faultFrom position (octet :: run) (some q) rest
      else some ⟨position, run.reverse, .badContinuation⟩

def fault? (octets : List UInt8) : Option Fault :=
  faultFrom 0 [] none octets

/-- Two lower-case digits of base sixteen. -/
def hexOctet (octet : UInt8) : String :=
  let digit (n : Nat) : Char := "0123456789abcdef".toList.getD n '0'
  String.ofList [digit (octet.toNat / 16), digit (octet.toNat % 16)]

def Fault.message (f : Fault) : String :=
  match f.octets with
  | [octet] =>
    "'utf-8' codec can't decode byte 0x" ++ hexOctet octet ++ " in position "
      ++ toString f.position ++ ": " ++ f.cause.message
  | _ =>
    "'utf-8' codec can't decode bytes in position " ++ toString f.position ++ "-"
      ++ toString (f.position + f.octets.length - 1) ++ ": " ++ f.cause.message

end CallAtlas.Text.Utf8
