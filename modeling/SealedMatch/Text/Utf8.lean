/-
Module: SealedMatch.Text.Utf8
Purpose: Reading UTF-8, with the place and the kind of the first defect.
Trusted boundary: none
Main exports: Utf8Defect, Undecodable, decodeUtf8, encodeUtf8
-/

namespace SealedMatch.Text

/-- What can be wrong with a byte sequence. -/
inductive Utf8Defect where
  /-- A byte that begins no character. -/
  | invalidStart
  /-- A character that is not continued as its first byte demands. -/
  | invalidContinuation
  /-- The end of the data inside a character. -/
  | unexpectedEnd
deriving DecidableEq

/-- The first defect of a byte sequence: where the character begins, its first byte, and how many
of its bytes were sound. -/
structure Undecodable where
  first : UInt8
  position : Nat
  length : Nat
  defect : Utf8Defect
deriving DecidableEq

/-- A character of which some bytes are still to come. The next byte lies between `low` and
`high`. -/
structure PartialChar where
  first : UInt8
  position : Nat
  seen : Nat
  code : Nat
  remaining : Nat
  low : UInt8
  high : UInt8

/-- What the first byte of a longer character announces. The narrowed ranges of the second byte
leave out overlong forms, surrogates and code points past the last. -/
def PartialChar.begin? (b : UInt8) (position : Nat) : Option PartialChar :=
  let announce (bits remaining : Nat) (low high : UInt8) : Option PartialChar :=
    some ⟨b, position, 1, b.toNat % bits, remaining, low, high⟩
  if b < 0xC2 then none
  else if b < 0xE0 then announce 0x20 1 0x80 0xBF
  else if b == 0xE0 then announce 0x10 2 0xA0 0xBF
  else if b == 0xED then announce 0x10 2 0x80 0x9F
  else if b < 0xF0 then announce 0x10 2 0x80 0xBF
  else if b == 0xF0 then announce 0x08 3 0x90 0xBF
  else if b < 0xF4 then announce 0x08 3 0x80 0xBF
  else if b == 0xF4 then announce 0x08 3 0x80 0x8F
  else none

/-- The state after one more sound byte. -/
def PartialChar.extend (p : PartialChar) (b : UInt8) : PartialChar :=
  { p with
    seen := p.seen + 1
    code := p.code * 0x40 + b.toNat % 0x40
    remaining := p.remaining - 1
    low := 0x80
    high := 0xBF }

/-- Decode from a state between two bytes; `done` holds the characters read, the last one first. -/
def decodeFrom (pending? : Option PartialChar) (position : Nat) (done : List Char) :
    List UInt8 → Except Undecodable (List Char)
  | [] =>
    match pending? with
    | none => .ok done.reverse
    | some p => .error ⟨p.first, p.position, p.seen, .unexpectedEnd⟩
  | b :: rest =>
    match pending? with
    | none =>
      if b < 0x80 then decodeFrom none (position + 1) (Char.ofNat b.toNat :: done) rest
      else
        match PartialChar.begin? b position with
        | none => .error ⟨b, position, 1, .invalidStart⟩
        | some p => decodeFrom (some p) (position + 1) done rest
    | some p =>
      if p.low ≤ b ∧ b ≤ p.high then
        let p := p.extend b
        if p.remaining = 0 then decodeFrom none (position + 1) (Char.ofNat p.code :: done) rest
        else decodeFrom (some p) (position + 1) done rest
      else .error ⟨p.first, p.position, p.seen, .invalidContinuation⟩

/-- The characters of a byte sequence, or its first defect. -/
def decodeUtf8 (bytes : ByteArray) : Except Undecodable (List Char) :=
  decodeFrom none 0 [] bytes.toList

/-- The bytes of a text. -/
def encodeUtf8 (s : String) : ByteArray :=
  s.toUTF8

end SealedMatch.Text
