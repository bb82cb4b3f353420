/-
Module: SealedMatch.Packed.PrefixCode
Purpose: Prefix codes given by the lengths of their words.
Trusted boundary: none
Main exports: PrefixCode, PrefixCode.ofLengths?, PrefixCode.next?
-/
import SealedMatch.Packed.Source

namespace SealedMatch

/-- A prefix code whose words grow with their length and, among words of one length, with their
symbol: how many words there are of each length from one bit on, and the symbols in this order. -/
structure PrefixCode where
  counts : List Nat
  symbols : Array Nat

namespace PrefixCode

/-- The greatest length of a word. -/
def mostBits : Nat := 15

/-- How many words of a further bit there is room for, after words of the given counts; `none` if
there are more words than room. -/
def room : Nat → List Nat → Option Nat
  | left, [] => some left
  | left, count :: longer => if 2 * left < count then none else room (2 * left - count) longer

/-- The code of word lengths, symbol by symbol; symbols of length zero have no word. There may be no
more words than there is room for. Room may be left only if there is at most one word, of one bit,
and only where that is allowed. -/
def ofLengths? (lengths : List Nat) (single : Bool) : Option PrefixCode :=
  let numbered := lengths.zipIdx
  let ofLength (n : Nat) : List Nat := (numbered.filter fun entry => entry.1 = n).map Prod.snd
  let groups := (List.range mostBits).map fun n => ofLength (n + 1)
  let code : PrefixCode := ⟨groups.map List.length, groups.flatten.toArray⟩
  let longest := lengths.foldl max 0
  match room 1 code.counts with
  | none => none
  | some left =>
    if left = 0 ∨ longest = 0 ∨ (single ∧ longest = 1) then some code else none

/-- Read a word bit by bit. `word` holds its bits so far, `first` the first word of this length, and
`index` the number of shorter words. No word is read further than words go. -/
def nextFrom (c : PrefixCode) (word first index : Nat) : List Nat → Unpack (Option Nat)
  | [] => pure none
  | count :: longer => do
    let word := 2 * word + (← lowBits 1)
    let first := 2 * first
    if word < first + count then pure c.symbols[index + (word - first)]?
    else if index + count = c.symbols.size then pure none
    else nextFrom c word (first + count) (index + count) longer

/-- Read a word and tell its symbol, if there is such a word. -/
def next? (c : PrefixCode) : Unpack (Option Nat) := c.nextFrom 0 0 0 c.counts

end PrefixCode

end SealedMatch
