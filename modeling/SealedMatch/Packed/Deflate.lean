/-
Module: SealedMatch.Packed.Deflate
Purpose: Deflated data: blocks of literal bytes and of references to earlier ones.
Trusted boundary: none
Main exports: inflate
-/
import SealedMatch.Packed.PrefixCode

namespace SealedMatch

namespace Deflate

/-- The least length, and the number of further bits, for each symbol of a length. -/
def lengths : Array (Nat × Nat) :=
  #[(3, 0), (4, 0), (5, 0), (6, 0), (7, 0), (8, 0), (9, 0), (10, 0), (11, 1), (13, 1), (15, 1),
    (17, 1), (19, 2), (23, 2), (27, 2), (31, 2), (35, 3), (43, 3), (51, 3), (59, 3), (67, 4),
    (83, 4), (99, 4), (115, 4), (131, 5), (163, 5), (195, 5), (227, 5), (258, 0)]

/-- The least distance, and the number of further bits, for each symbol of a distance. -/
def distances : Array (Nat × Nat) :=
  #[(1, 0), (2, 0), (3, 0), (4, 0), (5, 1), (7, 1), (9, 2), (13, 2), (17, 3), (25, 3), (33, 4),
    (49, 4), (65, 5), (97, 5), (129, 6), (193, 6), (257, 7), (385, 7), (513, 8), (769, 8),
    (1025, 9), (1537, 9), (2049, 10), (3073, 10), (4097, 11), (6145, 11), (8193, 12), (12289, 12),
    (16385, 13), (24577, 13)]

/-- The order in which the word lengths of the code for word lengths stand. -/
def lengthOrder : List Nat :=
  [16, 17, 18, 0, 8, 7, 9, 6, 10, 5, 11, 4, 12, 3, 13, 2, 14, 1, 15]

/-- The symbol that ends a block. -/
def blockEnd : Nat := 256

/-- Read a number that begins at a least one and goes on for some bits. -/
def readFrom (range? : Option (Nat × Nat)) (rule : String) : Unpack Nat :=
  match range? with
  | none => meet (.deflate rule)
  | some (least, bits) => do
    let more ← lowBits bits
    pure (least + more)

/-- Read the symbol of a distance, and the distance. -/
def readDistance (code : PrefixCode) : Unpack Nat := do
  match ← code.next? with
  | none => meet (.deflate "invalid distance code")
  | some symbol => readFrom distances[symbol]? "invalid distance code"

/-- Read the symbols of a block up to its end. Every symbol takes a bit at least, so the number of
bits is fuel enough. -/
def readSymbols (literals distances : PrefixCode) : Nat → ByteArray → Unpack ByteArray
  | 0, _ => meet .unfinished
  | fuel + 1, out => do
    match ← literals.next? with
    | none => meet (.deflate "invalid literal/length code")
    | some symbol =>
      if symbol < blockEnd then
        readSymbols literals distances fuel (out.push (UInt8.ofNat symbol))
      else if symbol = blockEnd then pure out
      else
        let count ← readFrom lengths[symbol - blockEnd - 1]? "invalid literal/length code"
        let distance ← readDistance distances
        demand (distance ≤ out.size) (.deflate "invalid distance too far back")
        readSymbols literals distances fuel (copyBack out distance count)

/-- Read the word lengths of the codes of a block up to `total` of them. A length may be
repeated. -/
def readLengths (code : PrefixCode) (total : Nat) : Nat → Array Nat → Unpack (Array Nat)
  | 0, done => pure done
  | fuel + 1, done =>
    if total ≤ done.size then pure done
    else do
      let symbol := (← code.next?).getD 0
      if symbol < 16 then readLengths code total fuel (done.push symbol)
      else
        let (least, bits) :=
          if symbol = 16 then (3, 2) else if symbol = 17 then (3, 3) else (11, 7)
        let count := least + (← lowBits bits)
        let repeated? := if symbol = 16 then done.back? else some 0
        match repeated? with
        | none => meet (.deflate "invalid bit length repeat")
        | some length =>
          demand (done.size + count ≤ total) (.deflate "invalid bit length repeat")
          readLengths code total fuel (done ++ Array.replicate count length)

/-- The code of word lengths that must be sound. -/
def codeOf (lengths : List Nat) (single : Bool) (rule : String) : Unpack PrefixCode :=
  match PrefixCode.ofLengths? lengths single with
  | some code => pure code
  | none => meet (.deflate rule)

/-- Read the two codes of a block that brings its own. -/
def readCodes : Unpack (PrefixCode × PrefixCode) := do
  let sizes ← lowBits 14
  let literalCount := sizes % 32 + 257
  let distanceCount := sizes / 32 % 32 + 1
  let codeCount := sizes / 1024 + 4
  demand (literalCount ≤ 286 && distanceCount ≤ 30)
    (.deflate "too many length or distance symbols")
  let given ← (lengthOrder.take codeCount).mapM fun symbol => do
    pure (symbol, ← lowBits 3)
  let code ←
    codeOf ((List.range 19).map fun symbol => (given.lookup symbol).getD 0) false
      "invalid code lengths set"
  let total := literalCount + distanceCount
  let lengths := (← readLengths code total total #[]).toList
  demand (lengths.getD blockEnd 0 ≠ 0) (.deflate "invalid code -- missing end-of-block")
  let literals ← codeOf (lengths.take literalCount) true "invalid literal/lengths set"
  let distances ← codeOf (lengths.drop literalCount) true "invalid distances set"
  pure (literals, distances)

/-- The word lengths of literals and lengths in a block without codes of its own. -/
def fixedLiterals : List Nat :=
  List.replicate 144 8 ++ List.replicate 112 9 ++ List.replicate 24 7 ++ List.replicate 8 8

/-- The two codes of a block without codes of its own. -/
def fixedCodes : Unpack (PrefixCode × PrefixCode) := do
  let literals ← codeOf fixedLiterals true "invalid literal/lengths set"
  let distances ← codeOf (List.replicate 32 5) true "invalid distances set"
  pure (literals, distances)

/-- Read bytes that stand as they are. -/
def readStored (out : ByteArray) : Unpack ByteArray := do
  alignByte
  let sizes ← nextNumber 4
  let count := sizes % 2 ^ 16
  demand (count + sizes / 2 ^ 16 = 2 ^ 16 - 1) (.deflate "invalid stored block lengths")
  let bytes ← nextBytes count
  pure (bytes.foldl ByteArray.push out)

/-- Read the symbols of a block. -/
def readCoded (codes : Unpack (PrefixCode × PrefixCode)) (out : ByteArray) :
    Unpack ByteArray := do
  let (literals, distances) ← codes
  readSymbols literals distances ((← get).bitsLeft + 1) out

/-- Read blocks up to the last one. Every block takes a bit at least, so the number of bits is fuel
enough. -/
def readBlocks : Nat → ByteArray → Unpack ByteArray
  | 0, _ => meet .unfinished
  | fuel + 1, out => do
    let head ← lowBits 3
    let out ←
      if head / 2 = 0 then readStored out
      else if head / 2 = 1 then readCoded fixedCodes out
      else if head / 2 = 2 then readCoded readCodes out
      else meet (.deflate "invalid block type")
    if head % 2 = 1 then pure out else readBlocks fuel out

end Deflate

/-- Unpack deflated data, which tell their end themselves. -/
def inflate : Unpack ByteArray := do
  Deflate.readBlocks ((← get).bitsLeft + 1) ByteArray.empty

end SealedMatch
