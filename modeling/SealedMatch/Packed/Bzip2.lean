/-
Module: SealedMatch.Packed.Bzip2
Purpose: Bzip2 files: blocks of sorted bytes, coded by their move to the front.
Trusted boundary: none
Main exports: bunzip2
-/
import SealedMatch.Packed.Checksum
import SealedMatch.Packed.Source

namespace SealedMatch

namespace Bzip2

/-- Break a rule. -/
def broken {α : Type} : Unpack α := meet .bzip2

/-- Demand a condition. -/
def require (condition : Bool) : Unpack Unit := demand condition .bzip2

/-- The greatest length of a word. -/
def mostBits : Nat := 20

/-- How many words are read with one table. -/
def groupSize : Nat := 50

/-- How many choices of tables count. -/
def mostSelectors : Nat := 18002

/-- How words of each length are told: below `limit` a word ends, and its symbol stands at the word
less `base`. -/
structure WordTable where
  least : Nat
  limit : Array Int
  base : Array Int
  symbols : Array Nat

/-- The table of the word lengths of all symbols. -/
def WordTable.ofLengths (lengths : List Nat) : WordTable :=
  let least := lengths.foldl min 32
  let longest := lengths.foldl max 0
  let counted := (List.range (mostBits + 3)).map fun n => (lengths.filter (· < n)).length
  let fill (tables : Array Int × Array Int × Int) (n : Nat) : Array Int × Array Int × Int :=
    let (limit, base, word) := tables
    let shorter : Int := counted.getD n 0
    let word := word + (counted.getD (n + 1) 0 - shorter)
    let base := if n = least then base
      else base.set! n (2 * (limit.getD (n - 1) 0 + 1) - shorter)
    (limit.set! n (word - 1), base, 2 * word)
  let none : Array Int := Array.replicate (mostBits + 3) 0
  let start : Array Int := (counted.map Int.ofNat).toArray
  let (limit, base, _) := ((List.range (longest + 1)).drop least).foldl fill (none, start, 0)
  let ofLength (n : Nat) : List Nat :=
    (lengths.zipIdx.filter fun entry => entry.1 = n).map Prod.snd
  ⟨least, limit, base, ((List.range (mostBits + 1)).flatMap ofLength).toArray⟩

/-- Read a word of `length` bits or more. Only so many further bits are tried. -/
def WordTable.nextFrom (t : WordTable) (word length : Nat) : Nat → Unpack Nat
  | 0 => broken
  | more + 1 =>
    if (word : Int) ≤ t.limit.getD length 0 then do
      let place := (word : Int) - t.base.getD length 0
      require (0 ≤ place && place < 258)
      pure (t.symbols.getD place.toNat 0)
    else if more = 0 then broken
    else do
      let word := 2 * word + (← highBits 1)
      t.nextFrom word (length + 1) more

/-- Read a word and tell its symbol. -/
def WordTable.next (t : WordTable) : Unpack Nat := do
  let word ← highBits t.least
  t.nextFrom word t.least (mostBits + 1 - t.least)

/-- The tables of a block and the order in which they are used, one for every group of words. -/
structure Tables where
  tables : Array WordTable
  selectors : List Nat

/-- The tables, and how many words are still read with the first of them. -/
structure TableReader where
  tables : Array WordTable
  selectors : List Nat
  left : Nat

/-- Read a word with the table whose turn it is. -/
def TableReader.next (r : TableReader) : Unpack (Nat × TableReader) := do
  let (selectors, left) :=
    if r.left = 0 then (r.selectors.drop 1, groupSize) else (r.selectors, r.left)
  match (selectors.head?).bind fun i => r.tables[i]? with
  | none => broken
  | some table =>
    let symbol ← table.next
    pure (symbol, { r with selectors := selectors, left := left - 1 })

/-- Move an entry to the front. -/
def toFront (xs : List Nat) (place : Nat) : List Nat :=
  xs.getD place 0 :: xs.eraseIdx place

/-- Read how far the entry that comes to the front lies back: so many ones, then a zero. -/
def readUnary (limit : Nat) : Nat → Unpack Nat
  | 0 => broken
  | fuel + 1 => do
    if (← highBits 1) = 0 then pure 0
    else
      require (0 < limit)
      let more ← readUnary (limit - 1) fuel
      pure (more + 1)

/-- Read the order in which tables are used. Only so many of its entries are kept. -/
def readSelectors (kinds : Nat) (recent : List Nat) : Nat → List Nat → Unpack (List Nat)
  | 0, done => pure done.reverse
  | count + 1, done => do
    let back ← readUnary (kinds - 1) (kinds + 1)
    let recent := toFront recent back
    readSelectors kinds recent count (recent.headD 0 :: done)

/-- Read a length that differs from the one before: more or less by one, as often as needed. -/
def readLength (length : Nat) : Nat → Unpack Nat
  | 0 => broken
  | fuel + 1 => do
    require (1 ≤ length && length ≤ mostBits)
    if (← highBits 1) = 0 then pure length
    else if (← highBits 1) = 0 then readLength (length + 1) fuel
    else readLength (length - 1) fuel

/-- Read the lengths of the words of a table. -/
def readLengths (length : Nat) : Nat → List Nat → Unpack (List Nat)
  | 0, done => pure done.reverse
  | count + 1, done => do
    let length ← readLength length ((← get).bitsLeft + 1)
    readLengths length count (length :: done)

/-- Read some tables for an alphabet. -/
def readTables (alphabet : Nat) : Nat → Array WordTable → Unpack (Array WordTable)
  | 0, done => pure done
  | count + 1, done => do
    let length ← highBits 5
    let lengths ← readLengths length alphabet []
    readTables alphabet count (done.push (.ofLengths lengths))

/-- Read the bytes that occur in a block: a bit for every sixteen, then a bit for each. -/
def readUsed : Unpack (List Nat) := do
  let bits ← (List.range 16).mapM fun _ => highBits 1
  let groups ← bits.zipIdx.mapM fun (bit, group) =>
    if bit = 0 then pure []
    else do
      let inside ← (List.range 16).mapM fun _ => highBits 1
      pure ((inside.zipIdx.filter fun entry => entry.1 = 1).map fun entry => group * 16 + entry.2)
  pure groups.flatten

/-- Read a repeat count, whose digits one and two grow by powers of two; tell the count and the word
behind it. -/
def readRun (r : TableReader) (symbol weight run : Nat) :
    Nat → Unpack (Nat × Nat × TableReader)
  | 0 => broken
  | fuel + 1 =>
    if symbol ≤ 1 then do
      require (weight < 2 ^ 21)
      let (next, r) ← r.next
      readRun r next (2 * weight) (run + (symbol + 1) * weight) fuel
    else pure (run, symbol, r)

/-- Read the words of a block up to its end. -/
def readWords (used : Nat) (most : Nat) (r : TableReader) (recent : List Nat) (symbol : Nat) :
    Nat → Array Nat → Unpack (Array Nat)
  | 0, _ => broken
  | fuel + 1, done =>
    if symbol = used + 1 then pure done
    else if symbol ≤ 1 then do
      let (run, symbol, r) ← readRun r symbol 1 0 (fuel + 1)
      require (done.size + run ≤ most)
      readWords used most r recent symbol fuel (done ++ Array.replicate run (recent.headD 0))
    else do
      require (done.size < most)
      let recent := toFront recent (symbol - 1)
      let (symbol, r) ← r.next
      readWords used most r recent symbol fuel (done.push (recent.headD 0))

/-- Where the first byte of each value goes when bytes are sorted. -/
def startsOf (bytes : Array Nat) : Array Nat :=
  let counts := bytes.foldl (fun counts b => counts.modify b (· + 1)) (Array.replicate 256 0)
  (counts.foldl (fun (starts, sum) n => (starts.push sum, sum + n)) (#[], 0)).1

/-- For every place of the sorted bytes, the place that its byte has in the unsorted ones. -/
def links (bytes : Array Nat) : Array Nat :=
  let link (state : Array Nat × Array Nat × Nat) (b : Nat) : Array Nat × Array Nat × Nat :=
    let (links, starts, i) := state
    (links.set! (starts.getD b 0) i, starts.modify b (· + 1), i + 1)
  (bytes.foldl link (Array.replicate bytes.size 0, startsOf bytes, 0)).1

/-- Follow the links through all bytes. -/
def follow (bytes links : Array Nat) (place : Nat) : Nat → List Nat
  | 0 => []
  | count + 1 => bytes.getD place 0 :: follow bytes links (links.getD place 0) count

/-- Undo the sorting of bytes of which the one at `origin` is the first. -/
def unsort (bytes : Array Nat) (origin : Nat) : List Nat :=
  let ls := links bytes
  follow bytes ls (ls.getD origin 0) bytes.size

/-- Expand runs: behind four equal bytes stands how many more there are. `last` is the byte before,
and `run` how many of it stand there. Four equal bytes may not end a block. -/
def expandRuns (last run : Nat) : List Nat → ByteArray → Option ByteArray
  | [], out => if run = 4 then none else some out
  | b :: rest, out =>
    if run = 4 then
      expandRuns last 0 rest (b.fold (fun _ _ out => out.push (UInt8.ofNat last)) out)
    else if run ≠ 0 ∧ b = last then expandRuns last (run + 1) rest (out.push (UInt8.ofNat b))
    else expandRuns b 1 rest (out.push (UInt8.ofNat b))

/-- Read a block behind its mark: its bytes and its checksum, which must agree. -/
def readBlock (level : Nat) : Unpack (ByteArray × UInt32) := do
  let stored ← highBits 32
  let _ ← highBits 1
  let origin ← highBits 24
  let most := 100000 * level
  require (origin ≤ 10 + most)
  let used ← readUsed
  require (!used.isEmpty)
  let kinds ← highBits 3
  require (2 ≤ kinds && kinds ≤ 6)
  let count ← highBits 15
  require (1 ≤ count)
  let selectors ← readSelectors kinds (List.range kinds) count []
  let tables ← readTables (used.length + 2) kinds #[]
  let reader : TableReader := ⟨tables, selectors.take mostSelectors, groupSize⟩
  let (symbol, reader) ← reader.next
  let bytes ← readWords used.length most reader used symbol ((← get).bitsLeft + 2) #[]
  require (origin < bytes.size)
  match expandRuns 0 0 (unsort bytes origin) ByteArray.empty with
  | none => broken
  | some data =>
    require ((crc32High data.toList).toNat = stored)
    pure (data, UInt32.ofNat stored)

/-- Read bytes that must be there. -/
def readMark : List UInt8 → Unpack Unit
  | [] => pure ()
  | b :: rest => do
    require ((← highBits 8) = b.toNat)
    readMark rest

/-- Read blocks up to the end of a stream; `sum` combines the checksums of the blocks so far. -/
def readBlocks (level : Nat) : Nat → UInt32 → ByteArray → Unpack ByteArray
  | 0, _, _ => broken
  | fuel + 1, sum, out => do
    let mark ← highBits 8
    if mark = 0x17 then
      readMark [0x72, 0x45, 0x38, 0x50, 0x90]
      require ((← highBits 32) = sum.toNat)
      pure out
    else
      require (mark = 0x31)
      readMark [0x41, 0x59, 0x26, 0x53, 0x59]
      let (data, checksum) ← readBlock level
      let sum := ((sum <<< 1) ||| (sum >>> 31)) ^^^ checksum
      readBlocks level fuel sum (out ++ data)

/-- Read a stream. -/
def readStream : Unpack ByteArray := do
  readMark [0x42, 0x5A, 0x68]
  let level ← highBits 8
  require (0x31 ≤ level && level ≤ 0x39)
  let data ← readBlocks (level - 0x30) ((← get).bitsLeft + 1) 0 ByteArray.empty
  alignByte
  pure data

end Bzip2

/-- Unpack a bzip2 file. -/
def bunzip2 (bytes : ByteArray) : Except PackedDefect ByteArray :=
  (readStreams Bzip2.readStream (· == .bzip2) (bytes.size + 1)).start bytes

end SealedMatch
