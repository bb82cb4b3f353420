/-
Module: SealedMatch.Packed.Xz
Purpose: Files of LZMA data: streams of checked blocks, and bare ones.
Trusted boundary: none
Main exports: unxz
-/
import SealedMatch.Packed.Checksum
import SealedMatch.Packed.Lzma

namespace SealedMatch

namespace Xz

/-- Break a rule. -/
def require (condition : Bool) : Unpack Unit := demand condition .lzmaData

/-- The size of a dictionary, rounded up as decoders do. -/
def roundedDictionary (size : Nat) : Nat := (max size 4096 + 15) / 16 * 16

/-! ### Chunks -/

/-- A decoder between two chunks, and what the next chunk has to bring. -/
structure ChunkState where
  decoder : LzmaState
  needsReset : Bool
  needsProperties : Bool

/-- Read the properties of a decoder. -/
def readProperties : Unpack LzmaProperties := do
  match LzmaProperties.ofByte? (← nextByte) with
  | some properties => pure properties
  | none => meet .lzmaData

/-- Read a number of two bytes, the first one most significant, and one more. -/
def readSize : Unpack Nat := do
  let high ← nextByte
  let low ← nextByte
  pure (256 * high.toNat + low.toNat + 1)

/-- Read the symbols of a chunk, which must take the bytes that are said. -/
def readPackedChunk (d : LzmaState) (unpacked packed : Nat) : Unpack LzmaState := do
  let s ← get
  let read : Unpack LzmaState := do
    let ((), d) ← ((do
      Lzma.readPoint
      Lzma.readSymbols (some unpacked) false (Lzma.symbolFuel s)) : LzmaStep Unit).run d
    pure d
  match read.run s with
  | .ok (d, rest) =>
    set rest
    require (rest.position = s.position + 8 * packed)
    pure d
  | .error .unfinished => meet (if 8 * packed < s.bitsLeft then .lzmaData else .unfinished)
  | .error defect => meet defect

/-- Begin a new dictionary. -/
def resetDictionary (d : LzmaState) : LzmaState := { d with base := d.out.size }

/-- Read a chunk behind its first byte. -/
def readChunk (c : ChunkState) (control : Nat) : Unpack ChunkState := do
  let resets := 0xE0 ≤ control || control = 1
  require (resets || !c.needsReset)
  let d := if resets then resetDictionary c.decoder else c.decoder
  let needsProperties := c.needsProperties || resets
  if control < 0x80 then
    require (control ≤ 2)
    let size ← readSize
    let bytes ← nextBytes size
    pure ⟨{ d with out := bytes.foldl ByteArray.push d.out }, false, needsProperties⟩
  else
    require (0xC0 ≤ control || !needsProperties)
    let low ← readSize
    let unpacked := control % 32 * 65536 + low
    let packed ← readSize
    let properties ← if 0xC0 ≤ control then readProperties else pure d.properties
    let d := if 0xA0 ≤ control then Lzma.begin properties d.out d.base d.dictionary else d
    let d ← readPackedChunk d unpacked packed
    pure ⟨d, false, false⟩

/-- Read chunks up to the end mark. Every chunk takes a byte at least, so the number of bytes is
fuel enough. -/
def readChunks : Nat → ChunkState → Unpack ByteArray
  | 0, _ => meet .unfinished
  | fuel + 1, c => do
    let control ← nextByte
    if control = 0 then pure c.decoder.out
    else readChunks fuel (← readChunk c control.toNat)

/-- Unpack chunks with a dictionary of some size. -/
def readChunked (dictionary : Nat) : Unpack ByteArray := do
  let decoder := Lzma.begin ⟨0, 0, 0⟩ ByteArray.empty 0 (roundedDictionary dictionary)
  readChunks ((← get).bytes.size + 1) ⟨decoder, true, true⟩

/-! ### Blocks -/

/-- Read a number of seven bits a byte, the least significant byte first. -/
def readNumber (weight : Nat) : Nat → Unpack Nat
  | 0 => meet .lzmaData
  | more + 1 => do
    let b := (← nextByte).toNat
    if b < 128 then do
      require (b ≠ 0 || weight = 1)
      pure (b * weight)
    else
      require (more ≠ 0)
      let rest ← readNumber (128 * weight) more
      pure ((b - 128) * weight + rest)

/-- Read a number, of nine bytes at most. -/
def number : Unpack Nat := readNumber 1 9

/-- What the header of a block tells. -/
structure BlockHeader where
  packed? : Option Nat
  unpacked? : Option Nat
  dictionary : Nat

/-- The size of a dictionary from the byte that stands for it. -/
def dictionaryOf (n : Nat) : Nat :=
  if n = 40 then 2 ^ 32 - 1 else (2 + n % 2) * 2 ^ (n / 2 + 11)

/-- Read how the bytes of a block are packed. Only the one way is known. -/
def readFilter : Unpack Nat := do
  let id ← number
  require (id < 2 ^ 62)
  let size ← number
  let properties ← nextBytes size
  match properties with
  | [b] =>
    demand (id = 0x21 && b.toNat ≤ 40) .lzmaOptions
    pure (dictionaryOf b.toNat)
  | _ => meet .lzmaOptions

/-- Read the fields of the header of a block between its size and its checksum. -/
def readHeaderFields : Unpack BlockHeader := do
  let flags := (← nextByte).toNat
  demand (flags / 4 % 16 = 0) .lzmaOptions
  let packed? ← if flags / 64 % 2 = 1 then some <$> number else pure none
  require (packed? ≠ some 0)
  let unpacked? ← if flags / 128 = 1 then some <$> number else pure none
  let dictionary ← readFilter
  demand (flags % 4 = 0) .lzmaOptions
  let padding ← nextBytes ((← get).bitsLeft / 8)
  demand (padding.all (· == 0)) .lzmaOptions
  pure ⟨packed?, unpacked?, dictionary⟩

/-- Whether the last four of some bytes are the checksum of the others. -/
def sealed (bytes : List UInt8) : Bool :=
  let body := bytes.take (bytes.length - 4)
  (crc32 body).toNat = littleEndian (bytes.drop (bytes.length - 4))

/-- Read the header of a block behind its first byte. -/
def readBlockHeader (first : UInt8) : Unpack BlockHeader := do
  let rest ← nextBytes (4 * first.toNat + 3)
  require (sealed (first :: rest))
  match readHeaderFields.start ⟨(rest.take (rest.length - 4)).toArray⟩ with
  | .ok header => pure header
  | .error .unfinished => meet .lzmaData
  | .error defect => meet defect

/-- How many bytes a check has. -/
def checkSize (check : Nat) : Nat :=
  if check = 0 then 0 else 4 * 2 ^ ((check - 1) / 3)

/-- Whether the check of a block agrees with its bytes. Kinds of checks that are not known pass. -/
def agrees (check : Nat) (data : ByteArray) (stored : List UInt8) : Bool :=
  if check = 1 then (crc32 data.toList).toNat = littleEndian stored
  else if check = 4 then (crc64 data.toList).toNat = littleEndian stored
  else true

/-- A block as the index of its stream knows it: its size without padding, and unpacked. -/
structure BlockRecord where
  size : Nat
  unpacked : Nat
deriving DecidableEq

/-- Read a block behind its first byte. -/
def readBlock (check : Nat) (first : UInt8) : Unpack (ByteArray × BlockRecord) := do
  let header ← readBlockHeader first
  let start := (← get).position
  let data ← readChunked header.dictionary
  let size := ((← get).position - start) / 8
  require (header.packed?.all (· = size) && header.unpacked?.all (· = data.size))
  let padding ← nextBytes ((4 - size % 4) % 4)
  require (padding.all (· == 0))
  let stored ← nextBytes (checkSize check)
  require (agrees check data stored)
  pure (data, ⟨4 * first.toNat + 4 + size + checkSize check, data.size⟩)

/-! ### Streams -/

/-- Read records of blocks. -/
def readRecords : Nat → Unpack (List BlockRecord)
  | 0 => pure []
  | count + 1 => do
    let size ← number
    let unpacked ← number
    let rest ← readRecords count
    pure (⟨size, unpacked⟩ :: rest)

/-- The bytes between two places. -/
def bytesBetween (s : Source) (start stop : Nat) : List UInt8 :=
  (List.range (stop - start)).map fun i => s.byteAt (start + i)

/-- Read the index of a stream behind its first byte; it must know the blocks. Tell its size. -/
def readIndex (records : List BlockRecord) : Unpack Nat := do
  let start := (← get).place - 1
  require ((← number) = records.length)
  let known ← readRecords records.length
  require (known = records)
  let padding ← nextBytes ((4 - ((← get).place - start) % 4) % 4)
  require (padding.all (· == 0))
  let s ← get
  let stored ← nextNumber 4
  require (stored = (crc32 (bytesBetween s start s.place)).toNat)
  pure (s.place + 4 - start)

/-- Read blocks, then the index. -/
def readBlocks (check : Nat) : Nat → List BlockRecord → ByteArray → Unpack (ByteArray × Nat)
  | 0, _, _ => meet .unfinished
  | fuel + 1, records, out => do
    let first ← nextByte
    if first = 0 then
      let size ← readIndex records.reverse
      pure (out, size)
    else
      let (data, record) ← readBlock check first
      readBlocks check fuel (record :: records) (out ++ data)

/-- The flags of a stream, if there is such a stream. -/
def checkOf (flags : List UInt8) : Unpack Nat :=
  match flags with
  | [0, check] => do
    demand (check < 16) .lzmaOptions
    pure check.toNat
  | _ => meet .lzmaOptions

/-- Read a stream of checked blocks. -/
def readStream : Unpack ByteArray := do
  let head ← nextBytes 12
  demand (head.take 6 = [0xFD, 0x37, 0x7A, 0x58, 0x5A, 0]) .lzmaFormat
  require (sealed (head.drop 6))
  let check ← checkOf ((head.drop 6).take 2)
  let (data, indexSize) ← readBlocks check ((← get).bytes.size + 1) [] ByteArray.empty
  let tail ← nextBytes 12
  require (tail.drop 10 = [0x59, 0x5A])
  require (sealed ((tail.drop 4).take 6 ++ tail.take 4))
  let _ ← checkOf ((tail.drop 8).take 2)
  require (4 * (littleEndian ((tail.drop 4).take 4) + 1) = indexSize)
  require ((tail.drop 8).take 2 = (head.drop 6).take 2)
  pure data

/-- Whether the size of a dictionary is a power of two, or one and a half of one. -/
def usualDictionary (size : Nat) : Bool :=
  size = 2 ^ 32 - 1 || size = 0 ||
    ((List.range 32).any fun n => size = 2 ^ n || size = 2 ^ n + 2 ^ (n - 1))

/-- The number that stands for a size that is not told. -/
def untoldSize : Nat := 2 ^ 64 - 1

/-- Read bare data behind a header without checks, whose fields are therefore looked at closely. -/
def readBare : Unpack ByteArray := do
  match LzmaProperties.ofByte? (← nextByte) with
  | none => meet .lzmaFormat
  | some properties =>
    let dictionary ← nextNumber 4
    demand (usualDictionary dictionary) .lzmaFormat
    let size ← nextNumber 8
    demand (size = untoldSize || size < 2 ^ 38) .lzmaFormat
    let left? := if size = untoldSize then none else some size
    let d := Lzma.begin properties ByteArray.empty 0 (roundedDictionary dictionary)
    let fuel := Lzma.symbolFuel (← get)
    let ((), d) ← ((do
      Lzma.readPoint
      Lzma.readSymbols left? true fuel) : LzmaStep Unit).run d
    pure d.out

/-- Read data of either form, told apart by the first byte. -/
def readAny : Unpack ByteArray := do
  let s ← get
  demand (s.bitsLeft ≠ 0) .unfinished
  if s.byteAt s.place = 0xFD then readStream else readBare

/-- Whether a defect concerns LZMA data, and not just their end. -/
def isLzmaDefect (defect : PackedDefect) : Bool := defect != .unfinished

end Xz

/-- Unpack a file of LZMA data of either form. -/
def unxz (bytes : ByteArray) : Except PackedDefect ByteArray :=
  (readStreams Xz.readAny Xz.isLzmaDefect (bytes.size + 1)).start bytes

end SealedMatch
