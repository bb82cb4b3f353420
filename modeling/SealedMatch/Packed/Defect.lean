/-
Module: SealedMatch.Packed.Defect
Purpose: Why packed data cannot be unpacked.
Trusted boundary: none
Main exports: PackedDefect, PackedDefect.message
-/
import SealedMatch.Text.Quoted

namespace SealedMatch

/-- Why packed data cannot be unpacked. -/
inductive PackedDefect where
  /-- The data ends too early. -/
  | unfinished
  /-- A gzip member that begins with other bytes than it should. -/
  | noGzipMember (start : List UInt8)
  | unknownGzipMethod
  /-- What has been unpacked is not what was packed. -/
  | gzipChecksum (stored computed : UInt32)
  | gzipLength
  /-- Deflated data that breaks a rule. -/
  | deflate (rule : String)
  | bzip2
  /-- Data of no kind of LZMA stream. -/
  | lzmaFormat
  /-- An LZMA stream that asks for what is not there. -/
  | lzmaOptions
  /-- An LZMA stream that breaks a rule. -/
  | lzmaData
deriving DecidableEq

namespace PackedDefect

/-- A number in hexadecimal digits, as few as it needs. -/
def hexText (n : UInt32) : String :=
  "0x" ++ String.ofList (Nat.toDigits 16 n.toNat)

/-- The wording of a defect. -/
def message : PackedDefect → String
  | unfinished => "Compressed file ended before the end-of-stream marker was reached"
  | noGzipMember start => "Not a gzipped file (" ++ Text.quotedBytes start ++ ")"
  | unknownGzipMethod => "Unknown compression method"
  | gzipChecksum stored computed =>
    "CRC check failed " ++ hexText stored ++ " != " ++ hexText computed
  | gzipLength => "Incorrect length of data produced"
  | deflate rule => "Error -3 while decompressing data: " ++ rule
  | bzip2 => "Invalid data stream"
  | lzmaFormat => "Input format not supported by decoder"
  | lzmaOptions => "Invalid or unsupported options"
  | lzmaData => "Corrupt input data"

end PackedDefect

end SealedMatch
