/-
Module: SealedMatch.Packed.Format
Purpose: How a file is packed, told by its name.
Trusted boundary: none
Main exports: PackedFormat, PackedFormat.ofName?, unpacked
-/
import SealedMatch.Packed.Bzip2
import SealedMatch.Packed.Gzip
import SealedMatch.Packed.Xz

namespace SealedMatch

/-- The ways in which files are packed. -/
inductive PackedFormat where
  | gzip
  | bzip2
  | lzma
deriving DecidableEq

namespace PackedFormat

/-- The end of a name from its last dot on. Dots in front of the name do not count. -/
def endingOf (name : String) : String :=
  let name := name.toList.dropWhile (· == '.')
  let tail := name.reverse.takeWhile (· != '.')
  if tail.length = name.length then "" else String.ofList ('.' :: tail.reverse)

/-- The format of a file with a name, if it is packed. -/
def ofName? (name : String) : Option PackedFormat :=
  match endingOf name with
  | ".gz" => some gzip
  | ".bz2" => some bzip2
  | ".xz" => some lzma
  | ".lzma" => some lzma
  | _ => none

/-- Unpack the bytes of a file. -/
def unpack : PackedFormat → ByteArray → Except PackedDefect ByteArray
  | gzip, bytes => gunzip bytes
  | bzip2, bytes => bunzip2 bytes
  | lzma, bytes => unxz bytes

end PackedFormat

/-- The bytes of a file with a name, unpacked if it is packed. -/
def unpacked (name : String) (bytes : ByteArray) : Except PackedDefect ByteArray :=
  match PackedFormat.ofName? name with
  | some format => format.unpack bytes
  | none => .ok bytes

end SealedMatch
