/-
Module: SealedMatch.Failure.Fault
Purpose: Faults of arithmetic, containers, files and the machine, outside the families of failures
  that carry a code.
Trusted boundary: none
Main exports: Fault, FaultKind, Fault.message, Fault.kind
-/
import SealedMatch.Decimal.Numeral
import SealedMatch.Decimal.Places
import SealedMatch.Packed.Defect
import SealedMatch.Text.Directive
import SealedMatch.Text.Quoted
import SealedMatch.Text.Utf8
import SealedMatch.Value.Text

namespace SealedMatch

/-- A fault that belongs to no family of coded failures. -/
inductive Fault where
  /-- A position outside an axis of a table. -/
  | indexOutOfBounds (index : Int) (axis size : Nat)
  /-- A position that is no machine word, signed or not. -/
  | notAnIndex
  /-- More positions than the table has axes. -/
  | tooManyIndices (axes indices : Nat)
  | listIndexOutOfRange
  /-- The second axis of a table that has one axis. -/
  | axisOutOfRange
  /-- An array in the place of a number. -/
  | notAScalar
  /-- More axes than arrays have. -/
  | tooManyAxes (axes limit : Nat)
  /-- Lists nested more deeply than arrays have axes. -/
  | nestedTooDeeply (limit : Nat)
  /-- An axis whose length is no machine word. -/
  | axisTooLong
  /-- A row of numbers whose length no machine word counts. -/
  | rowTooLong
  /-- An array whose bytes no machine word counts. -/
  | arrayTooLarge
  /-- An array of words for which there is no memory. -/
  | noRoomFor (shape : List Nat)
  /-- A number for which there is no memory. -/
  | noRoom
  /-- An array that does not spread over the shape it is written to. -/
  | shapesDiffer (given wanted : List Nat)
  /-- Arrays whose lengths differ, neither being one. -/
  | notStretched (left right : Nat)
  /-- A secret and masks of different lengths. -/
  | notMultiplied (secret mask : Nat)
  /-- Arrays laid side by side whose lengths differ. -/
  | notStacked
  /-- Fewer items than were announced. -/
  | tooFewItems (announced found : Nat)
  /-- A number in the place of an array. -/
  | unsized
  /-- A value of a type that holds no items. -/
  | noLength (type : String)
  /-- An integer outside 64 bits. -/
  | integerTooLarge
  /-- An integer past the largest double. -/
  | integerTooLargeForReal
  /-- A quotient of integers past the largest double. -/
  | quotientTooLarge
  | infinityToInteger
  | nanToInteger
  | negativeDimension
  | negativeShift
  /-- A power of two that is past all numbers. -/
  | shiftTooLarge
  | negativeSeed
  /-- A word that names none of the choices. -/
  | notAChoice (given : Value) (choices : String)
  /-- The largest entry of a table without entries. -/
  | emptyMaximum
  | notAnInteger (given : String)
  /-- An integer written with more digits than are read. -/
  | tooManyDigits (limit count : Nat)
  /-- An integer that takes more digits than are written. -/
  | tooManyDigitsToWrite (limit : Nat)
  /-- A value of a type that is no number. -/
  | notANumber (type : String)
  /-- A part of a date or time outside its range. -/
  | outsideCalendar (rule : String)
  /-- A part of a date or time outside the range of counters. -/
  | outsideCounting (rule : String)
  /-- Nested lists whose lengths differ at one depth. -/
  | inhomogeneous (shape : List Nat)
  | notIterable (type : String)
  /-- A value of a type that has no part of a name. -/
  | noAttribute (type name : String)
  /-- A value of a type to which nothing can be added under a name. -/
  | notAssignable (type : String)
  /-- A position in a list given by a value of this type. -/
  | notAListIndex (type : String)
  /-- A value of a type other than text at the head of texts that are joined. -/
  | notAText (type : String)
  /-- Values of types without an order. -/
  | notOrdered (relation left right : String)
  /-- A value of a type that names no file. -/
  | notAPath (type : String)
  /-- A named value that its owner does not take. -/
  | unknownArgument (owner name : String)
  /-- A named value given twice. -/
  | repeatedArgument (owner name : String)
  /-- Named values that their owner needs. -/
  | missingArguments (owner : String) (names : List String)
  /-- A wrap-around by the length of an empty list. -/
  | moduloByZero
  | zeroToNegativePower
  | missingName (name : String)
  | fileExists (path : String)
  | notADirectory (path : String)
  | isADirectory (path : String)
  | noSuchFile (path : String)
  | nameTooLong (path : String)
  | zeroInPath
  | emptyFileName (path : String)
  | undecodable (defect : Text.Undecodable)
  | packed (defect : PackedDefect)
  | directive (defect : Text.DirectiveDefect)
  | noWorkers
  | invalidSettings (problems : List String)
  /-- A fault of the machine, described by its message only. -/
  | machine (message : String)
  /-- A value that an outside operation refuses, described by its message only. -/
  | refusedValue (message : String)

/-- What a fault is about, as programs that call the library tell faults apart. -/
inductive FaultKind where
  /-- A position where nothing stands. -/
  | index
  /-- A name that nothing has. -/
  | key
  /-- A number past the range of its type. -/
  | overflow
  | zeroDivision
  /-- A value without the part that is asked for. -/
  | attribute
  /-- A value of the wrong type. -/
  | type
  /-- A value of the right type that is refused all the same. -/
  | value
  | memory
  | fileExists
  | notADirectory
  | isADirectory
  | noSuchFile
  /-- Any other refusal of the operating system. -/
  | system
  | encoding
  /-- Data that end too early. -/
  | endOfData
  | gzip
  | deflate
  | lzma
  | machine
deriving DecidableEq, Repr

/-- What a defect of packed data is about. -/
def FaultKind.ofPacked : PackedDefect → FaultKind
  | .unfinished => .endOfData
  | .noGzipMember _ | .unknownGzipMethod | .gzipChecksum .. | .gzipLength => .gzip
  | .deflate _ => .deflate
  | .bzip2 => .system
  | .lzmaFormat | .lzmaOptions | .lzmaData => .lzma

/-- What the defect of a directive is about. -/
def FaultKind.ofDirective : Text.DirectiveDefect → FaultKind
  | .unknownName _ => .key
  | .nothingLeft | .amountNotAnInteger | .notReal .. | .notAnInteger .. | .notFloating _
  | .notACharacter => .type
  | _ => .value

/-- The lengths of the axes between parentheses; a single one keeps its comma. -/
def shapeText (shape : List Nat) : String :=
  match shape with
  | [n] => "(" ++ toString n ++ ",)"
  | _ => "(" ++ ", ".intercalate (shape.map toString) ++ ")"

/-- The lengths of the axes between parentheses without blanks. -/
def tightShapeText (shape : List Nat) : String :=
  match shape with
  | [n] => "(" ++ toString n ++ ",)"
  | _ => "(" ++ ",".intercalate (shape.map toString) ++ ")"

/-- The units of memory, each 1024 times the one before. -/
def memoryUnits : List String := ["bytes", "KiB", "MiB", "GiB", "TiB", "PiB", "EiB"]

/-- `numerator / denominator` to three significant digits, the point kept. -/
def threeDigits (numerator denominator : Nat) : String :=
  let at_ (places : Nat) : Nat := Decimal.roundHalfEven (numerator * 10 ^ places) denominator
  if at_ 2 < 1000 then Decimal.pointed 2 (at_ 2)
  else if at_ 1 < 1000 then Decimal.pointed 1 (at_ 1)
  else toString (at_ 0) ++ "."

/-- A number of bytes in the largest unit of which there is at least one. -/
def memoryText (bytes : Nat) : String :=
  let order := min (bytes.log2 / 10) (memoryUnits.length - 1)
  if order = 0 then toString bytes ++ " bytes"
  else threeDigits bytes (1024 ^ order) ++ " " ++ memoryUnits.getD order ""

namespace Text.Undecodable

/-- What is wrong at the place of the defect. -/
def reason (u : Undecodable) : String :=
  match u.defect with
  | .invalidStart => "invalid start byte"
  | .invalidContinuation => "invalid continuation byte"
  | .unexpectedEnd => "unexpected end of data"

/-- The defect, its place and its reason. -/
def message (u : Undecodable) : String :=
  let place :=
    if u.length = 1 then
      "byte 0x" ++ String.ofList (hexDigits 2 u.first.toNat) ++ " in position " ++
        toString u.position
    else
      "bytes in position " ++ toString u.position ++ "-" ++ toString (u.position + u.length - 1)
  "'utf-8' codec can't decode " ++ place ++ ": " ++ u.reason

end Text.Undecodable

namespace Fault

/-- The wording of a fault. -/
def message : Fault → String
  | indexOutOfBounds index axis size =>
    "index " ++ toString index ++ " is out of bounds for axis " ++ toString axis ++
      " with size " ++ toString size
  | notAnIndex =>
    "only integers, slices (\x60:\x60), ellipsis (\x60...\x60), "
      ++ "numpy.newaxis (\x60None\x60) and integer or boolean arrays are valid indices"
  | tooManyIndices axes indices =>
    "too many indices for array: array is " ++ toString axes ++ "-dimensional, but " ++
      toString indices ++ " were indexed"
  | listIndexOutOfRange => "list index out of range"
  | axisOutOfRange => "tuple index out of range"
  | notAScalar => "only 0-dimensional arrays can be converted to Python scalars"
  | tooManyAxes axes limit =>
    "maximum supported dimension for an ndarray is currently " ++ toString limit ++ ", found "
      ++ toString axes
  | nestedTooDeeply limit =>
    "setting an array element with a sequence. "
      ++ "The requested array would exceed the maximum number of dimension of " ++ toString limit
      ++ "."
  | axisTooLong => "Maximum allowed dimension exceeded"
  | rowTooLong => "Maximum allowed size exceeded"
  | arrayTooLarge =>
    "array is too big; \x60arr.size * arr.dtype.itemsize\x60 is larger than the maximum possible "
      ++ "size."
  | noRoomFor shape =>
    "Unable to allocate " ++ memoryText (8 * shape.foldl (· * ·) 1) ++ " for an array with shape "
      ++ shapeText shape ++ " and data type int64"
  | noRoom => ""
  | shapesDiffer given wanted =>
    "could not broadcast input array from shape " ++ tightShapeText given ++ " into shape "
      ++ tightShapeText wanted
  | notStretched left right =>
    "operands could not be broadcast together with shapes " ++ tightShapeText [left] ++ " "
      ++ tightShapeText [right] ++ " "
  | notMultiplied secret mask =>
    "matmul: Input operand 1 has a mismatch in its core dimension 0, with gufunc signature "
      ++ "(n?,k),(k,m?)->(n?,m?) (size " ++ toString secret ++ " is different from "
      ++ toString mask ++ ")"
  | notStacked => "all input arrays must have the same shape"
  | tooFewItems announced found =>
    "iterator too short: Expected " ++ toString announced ++ " but iterator had only "
      ++ toString found ++ " items."
  | unsized => "len() of unsized object"
  | noLength type => "object of type '" ++ type ++ "' has no len()"
  | integerTooLarge => "Python int too large to convert to C long"
  | integerTooLargeForReal => "int too large to convert to float"
  | quotientTooLarge => "integer division result too large for a float"
  | infinityToInteger => "cannot convert float infinity to integer"
  | nanToInteger => "cannot convert float NaN to integer"
  | negativeDimension => "negative dimensions are not allowed"
  | negativeShift => "negative shift count"
  | shiftTooLarge => "too many digits in integer"
  | negativeSeed => "expected non-negative integer"
  | notAChoice given choices => given.quoted ++ " is not a valid " ++ choices
  | emptyMaximum => "zero-size array to reduction operation maximum which has no identity"
  | notAnInteger given =>
    "invalid literal for int() with base 10: "
      ++ String.ofList ((Text.quoted given).toList.take 200)
  | tooManyDigits limit count =>
    "Exceeds the limit (" ++ toString limit ++ " digits) for integer string conversion: value has "
      ++ toString count ++ " digits; use sys.set_int_max_str_digits() to increase the limit"
  | tooManyDigitsToWrite limit =>
    "Exceeds the limit (" ++ toString limit ++ " digits) for integer string conversion; "
      ++ "use sys.set_int_max_str_digits() to increase the limit"
  | notANumber type =>
    "int() argument must be a string, a bytes-like object or a real number, not '" ++ type ++ "'"
  | outsideCalendar rule => rule
  | outsideCounting rule => rule
  | inhomogeneous shape =>
    "setting an array element with a sequence. "
      ++ "The requested array has an inhomogeneous shape after " ++ toString shape.length
      ++ " dimensions. The detected shape was " ++ shapeText shape ++ " + inhomogeneous part."
  | notIterable type => "'" ++ type ++ "' object is not iterable"
  | noAttribute type name => "'" ++ type ++ "' object has no attribute '" ++ name ++ "'"
  | notAssignable type => "'" ++ type ++ "' object does not support item assignment"
  | notAListIndex type => "list indices must be integers or slices, not " ++ type
  | notAText type => "sequence item 0: expected str instance, " ++ type ++ " found"
  | notOrdered relation left right =>
    "'" ++ relation ++ "' not supported between instances of '" ++ left ++ "' and '" ++ right
      ++ "'"
  | notAPath type => "expected str, bytes or os.PathLike object, not " ++ type
  | unknownArgument owner name =>
    owner ++ ".__init__() got an unexpected keyword argument '" ++ name ++ "'"
  | repeatedArgument owner name =>
    owner ++ ".__init__() got multiple values for argument '" ++ name ++ "'"
  | missingArguments owner names =>
    owner ++ ".__init__() missing " ++ toString names.length ++ " required positional argument"
      ++ (if names.length = 1 then ": " else "s: ")
      ++ " and ".intercalate (names.map fun name => "'" ++ name ++ "'")
  | moduloByZero => "integer modulo by zero"
  | zeroToNegativePower => "0.0 cannot be raised to a negative power"
  | missingName name => Text.quoted name
  | fileExists path => "[Errno 17] File exists: " ++ Text.quoted path
  | notADirectory path => "[Errno 20] Not a directory: " ++ Text.quoted path
  | isADirectory path => "[Errno 21] Is a directory: " ++ Text.quoted path
  | noSuchFile path => "[Errno 2] No such file or directory: " ++ Text.quoted path
  | nameTooLong path => "[Errno 36] File name too long: " ++ Text.quoted path
  | zeroInPath => "embedded null byte"
  | emptyFileName path => "PosixPath(" ++ Text.quoted path ++ ") has an empty name"
  | undecodable defect => defect.message
  | packed defect => defect.message
  | directive defect => defect.message
  | noWorkers => "max_workers must be greater than 0"
  | invalidSettings problems =>
    "Configuration validation failed:\n" ++ "\n".intercalate (problems.map ("- " ++ ·))
  | machine message => message
  | refusedValue message => message

/-- What a fault is about. -/
def kind : Fault → FaultKind
  | indexOutOfBounds .. | notAnIndex | tooManyIndices .. | listIndexOutOfRange
  | axisOutOfRange => .index
  | missingName _ => .key
  | integerTooLarge | integerTooLargeForReal | quotientTooLarge | infinityToInteger
  | shiftTooLarge | outsideCounting _ => .overflow
  | moduloByZero | zeroToNegativePower => .zeroDivision
  | noAttribute .. => .attribute
  | notOrdered .. | notAPath _ | unsized | noLength _ | notIterable _ | notANumber _ | notAScalar
  | notAssignable _ | notAListIndex _ | notAText _
  | unknownArgument .. | repeatedArgument .. | missingArguments .. => .type
  | noRoomFor _ | noRoom => .memory
  | fileExists _ => .fileExists
  | notADirectory _ => .notADirectory
  | isADirectory _ => .isADirectory
  | noSuchFile _ => .noSuchFile
  | nameTooLong _ => .system
  | undecodable _ => .encoding
  | packed defect => .ofPacked defect
  | directive defect => .ofDirective defect
  | machine _ => .machine
  | _ => .value

/-- Why a text is not read as an integer. -/
def ofNumeral (given : String) : Decimal.NumeralDefect → Fault
  | .malformed => notAnInteger given
  | .tooManyDigits limit count => tooManyDigits limit count

end Fault

end SealedMatch
