/-
Module: SealedMatch.Store.Path
Purpose: Names of files and directories.
Trusted boundary: none
Main exports: Path, Path.ofText, Path.join, Path.text, Path.suffix, Path.withSuffix?
-/
namespace SealedMatch

/-- A path in normal form: an absolute path begins with a root of one or two slashes, and no part is
empty or a single dot. -/
structure Path where
  root : String
  parts : List String
deriving DecidableEq, Repr

namespace Path

/-- The directory one is in. -/
def here : Path := ⟨"", []⟩

/-- The root of a text: exactly two slashes are a root of their own, any other number counts as
one. -/
def rootOf (cs : List Char) : String :=
  match cs with
  | '/' :: '/' :: '/' :: _ => "/"
  | '/' :: '/' :: _ => "//"
  | '/' :: _ => "/"
  | _ => ""

/-- Read a path. -/
def ofText (s : String) : Path :=
  let pieces := (s.toList.splitOn '/').map String.ofList
  ⟨rootOf s.toList, pieces.filter fun part => part != "" && part != "."⟩

/-- Whether a path does not depend on the directory one is in. -/
def isAbsolute (p : Path) : Bool := p.root != ""

/-- Continue a path with another one. An absolute one starts anew. -/
def join (p q : Path) : Path :=
  if q.isAbsolute then q else ⟨p.root, p.parts ++ q.parts⟩

/-- Continue a path with the path in a text. -/
def child (p : Path) (s : String) : Path := p.join (ofText s)

/-- The text of a path; a single dot stands for the directory one is in. -/
def text (p : Path) : String :=
  if p.root == "" && p.parts.isEmpty then "." else p.root ++ "/".intercalate p.parts

/-- The path without its last part. -/
def parent (p : Path) : Path := ⟨p.root, p.parts.dropLast⟩

/-- The last part, empty if there is none. -/
def name (p : Path) : String := p.parts.getLastD ""

/-- The end of a name from its last dot on. A dot in front of the name or behind it does not
count. -/
def suffixOf (name : List Char) : List Char :=
  let tail := name.reverse.takeWhile (· != '.')
  if tail.isEmpty || name.length ≤ tail.length + 1 then [] else '.' :: tail.reverse

/-- The suffix of the last part. -/
def suffix (p : Path) : String := String.ofList (suffixOf p.name.toList)

/-- Replace the suffix of the last part, if there is a last part. -/
def withSuffix? (p : Path) (s : String) : Option Path :=
  match p.name.toList with
  | [] => none
  | name =>
    let stem := name.take (name.length - (suffixOf name).length)
    some ⟨p.root, p.parts.dropLast ++ [String.ofList stem ++ s]⟩

end Path

end SealedMatch
