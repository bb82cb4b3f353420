/-
Module: SealedMatch.Store.FileTree
Purpose: Files and directories held in memory.
Trusted boundary: none
Main exports: FileTree, FileTree.read?, FileTree.makeDirectories, FileTree.write
-/
import SealedMatch.Failure.Fault
import SealedMatch.Store.Path

namespace SealedMatch

/-- What stands at a place: a directory, or a file with its bytes. For a compressed file these are
the bytes before compression. -/
inductive FileEntry where
  | directory
  | file (content : ByteArray) (compressed : Bool)

/-- Files and directories by place. A place is the list of names from the root on; the root is
always a directory. -/
structure FileTree where
  workingDirectory : List String
  entries : List (List String × FileEntry)

namespace FileTree

/-- Nothing but the working directory and the directories above it. -/
def empty (workingDirectory : List String) : FileTree :=
  ⟨workingDirectory,
    (List.range workingDirectory.length).map fun n =>
      (workingDirectory.take (n + 1), .directory)⟩

/-- What stands at a place. -/
def entry? (t : FileTree) (place : List String) : Option FileEntry :=
  if place.isEmpty then some .directory else t.entries.lookup place

/-- How many bytes the name of a file has at most. -/
def longestName : Nat := 255

/-- How many bytes a path has at most. -/
def longestPath : Nat := 4095

/-- One step of a walk. Only a directory leads on, and only to names that a file can have; two dots
lead to the directory above. -/
def enter (t : FileTree) (path : Path) (place : List String) (part : String) :
    Except Fault (List String) :=
  match t.entry? place with
  | some .directory =>
    if longestName < part.utf8ByteSize then .error (.nameTooLong path.text)
    else .ok (if part == ".." then place.dropLast else place ++ [part])
  | some (.file _ _) => .error (.notADirectory path.text)
  | none => .error (.noSuchFile path.text)

/-- The place that a path leads to; something need not stand there. A path holds no zero
character. -/
def locate (t : FileTree) (path : Path) : Except Fault (List String) :=
  if path.text.contains (Char.ofNat 0) then .error .zeroInPath
  else if longestPath < path.text.utf8ByteSize then .error (.nameTooLong path.text)
  else path.parts.foldlM (t.enter path) (if path.isAbsolute then [] else t.workingDirectory)

/-- What a path leads to. -/
def find? (t : FileTree) (path : Path) : Option FileEntry :=
  match t.locate path with
  | .ok place => t.entry? place
  | .error _ => none

/-- The content of a file, if there is one. Names that are too long are a fault even so. -/
def read? (t : FileTree) (path : Path) : Except Fault (Option ByteArray) :=
  match t.locate path with
  | .error (.nameTooLong path) => .error (.nameTooLong path)
  | .error _ => .ok none
  | .ok place =>
    match t.entry? place with
    | some (.file content _) => .ok (some content)
    | _ => .ok none

/-- Whether a path leads to a directory. -/
def isDirectory (t : FileTree) (path : Path) : Bool :=
  match t.find? path with
  | some .directory => true
  | _ => false

/-- Put something at a place. -/
def put (t : FileTree) (place : List String) (e : FileEntry) : FileTree :=
  { t with entries := t.entries.filter (·.1 != place) ++ [(place, e)] }

/-- Take away what stands at a place. -/
def remove (t : FileTree) (path : Path) : FileTree :=
  match t.locate path with
  | .ok place => { t with entries := t.entries.filter (·.1 != place) }
  | .error _ => t

/-- Make one directory, where nothing may stand yet. -/
def makeDirectory (t : FileTree) (path : Path) : Except Fault FileTree := do
  let place ← t.locate path
  match t.entry? place with
  | none => pure (t.put place .directory)
  | some _ => throw (.fileExists path.text)

/-- Make a directory unless it exists, and the directories above it as needed. The parts of the path
come last one first. -/
def makeDirectoriesAt (root : String) : List String → FileTree → Except Fault FileTree
  | [], t => .ok t
  | part :: above, t =>
    let path : Path := ⟨root, (part :: above).reverse⟩
    match t.makeDirectory path with
    | .ok t => .ok t
    | .error (.noSuchFile _) => do
      let t ← makeDirectoriesAt root above t
      match t.makeDirectory path with
      | .ok t => pure t
      | .error f => if t.isDirectory path then pure t else throw f
    | .error f => if t.isDirectory path then .ok t else .error f

/-- Make a directory unless it exists, and the directories above it as needed. -/
def makeDirectories (t : FileTree) (path : Path) : Except Fault FileTree :=
  makeDirectoriesAt path.root path.parts.reverse t

/-- Write a file, which must not be a directory. -/
def write (t : FileTree) (path : Path) (content : ByteArray) (compressed : Bool) :
    Except Fault FileTree := do
  let place ← t.locate path
  match t.entry? place with
  | some .directory => throw (.isADirectory path.text)
  | _ => pure (t.put place (.file content compressed))

/-- The files below the working directory, each under its path from there. -/
def files (t : FileTree) : List (Path × ByteArray) :=
  t.entries.filterMap fun (place, e) =>
    match e with
    | .directory => none
    | .file content _ =>
      if t.workingDirectory.isPrefixOf place then
        some (⟨"", place.drop t.workingDirectory.length⟩, content)
      else none

end FileTree

end SealedMatch
