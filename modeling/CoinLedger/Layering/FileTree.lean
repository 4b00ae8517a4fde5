import CoinLedger.Layering.Check
import CoinLedger.Layering.PathText
import CoinLedger.Text.Utf8
/-!
# File trees

A file tree is a finite set of files and directories below one directory. A path is followed one
component at a time from the root or from the working directory; on its way it may pass through
directories only. What is outside the tree is not there.

## Main definitions

* `FileTree` — the files, the place of the tree, and the working directory.
* `FileTree.read`, `FileTree.isFile` — what can be asked about a path.
-/

namespace CoinLedger.Layering

/-- What is at a place in a tree. -/
inductive FileEntry where
  | file (bytes : List UInt8)
  | directory
  deriving DecidableEq, Repr

/-- The place of an entry below the directory of the tree. -/
abbrev FilePlace := List (List Char)

/-- The files and directories below one directory. Directories that hold something need not be
listed. Of several entries at one place the last one counts. -/
structure FileTree where
  entries : List (FilePlace × FileEntry)
  /-- The path of the directory that the tree stands in. -/
  root : List Char := []
  workingDirectory : FilePlace := []

namespace FileTree

def entryAt? (t : FileTree) (place : FilePlace) : Option FileEntry :=
  match t.entries.reverse.find? fun e => e.1 = place with
  | some e => some e.2
  | none =>
    if place = [] || t.entries.any (fun e => place.isPrefixOf e.1) then some .directory else none

/-- The most bytes that a component of a path may have. -/
def longestName : Nat := 255

/-- The most bytes that a path may have. -/
def longestPath : Nat := 4095

def byteLength (text : List Char) : Nat := (Text.Utf8.encode text).length

/-- Follows the components of a path from a place. -/
def follow (t : FileTree) (place : FilePlace) :
    List (List Char) → Except ReadFailure (FilePlace × FileEntry)
  | [] =>
    match t.entryAt? place with
    | some entry => .ok (place, entry)
    | none => .error .notFound
  | c :: rest =>
    match t.entryAt? place with
    | none => .error .notFound
    | some (.file _) => .error .notADirectory
    | some .directory =>
      if longestName < byteLength c then .error .invalidFilename
      else if c = ['.'] then follow t place rest
      else if c = ['.', '.'] then
        if place = [] then .error .notFound else follow t place.dropLast rest
      else follow t (place ++ [c]) rest

def locate (t : FileTree) (path : List Char) : Except ReadFailure FileEntry :=
  if path.contains '\x00' then .error .invalidInput
  else if path = [] then .error .notFound
  else if longestPath < byteLength path then .error .invalidFilename
  else if PathText.isAbsolute path then
    match PathText.below? t.root path with
    | some rest =>
      if PathText.isAbsolute t.root then
        (t.follow [] (PathText.components rest)).map Prod.snd
      else .error .notFound
    | none => .error .notFound
  else (t.follow t.workingDirectory (PathText.components path)).map Prod.snd

def isFile (t : FileTree) (path : List Char) : Bool :=
  match t.locate path with
  | .ok (.file _) => true
  | _ => false

/-- The text of the file at a path. -/
def read (t : FileTree) (path : List Char) : Except ReadFailure String :=
  match t.locate path with
  | .error e => .error e
  | .ok .directory => .error .isADirectory
  | .ok (.file bytes) =>
    match Text.Utf8.decode? bytes with
    | some text => .ok (String.ofList text)
    | none => .error .invalidData

end FileTree

end CoinLedger.Layering
