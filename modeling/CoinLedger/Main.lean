import CoinLedger.Layering.CommandLine
import CoinLedger.Layering.Grammar.File
/-!
# The layer check as a program

The program first reads the files that the check may ask for, by following the declarations that it
will follow, and then runs the check on what has been read.
-/

namespace CoinLedger.Layering.Program

/-- What is known about the paths of files. -/
abbrev Known := List (List Char × Except ReadFailure String)

def Known.read (known : Known) (path : List Char) : Except ReadFailure String :=
  match known.find? fun k => k.1 = path with
  | some k => k.2
  | none => .error .notFound

/-- Whether there is a file at a path, even one that cannot be read as a text. -/
def Known.isFile (known : Known) (path : List Char) : Bool :=
  match known.read path with
  | .ok _ => true
  | .error .invalidData => true
  | .error .permissionDenied => true
  | .error _ => false

def Known.files (known : Known) : Files := ⟨known.read, known.isFile⟩

/-- What the failure of a system call means. -/
def failureOf : IO.Error → ReadFailure
  | .permissionDenied _ _ _ => .permissionDenied
  | .inappropriateType _ _ _ => .isADirectory
  | .invalidArgument _ _ _ => .invalidFilename
  | .resourceExhausted _ _ _ => .invalidFilename
  | _ => .notFound

/-- Reads the file at a path. -/
def fetch (path : List Char) : IO (Except ReadFailure String) := do
  try
    let bytes ← IO.FS.readBinFile (String.ofList path)
    match Text.Utf8.decode? bytes.toList with
    | some text => pure (.ok (String.ofList text))
    | none => pure (.error .invalidData)
  catch e => pure (.error (failureOf e))

/-- Reads the file at a path unless it is known. -/
def learn (known : Known) (path : List Char) : IO Known := do
  if known.any fun k => k.1 = path then pure known
  else pure ((path, ← fetch path) :: known)

/-- Reads all files that the walk of a crate may ask for, from some visits on. -/
partial def explore (directory : List Char) (seen : List (List Char × Bool)) (known : Known) :
    List Visit → IO Known
  | [] => pure known
  | v :: rest => do
    if seen.contains (v.file, v.ownsDirectory) then explore directory seen known rest
    else
      let known ← learn known v.file
      let seen := (v.file, v.ownsDirectory) :: seen
      match (Crate.mk known.files parseFile directory).openFile v.file with
      | .error _ => explore directory seen known rest
      | .ok (_, declarations) =>
        let paths := declarations.flatMap fun d =>
          match Crate.setPlace? v d with
          | some _ => []
          | none => (Crate.places v d.name).map Visit.file
        let known ← paths.foldlM learn known
        let crate := Crate.mk known.files parseFile directory
        let next := declarations.filterMap fun d => (crate.resolve v d).toOption
        explore directory seen known (next ++ rest)

/-- Reads all files that the check of the crate below a directory may ask for. -/
def exploreBelow (known : Known) (directory : List Char) : IO Known :=
  let crate := Crate.mk known.files parseFile (PathText.join directory "src".toList)
  explore crate.directory [] known [crate.rootVisit]

/-- Reads all files that a run of the command may ask for. -/
def prepare (here : List Char) (arguments : List String) : IO Known := do
  match CommandLine.Request.ofArguments arguments with
  | .check directory => exploreBelow [] directory.toList
  | .search =>
    let candidates := CommandLine.candidates here
    let known ← (candidates.map CommandLine.rootFile).foldlM learn []
    match candidates.find? fun d => known.isFile (CommandLine.rootFile d) with
    | some directory => exploreBelow known directory
    | none => pure known
  | _ => pure []

end CoinLedger.Layering.Program

/-- Runs the layer check from the command line. -/
def main (arguments : List String) : IO UInt32 := do
  let here := (toString (← IO.currentDir)).toList
  let known ← CoinLedger.Layering.Program.prepare here arguments
  let outcome := CoinLedger.Layering.CommandLine.run known.files
    CoinLedger.Layering.parseFile here arguments
  IO.print outcome.out
  (← IO.getStderr).putStr outcome.err
  pure (UInt32.ofNat outcome.exit)
