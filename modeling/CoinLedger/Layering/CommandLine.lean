import CoinLedger.Layering.Discovery
/-!
# The command line of the layer check

The check is run on the directory that is given, or else on the nearest directory `backend` with a
root file that is found from the working directory upwards. Success and failure are told in one line
each, or by the list of violations.

## Main definitions

* `Request.ofArguments` — what the arguments ask for.
* `run` — exit code and output.
-/

namespace CoinLedger.Layering.CommandLine

/-- What the arguments ask for. -/
inductive Request where
  | check (directory : String)
  /-- Check the nearest directory. -/
  | search
  | help
  | version
  /-- The arguments cannot be understood. -/
  | refused (message : String)
  deriving DecidableEq, Repr

/-- The name of the command. -/
def command : String := "architecture-lint"

/-- How the command is used. -/
def usage : String := "Usage: " ++ command ++ " [BACKEND_DIR]"

/-- The answer to a request for help. -/
def helpText : String :=
  "Check that the merch-store backend keeps its layer boundaries\n\n" ++ usage ++
  "\n\nArguments:\n  [BACKEND_DIR]  Backend crate directory; defaults to the nearest `backend/` " ++
  "holding `src/lib.rs`, searched upwards from the working directory\n\nOptions:\n" ++
  "  -h, --help     Print help\n  -V, --version  Print version\n"

/-- The answer to a request for the version. -/
def versionText : String := command ++ " 0.1.0\n"

/-- Where to look for help. -/
def hint : String := "For more information, try '--help'.\n"

/-- An argument that is not expected. -/
def unexpected (argument : String) : Request :=
  .refused ("error: unexpected argument '" ++ argument ++ "' found\n\n" ++ usage ++ "\n\n" ++ hint)

/-- An option that there is not. It may have been meant as the directory. -/
def unknownOption (option : String) (onlyValues : Bool) : Request :=
  if onlyValues then unexpected option
  else
    .refused ("error: unexpected argument '" ++ option ++ "' found\n\n  tip: to pass '" ++ option ++
      "' as a value, use '-- " ++ option ++ "'\n\n" ++ usage ++ "\n\n" ++ hint)

/-- An option that takes no value got one. -/
def unneededValue (option value : String) : Request :=
  .refused ("error: unexpected value '" ++ value ++ "' for '" ++ option ++
    "' found; no more were expected\n\n" ++ usage ++ "\n\n" ++ hint)

def emptyDirectory : Request :=
  .refused ("error: a value is required for '[BACKEND_DIR]' but none was supplied\n\n" ++ hint)

/-- The request for the directory read, if there was one. -/
def ofDirectory : Option String → Request
  | none => .search
  | some directory => if directory = "" then emptyDirectory else .check directory

/-- A request that is met as soon as it is read, unless the directory before it is empty. -/
def afterDirectory (directory : Option String) (r : Request) : Request :=
  if directory = some "" then emptyDirectory else r

/-- What a long option asks for; its name comes with what follows an equals sign. -/
def ofLongOption (directory : Option String) (name : List Char) : Request :=
  let option := String.ofList ("--".toList ++ name.takeWhile (· ≠ '='))
  let value := String.ofList ((name.dropWhile (· ≠ '=')).drop 1)
  let known := fun r =>
    afterDirectory directory (if name.contains '=' then unneededValue option value else r)
  if option = "--help" then known .help
  else if option = "--version" then known .version
  else unknownOption option false

def ofShortOption (directory : Option String) (name : Char) : Request :=
  if name = 'h' then afterDirectory directory .help
  else if name = 'V' then afterDirectory directory .version
  else unknownOption (String.ofList ['-', name]) false

/-- Reads the arguments after those that are read already: the directory, if there was one, and
whether only values may follow. -/
def readArguments (directory : Option String) (onlyValues : Bool) : List String → Request
  | [] => ofDirectory directory
  | argument :: rest =>
    match argument.toList, onlyValues with
    | ['-', '-'], false => readArguments directory true rest
    | '-' :: '-' :: name, false => ofLongOption directory name
    | '-' :: name :: _, false => ofShortOption directory name
    | _, _ =>
      match directory with
      | none => readArguments (some argument) onlyValues rest
      | some _ => unexpected argument

/-- What the arguments ask for. -/
def Request.ofArguments (arguments : List String) : Request := readArguments none false arguments

/-! ## Running -/

/-- What a run leaves: the exit code and what is written. -/
structure Outcome where
  exit : Nat
  out : String := ""
  err : String := ""
  deriving DecidableEq, Repr

/-- A directory and those around it, from the inside out. -/
def around (directory : List Char) : List (List Char) :=
  let names := PathText.components directory
  ((List.range (names.length + 1)).map fun n => '/' :: ['/'].intercalate (names.take n)).reverse

/-- The directories that are searched from the working directory upwards. -/
def candidates (workingDirectory : List Char) : List (List Char) :=
  (around workingDirectory).map fun directory => PathText.join directory "backend".toList

def rootFile (directory : List Char) : List Char :=
  PathText.join (PathText.join directory "src".toList) "lib.rs".toList

/-- Checks the crate below a directory and tells the outcome. A walk that does not end is
aborted. -/
def check (files : Files) (parse : Parser) (directory : List Char) : Outcome :=
  match lintBelow files parse directory with
  | none => { exit := 134 }
  | some (.ok checked) =>
    { exit := 0, out := String.ofList directory ++ ": " ++ toString checked.length ++
        " layer modules respect their boundaries\n" }
  | some (.error e) => { exit := 1, err := e.message ++ "\n" }

/-- Runs the command in a working directory. -/
def run (files : Files) (parse : Parser) (workingDirectory : List Char)
    (arguments : List String) : Outcome :=
  match Request.ofArguments arguments with
  | .help => { exit := 0, out := helpText }
  | .version => { exit := 0, out := versionText }
  | .refused message => { exit := 2, err := message }
  | .check directory => check files parse directory.toList
  | .search =>
    match (candidates workingDirectory).find? fun d => files.isFile (rootFile d) with
    | some directory => check files parse directory
    | none =>
      { exit := 1,
        err := "no backend directory given and none found above the working directory\n" }

end CoinLedger.Layering.CommandLine
