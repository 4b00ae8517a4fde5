import CoinLedger.Ascending
import CoinLedger.Layering.Outline
/-!
# Checking sources

A source is a module with its file and its text. The modules in a layer are checked: every path in
them that leads into a forbidden layer or crate is a violation, reported once per module and target.
Modules outside the layers are not looked at.

How texts are parsed is a parameter, for the checks only look at outlines.

## Main definitions

* `objection?` — what is wrong with a path.
* `lintSources` — the outcome for a list of sources.
* `LintError`, `LintError.message` — why a check does not pass.
-/

namespace CoinLedger.Layering

/-- A parser of source texts. -/
abbrev Parser := String → Except String Outline

/-- A module with the path of its file and its text. -/
structure Source where
  module : ModulePath
  file : String
  contents : String
  deriving DecidableEq, Repr

def Source.layer? (s : Source) : Option Layer := s.module.head?.bind Layer.ofName?

/-- A dependency that a layer may not have. -/
inductive Dependency where
  | layer (target : Layer)
  | external (name : String)
  deriving DecidableEq, Repr

/-- What is said about a forbidden dependency of a layer. -/
def Dependency.message (layer : Layer) : Dependency → String
  | .layer target => layer.name ++ " must not depend on crate::" ++ target.name
  | .external name => layer.name ++ " must not depend on external crate `" ++ name ++ "`"

def Target.forbidden? (layer : Layer) : Target → Option Dependency
  | .layer target => if target ∈ layer.forbiddenLayers then some (.layer target) else none
  | .external name => if name ∈ layer.forbiddenCrates then some (.external name) else none
  | .here => none

/-- What is wrong with a path in a module of a layer. -/
def objection? (layer : Layer) (module : ModulePath) (segments : Segments) : Option Dependency :=
  (classify module segments).forbidden? layer

/-- What is wrong with the paths in a module: each thing once, in ascending order. -/
def messages (layer : Layer) (module : ModulePath) (paths : List Segments) : List String :=
  ascending ((paths.filterMap (objection? layer module)).map (Dependency.message layer))

/-- One violation of the rules. -/
structure Violation where
  module : String
  file : String
  message : String
  deriving DecidableEq, Repr

/-- A violation as it is listed. -/
def Violation.text (v : Violation) : String :=
  v.module ++ " (" ++ v.file ++ "): " ++ v.message

/-- Why a file could not be read. -/
inductive ReadFailure where
  | notFound
  | notADirectory
  | isADirectory
  | invalidFilename
  | invalidInput
  | invalidData
  | permissionDenied
  deriving DecidableEq, Repr

/-- What the system says about a failed read. -/
def ReadFailure.message : ReadFailure → String
  | notFound => "No such file or directory (os error 2)"
  | notADirectory => "Not a directory (os error 20)"
  | isADirectory => "Is a directory (os error 21)"
  | invalidFilename => "File name too long (os error 36)"
  | invalidInput => "file name contained an unexpected NUL byte"
  | invalidData => "stream did not contain valid UTF-8"
  | permissionDenied => "Permission denied (os error 13)"

/-- Why a check does not pass. -/
inductive LintError where
  /-- A file could not be read. -/
  | unreadable (path : String) (cause : ReadFailure)
  /-- A text is no source. -/
  | unparsable (file : String) (detail : String)
  /-- A declared module has no file. -/
  | missingModule (module : String) (declaredIn : String)
  /-- The rules are violated. -/
  | violations (found : List Violation)
  deriving DecidableEq, Repr

/-- What is said when a check does not pass. -/
def LintError.message : LintError → String
  | unreadable path cause => "failed to read " ++ path ++ ": " ++ cause.message
  | unparsable file detail => "failed to parse " ++ file ++ ": " ++ detail
  | missingModule module declaredIn =>
    "module `" ++ module ++ "` declared in " ++ declaredIn ++ " has no source file"
  | violations found =>
    "architecture boundary violations:" ++ String.join (found.map fun v => "\n- " ++ v.text)

/-- The violations of one module of a layer. -/
def checkSource (parse : Parser) (layer : Layer) (s : Source) :
    Except LintError (List Violation) :=
  match parse s.contents with
  | .error detail => .error (.unparsable s.file detail)
  | .ok outline =>
    .ok ((messages layer s.module outline.paths).map fun message =>
      ⟨s.module.text, s.file, message⟩)

/-- The names of the layer modules with the violations of each, in order; the first source that is
none ends the check. -/
def checkAll (parse : Parser) : List Source → Except LintError (List (String × List Violation))
  | [] => .ok []
  | s :: rest =>
    match s.layer? with
    | none => checkAll parse rest
    | some layer => do
      let found ← checkSource parse layer s
      let others ← checkAll parse rest
      pure ((s.module.text, found) :: others)

/-- The names of the modules checked, if no rule is violated. -/
def lintSources (parse : Parser) (sources : List Source) : Except LintError (List String) := do
  let checked ← checkAll parse sources
  match checked.flatMap Prod.snd with
  | [] => pure (checked.map Prod.fst)
  | found => throw (.violations found)

end CoinLedger.Layering
