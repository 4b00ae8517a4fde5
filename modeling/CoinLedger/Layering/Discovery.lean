import CoinLedger.Layering.FileTree
/-!
# Discovery of modules

The modules of a crate are found by following declarations from its root file. A declared module is
in the file that an attribute sets, in a file of its name, or in the file `mod.rs` of a directory
of its name. The root file and every `mod.rs` have their modules beside them; the modules of another
file are in a directory named like it. Declarations of test code, and those inside modules in place,
are not followed.

An attribute may lead back to a file that is being visited, so a walk need not end. `visit` is told
how deep it may follow declarations and has no result if that does not suffice; what it finds does
not depend on the depth otherwise.

## Main definitions

* `visit` — the modules from one file on.
* `discover`, `lintBelow` — all modules of a crate, and their check.

## Main results

* `visit_succ` — with a result, following deeper changes nothing.
-/

namespace CoinLedger.Layering

/-- What can be asked about files. -/
structure Files where
  read : List Char → Except ReadFailure String
  isFile : List Char → Bool

/-- The files of a tree. -/
def FileTree.files (t : FileTree) : Files := ⟨t.read, t.isFile⟩

/-- A crate among files: the directory that holds its root file. -/
structure Crate where
  files : Files
  parse : Parser
  directory : List Char

/-- A file to be visited as a module. -/
structure Visit where
  file : List Char
  module : ModulePath
  /-- Whether the modules declared in the file are beside it. -/
  ownsDirectory : Bool
  deriving DecidableEq, Repr

namespace Crate

def shown (c : Crate) (file : List Char) : String :=
  String.ofList ((PathText.below? c.directory file).getD file)

/-- The directory of the modules that are declared in a file. -/
def childDirectory (v : Visit) : List Char :=
  let directory := PathText.parent v.file
  if v.ownsDirectory then directory
  else
    match PathText.stem? v.file with
    | some stem => PathText.join directory stem
    | none => directory

/-- Whether a path that an attribute sets is one of a file whose modules are beside it. -/
def namesOwner (path : String) : Bool := "mod.rs".toList.isSuffixOf path.toList

/-- The places of a declared module that no attribute sets a file for, in the order in which they
are tried. -/
def places (v : Visit) (name : String) : List Visit :=
  let directory := childDirectory v
  [⟨PathText.join directory (name ++ ".rs").toList, v.module ++ [name], false⟩,
    ⟨PathText.join (PathText.join directory name.toList) "mod.rs".toList, v.module ++ [name], true⟩]

/-- The place that an attribute sets for a declared module. -/
def setPlace? (v : Visit) (d : Declaration) : Option Visit :=
  (d.attributes.findSome? Attribute.file?).map fun path =>
    ⟨PathText.join (PathText.parent v.file) path.toList, v.module ++ [d.name], namesOwner path⟩

/-- Where a declared module is. -/
def resolve (c : Crate) (v : Visit) (d : Declaration) : Except LintError Visit :=
  match setPlace? v d with
  | some place => .ok place
  | none =>
    match (places v d.name).find? fun place => c.files.isFile place.file with
    | some place => .ok place
    | none =>
      .error (.missingModule (ModulePath.text (v.module ++ [d.name])) (c.shown v.file))

/-- The text of a file and the modules that it declares. -/
def openFile (c : Crate) (file : List Char) : Except LintError (String × List Declaration) :=
  match c.files.read file with
  | .error cause => .error (.unreadable (String.ofList file) cause)
  | .ok contents =>
    match c.parse contents with
    | .error detail => .error (.unparsable (c.shown file) detail)
    | .ok outline => .ok (contents, outline.declarations)

/-- The outcome of a walk that ends: the modules found, or the first error met. -/
abbrev Walked := Except LintError (List Source)

/-- Visits declared modules one after the other; the first error ends it. -/
def visitAll (follow : Visit → Option Walked) (find : Declaration → Except LintError Visit) :
    List Declaration → Option Walked
  | [] => some (.ok [])
  | d :: rest =>
    match find d with
    | .error e => some (.error e)
    | .ok v =>
      match follow v with
      | none => none
      | some (.error e) => some (.error e)
      | some (.ok found) => (visitAll follow find rest).map (Except.map (found ++ ·))

/-- The modules from one file on, each after those that it declares. Without a result if following
declarations to the given depth does not end. -/
def visit (c : Crate) : Nat → Visit → Option Walked
  | 0, _ => none
  | depth + 1, v =>
    match c.openFile v.file with
    | .error e => some (.error e)
    | .ok (contents, declarations) =>
      (visitAll (visit c depth) (c.resolve v) declarations).map (Except.map fun found =>
        found ++ [⟨v.module, c.shown v.file, contents⟩])

/-- The root file of a crate, whose modules are beside it. -/
def rootVisit (c : Crate) : Visit := ⟨PathText.join c.directory "lib.rs".toList, [], true⟩

/-- Whether the walk from the root file ends. -/
def Terminates (c : Crate) : Prop := ∃ depth, (c.visit depth c.rootVisit).isSome

/-- How deep declarations are followed before a walk is given up. -/
def deepest : Nat := 10000

/-- All modules of a crate, or the first error met. Without a result if the walk does not end. -/
def discover (c : Crate) : Option Walked := c.visit deepest c.rootVisit

/-! ## Depth -/

theorem visitAll_mono {f g : Visit → Option Walked} {find : Declaration → Except LintError Visit}
    (h : ∀ v r, f v = some r → g v = some r) {ds : List Declaration} {r : Walked}
    (hr : visitAll f find ds = some r) : visitAll g find ds = some r := by
  induction ds generalizing r with
  | nil => exact hr
  | cons d rest ih =>
    rw [visitAll] at hr ⊢
    cases hd : find d with
    | error e => simpa [hd] using hr
    | ok v =>
      simp only [hd] at hr ⊢
      cases hv : f v with
      | none => simp [hv] at hr
      | some w =>
        rw [h v w hv]
        simp only [hv] at hr
        cases w with
        | error e => exact hr
        | ok found =>
          obtain ⟨s, hs, rfl⟩ := Option.map_eq_some_iff.1 hr
          simp [ih hs]

/-- A walk that ends within a depth ends alike within a greater one. -/
theorem visit_succ {c : Crate} {depth : Nat} {v : Visit} {r : Walked}
    (h : c.visit depth v = some r) : c.visit (depth + 1) v = some r := by
  induction depth generalizing v r with
  | zero => simp [visit] at h
  | succ depth ih =>
    rw [visit] at h ⊢
    cases ho : c.openFile v.file with
    | error e => simpa [ho] using h
    | ok opened =>
      simp only [ho] at h ⊢
      obtain ⟨w, hw, rfl⟩ := Option.map_eq_some_iff.1 h
      rw [visitAll_mono (fun v r => ih) hw]
      rfl

end Crate

/-- Checks the crate below `src` of a directory. Without a result if its modules cannot be walked to
an end. -/
def lintBelow (files : Files) (parse : Parser) (directory : List Char) :
    Option (Except LintError (List String)) :=
  let crate : Crate := ⟨files, parse, PathText.join directory "src".toList⟩
  crate.discover.map fun walked => walked.bind (lintSources parse)

end CoinLedger.Layering
