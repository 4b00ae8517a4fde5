import CoinLedger.Layering.UseTree
/-!
# Outlines

An outline keeps of a source file what the layer rules look at: every path that is written in it,
every import, and the items around them with their attributes. Items may stand anywhere, also inside
functions.

An item marked as test code is left out with all that is in it, but only if it is of one of the
kinds that are looked at for such a mark.

## Main definitions

* `Attribute.marksTest` — the mark of test code.
* `Outline` — items and paths of a file.
* `Outline.paths`, `Outline.located` — the paths that count, and where they are written.
* `Node.Omits` — leaving a part out.
-/

namespace CoinLedger.Layering

/-! ## Attributes -/

/-- What an attribute says besides its name. -/
inductive AttributeContent where
  /-- Nothing. -/
  | bare
  /-- Something in brackets; known if it is a single identifier. -/
  | arguments (sole : Option String)
  | text (value : String)
  /-- Another value. -/
  | value
  deriving DecidableEq, Repr

/-- An attribute; its name is known if it is a single identifier. -/
structure Attribute where
  name : Option String
  content : AttributeContent := .bare
  deriving DecidableEq, Repr

def Attribute.marksTest (a : Attribute) : Bool :=
  a.name = some "cfg" && a.content = .arguments (some "test")

/-- The file that an attribute sets for a module. -/
def Attribute.file? (a : Attribute) : Option String :=
  match a.content with
  | .text value => if a.name = some "path" then some value else none
  | _ => none

/-! ## Items -/

/-- The kinds of items. -/
inductive ItemKind where
  /-- A module, in place or in a file of its own. -/
  | module (name : String) (inPlace : Bool)
  | function
  | imports
  | implementation
  | struct
  | enumeration
  | constant
  | static
  | trait
  | union
  | typeAlias
  | traitAlias
  | externCrate
  | externBlock
  | invocation
  | unparsed
  deriving DecidableEq, Repr

/-- Whether items of a kind are looked at for the mark of test code. -/
def ItemKind.mayBeTest : ItemKind → Bool
  | module _ _ | function | imports | implementation | struct | enumeration | constant | static
  | trait => true
  | union | typeAlias | traitAlias | externCrate | externBlock | invocation | unparsed => false

/-- The module that stands inside an item of a kind, given the one that it stands in. -/
def ItemKind.inside (module : ModulePath) : ItemKind → ModulePath
  | .module name true => module ++ [name]
  | _ => module

/-- What is written in a file or in an item. -/
inductive Node where
  | path (segments : Segments)
  /-- What an import names. -/
  | use (tree : UseTree)
  | item (kind : ItemKind) (attributes : List Attribute) (body : List Node)

/-- What is written in a file, in order. -/
structure Outline where
  nodes : List Node

/-- Whether an item is left out as test code. -/
def skipped (kind : ItemKind) (attributes : List Attribute) : Bool :=
  kind.mayBeTest && attributes.any Attribute.marksTest

namespace Node

mutual

def paths : Node → List Segments
  | path segments => [segments]
  | use tree => tree.paths
  | item kind attributes body => if skipped kind attributes then [] else pathsOfAll body

/-- The paths that count in several nodes. -/
def pathsOfAll : List Node → List Segments
  | [] => []
  | node :: rest => paths node ++ pathsOfAll rest

end

/-- The module that a node of an item stands in, given the ones around the item and inside it: what
is a path itself belongs to the attributes or to the visibility of the item, which are around it. -/
def standsIn (outside inside : ModulePath) : Node → ModulePath
  | path _ => outside
  | _ => inside

mutual

/-- The paths that count in a node, each with the module that it is written in. -/
def located (module : ModulePath) : Node → List (ModulePath × Segments)
  | path segments => [(module, segments)]
  | use tree => tree.paths.map fun segments => (module, segments)
  | item kind attributes body =>
    if skipped kind attributes then [] else locatedInAll module (kind.inside module) body

/-- The paths that count in several nodes of an item, each with the module that it is written in. -/
def locatedInAll (outside inside : ModulePath) : List Node → List (ModulePath × Segments)
  | [] => []
  | node :: rest =>
    located (node.standsIn outside inside) node ++ locatedInAll outside inside rest

end

mutual

theorem map_located (module : ModulePath) : (node : Node) →
    (node.located module).map Prod.snd = node.paths
  | path segments => rfl
  | use tree => by simp [located, paths, List.map_map, Function.comp_def]
  | item kind attributes body => by
    rw [located, paths]
    split
    · rfl
    · exact map_locatedInAll _ _ body

theorem map_locatedInAll (outside inside : ModulePath) : (nodes : List Node) →
    (locatedInAll outside inside nodes).map Prod.snd = pathsOfAll nodes
  | [] => rfl
  | node :: rest => by
    rw [locatedInAll, pathsOfAll, List.map_append, map_located _ node,
      map_locatedInAll outside inside rest]

end

end Node

/-- Some nodes, and the same without a part of them, wherever it stands: an item, or what a
statement comes to. The flag says whether something around it is left out as test code. -/
inductive Node.Omits (part : List Node) : (covered : Bool) → List Node → List Node → Prop where
  | here {before after : List Node} : Omits part false (before ++ part ++ after) (before ++ after)
  | within {before after body body' : List Node} {kind : ItemKind} {attributes : List Attribute}
      {covered : Bool} :
      Omits part covered body body' →
      Omits part (skipped kind attributes || covered)
        (before ++ .item kind attributes body :: after)
        (before ++ .item kind attributes body' :: after)

namespace Outline

/-- The paths that count in a file. -/
def paths (o : Outline) : List Segments := Node.pathsOfAll o.nodes

/-- The paths that count in the file of a module, each with the module that it is written in: that
of the file, or one in place within it. -/
def located (module : ModulePath) (o : Outline) : List (ModulePath × Segments) :=
  Node.locatedInAll module module o.nodes

end Outline

/-- A module that a file declares to be in another file. -/
structure Declaration where
  name : String
  attributes : List Attribute

/-- The modules in other files that are declared at the top of a file, less those marked as test
code. -/
def Outline.declarations (o : Outline) : List Declaration :=
  o.nodes.filterMap fun
    | .item (.module name false) attributes _ =>
      if attributes.any Attribute.marksTest then none else some ⟨name, attributes⟩
    | _ => none

end CoinLedger.Layering
