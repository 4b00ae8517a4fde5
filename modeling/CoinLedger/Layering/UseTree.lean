import CoinLedger.Layering.Target
/-!
# Imports

An import names one or several paths by a tree: groups share what stands in front of them. The
paths of a tree are its leaves, each with all that stands in front of it; a leaf that is imported
under another name counts by its own name, and one that imports everything counts by what stands in
front of it.

`flatten` writes a tree as single imports, one per leaf. There a `self` at the end of a group is
what stands in front of the group.

## Main definitions

* `UseTree.paths` — the paths of a tree, as they are checked.
* `UseTree.imports`, `UseTree.flatten` — the single imports that a tree stands for.
-/

namespace CoinLedger.Layering

/-- What is imported. -/
inductive UseTree where
  /-- Something below a segment. -/
  | under (segment : String) (tree : UseTree)
  | name (name : String)
  /-- One name, under another one. -/
  | rename (name other : String)
  /-- Everything. -/
  | all
  /-- Several trees. -/
  | group (trees : List UseTree)

namespace UseTree

mutual

/-- The paths of a tree behind what stands in front of it. -/
def pathsFrom (front : Segments) : UseTree → List Segments
  | under segment tree => pathsFrom (front ++ [segment]) tree
  | name n => [front ++ [n]]
  | rename n _ => [front ++ [n]]
  | all => [front]
  | group trees => pathsFromAll front trees

/-- The paths of several trees behind what stands in front of them. -/
def pathsFromAll (front : Segments) : List UseTree → List Segments
  | [] => []
  | tree :: rest => pathsFrom front tree ++ pathsFromAll front rest

end

def paths (tree : UseTree) : List Segments := tree.pathsFrom []

mutual

/-- The single imports that a tree stands for behind what stands in front of it, and inside a group
or not. -/
def importsFrom (grouped : Bool) (front : Segments) : UseTree → List Segments
  | under segment tree => importsFrom false (front ++ [segment]) tree
  | name n => if grouped && n = "self" then [front] else [front ++ [n]]
  | rename n _ => if grouped && n = "self" then [front] else [front ++ [n]]
  | all => [front]
  | group trees => importsFromAll front trees

/-- The single imports that the members of a group stand for. -/
def importsFromAll (front : Segments) : List UseTree → List Segments
  | [] => []
  | tree :: rest => importsFrom true front tree ++ importsFromAll front rest

end

/-- The single imports that a tree stands for. -/
def imports (tree : UseTree) : List Segments := tree.importsFrom false []

/-- The import of one path; without a segment it imports nothing. -/
def single : Segments → UseTree
  | [] => group []
  | [n] => name n
  | segment :: rest => under segment (single rest)

def flatten (tree : UseTree) : List UseTree := tree.imports.map single

end UseTree

end CoinLedger.Layering
