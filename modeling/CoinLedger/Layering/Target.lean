import CoinLedger.Layering.Layer
/-!
# What a path points at

A path is written inside a module as a list of segments. `crate`, or the crate's own name, leads to
the crate root; leading `self` and `super` lead from the module; any other first segment is an
external crate. `classify` says whether a path ends up in a layer, in an external crate, or
elsewhere in the crate.

`absolute?` resolves a path one segment at a time, which is what the word means; `classify` looks at
one or two segments only.

## Main definitions

* `classify` — what a path points at.
* `absolute?`, `Place.target` — the path resolved step by step, and what that points at.
-/

namespace CoinLedger.Layering

/-- The names of the modules from the crate root down to one module; empty for the root. -/
abbrev ModulePath := List String

/-- The text of a module path. -/
def ModulePath.text (m : ModulePath) : String := "::".intercalate m

/-- The segments of a path as it is written. -/
abbrev Segments := List String

/-- What a path points at. -/
inductive Target where
  /-- A module in a layer of this crate. -/
  | layer (layer : Layer)
  /-- Another crate, or a name that is in scope without a path. -/
  | external (name : String)
  /-- Anything else in this crate. -/
  | here
  deriving DecidableEq, Repr

/-- The crate's own name, as it may stand in front of a path. -/
def crateName : String := "merch_store"

def isRoot (segment : String) : Bool := segment = "crate" || segment = crateName

/-- Whether a segment leads from a module to itself or to the one around it. -/
def isRelative (segment : String) : Bool := segment = "self" || segment = "super"

/-- The layer that a first segment below the crate root leads to. -/
def layerAt : Option String → Target
  | some name =>
    match Layer.ofName? name with
    | some layer => .layer layer
    | none => .here
  | none => .here

/-- What a path written in a module points at. As long as there are fewer `super` than enclosing
modules, a relative path stays below the module's own first segment. -/
def classify (module : ModulePath) (segments : Segments) : Target :=
  match segments with
  | [] => .here
  | first :: rest =>
    if isRoot first then layerAt rest.head?
    else if isRelative first then
      let ups := (segments.takeWhile isRelative).count "super"
      if ups < module.length then layerAt module.head?
      else layerAt (segments.dropWhile isRelative).head?
    else .external first

/-! ## Step by step -/

/-- Where a path ends up. -/
inductive Place where
  /-- In this crate, at a path from the root. -/
  | inside (path : List String)
  /-- In another crate. -/
  | outside (name : String)
  deriving DecidableEq, Repr

/-- Walks along leading `self` and `super` from a module; then the rest follows. There is nothing
above the crate root. -/
def walk (module : ModulePath) : Segments → Option (List String)
  | [] => some module
  | segment :: rest =>
    if segment = "self" then walk module rest
    else if segment = "super" then
      if module = [] then none else walk module.dropLast rest
    else some (module ++ segment :: rest)

/-- A path resolved one segment at a time. -/
def absolute? (module : ModulePath) (segments : Segments) : Option Place :=
  match segments with
  | [] => some (.inside module)
  | first :: rest =>
    if isRoot first then some (.inside rest)
    else if isRelative first then (walk module segments).map .inside
    else some (.outside first)

def Place.target : Place → Target
  | inside path => layerAt path.head?
  | outside name => .external name

end CoinLedger.Layering
