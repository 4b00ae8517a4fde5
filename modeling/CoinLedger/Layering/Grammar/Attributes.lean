import CoinLedger.Layering.Grammar.Reader
/-!
# Attributes, names and visibility

An attribute is a path in square brackets, perhaps with something in brackets or with a value. It
stands in front of what it belongs to, or inside with an exclamation mark. The path of an attribute
and the paths in its value count; what it has in brackets does not.
-/

namespace CoinLedger.Layering.Grammar

/-! ## Plain paths -/

/-- The segments of a path without arguments. -/
def segmentsRule : Nat → Reader Segments
  | 0 => refuse
  | bound + 1 => do
    if !(← look nextPathWord) then refuse
    else
      let name ← anyWord
      if ← mark? "::" then
        let rest ← segmentsRule bound
        pure (name :: rest)
      else pure [name]

/-- A path without arguments, and whether it begins with colons. -/
def plainPath : Reader (Bool × Segments) := do
  let colons ← mark? "::"
  let segments ← segmentsRule ((← get).length + 1)
  pure (colons, segments)

/-! ## Attributes -/

def attributePath : Reader (Bool × Segments) := do
  if ← word? "unsafe" then pure (false, ["unsafe"]) else plainPath

/-- The identifier that is all there is between brackets. -/
def soleIdentifier? : List Token → Option String
  | [.word w] => if isIdentifier w then some w else none
  | _ => none

/-- What follows the path of an attribute, with the nodes in its value. -/
def attributeContent (g : Rules) : Reader (AttributeContent × Nodes) := do
  match ← get with
  | .group _ tokens :: rest =>
    set rest
    pure (.arguments (soleIdentifier? tokens), [])
  | .mark '=' _ :: rest =>
    set rest
    match rest with
    | [.literal (.text value)] =>
      set ([] : List Token)
      pure (.text value, [])
    | _ =>
      let nodes ← g.expressionNodes
      pure (.value, nodes)
  | _ => pure (.bare, [])

/-- What is in the brackets of an attribute. -/
def attributeBody (g : Rules) : Reader (Attribute × Nodes) := do
  let (colons, segments) ← attributePath
  let (content, nodes) ← attributeContent g
  let name := match colons, segments with
    | false, [name] => some name
    | _, _ => none
  pure (⟨name, content⟩, .path segments :: nodes)

/-- Attributes with the nodes in them. -/
abbrev AttributesRead := List Attribute × Nodes

/-- Attributes one after the other, each behind a reader for what announces it. -/
def attributesWithin (g : Rules) (announced : List Token → Bool) (announce : Reader Unit) :
    Nat → Reader AttributesRead
  | 0 => refuse
  | bound + 1 => do
    if ← look announced then
      announce
      let (first, nodes) ← inside .square (attributeBody g)
      let (others, more) ← attributesWithin g announced announce bound
      pure (first :: others, nodes ++ more)
    else pure ([], [])

/-- The attributes in front of something. -/
def outerAttributes (g : Rules) : Reader AttributesRead := do
  attributesWithin g (nextMark "#") (mark "#") ((← get).length + 1)

/-- Whether an attribute of what is around comes next. -/
def nextInner (ts : List Token) : Bool := nextMark "#" ts && nextMark "!" (ts.drop 1)

/-- The attributes of what is around. -/
def innerAttributes (g : Rules) : Reader AttributesRead := do
  attributesWithin g nextInner (do mark "#"; mark "!") ((← get).length + 1)

/-- The nodes of the attributes in front of something. -/
def outerNodes (g : Rules) : Reader Nodes := do pure (← outerAttributes g).2

/-! ## Visibility -/

/-- Visibility. -/
structure VisibilityRead where
  /-- Whether nothing is written. -/
  isInherited : Bool
  nodes : Nodes

/-- What a visibility is restricted to, if that is what stands in the brackets. -/
def restriction? (tokens : List Token) : Option (Option Segments) :=
  match tokens with
  | [.word w] => if w = "crate" || w = "self" || w = "super" then some (some [w]) else none
  | .word "in" :: rest =>
    match plainPath rest with
    | some ((_, segments), []) => some (some segments)
    | _ => some none
  | _ => none

/-- The visibility of something. -/
def visibility : Reader VisibilityRead := do
  if ← word? "pub" then
    match ← get with
    | .group .round tokens :: rest =>
      match restriction? tokens with
      | some (some segments) =>
        set rest
        pure ⟨false, [.path segments]⟩
      | some none => refuse
      | none => pure ⟨false, []⟩
    | _ => pure ⟨false, []⟩
  else pure ⟨true, []⟩

end CoinLedger.Layering.Grammar
