import CoinLedger.Layering.Grammar.Token
import CoinLedger.Layering.Outline
/-!
# Imports as they are written

What is imported is written as a tree: a group shares what stands in front of it, and colons in
front of everything lead to the root of all crates. They may stand in front of a member of a group,
too, unless something stands in front of the group.

An import stands for imports of single paths, one for each leaf: groups are multiplied out, other
names are dropped, a `self` that is a member of a group is what stands in front of the group, and
everything is what stands in front of it.

A check does not look into an import with a group of which a member begins with colons.

## Main definitions

* `WrittenTree`, `WrittenTree.Spells` — what is imported, and how it is written.
* `WrittenTree.singles` — the imports of single paths that an import stands for.
* `WrittenTree.node` — what an outline keeps of an import.
* `WrittenTree.HasRootedMember` — imports that are not looked into.
-/

namespace CoinLedger.Layering

open Grammar

/-- What is imported, as it is written. -/
inductive WrittenTree where
  /-- Something below a segment. -/
  | under (segment : String) (tree : WrittenTree)
  | name (name : String)
  /-- One name, under another one. -/
  | rename (name other : String)
  /-- Everything. -/
  | all
  /-- Several trees. -/
  | group (members : List WrittenTree)
  /-- Something that is looked for from the root of all crates. -/
  | rooted (tree : WrittenTree)

namespace WrittenTree

/-! ## Writing -/

/-- Whether a word may stand in an import. -/
def mayName (word : String) : Bool :=
  isIdentifier word || ["self", "super", "crate", "try"].contains word

mutual

/-- The tokens that a tree may be written in, where it may begin with colons or not. -/
def Spells (mayBeRooted : Bool) : WrittenTree → List Token → Prop
  | under segment tree, tokens => mayName segment = true ∧ ∃ joint rest,
      tokens = .word segment :: .mark ':' true :: .mark ':' joint :: rest ∧ Spells false tree rest
  | name n, tokens => mayName n = true ∧ tokens = [.word n]
  | rename n other, tokens => mayName n = true ∧ (isIdentifier other = true ∨ other = "_") ∧
      tokens = [.word n, .word "as", .word other]
  | all, tokens => ∃ joint, tokens = [.mark '*' joint]
  | group members, tokens => ∃ inner,
      tokens = [.group .curly inner] ∧ SpellsAll mayBeRooted members inner
  | rooted tree, tokens => mayBeRooted = true ∧ ∃ joint rest,
      tokens = .mark ':' true :: .mark ':' joint :: rest ∧ Spells false tree rest

/-- The tokens that the members of a group may be written in: commas stand between them, and one
more may follow the last. -/
def SpellsAll (mayBeRooted : Bool) : List WrittenTree → List Token → Prop
  | [], tokens => tokens = []
  | tree :: others, tokens => ∃ first, Spells mayBeRooted tree first ∧
      (others = [] ∧ tokens = first ∨ ∃ joint rest,
        tokens = first ++ .mark ',' joint :: rest ∧ SpellsAll mayBeRooted others rest)

end

/-! ## Single paths -/

/-- One path; without a segment it imports nothing. -/
def chain : Segments → WrittenTree
  | [] => group []
  | [n] => name n
  | segment :: rest => under segment (chain rest)

/-- The import of one path, from the root of all crates or not. -/
def single (isRooted : Bool) (path : Segments) : WrittenTree :=
  if isRooted then rooted (chain path) else chain path

/-- A name behind what stands in front of it, as a member of a group or not. -/
def named (grouped : Bool) (front : Segments) (n : String) : Segments :=
  if grouped && n = "self" then front else front ++ [n]

mutual

/-- The imports that a tree stands for behind what stands in front of it. -/
def singlesFrom (isRooted grouped : Bool) (front : Segments) : WrittenTree → List WrittenTree
  | under segment tree => singlesFrom isRooted false (front ++ [segment]) tree
  | name n => [single isRooted (named grouped front n)]
  | rename n _ => [single isRooted (named grouped front n)]
  | all => [single isRooted front]
  | group members => singlesFromAll isRooted front members
  | rooted tree => singlesFrom true false front tree

/-- The imports that the members of a group stand for. -/
def singlesFromAll (isRooted : Bool) (front : Segments) : List WrittenTree → List WrittenTree
  | [] => []
  | tree :: others => singlesFrom isRooted true front tree ++ singlesFromAll isRooted front others

end

/-- The imports of single paths that an import stands for. -/
def singles (tree : WrittenTree) : List WrittenTree := tree.singlesFrom false false []

/-! ## Outlines -/

mutual

/-- What a tree is read as; one that begins with colons is none to read. -/
def tree? : WrittenTree → Option UseTree
  | under segment tree => tree.tree?.map (.under segment)
  | name n => some (.name n)
  | rename n other => some (.rename n other)
  | all => some .all
  | group members => (trees? members).map .group
  | rooted _ => none

/-- What the members of a group are read as, if all are read. -/
def trees? : List WrittenTree → Option (List UseTree)
  | [] => some []
  | tree :: others =>
    match tree.tree?, trees? others with
    | some t, some ts => some (t :: ts)
    | _, _ => none

end

/-- What is read of an import, which may begin with colons. -/
def import? : WrittenTree → Option UseTree
  | rooted tree => tree.tree?
  | tree => tree.tree?

/-- What an outline keeps of an import with attributes. -/
def node (attributes : List Attribute) (tree : WrittenTree) : Node :=
  match tree.import? with
  | some read => .item .imports attributes [.use read]
  | none => .item .unparsed [] []

/-- A member of a group begins with colons, and so nothing stands in front of the group. -/
inductive HasRootedMember : WrittenTree → Prop
  | here {tree : WrittenTree} {members : List WrittenTree} :
      rooted tree ∈ members → HasRootedMember (group members)
  | within {tree : WrittenTree} {members : List WrittenTree} :
      tree ∈ members → HasRootedMember tree → HasRootedMember (group members)

end WrittenTree

end CoinLedger.Layering
