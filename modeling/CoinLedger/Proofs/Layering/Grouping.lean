import CoinLedger.Layering.Grammar.File
import CoinLedger.Proofs.Layering.Imports
import CoinLedger.Proofs.Layering.Listing
import CoinLedger.Proofs.Layering.Resolution

/-!
# Grouped imports and the check

A group shares what stands in front of it, and the paths of an import are recorded with a `self`
behind that where the group has one.  A `self` at the end of a path leads nowhere else
(`objection?_self_behind`): behind a layer or another crate only what comes first counts, and the
module's own layer, where a path of nothing but steps leads, is not forbidden to it.  So the paths
that are recorded of an import are objected to like the single imports that it stands for, as often
and in the same order (`filterMap_pathsFrom`), if the import is looked into.

An import with a group of which a member begins with colons is not: it has no paths at all, while
its single imports have theirs.

## Main results

* `filterMap_pathsFrom` — what is wrong with a tree is what is wrong with its single imports.
* `exists_spells_of_mem_singles` — single imports can be written.
* `lintSources_ungrouped` — when it makes no difference to a check to write single imports.
-/

namespace CoinLedger.Layering

variable {layer : Layer} {module : ModulePath} {front path : Segments}

/-! ## Paths with a self behind them -/

theorem ups_self_behind (path : Segments) : ups (path ++ ["self"]) = ups path := by
  induction path with
  | nil => simp
  | cons first rest ih =>
    cases relative : isRelative first with
    | false => rw [List.cons_append, ups_of_absolute relative, ups_of_absolute relative]
    | true =>
      rcases isRelative_iff.1 relative with rfl | rfl
      · rw [List.cons_append, ups_self, ups_self, ih]
      · rw [List.cons_append, ups_super, ups_super, ih]

/-- What comes behind the leading steps, with a `self` behind the path or not. -/
theorem head?_dropWhile_self_behind (path : Segments) :
    ((path ++ ["self"]).dropWhile isRelative).head? = (path.dropWhile isRelative).head? := by
  induction path with
  | nil => rfl
  | cons first rest ih =>
    cases relative : isRelative first with
    | false => simp [relative]
    | true => simpa [relative] using ih

theorem layerAt_self_behind (path : Segments) :
    layerAt (path ++ ["self"]).head? = layerAt path.head? := by
  cases path with
  | nil => decide
  | cons => rfl

/-- A path with a `self` behind it leads where it leads without. -/
theorem classify_self_behind (some : path ≠ []) :
    classify module (path ++ ["self"]) = classify module path := by
  obtain ⟨first, rest, rfl⟩ := List.exists_cons_of_ne_nil some
  by_cases relative : isRelative first = true
  · rw [List.cons_append, classify_of_relative relative, classify_of_relative relative,
      ← List.cons_append, ups_self_behind, head?_dropWhile_self_behind]
  · rw [List.cons_append, classify, classify, if_neg relative, if_neg relative,
      layerAt_self_behind]

/-- In a module of a layer, a `self` behind a path makes it neither better nor worse. -/
theorem objection?_self_behind (own : module.head? = some layer.name) :
    objection? layer module (path ++ ["self"]) = objection? layer module path := by
  -- Only a `self` on its own leads elsewhere: to the layer of the module, which is its own.
  by_cases none : path = []
  · subst none
    obtain ⟨names, rfl⟩ := List.head?_eq_some_iff.1 own
    have leads : classify (layer.name :: names) ["self"] = .layer layer := by
      have below : ups ["self"] < (layer.name :: names).length := Nat.succ_pos _
      rw [classify_of_relative isRelative_self, if_pos below]
      exact layerAt_eq_layer_iff.2 rfl
    show objection? layer _ ["self"] = _
    rw [objection?, leads, Target.forbidden?, if_neg layer.not_mem_forbiddenLayers_self]
    rfl
  · rw [objection?, classify_self_behind none, objection?]

/-! ## Trees -/

/-- A name behind what stands in front of it, alone or as a member of a group. -/
theorem filterMap_leaf (own : module.head? = some layer.name) (grouped : Bool) (n : String) :
    [front ++ [n]].filterMap (objection? layer module) =
      (if grouped && n = "self" then [front] else [front ++ [n]]).filterMap
        (objection? layer module) := by
  split
  · next isSelf =>
    obtain ⟨-, rfl⟩ : grouped = true ∧ n = "self" := by simpa using isSelf
    rw [List.filterMap_cons, List.filterMap_cons, objection?_self_behind own]
  · rfl

mutual

/-- **What is wrong with the paths of a tree is what is wrong with its single imports.** -/
theorem filterMap_pathsFrom (own : module.head? = some layer.name) (grouped : Bool)
    (front : Segments) : (tree : UseTree) →
    (tree.pathsFrom front).filterMap (objection? layer module) =
      (tree.importsFrom grouped front).filterMap (objection? layer module)
  | .under segment tree => by
    rw [UseTree.pathsFrom, UseTree.importsFrom]
    exact filterMap_pathsFrom own false _ tree
  | .name n => by
    rw [UseTree.pathsFrom, UseTree.importsFrom]
    exact filterMap_leaf own grouped n
  | .rename n other => by
    rw [UseTree.pathsFrom, UseTree.importsFrom]
    exact filterMap_leaf own grouped n
  | .all => rfl
  | .group trees => by
    rw [UseTree.pathsFrom, UseTree.importsFrom]
    exact filterMap_pathsFromAll own front trees

/-- What is wrong with the members of a group is what is wrong with their single imports. -/
theorem filterMap_pathsFromAll (own : module.head? = some layer.name) (front : Segments) :
    (trees : List UseTree) →
    (UseTree.pathsFromAll front trees).filterMap (objection? layer module) =
      (UseTree.importsFromAll front trees).filterMap (objection? layer module)
  | [] => rfl
  | tree :: others => by
    rw [UseTree.pathsFromAll, UseTree.importsFromAll, List.filterMap_append,
      List.filterMap_append, filterMap_pathsFrom own true front tree,
      filterMap_pathsFromAll own front others]

end

/-- The path of a single import; one without a segment imports nothing. -/
theorem UseTree.pathsFrom_single (some : path ≠ []) :
    (UseTree.single path).pathsFrom front = [front ++ path] := by
  fun_induction UseTree.single path generalizing front with
  | case1 => exact absurd rfl some
  | case2 n => rfl
  | case3 segment rest none ih =>
    rw [pathsFrom, ih none, List.append_assoc]
    rfl

theorem filterMap_single (path : Segments) :
    (UseTree.single path).paths.filterMap (objection? layer module) =
      [path].filterMap (objection? layer module) := by
  by_cases none : path = []
  · subst none
    rfl
  · rw [UseTree.paths, UseTree.pathsFrom_single none, List.nil_append]

/-- What is wrong with an import is what is wrong with the imports that it is flattened to. -/
theorem filterMap_flatten (own : module.head? = some layer.name) (tree : UseTree) :
    (tree.flatten.flatMap UseTree.paths).filterMap (objection? layer module) =
      tree.paths.filterMap (objection? layer module) := by
  rw [UseTree.paths, filterMap_pathsFrom own false [] tree, ← UseTree.imports, UseTree.flatten]
  induction tree.imports with
  | nil => rfl
  | cons path others ih =>
    rw [List.map_cons, List.flatMap_cons, List.filterMap_append, filterMap_single, ih,
      ← List.filterMap_append]
    rfl

/-! ## Imports as they are written -/

section Written

open WrittenTree

variable {tree t : WrittenTree} {members : List WrittenTree} {attributes : List Attribute}
  {read : UseTree} {isRooted mayBeRooted : Bool} {ts : List Grammar.Token}

mutual

/-- The single imports of a tree that is read are those of what it is read as. -/
theorem singlesFrom_eq_map (isRooted grouped : Bool) (front : Segments) : (tree : WrittenTree) →
    {read : UseTree} → tree.tree? = some read →
      singlesFrom isRooted grouped front tree =
        (read.importsFrom grouped front).map (single isRooted)
  | under segment tree, read, is => by
    rw [tree?, Option.map_eq_some_iff] at is
    obtain ⟨below, is, rfl⟩ := is
    rw [singlesFrom, UseTree.importsFrom]
    exact singlesFrom_eq_map isRooted false _ tree is
  | name n, _, rfl => by
    rw [singlesFrom, UseTree.importsFrom, named]
    split <;> rfl
  | rename n other, _, rfl => by
    rw [singlesFrom, UseTree.importsFrom, named]
    split <;> rfl
  | all, _, rfl => rfl
  | group members, read, is => by
    rw [tree?, Option.map_eq_some_iff] at is
    obtain ⟨trees, are, rfl⟩ := is
    rw [singlesFrom, UseTree.importsFrom]
    exact singlesFromAll_eq_map isRooted front members are

/-- The single imports of the members of a group, if all are read. -/
theorem singlesFromAll_eq_map (isRooted : Bool) (front : Segments) :
    (members : List WrittenTree) → {trees : List UseTree} → trees? members = some trees →
      singlesFromAll isRooted front members =
        (UseTree.importsFromAll front trees).map (single isRooted)
  | [], _, rfl => rfl
  | tree :: others, trees, are => by
    rw [trees?] at are
    split at are
    · next first rest isFirst areOthers =>
      obtain rfl := Option.some.inj are
      rw [singlesFromAll, UseTree.importsFromAll, List.map_append,
        singlesFrom_eq_map isRooted true front tree isFirst,
        singlesFromAll_eq_map isRooted front others areOthers]
    · cases are

end

theorem tree?_chain (path : Segments) : (chain path).tree? = some (UseTree.single path) := by
  fun_induction chain path with
  | case1 => rfl
  | case2 n => rfl
  | case3 segment rest none ih =>
    rw [tree?, ih]
    cases rest with
    | nil => exact absurd rfl none
    | cons => rfl

theorem import?_single (isRooted : Bool) (path : Segments) :
    (single isRooted path).import? = some (UseTree.single path) := by
  cases isRooted with
  | true => exact tree?_chain path
  | false =>
    have plain : ∀ t, chain path ≠ rooted t := by
      fun_cases chain path <;> rintro t ⟨⟩
    exact (Grammar.import?_of_plain plain).trans (tree?_chain path)

/-- The single imports of an import that is looked into. -/
theorem singles_of_import? (is : tree.import? = some read) :
    ∃ isRooted, tree.singles = read.imports.map (single isRooted) := by
  cases tree with
  | rooted t => exact ⟨true, singlesFrom_eq_map true false [] t is⟩
  | _ => exact ⟨false, singlesFrom_eq_map false false [] _ is⟩

/-- The paths that count of an import that is looked into. -/
theorem pathsOfAll_node (is : tree.import? = some read) (attributes : List Attribute) :
    Node.pathsOfAll [tree.node attributes] =
      if skipped .imports attributes then [] else read.paths := by
  rw [node, is]
  cases skip : skipped .imports attributes with
  | true => exact Node.pathsOfAll_item_of_skipped skip
  | false =>
    rw [if_neg Bool.false_ne_true]
    exact (Node.pathsOfAll_item_of_not_skipped skip).trans (List.append_nil _)

theorem pathsOfAll_singles (isRooted : Bool) (attributes : List Attribute)
    (paths : List Segments) :
    Node.pathsOfAll ((paths.map (single isRooted)).map (node attributes)) =
      if skipped .imports attributes then []
      else (paths.map UseTree.single).flatMap UseTree.paths := by
  induction paths with
  | nil => split <;> rfl
  | cons path others ih =>
    rw [List.map_cons, List.map_cons, ← List.singleton_append, Node.pathsOfAll_append, ih,
      pathsOfAll_node (import?_single isRooted path)]
    split <;> rfl

/-- **An import that is looked into gives rise to the same messages as its single imports.** -/
theorem messages_singles (own : module.head? = some layer.name) (is : tree.import? = some read)
    (attributes : List Attribute) :
    messages layer module (Node.pathsOfAll (tree.singles.map (node attributes))) =
      messages layer module (Node.pathsOfAll [tree.node attributes]) := by
  obtain ⟨isRooted, same⟩ := singles_of_import? is
  rw [same, pathsOfAll_singles, pathsOfAll_node is]
  split
  · rfl
  · rw [messages, messages, ← UseTree.flatten, filterMap_flatten own]

/-- An import that is not looked into gives rise to no messages. -/
theorem messages_node_of_none (is : tree.import? = none) (attributes : List Attribute) :
    messages layer module (Node.pathsOfAll [tree.node attributes]) = [] := by
  rw [node, is]
  rfl

/-! ## Writing single imports -/

theorem mayName_named {grouped : Bool} {n : String} (may : ∀ m ∈ front, mayName m = true)
    (own : mayName n = true) : ∀ m ∈ named grouped front n, mayName m = true := by
  rw [named]
  split
  · exact may
  · exact List.forall_mem_append.2 ⟨may, by simpa using own⟩

mutual

/-- Single imports have paths of names that may stand in an import. -/
theorem exists_path_of_mem_singlesFrom {mayBeRooted : Bool} {ts : List Grammar.Token}
    (isRooted grouped : Bool) (front : Segments) (may : ∀ n ∈ front, mayName n = true) :
    (tree : WrittenTree) → tree.Spells mayBeRooted ts →
      ∀ t ∈ singlesFrom isRooted grouped front tree, ∃ isRooted path,
        t = single isRooted path ∧ ∀ n ∈ path, mayName n = true
  | under segment tree, spells => by
    rw [Spells] at spells
    obtain ⟨may', joint, rest, -, inner⟩ := spells
    rw [singlesFrom]
    refine exists_path_of_mem_singlesFrom isRooted false _ ?_ tree inner
    exact List.forall_mem_append.2 ⟨may, by simpa using may'⟩
  | name n, spells => by
    rw [Spells] at spells
    intro t ht
    exact ⟨isRooted, _, List.mem_singleton.1 ht, mayName_named may spells.1⟩
  | rename n other, spells => by
    rw [Spells] at spells
    intro t ht
    exact ⟨isRooted, _, List.mem_singleton.1 ht, mayName_named may spells.1⟩
  | all, _ => fun t ht => ⟨isRooted, front, List.mem_singleton.1 ht, may⟩
  | group members, spells => by
    rw [Spells] at spells
    obtain ⟨inner, -, spells⟩ := spells
    rw [singlesFrom]
    exact exists_path_of_mem_singlesFromAll isRooted front may members spells
  | rooted tree, spells => by
    rw [Spells] at spells
    obtain ⟨-, joint, rest, -, inner⟩ := spells
    rw [singlesFrom]
    exact exists_path_of_mem_singlesFrom true false front may tree inner

/-- The single imports of the members of a group have such paths, too. -/
theorem exists_path_of_mem_singlesFromAll {mayBeRooted : Bool} {ts : List Grammar.Token}
    (isRooted : Bool) (front : Segments) (may : ∀ n ∈ front, mayName n = true) :
    (members : List WrittenTree) → SpellsAll mayBeRooted members ts →
      ∀ t ∈ singlesFromAll isRooted front members, ∃ isRooted path,
        t = single isRooted path ∧ ∀ n ∈ path, mayName n = true
  | [], _ => fun t ht => absurd ht List.not_mem_nil
  | tree :: others, spells => by
    rw [SpellsAll] at spells
    obtain ⟨first, own, behind⟩ := spells
    intro t ht
    rw [singlesFromAll, List.mem_append] at ht
    rcases ht with ht | ht
    · exact exists_path_of_mem_singlesFrom isRooted true front may tree own t ht
    · rcases behind with ⟨rfl, -⟩ | ⟨joint, rest, -, more⟩
      · exact absurd ht List.not_mem_nil
      · exact exists_path_of_mem_singlesFromAll isRooted front may others more t ht

end

theorem exists_spells_chain (may : ∀ n ∈ path, mayName n = true) :
    ∃ ts, (chain path).Spells mayBeRooted ts := by
  fun_induction chain path generalizing mayBeRooted with
  | case1 =>
    refine ⟨[.group .curly []], ?_⟩
    rw [Spells]
    exact ⟨[], rfl, by rw [SpellsAll]⟩
  | case2 n =>
    refine ⟨[.word n], ?_⟩
    rw [Spells]
    exact ⟨may n (by simp), rfl⟩
  | case3 segment rest _ ih =>
    obtain ⟨own, others⟩ := List.forall_mem_cons.1 may
    obtain ⟨ts, spells⟩ := ih others
    refine ⟨.word segment :: .mark ':' true :: .mark ':' false :: ts, ?_⟩
    rw [Spells]
    exact ⟨own, false, ts, rfl, spells⟩

/-- The single imports of an import can be written. -/
theorem exists_spells_of_mem_singles (spells : tree.Spells true ts) (ht : t ∈ tree.singles) :
    ∃ us, t.Spells true us := by
  have none : ∀ n ∈ ([] : Segments), mayName n = true := fun n hn => absurd hn List.not_mem_nil
  obtain ⟨isRooted, path, rfl, may⟩ :=
    exists_path_of_mem_singlesFrom false false [] none tree spells t ht
  cases isRooted with
  | false => exact exists_spells_chain may
  | true =>
    obtain ⟨us, inner⟩ := exists_spells_chain may
    refine ⟨.mark ':' true :: .mark ':' false :: us, ?_⟩
    rw [single, if_pos rfl, Spells]
    exact ⟨rfl, false, us, rfl, inner⟩

end Written

/-! ## Checks -/

section Checks

variable {attributes : List Attribute} {tree : WrittenTree} {ts : List Grammar.Token}
  {o o' : Outline} {rest : List Node} {covered : Bool}

/-- No message is invented by grouping imports. -/
theorem mem_messages_ungrouped (own : module.head? = some layer.name)
    (grouped : Node.Omits [tree.node attributes] covered o.nodes rest)
    (ungrouped : Node.Omits (tree.singles.map (WrittenTree.node attributes)) covered o'.nodes rest)
    {message : String} (said : message ∈ messages layer module o.paths) :
    message ∈ messages layer module o'.paths := by
  have outline : rest = Outline.nodes ⟨rest⟩ := rfl
  rw [outline] at grouped ungrouped
  refine (mem_messages_of_omits ungrouped message).2 ?_
  rcases (mem_messages_of_omits grouped message).1 said with ⟨counts, said⟩ | said
  · cases is : tree.import? with
    | none =>
      rw [messages_node_of_none is] at said
      exact absurd said List.not_mem_nil
    | some read =>
      rw [← messages_singles own is] at said
      exact .inl ⟨counts, said⟩
  · exact .inr said

/-- A message is lost by grouping imports exactly if the import counts, is not looked into and
there is a message about its single imports alone. -/
theorem messages_eq_ungrouped_iff (own : module.head? = some layer.name)
    (spells : tree.Spells true ts)
    (grouped : Node.Omits [tree.node attributes] covered o.nodes rest)
    (ungrouped : Node.Omits (tree.singles.map (WrittenTree.node attributes)) covered o'.nodes
      rest) :
    messages layer module o.paths = messages layer module o'.paths ↔
      covered = true ∨ ¬tree.HasRootedMember ∨ ∀ message ∈ messages layer module
          (Node.pathsOfAll (tree.singles.map (WrittenTree.node attributes))),
        message ∈ messages layer module (Node.pathsOfAll rest) := by
  have outline : rest = Outline.nodes ⟨rest⟩ := rfl
  rw [outline] at grouped ungrouped
  -- Either it is as if the import were not there, or it counts like its single imports.
  cases is : tree.import? with
  | none =>
    have none : messages layer module o.paths = messages layer module (Node.pathsOfAll rest) := by
      refine (messages_eq_of_omits_iff grouped).2 (.inr fun message said => ?_)
      rw [messages_node_of_none is] at said
      exact absurd said List.not_mem_nil
    have has : tree.HasRootedMember := (Grammar.import?_eq_none_iff spells).1 is
    rw [none, eq_comm]
    refine (messages_eq_of_omits_iff ungrouped).trans (or_congr_right ?_)
    exact (or_iff_right fun no => no has).symm
  | some read =>
    have no : ¬tree.HasRootedMember := by
      rw [← Grammar.import?_eq_none_iff spells, is]
      exact nofun
    refine iff_of_true (messages_eq_iff.2 fun message => ?_) (.inr (.inl no))
    rw [mem_messages_of_omits grouped, mem_messages_of_omits ungrouped,
      messages_singles own is]

end Checks

/-- **Writing single imports.**  If in a module of a layer the single imports that an import stands
for are written instead of it, wherever it stands, all of them are read as what they are, and each
message about the one text is also one about the other.  The result of a check is the same exactly
if the check ends at another module, which is no source, or something around the import is left out
as test code, or no member of a group in the import begins with colons, or each message about the
single imports is also one about the rest. -/
theorem lintSources_ungrouped (parse : Parser) (before after : List Source) (s : Source)
    (contents' : String) (layer : Layer) (o o' : Outline) (rest : List Node) (covered : Bool)
    (tree : WrittenTree) (ts : List Grammar.Token) (attributes : List Attribute)
    (hlayer : s.layer? = some layer) (parsed : parse s.contents = .ok o)
    (parsed' : parse contents' = .ok o') (spells : tree.Spells true ts)
    (grouped : Node.Omits [tree.node attributes] covered o.nodes rest)
    (ungrouped : Node.Omits (tree.singles.map (WrittenTree.node attributes)) covered o'.nodes
      rest) :
    (∀ t ∈ tree :: tree.singles, (∃ us, t.Spells true us) ∧
      Grammar.IsReadAs t attributes (t.node attributes)) ∧
    (∀ message ∈ messages layer s.module o.paths, message ∈ messages layer s.module o'.paths) ∧
    (lintSources parse (before ++ s :: after) =
        lintSources parse (before ++ { s with contents := contents' } :: after) ↔
      Unparsable parse (before ++ after) ∨ covered = true ∨ ¬tree.HasRootedMember ∨
        ∀ message ∈ messages layer s.module
            (Node.pathsOfAll (tree.singles.map (WrittenTree.node attributes))),
          message ∈ messages layer s.module (Node.pathsOfAll rest)) := by
  have own : s.module.head? = some layer.name := layer?_eq_some_iff.1 hlayer
  refine ⟨fun t ht => ⟨?_, Grammar.isReadAs_node t attributes⟩,
    fun message said => mem_messages_ungrouped own grouped ungrouped said, ?_⟩
  · rcases List.mem_cons.1 ht with rfl | ht
    · exact ⟨ts, spells⟩
    · exact exists_spells_of_mem_singles spells ht
  · rw [lintSources_replace_iff hlayer parsed parsed',
      messages_eq_ungrouped_iff own spells grouped ungrouped]

/-! ## Two groups -/

section Pools

open WrittenTree

/-- What an adapter offers, and the adapter itself. -/
def poolImport : WrittenTree :=
  under "crate" (under "outbound" (group [name "self", rename "pool" "rows", all]))

/-- What an adapter offers, and a module of another crate, which is looked for from the root of all
crates. -/
def mixedImport : WrittenTree :=
  group [under "crate" (under "outbound" (name "pool")), rooted (under "std" (name "fmt"))]

def poolTable : SourceTable :=
  [("backend/src/domain/pool.rs", "use crate::outbound::\x7bself, pool as rows, *\x7d;",
      ⟨[poolImport.node []]⟩),
    ("backend/src/domain/pools.rs",
      "use crate::outbound; use crate::outbound::pool; use crate::outbound;",
      ⟨poolImport.singles.map (node [])⟩),
    ("backend/src/domain/mixed.rs", "use \x7bcrate::outbound::pool, ::std::fmt\x7d;",
      ⟨[mixedImport.node []]⟩),
    ("backend/src/domain/plain.rs", "use crate::outbound::pool; use ::std::fmt;",
      ⟨mixedImport.singles.map (node [])⟩)]

/-- The tokens of a path in front of what follows. -/
def leading (path : Segments) (ts : List Grammar.Token) : List Grammar.Token :=
  path.foldr (fun segment ts => .word segment :: .mark ':' true :: .mark ':' false :: ts) ts

theorem poolImport_spells : poolImport.Spells true
    (leading ["crate", "outbound"] [.group .curly [.word "self", .mark ',' false, .word "pool",
      .word "as", .word "rows", .mark ',' false, .mark '*' false]]) := by
  have names : Grammar.isIdentifier "outbound" = true ∧ Grammar.isIdentifier "pool" = true ∧
      Grammar.isIdentifier "rows" = true := by decide
  simpa [poolImport, leading, Spells, SpellsAll, mayName] using names

theorem mixedImport_spells : mixedImport.Spells true
    [.group .curly (leading ["crate", "outbound"] [.word "pool"] ++ .mark ',' false ::
      .mark ':' true :: .mark ':' false :: leading ["std"] [.word "fmt"])] := by
  have names : Grammar.isIdentifier "outbound" = true ∧ Grammar.isIdentifier "pool" = true ∧
      Grammar.isIdentifier "std" = true ∧ Grammar.isIdentifier "fmt" = true := by decide
  have pool : (under "crate" (under "outbound" (name "pool"))).Spells true
      (leading ["crate", "outbound"] [.word "pool"]) := by
    simp [leading, Spells, mayName, names]
  have format : (under "std" (name "fmt")).Spells false (leading ["std"] [.word "fmt"]) := by
    simp [leading, Spells, mayName, names]
  have member : (rooted (under "std" (name "fmt"))).Spells true
      (.mark ':' true :: .mark ':' false :: leading ["std"] [.word "fmt"]) := by
    rw [Spells]
    exact ⟨rfl, false, _, rfl, format⟩
  have last : SpellsAll true [rooted (under "std" (name "fmt"))]
      (.mark ':' true :: .mark ':' false :: leading ["std"] [.word "fmt"]) := by
    rw [SpellsAll]
    exact ⟨_, member, .inl ⟨rfl, rfl⟩⟩
  rw [mixedImport, Spells]
  refine ⟨_, rfl, ?_⟩
  rw [SpellsAll]
  exact ⟨_, pool, .inr ⟨false, _, rfl, last⟩⟩

/-- The first group makes no difference to a check; the second one hides the adapter. -/
theorem lintSources_ungrouped_pool :
    lintSources poolTable.parser
        [domainModule "use crate::outbound::\x7bself, pool as rows, *\x7d;"] =
      lintSources poolTable.parser
        [domainModule "use crate::outbound; use crate::outbound::pool; use crate::outbound;"] ∧
    lintSources poolTable.parser [domainModule "use \x7bcrate::outbound::pool, ::std::fmt\x7d;"] ≠
      lintSources poolTable.parser [domainModule "use crate::outbound::pool; use ::std::fmt;"] := by
  constructor
  · have looked : ¬poolImport.HasRootedMember := by
      rw [← Grammar.import?_eq_none_iff poolImport_spells]
      decide
    exact (lintSources_ungrouped poolTable.parser [] []
      (domainModule "use crate::outbound::\x7bself, pool as rows, *\x7d;") _ .domain _ _ []
      false poolImport _ [] rfl rfl rfl poolImport_spells (@Node.Omits.here _ [] [])
      (@Node.Omits.here _ [] [])).2.2.2 (.inr (.inr (.inl looked)))
  · intro same
    have cases := (lintSources_ungrouped poolTable.parser [] []
      (domainModule "use \x7bcrate::outbound::pool, ::std::fmt\x7d;") _ .domain _ _ [] false
      mixedImport _ [] rfl rfl rfl mixedImport_spells (@Node.Omits.here _ [] [])
      (@Node.Omits.here _ [] [])).2.2.1 same
    have has : mixedImport.HasRootedMember := .here (.tail _ (.head _))
    rcases cases with ⟨_, absent, -⟩ | covered | none | others
    · exact List.not_mem_nil absent
    · cases covered
    · exact none has
    · have own : "domain must not depend on crate::outbound" ∈ messages .domain ["domain", "rows"]
          [["crate", "outbound", "pool"], ["std", "fmt"]] := by
        decide
      exact absurd (others _ own) List.not_mem_nil

/-- The texts themselves, as they are parsed. -/
example :
    lintSources parseFile [domainModule "use \x7bcrate::outbound::pool, ::std::fmt\x7d;"] =
      .ok ["domain::rows"] ∧
    lintSources parseFile [domainModule "use crate::outbound::pool; use ::std::fmt;"] =
      .error (.violations [⟨"domain::rows", "domain/rows.rs",
        "domain must not depend on crate::outbound"⟩]) := by
  decide +kernel

end Pools

end CoinLedger.Layering
