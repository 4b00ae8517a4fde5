import CoinLedger.Layering.Grammar.Import
import CoinLedger.Layering.Grammar.Items

/-!
# Reading imports

An import is read token by token, with a bound on how deep it may go.  Each level takes a token at
least, so as many levels as there are tokens are enough.  What follows a tree must not go on with
it: no colons and no other name.  In a group a comma or the end follows, and behind an import a
semicolon, which all keep to that (`Ends`).

## Main definitions

* `Ends` — tokens that do not go on with a tree.
* `IsReadAs` — what an import comes to among the items of a file.

## Main results

* `useTree_of_spells` — a tree is read as what it is, whatever follows.
* `isReadAs_node` — an import is read as what an outline keeps of it.
* `import?_eq_none_iff` — the imports that are not looked into.
-/

namespace CoinLedger.Layering.Grammar

variable {α β : Type} {r : Reader α} {k : α → Reader β} {ts us rest more : List Token} {a : α}
  {w n : String} {joint : Bool}

/-! ## Steps -/

/-- A reader, and what goes on with what it has read. -/
theorem bind_of_eq (read : r ts = some (a, rest)) : (r >>= k) ts = k a rest := by
  show (r ts).bind _ = _
  rw [read]
  rfl

/-- The same behind one of two readers. -/
theorem ite_bind_of_eq {c : Bool} {r' : Reader α}
    (read : (if c then r else r') ts = some (a, rest)) :
    (if c then r >>= k else r' >>= k) ts = k a rest := by
  cases c <;> exact bind_of_eq read

theorem look_bind {f : List Token → Bool} {k : Bool → Reader β} :
    (look f >>= k) ts = k (f ts) ts := rfl

theorem atEnd_bind {k : Bool → Reader β} : (atEnd >>= k) ts = k ts.isEmpty ts := rfl

theorem get_bind {k : List Token → Reader β} : ((get : Reader (List Token)) >>= k) ts = k ts ts :=
  rfl

theorem anyWord_word : anyWord (.word w :: ts) = some (w, ts) := rfl

theorem identifier_word (plain : isIdentifier w = true) :
    identifier (.word w :: ts) = some (w, ts) := by
  rw [identifier, look_bind, nextIdentifier, if_pos plain]
  rfl

theorem word_word : word w (.word w :: ts) = some ((), ts) := by
  rw [word, look_bind, nextWord, if_pos (by simp)]
  rfl

theorem mark_of_next {m : String} (next : nextMark m ts = true) :
    mark m ts = some ((), ts.drop m.length) := by
  rw [mark, look_bind, if_pos next]
  rfl

theorem mark?_of_next {m : String} (next : nextMark m ts = true) :
    mark? m ts = some (true, ts.drop m.length) := by
  rw [mark?, look_bind, if_pos next, bind_of_eq (mark_of_next next)]
  rfl

theorem mark?_of_other {m : String} (next : nextMark m ts = false) :
    mark? m ts = some (false, ts) := by
  rw [mark?, look_bind, next, if_neg Bool.false_ne_true]
  rfl

theorem word?_word : word? w (.word w :: ts) = some (true, ts) := by
  rw [word?, look_bind, nextWord, if_pos (by simp), bind_of_eq word_word]
  rfl

theorem word?_of_other (next : nextWord w ts = false) : word? w ts = some (false, ts) := by
  rw [word?, look_bind, next, if_neg Bool.false_ne_true]
  rfl

theorem inside_group {b : Bracket} (read : r us = some (a, [])) :
    inside b r (.group b us :: ts) = some (a, ts) := by
  show (if b = b then _ else _ : Reader α) ts = _
  rw [if_pos rfl, read]
  rfl

/-! ## Trees -/

/-- Tokens that do not go on with a tree in front of them. -/
def Ends (ts : List Token) : Prop := nextMark "::" ts = false ∧ nextWord "as" ts = false

theorem nextMark_colons : nextMark "::" (.mark ':' true :: .mark ':' joint :: ts) = true := rfl

theorem ends_nil : Ends [] := ⟨rfl, rfl⟩

theorem ends_comma : Ends (.mark ',' joint :: ts) := by
  cases joint <;> exact ⟨rfl, rfl⟩

theorem ends_semicolon : Ends (.mark ';' joint :: ts) := by
  cases joint <;> exact ⟨rfl, rfl⟩

theorem nextName_of_mayName (may : WrittenTree.mayName w = true) :
    (nextIdentifier (.word w :: ts) ||
      nextWordOf ["self", "super", "crate", "try"] (.word w :: ts)) = true := by
  simpa [WrittenTree.mayName, nextIdentifier, nextWordOf, nextWord] using may

theorem sizeOfAll_append (ts us : List Token) :
    sizeOfAll (ts ++ us) = sizeOfAll ts + sizeOfAll us := by
  induction ts with
  | nil => exact (Nat.zero_add _).symm
  | cons t ts ih => rw [List.cons_append, sizeOfAll, sizeOfAll, ih, Nat.add_assoc]

section Spelled

open WrittenTree

variable {mayBeRooted : Bool} {tree : WrittenTree} {members : List WrittenTree} {depth bound : Nat}

/-- Where colons may not stand in front, a tree does not begin with them. -/
theorem ne_rooted_of_spells (spells : tree.Spells false ts) (t : WrittenTree) :
    tree ≠ rooted t := by
  rintro rfl
  rw [Spells] at spells
  cases spells.1

theorem plain_or_rooted (tree : WrittenTree) :
    (∀ t, tree ≠ rooted t) ∨ ∃ t, tree = rooted t := by
  cases tree with
  | rooted t => exact .inr ⟨t, rfl⟩
  | _ => exact .inl nofun

/-- A tree is written in one token at least. -/
theorem exists_cons_of_spells (spells : tree.Spells mayBeRooted ts) : ∃ t us, ts = t :: us := by
  cases tree <;> rw [Spells] at spells
  case under => exact ⟨_, _, spells.2.choose_spec.choose_spec.1⟩
  case name => exact ⟨_, _, spells.2⟩
  case rename => exact ⟨_, _, spells.2.2⟩
  case all => exact ⟨_, _, spells.choose_spec⟩
  case group => exact ⟨_, _, spells.choose_spec.1⟩
  case rooted => exact ⟨_, _, spells.2.choose_spec.choose_spec.1⟩

/-- A tree that does not begin with colons is not written so. -/
theorem nextMark_of_spells (spells : tree.Spells mayBeRooted ts) (plain : ∀ t, tree ≠ rooted t) :
    nextMark "::" (ts ++ rest) = false := by
  cases tree <;> rw [Spells] at spells
  case under => rw [spells.2.choose_spec.choose_spec.1]; rfl
  case name => rw [spells.2]; rfl
  case rename => rw [spells.2.2]; rfl
  case all =>
    obtain ⟨joint, rfl⟩ := spells
    cases joint <;> rfl
  case group => rw [spells.choose_spec.1]; rfl
  case rooted => exact absurd rfl (plain _)

theorem Token.size_pos (t : Token) : 0 < t.size := by
  cases t <;> simp [Token.size]

theorem exists_depth (spells : tree.Spells mayBeRooted ts) (enough : sizeOfAll ts ≤ depth) :
    ∃ d, depth = d + 1 := by
  obtain ⟨t, us, rfl⟩ := exists_cons_of_spells spells
  have own := t.size_pos
  rw [sizeOfAll] at enough
  exact Nat.exists_eq_add_one.2 (by omega)

/-- The first member of a group and what is behind it, given what both are read as. -/
theorem useTrees_member {isRooted : Bool} {read : TreeRead} {others : Option (List UseTree)}
    (some : ts ≠ [])
    (begins : (if mayBeRooted then mark? "::" else pure false : Reader Bool) ts =
      Option.some (isRooted, us))
    (member : useTree depth (mayBeRooted && !isRooted) us = Option.some (read, rest))
    (behind : rest = [] ∨ ∃ joint more, rest = .mark ',' joint :: more)
    (more : useTrees (useTree depth) mayBeRooted bound (rest.drop 1) = Option.some (others, [])) :
    useTrees (useTree depth) mayBeRooted (bound + 1) ts =
      Option.some (if isRooted then none else read.bind fun t => others.map (t :: ·), []) := by
  have some' : ts.isEmpty = false := List.isEmpty_eq_false_iff.2 some
  rw [useTrees, atEnd_bind, some', if_neg Bool.false_ne_true]
  refine (ite_bind_of_eq begins).trans ((bind_of_eq member).trans ?_)
  rw [atEnd_bind]
  rcases behind with rfl | ⟨joint, us, rfl⟩
  · refine (bind_of_eq more).trans ?_
    cases isRooted <;> cases read <;> cases others <;> rfl
  · have comma : nextMark "," (.mark ',' joint :: us) = true := by cases joint <;> rfl
    refine (bind_of_eq (mark_of_next comma)).trans ((bind_of_eq more).trans ?_)
    cases isRooted <;> cases read <;> cases others <;> rfl

mutual

/-- **A tree is read as what it is, whatever follows.** -/
theorem useTree_of_spells {mayBeRooted : Bool} {ts rest : List Token} {depth : Nat} :
    (tree : WrittenTree) → (∀ t, tree ≠ rooted t) → tree.Spells mayBeRooted ts → Ends rest →
      sizeOfAll ts ≤ depth → useTree depth mayBeRooted (ts ++ rest) = some (tree.tree?, rest)
  | under segment tree, _, spells, ends, enough => by
    obtain ⟨depth, rfl⟩ := exists_depth spells enough
    rw [Spells] at spells
    obtain ⟨may, joint, us, rfl, inner⟩ := spells
    have enough' : sizeOfAll us ≤ depth := by
      simp only [sizeOfAll, Token.size] at enough
      omega
    have below := useTree_of_spells tree (ne_rooted_of_spells inner) inner ends enough'
    rw [useTree, look_bind, List.cons_append, if_pos (nextName_of_mayName may),
      bind_of_eq anyWord_word, List.cons_append, List.cons_append,
      bind_of_eq (mark?_of_next nextMark_colons), if_pos rfl]
    exact bind_of_eq below
  | name n, _, spells, ends, enough => by
    obtain ⟨depth, rfl⟩ := exists_depth spells enough
    rw [Spells] at spells
    obtain ⟨may, rfl⟩ := spells
    rw [useTree, look_bind, List.cons_append, if_pos (nextName_of_mayName may),
      bind_of_eq anyWord_word, List.nil_append, bind_of_eq (mark?_of_other ends.1),
      if_neg Bool.false_ne_true, bind_of_eq (word?_of_other ends.2), if_neg Bool.false_ne_true]
    rfl
  | rename n other, _, spells, ends, enough => by
    obtain ⟨depth, rfl⟩ := exists_depth spells enough
    rw [Spells] at spells
    obtain ⟨may, other', rfl⟩ := spells
    rw [useTree, look_bind, List.cons_append, if_pos (nextName_of_mayName may),
      bind_of_eq anyWord_word, List.cons_append, bind_of_eq (mark?_of_other rfl),
      if_neg Bool.false_ne_true, bind_of_eq word?_word, if_pos rfl, look_bind]
    by_cases blank : other = "_"
    · subst blank
      rfl
    · have named : nextWord "_" (.word other :: ([] ++ rest)) = false := by
        simpa [nextWord] using blank
      dsimp only
      rw [List.cons_append, named, if_neg Bool.false_ne_true,
        bind_of_eq (identifier_word (other'.resolve_right blank))]
      rfl
  | all, _, spells, ends, enough => by
    obtain ⟨depth, rfl⟩ := exists_depth spells enough
    rw [Spells] at spells
    obtain ⟨joint, rfl⟩ := spells
    cases joint <;> rfl
  | group members, _, spells, ends, enough => by
    obtain ⟨depth, rfl⟩ := exists_depth spells enough
    rw [Spells] at spells
    obtain ⟨inner, rfl, spells⟩ := spells
    have enough' : sizeOfAll inner ≤ depth := by
      simp only [sizeOfAll, Token.size] at enough
      omega
    have read := useTrees_of_spells members spells enough' (Nat.lt_succ_self _)
    have noName (us : List Token) : (nextIdentifier (.group .curly inner :: us) ||
        nextWordOf ["self", "super", "crate", "try"] (.group .curly inner :: us)) = false := rfl
    rw [useTree, look_bind, List.cons_append, noName, if_neg Bool.false_ne_true,
      bind_of_eq (mark?_of_other rfl), if_neg Bool.false_ne_true]
    exact bind_of_eq (inside_group read)
  | rooted tree, plain, _, _, _ => absurd rfl (plain tree)

/-- The members of a group are read as what they are. -/
theorem useTrees_of_spells {mayBeRooted : Bool} {ts : List Token} {depth bound : Nat} :
    (members : List WrittenTree) → SpellsAll mayBeRooted members ts → sizeOfAll ts ≤ depth →
      ts.length < bound →
      useTrees (useTree depth) mayBeRooted bound ts = some (trees? members, [])
  | [], spells, _, steps => by
    obtain ⟨bound, rfl⟩ := Nat.exists_eq_add_one.2 (Nat.zero_lt_of_lt steps)
    rw [SpellsAll] at spells
    subst spells
    rfl
  | tree :: others, spells, enough, steps => by
    obtain ⟨bound, rfl⟩ := Nat.exists_eq_add_one.2 (Nat.zero_lt_of_lt steps)
    rw [SpellsAll] at spells
    obtain ⟨first, own, behind⟩ := spells
    obtain ⟨rest, rfl, ends, rest', more⟩ : ∃ rest, ts = first ++ rest ∧ Ends rest ∧
        (rest = [] ∨ ∃ joint us, rest = .mark ',' joint :: us) ∧
        useTrees (useTree depth) mayBeRooted bound (rest.drop 1) = some (trees? others, []) := by
      have shorter : 0 < first.length := by
        obtain ⟨t, us, rfl⟩ := exists_cons_of_spells own
        exact Nat.succ_pos _
      rcases behind with ⟨rfl, rfl⟩ | ⟨joint, rest, rfl, spells⟩
      · refine ⟨[], (List.append_nil _).symm, ends_nil, .inl rfl, ?_⟩
        exact useTrees_of_spells [] (by simp [SpellsAll]) (Nat.zero_le _) (by simp; omega)
      · refine ⟨_, rfl, ends_comma, .inr ⟨joint, rest, rfl⟩, ?_⟩
        rw [sizeOfAll_append, sizeOfAll] at enough
        rw [List.length_append, List.length_cons] at steps
        exact useTrees_of_spells others spells (by simp only [List.drop]; omega)
          (by simp only [List.drop]; omega)
    have enough' : sizeOfAll first ≤ depth := by
      rw [sizeOfAll_append] at enough
      omega
    have some' : first ++ rest ≠ [] := by
      obtain ⟨t, us, rfl⟩ := exists_cons_of_spells own
      exact List.cons_ne_nil _ _
    rcases plain_or_rooted tree with plain | ⟨t, rfl⟩
    · have begins : (if mayBeRooted then mark? "::" else pure false : Reader Bool) (first ++ rest) =
          some (false, first ++ rest) := by
        cases mayBeRooted with
        | false => rfl
        | true => exact mark?_of_other (nextMark_of_spells own plain)
      have member := useTree_of_spells tree plain own ends enough'
      rw [← Bool.and_true mayBeRooted] at member
      rw [useTrees_member some' begins member rest' more, trees?]
      cases tree.tree? <;> cases trees? others <;> rfl
    · rw [Spells] at own
      obtain ⟨rfl, joint, us, rfl, inner⟩ := own
      have begins : (if true then mark? "::" else pure false : Reader Bool)
          (.mark ':' true :: .mark ':' joint :: us ++ rest) = some (true, us ++ rest) :=
        mark?_of_next nextMark_colons
      have enough'' : sizeOfAll us ≤ depth := by
        simp only [sizeOfAll, Token.size] at enough'
        omega
      have member := useTree_of_spells t (ne_rooted_of_spells inner) inner ends enough''
      rw [useTrees_member some' begins member rest' more, trees?, tree?]
      rfl

end

/-! ## Imports -/

theorem import?_of_plain (plain : ∀ t, tree ≠ rooted t) : tree.import? = tree.tree? := by
  cases tree <;> first | rfl | exact absurd rfl (plain _)

/-- What is imported is read up to the semicolon. -/
theorem importBody_of_spells (spells : tree.Spells true ts) :
    importBody (ts ++ .mark ';' joint :: rest) = some (tree.import?, rest) := by
  have semicolon : nextMark ";" (.mark ';' joint :: rest) = true := by cases joint <;> rfl
  have ends : Ends (.mark ';' joint :: rest) := ends_semicolon
  rw [importBody]
  rcases plain_or_rooted tree with plain | ⟨t, rfl⟩
  · have enough : sizeOfAll ts ≤ sizeOfAll (ts ++ .mark ';' joint :: rest) + 1 := by
      rw [sizeOfAll_append]
      omega
    have read := useTree_of_spells tree plain spells ends enough
    rw [bind_of_eq (mark?_of_other (nextMark_of_spells spells plain)), get_bind]
    refine (bind_of_eq read).trans ?_
    rw [bind_of_eq (mark_of_next semicolon), import?_of_plain plain]
    rfl
  · rw [Spells] at spells
    obtain ⟨-, colons, us, rfl, inner⟩ := spells
    have enough : sizeOfAll us ≤ sizeOfAll (us ++ .mark ';' joint :: rest) + 1 := by
      rw [sizeOfAll_append]
      omega
    have read := useTree_of_spells t (ne_rooted_of_spells inner) inner ends enough
    rw [List.cons_append, List.cons_append, bind_of_eq (mark?_of_next nextMark_colons), get_bind]
    refine (bind_of_eq read).trans ?_
    rw [bind_of_eq (mark_of_next semicolon)]
    rfl

/-- Among the items of a file an import is read as a node, in all the ways that it may be written
and whatever visibility stands in front of it, with the given attributes. -/
def IsReadAs (tree : WrittenTree) (attributes : List Attribute) (node : Node) : Prop :=
  ∀ (g : Rules) (nodes : Nodes) (v : VisibilityRead) (joint : Bool) (ts us rest more : List Token),
    tree.Spells true ts → outerAttributes g us = some ((attributes, nodes), rest) →
      visibility rest = some (v, .word "use" :: ts ++ .mark ';' joint :: more) →
        itemRule g us = some (node, more)

/-- **An import is read as what an outline keeps of it.** -/
theorem isReadAs_node (tree : WrittenTree) (attributes : List Attribute) :
    IsReadAs tree attributes (tree.node attributes) := by
  intro g nodes v joint ts us rest more spells attributed visible
  have body : importBody (ts ++ .mark ';' joint :: more) = some (tree.import?, more) :=
    importBody_of_spells spells
  have read : visibleItem g rest v (.word "use" :: ts ++ .mark ';' joint :: more) =
      some (tree.import?.elim notLookedInto fun t => plainItem .imports [.use t], more) := by
    have noFunction :
        nextFunction true (.word "use" :: ts ++ .mark ';' joint :: more) = false := rfl
    have noExtern : nextWord "extern" (.word "use" :: ts ++ .mark ';' joint :: more) = false := rfl
    have isUse : nextWord "use" (.word "use" :: ts ++ .mark ';' joint :: more) = true := rfl
    rw [visibleItem, get_bind]
    dsimp only
    rw [noFunction, noExtern, isUse, if_neg Bool.false_ne_true, if_neg Bool.false_ne_true,
      if_pos rfl, List.cons_append, bind_of_eq word_word, bind_of_eq body]
    cases tree.import? <;> rfl
  rw [itemRule, bind_of_eq attributed]
  dsimp only
  rw [get_bind, bind_of_eq visible, bind_of_eq read, node]
  cases tree.import? <;> rfl

/-! ## Imports that are not looked into -/

theorem exists_spells_of_mem (spells : SpellsAll mayBeRooted members ts) (mem : tree ∈ members) :
    ∃ us, tree.Spells mayBeRooted us := by
  induction members generalizing ts with
  | nil => exact absurd mem List.not_mem_nil
  | cons first others ih =>
    rw [SpellsAll] at spells
    obtain ⟨us, own, behind⟩ := spells
    rcases List.mem_cons.1 mem with rfl | mem
    · exact ⟨us, own⟩
    · rcases behind with ⟨rfl, -⟩ | ⟨joint, rest, -, more⟩
      · exact absurd mem List.not_mem_nil
      · exact ih more mem

/-- Where colons may not stand in front, they do not. -/
theorem not_hasRootedMember (spells : tree.Spells false ts) : ¬tree.HasRootedMember := by
  intro has
  induction has generalizing ts with
  | here mem =>
    rw [Spells] at spells
    obtain ⟨inner, -, members⟩ := spells
    obtain ⟨us, own⟩ := exists_spells_of_mem members mem
    exact ne_rooted_of_spells own _ rfl
  | within mem _ ih =>
    rw [Spells] at spells
    obtain ⟨inner, -, members⟩ := spells
    obtain ⟨us, own⟩ := exists_spells_of_mem members mem
    exact ih own

theorem not_begins_or_has (plain : ∀ t, tree ≠ rooted t) (single : ∀ ms, tree ≠ group ms) :
    ¬((∃ t, tree = rooted t) ∨ tree.HasRootedMember) := by
  rintro (⟨t, begins⟩ | has)
  · exact plain t begins
  · cases has with
    | here => exact single _ rfl
    | within => exact single _ rfl

mutual

/-- A tree is none to read exactly if it begins with colons or a member in it does. -/
theorem tree?_eq_none_iff {mayBeRooted : Bool} {ts : List Token} : (tree : WrittenTree) →
    tree.Spells mayBeRooted ts →
      (tree.tree? = none ↔ (∃ t, tree = rooted t) ∨ tree.HasRootedMember)
  | under segment tree, spells => by
    rw [Spells] at spells
    obtain ⟨-, -, us, -, inner⟩ := spells
    have read : tree.tree? ≠ none := fun none =>
      match (tree?_eq_none_iff tree inner).1 none with
      | .inl ⟨t, begins⟩ => ne_rooted_of_spells inner t begins
      | .inr has => not_hasRootedMember inner has
    rw [tree?, Option.map_eq_none_iff]
    exact iff_of_false read (not_begins_or_has nofun nofun)
  | name n, _ => iff_of_false nofun (not_begins_or_has nofun nofun)
  | rename n other, _ => iff_of_false nofun (not_begins_or_has nofun nofun)
  | all, _ => iff_of_false nofun (not_begins_or_has nofun nofun)
  | group members, spells => by
    rw [Spells] at spells
    obtain ⟨inner, -, spells⟩ := spells
    rw [tree?, Option.map_eq_none_iff, trees?_eq_none_iff members spells]
    constructor
    · rintro ⟨tree, mem, ⟨t, rfl⟩ | has⟩
      · exact .inr (.here mem)
      · exact .inr (.within mem has)
    · rintro (⟨_, ⟨⟩⟩ | has)
      cases has with
      | here mem => exact ⟨_, mem, .inl ⟨_, rfl⟩⟩
      | within mem has => exact ⟨_, mem, .inr has⟩
  | rooted tree, _ => by
    rw [tree?]
    exact iff_of_true rfl (.inl ⟨tree, rfl⟩)

/-- A group is none to read exactly if this is so of one of its members. -/
theorem trees?_eq_none_iff {mayBeRooted : Bool} {ts : List Token} : (members : List WrittenTree) →
    SpellsAll mayBeRooted members ts → (trees? members = none ↔
      ∃ tree ∈ members, (∃ t, tree = rooted t) ∨ tree.HasRootedMember)
  | [], _ => by simp [trees?]
  | tree :: others, spells => by
    rw [SpellsAll] at spells
    obtain ⟨first, own, behind⟩ := spells
    obtain ⟨us, more⟩ : ∃ us, SpellsAll mayBeRooted others us := by
      rcases behind with ⟨rfl, -⟩ | ⟨-, us, -, more⟩
      · exact ⟨[], by rw [SpellsAll]⟩
      · exact ⟨us, more⟩
    simp only [List.mem_cons, exists_eq_or_imp]
    rw [← tree?_eq_none_iff tree own, ← trees?_eq_none_iff others more, trees?]
    cases tree.tree? <;> cases trees? others <;> simp

end

/-- The imports that are not looked into are those with a member of a group that begins with
colons. -/
theorem import?_eq_none_iff (spells : tree.Spells true ts) :
    tree.import? = none ↔ tree.HasRootedMember := by
  rcases plain_or_rooted tree with plain | ⟨t, rfl⟩
  · rw [import?_of_plain plain, tree?_eq_none_iff tree spells]
    constructor
    · rintro (⟨t, begins⟩ | has)
      · exact absurd begins (plain t)
      · exact has
    · exact .inr
  · rw [Spells] at spells
    obtain ⟨-, -, us, -, inner⟩ := spells
    rw [import?, tree?_eq_none_iff t inner]
    constructor
    · rintro (⟨t', begins⟩ | has)
      · exact absurd begins (ne_rooted_of_spells inner t')
      · exact absurd has (not_hasRootedMember inner)
    · rintro ⟨⟩

end Spelled

end CoinLedger.Layering.Grammar
