import CoinLedger.Proofs.Layering.Coverage
import Mathlib.Data.List.Perm.Basic
import Mathlib.Data.List.Sort

/-!
# Test code and the check

What is left out of a source can only take messages away from it (`mem_messages_of_omits`), so
leaving a part out makes no difference exactly if no message is lost: something around the part is
left out anyway, or whatever is wrong with its paths is also wrong with others.

An item that is marked as test code and is of a kind that is looked at for the mark has no paths
that count, so nothing is lost with it.  An item of another kind counts with all that is in it,
marked or not.

## Main results

* `mem_pathsOfAll_of_omits` — the paths that count, with and without a part.
* `lintSources_replace_iff` — when another text of a module makes no difference to a check.
* `lintSources_without` — leaving test code out.
-/

namespace CoinLedger.Layering

/-! ## Ascending lists -/

/-- Two lists come to the same ascending list exactly if they have the same members. -/
theorem ascending_eq_iff {xs ys : List String} :
    ascending xs = ascending ys ↔ ∀ x, x ∈ xs ↔ x ∈ ys := by
  constructor
  · intro same x
    have alike : x ∈ ascending xs ↔ x ∈ ascending ys := by rw [same]
    exact mem_ascending.symm.trans (alike.trans mem_ascending)
  · intro same
    have distinct : ∀ zs : List String, (ascending zs).Nodup := by
      intro zs
      refine (pairwise_ascending zs).imp ?_
      rintro a b lt rfl
      exact Std.lt_irrefl lt
    have perm : (ascending xs).Perm (ascending ys) := by
      refine (List.perm_ext_iff_of_nodup (distinct xs) (distinct ys)).2 fun x => ?_
      rw [mem_ascending, mem_ascending]
      exact same x
    exact perm.eq_of_pairwise (fun _ _ _ _ lt gt => absurd (Std.lt_trans lt gt) Std.lt_irrefl)
      (pairwise_ascending xs) (pairwise_ascending ys)

/-! ## Paths -/

namespace Node

theorem pathsOfAll_append (nodes nodes' : List Node) :
    pathsOfAll (nodes ++ nodes') = pathsOfAll nodes ++ pathsOfAll nodes' := by
  induction nodes with
  | nil => rfl
  | cons node rest ih =>
    rw [List.cons_append, pathsOfAll, pathsOfAll, ih, List.append_assoc]

/-- Test code of a kind that is looked at for its mark has no paths that count. -/
theorem pathsOfAll_item_of_skipped {kind : ItemKind} {attributes : List Attribute}
    {body : List Node} (skip : skipped kind attributes = true) :
    pathsOfAll [.item kind attributes body] = [] := by
  rw [pathsOfAll, paths, if_pos skip]
  rfl

theorem pathsOfAll_item_of_not_skipped {kind : ItemKind} {attributes : List Attribute}
    {body : List Node} (count : skipped kind attributes = false) :
    pathsOfAll [.item kind attributes body] = pathsOfAll body := by
  rw [pathsOfAll, paths, count, if_neg Bool.false_ne_true]
  exact List.append_nil _

/-- The paths that count are those without the part and, unless something around it is left out,
those of the part. -/
theorem mem_pathsOfAll_of_omits {part nodes nodes' : List Node} {covered : Bool}
    (omits : Omits part covered nodes nodes') (p : Segments) :
    p ∈ pathsOfAll nodes ↔ covered = false ∧ p ∈ pathsOfAll part ∨ p ∈ pathsOfAll nodes' := by
  induction omits with
  | here =>
    simp only [pathsOfAll_append, List.mem_append, true_and]
    tauto
  | @within before after body body' kind attributes covered _ ih =>
    simp only [pathsOfAll_append, pathsOfAll, paths, List.mem_append]
    cases skipped kind attributes with
    | true => simp
    | false =>
      simp only [Bool.false_or, Bool.false_eq_true, if_false, ih]
      tauto

end Node

/-! ## Messages -/

theorem mem_messages_iff {layer : Layer} {module : ModulePath} {paths : List Segments}
    {message : String} :
    message ∈ messages layer module paths ↔ ∃ p ∈ paths, ∃ dependency,
      objection? layer module p = some dependency ∧ dependency.message layer = message := by
  unfold messages
  simp only [mem_ascending, List.mem_map, List.mem_filterMap]
  constructor
  · rintro ⟨dependency, ⟨p, hp, wrong⟩, rfl⟩
    exact ⟨p, hp, dependency, wrong, rfl⟩
  · rintro ⟨p, hp, dependency, wrong, rfl⟩
    exact ⟨dependency, ⟨p, hp, wrong⟩, rfl⟩

/-- The messages are those without the part and, unless something around it is left out, those of
the part. -/
theorem mem_messages_of_omits {layer : Layer} {module : ModulePath} {part : List Node}
    {o o' : Outline} {covered : Bool} (omits : Node.Omits part covered o.nodes o'.nodes)
    (message : String) :
    message ∈ messages layer module o.paths ↔
      covered = false ∧ message ∈ messages layer module (Node.pathsOfAll part) ∨
        message ∈ messages layer module o'.paths := by
  simp only [mem_messages_iff, Outline.paths, Node.mem_pathsOfAll_of_omits omits]
  constructor
  · rintro ⟨p, ⟨counts, hp⟩ | hp, wrong⟩
    · exact .inl ⟨counts, p, hp, wrong⟩
    · exact .inr ⟨p, hp, wrong⟩
  · rintro (⟨counts, p, hp, wrong⟩ | ⟨p, hp, wrong⟩)
    · exact ⟨p, .inl ⟨counts, hp⟩, wrong⟩
    · exact ⟨p, .inr hp, wrong⟩

/-- The messages of two sources are the same exactly if they are the same as a set. -/
theorem messages_eq_iff {layer : Layer} {module : ModulePath} {paths paths' : List Segments} :
    messages layer module paths = messages layer module paths' ↔
      ∀ message, message ∈ messages layer module paths ↔
        message ∈ messages layer module paths' := by
  constructor
  · intro same message
    rw [same]
  · intro same
    refine ascending_eq_iff.2 fun message => ?_
    exact mem_ascending.symm.trans ((same message).trans mem_ascending)

/-- No message is lost with a part exactly if something around it is left out, or what is wrong with
its paths is also wrong with others. -/
theorem messages_eq_of_omits_iff {layer : Layer} {module : ModulePath} {part : List Node}
    {o o' : Outline} {covered : Bool} (omits : Node.Omits part covered o.nodes o'.nodes) :
    messages layer module o.paths = messages layer module o'.paths ↔
      covered = true ∨ ∀ message ∈ messages layer module (Node.pathsOfAll part),
        message ∈ messages layer module o'.paths := by
  simp only [messages_eq_iff, mem_messages_of_omits omits]
  cases covered with
  | true => simp
  | false =>
    simp only [true_and, Bool.false_eq_true, false_or]
    constructor
    · exact fun same message own => (same message).1 (.inl own)
    · intro others message
      constructor
      · rintro (own | rest)
        · exact others message own
        · exact rest
      · exact .inr

/-! ## Checks -/

/-- Whether one of some sources is in a layer and its text is no source. -/
def Unparsable (parse : Parser) (sources : List Source) : Prop :=
  ∃ s ∈ sources, s.layer?.isSome = true ∧ ∃ detail, parse s.contents = .error detail

/-- The violations in a source of a layer with an outline. -/
def violationsIn (layer : Layer) (s : Source) (o : Outline) : List Violation :=
  (messages layer s.module o.paths).map fun message => ⟨s.module.text, s.file, message⟩

/-- What is said of some modules with their violations. -/
def verdict (checked : List (String × List Violation)) : Except LintError (List String) :=
  match checked.flatMap Prod.snd with
  | [] => .ok (checked.map Prod.fst)
  | found => .error (.violations found)

theorem lintSources_eq (parse : Parser) (sources : List Source) :
    lintSources parse sources = (checkAll parse sources).bind verdict := rfl

theorem violationsIn_inj {layer : Layer} {s : Source} {o o' : Outline} :
    violationsIn layer s o = violationsIn layer s o' ↔
      messages layer s.module o.paths = messages layer s.module o'.paths := by
  refine List.map_inj_right fun a b same => ?_
  exact congrArg Violation.message same

/-- Of the same modules the same is said exactly if the violations are the same. -/
theorem verdict_eq_iff {checked checked' : List (String × List Violation)}
    (names : checked.map Prod.fst = checked'.map Prod.fst) :
    verdict checked = verdict checked' ↔
      checked.flatMap Prod.snd = checked'.flatMap Prod.snd := by
  unfold verdict
  rw [names]
  cases checked.flatMap Prod.snd <;> cases checked'.flatMap Prod.snd <;> simp

variable {parse : Parser} {layer : Layer} {s : Source} {o : Outline}

/-- A source of a layer comes between the modules before it and those after it. -/
theorem checkAll_insert (before after : List Source) (hlayer : s.layer? = some layer)
    (parsed : parse s.contents = .ok o) :
    checkAll parse (before ++ s :: after) = (checkAll parse before).bind fun b =>
      (checkAll parse after).bind fun a =>
        .ok (b ++ (s.module.text, violationsIn layer s o) :: a) := by
  induction before with
  | nil =>
    have checked : checkSource parse layer s = .ok (violationsIn layer s o) := by
      unfold checkSource
      rw [parsed]
      rfl
    simp only [List.nil_append, checkAll, hlayer, checked]
    rfl
  | cons t rest ih =>
    rw [List.cons_append, checkAll, checkAll, ih]
    cases t.layer? with
    | none => rfl
    | some own =>
      dsimp only
      cases checkSource parse own t with
      | error e => rfl
      | ok found =>
        cases checkAll parse rest with
        | error e => rfl
        | ok b => cases checkAll parse after <;> rfl

/-- A check of some sources goes through unless one of them is in a layer and is no source. -/
theorem checkAll_error_iff {sources : List Source} :
    (∃ e, checkAll parse sources = .error e) ↔ Unparsable parse sources := by
  induction sources with
  | nil => simp [checkAll, Unparsable]
  | cons t rest ih =>
    have split : Unparsable parse (t :: rest) ↔
        (t.layer?.isSome = true ∧ ∃ detail, parse t.contents = .error detail) ∨
          Unparsable parse rest := List.exists_mem_cons_iff _ _ _
    rw [split, ← ih, checkAll]
    cases t.layer? with
    | none => simp
    | some own =>
      simp only [Option.isSome_some, true_and]
      unfold checkSource
      cases parse t.contents with
      | error detail => simp [bind, Except.bind]
      | ok outline => cases checkAll parse rest <;> simp [bind, Except.bind, pure, Except.pure]

/-- Another text of a module of a layer makes no difference to a check exactly if the check ends
elsewhere, at what is no source, or the messages about both texts are the same. -/
theorem lintSources_replace_iff {before after : List Source} {contents' : String} {o' : Outline}
    (hlayer : s.layer? = some layer) (parsed : parse s.contents = .ok o)
    (parsed' : parse contents' = .ok o') :
    lintSources parse (before ++ s :: after) =
        lintSources parse (before ++ { s with contents := contents' } :: after) ↔
      Unparsable parse (before ++ after) ∨
        messages layer s.module o.paths = messages layer s.module o'.paths := by
  have elsewhere : Unparsable parse (before ++ after) ↔
      Unparsable parse before ∨ Unparsable parse after := by
    unfold Unparsable
    simp only [List.mem_append, or_and_right, exists_or]
  have replaced := checkAll_insert (s := { s with contents := contents' }) before after hlayer
    parsed'
  rw [lintSources_eq, lintSources_eq, checkAll_insert before after hlayer parsed, replaced,
    elsewhere, ← checkAll_error_iff, ← checkAll_error_iff]
  cases checkAll parse before with
  | error e => simp [Except.bind]
  | ok b =>
    cases checkAll parse after with
    | error e => simp [Except.bind]
    | ok a =>
      simp only [Except.bind, reduceCtorEq, exists_false, or_self, false_or]
      rw [verdict_eq_iff (by simp), ← violationsIn_inj (s := s)]
      simp only [List.flatMap_append, List.flatMap_cons, List.append_cancel_left_eq,
        List.append_cancel_right_eq]
      rfl

/-- **Leaving test code out.**  If an item that is marked as test code is left out of a module of a
layer, wherever it stands, the result of a check is the same if the item is of a kind that is looked
at for the mark.  In general, whatever is left out, the result is the same exactly if the check ends
at another module, which is no source, or something around the part is left out anyway, or each
message about the paths of the part is also one about the rest; and a marked item of any other kind
has all the paths that are in it. -/
theorem lintSources_without (parse : Parser) (before after : List Source) (s : Source)
    (contents' : String) (layer : Layer) (o o' : Outline) (part : List Node) (covered : Bool)
    (hlayer : s.layer? = some layer) (parsed : parse s.contents = .ok o)
    (parsed' : parse contents' = .ok o') (omits : Node.Omits part covered o.nodes o'.nodes) :
    let same := lintSources parse (before ++ s :: after) =
      lintSources parse (before ++ { s with contents := contents' } :: after)
    (∀ kind attributes body, part = [.item kind attributes body] →
      attributes.any Attribute.marksTest = true →
        (kind.mayBeTest = true → same) ∧
        (kind.mayBeTest = false → Node.pathsOfAll part = Node.pathsOfAll body)) ∧
    (same ↔ Unparsable parse (before ++ after) ∨ covered = true ∨
      ∀ message ∈ messages layer s.module (Node.pathsOfAll part),
        message ∈ messages layer s.module o'.paths) := by
  intro same
  have same_iff : same ↔ Unparsable parse (before ++ after) ∨ covered = true ∨
      ∀ message ∈ messages layer s.module (Node.pathsOfAll part),
        message ∈ messages layer s.module o'.paths := by
    rw [← messages_eq_of_omits_iff omits]
    exact lintSources_replace_iff hlayer parsed parsed'
  refine ⟨?_, same_iff⟩
  rintro kind attributes body rfl marked
  constructor
  · intro kept
    have skip : skipped kind attributes = true := by
      rw [skipped, kept, marked]
      rfl
    refine same_iff.2 (.inr (.inr fun message own => ?_))
    rw [Node.pathsOfAll_item_of_skipped skip] at own
    obtain ⟨p, hp, -⟩ := mem_messages_iff.1 own
    exact absurd hp List.not_mem_nil
  · intro other
    refine Node.pathsOfAll_item_of_not_skipped ?_
    rw [skipped, other]
    rfl

/-- The mark of test code as it is written. -/
def testMark : Attribute := ⟨some "cfg", .arguments (some "test")⟩

/-- A marked item that names a type of a crate that the domain may not reach. -/
def markedItem (kind : ItemKind) : Node :=
  .item kind [testMark] [.path ["cfg"], .path ["diesel", "PgConnection"]]

def markedTable : SourceTable :=
  [("backend/src/domain/alias.rs", "#[cfg(test)] type Rows = diesel::PgConnection;",
      ⟨[markedItem .typeAlias]⟩),
    ("backend/src/domain/function.rs", "#[cfg(test)] fn rows(_: diesel::PgConnection) \x7b\x7d",
      ⟨[markedItem .function]⟩),
    ("backend/src/domain/empty.rs", "", ⟨[]⟩)]

/-- A module of the domain with a text. -/
def domainModule (contents : String) : Source := ⟨["domain", "rows"], "domain/rows.rs", contents⟩

/-- Without the alias a check of the module passes, which it does not with it; the function makes no
difference. -/
theorem lintSources_without_alias :
    lintSources markedTable.parser
        [domainModule "#[cfg(test)] type Rows = diesel::PgConnection;"] ≠
      lintSources markedTable.parser [domainModule ""] ∧
    lintSources markedTable.parser
        [domainModule "#[cfg(test)] fn rows(_: diesel::PgConnection) \x7b\x7d"] =
      lintSources markedTable.parser [domainModule ""] := by
  constructor
  · intro same
    have cases := (lintSources_without markedTable.parser [] []
      (domainModule "#[cfg(test)] type Rows = diesel::PgConnection;") "" .domain _ ⟨[]⟩
      [markedItem .typeAlias] false rfl rfl rfl (@Node.Omits.here _ [] [])).2.1 same
    rcases cases with ⟨_, absent, -⟩ | covered | others
    · exact List.not_mem_nil absent
    · cases covered
    · have own : "domain must not depend on external crate `diesel`" ∈
          messages .domain ["domain", "rows"] [["cfg"], ["diesel", "PgConnection"]] := by
        decide
      exact absurd (others _ own) List.not_mem_nil
  · exact ((lintSources_without markedTable.parser [] []
      (domainModule "#[cfg(test)] fn rows(_: diesel::PgConnection) \x7b\x7d") "" .domain _ ⟨[]⟩
      [markedItem .function] false rfl rfl rfl (@Node.Omits.here _ [] [])).1 _ _ _ rfl rfl).1 rfl

end CoinLedger.Layering
