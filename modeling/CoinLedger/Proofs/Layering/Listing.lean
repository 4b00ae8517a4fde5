import CoinLedger.Proofs.Layering.TestCode

/-!
# What a check says of a list of sources

Only the sources of layers count.  The first one of them that is no source ends the check with an
error; otherwise what is wrong with each of them is listed, one source after the other, and the
check passes if nothing is.

What is listed of one source is determined by what its paths lead to: the messages are in ascending
order, so it only matters which there are (`Lists`), and different dependencies have different
messages (`Dependency.message_injective`).

## Main definitions

* `Breaks` — a path leads to what is forbidden to a layer.
* `Lists` — what is listed of a source.

## Main results

* `checkAll_of_parsable`, `checkAll_of_first` — a check goes through all layer sources, or ends at
  the first one that is no source.
* `lintSources_exhaustive` — what a check says, for every list of sources.
-/

namespace CoinLedger.Layering

/-- A path in a module leads to what is forbidden to a layer. -/
inductive Breaks (layer : Layer) (module : ModulePath) (p : Segments) : Dependency → Prop where
  | layer {target : Layer} : classify module p = .layer target →
      target ∈ layer.forbiddenLayers → Breaks layer module p (.layer target)
  | external {name : String} : classify module p = .external name →
      name ∈ layer.forbiddenCrates → Breaks layer module p (.external name)

theorem objection?_eq_some_iff {layer : Layer} {module : ModulePath} {p : Segments}
    {dependency : Dependency} :
    objection? layer module p = some dependency ↔ Breaks layer module p dependency := by
  unfold objection?
  constructor
  · intro wrong
    cases leads : classify module p with
    | layer target =>
      rw [leads, Target.forbidden?] at wrong
      split at wrong
      · next forbidden =>
        obtain rfl := Option.some.inj wrong
        exact .layer leads forbidden
      · cases wrong
    | external name =>
      rw [leads, Target.forbidden?] at wrong
      split at wrong
      · next forbidden =>
        obtain rfl := Option.some.inj wrong
        exact .external leads forbidden
      · cases wrong
    | here =>
      rw [leads] at wrong
      cases wrong
  · intro breaks
    cases breaks with
    | layer leads forbidden => rw [leads, Target.forbidden?, if_pos forbidden]
    | external leads forbidden => rw [leads, Target.forbidden?, if_pos forbidden]

/-- Different dependencies of a layer have different messages. -/
theorem Dependency.message_injective (layer : Layer) :
    Function.Injective (Dependency.message layer) := by
  intro d d' same
  have texts := congrArg String.toList same
  cases d <;> cases d' <;>
    simp only [Dependency.message, String.toList_append, List.append_assoc,
      List.append_cancel_left_eq, List.append_cancel_right_eq] at texts
  · next target target' => rw [Layer.name_injective (String.toList_inj.1 texts)]
  · exact absurd (congrArg (·[20]?) texts) (by simp)
  · exact absurd (congrArg (·[20]?) texts) (by simp)
  · next name name' => rw [String.toList_inj.1 texts]

/-- What is listed of a source of a layer: each thing that is wrong with its paths once, in
ascending order of what is said about it. -/
structure Lists (parse : Parser) (s : Source) (found : List Violation) : Prop where
  own : ∀ v ∈ found, v.module = s.module.text ∧ v.file = s.file
  ascending : (found.map Violation.message).Pairwise (· < ·)
  complete : ∃ layer o, s.module.head? = some layer.name ∧ parse s.contents = .ok o ∧
    ∀ message, message ∈ found.map Violation.message ↔
      ∃ p ∈ o.paths, ∃ dependency, Breaks layer s.module p dependency ∧
        message = dependency.message layer

/-- A source of a layer has a path to what is forbidden to the layer. -/
def Broken (parse : Parser) (s : Source) : Prop :=
  ∃ layer o, s.module.head? = some layer.name ∧ parse s.contents = .ok o ∧
    ∃ p ∈ o.paths, ∃ dependency, Breaks layer s.module p dependency

/-- The violations that a check ends with. -/
def listed : Except LintError (List String) → List Violation
  | .error (.violations found) => found
  | _ => []

/-- Whether a source is in a layer. -/
def Source.inLayer (s : Source) : Bool := s.layer?.isSome

variable {parse : Parser} {s : Source} {layer : Layer} {o : Outline} {sources : List Source}

theorem layer?_eq_some_iff : s.layer? = some layer ↔ s.module.head? = some layer.name := by
  unfold Source.layer?
  cases s.module.head? with
  | none => simp
  | some name => simp [Layer.ofName?_eq_some_iff]

theorem Broken.inLayer (broken : Broken parse s) : s.inLayer = true := by
  obtain ⟨layer, o, hhead, -⟩ := broken
  exact Option.isSome_iff_exists.2 ⟨layer, layer?_eq_some_iff.2 hhead⟩

/-! ## One source -/

/-- A dependency is reported exactly if a path leads to it that must not. -/
theorem reported_iff {dependency : Dependency} :
    ⟨s.module.text, s.file, dependency.message layer⟩ ∈ violationsIn layer s o ↔
      ∃ p ∈ o.paths, Breaks layer s.module p dependency := by
  simp only [violationsIn, List.mem_map, Violation.mk.injEq, true_and, exists_eq_right,
    mem_messages_iff, objection?_eq_some_iff, (Dependency.message_injective layer).eq_iff]

theorem lists_violationsIn (hlayer : s.layer? = some layer) (parsed : parse s.contents = .ok o) :
    Lists parse s (violationsIn layer s o) := by
  have texts : (violationsIn layer s o).map Violation.message =
      messages layer s.module o.paths := by
    simp [violationsIn, Function.comp_def]
  refine ⟨?_, ?_, layer, o, layer?_eq_some_iff.1 hlayer, parsed, ?_⟩
  · intro v among
    obtain ⟨message, -, rfl⟩ := List.mem_map.1 among
    exact ⟨rfl, rfl⟩
  · rw [texts]
    exact pairwise_ascending _
  · intro message
    rw [texts, mem_messages_iff]
    simp only [objection?_eq_some_iff, eq_comm (b := message)]

theorem Lists.broken_iff {found : List Violation} (lists : Lists parse s found) :
    Broken parse s ↔ found ≠ [] := by
  obtain ⟨layer, o, hhead, parsed, complete⟩ := lists.complete
  constructor
  · rintro ⟨layer', o', hhead', parsed', p, hp, dependency, breaks⟩ rfl
    obtain rfl := Layer.name_injective (Option.some.inj (hhead.symm.trans hhead'))
    obtain rfl := Except.ok.inj (parsed.symm.trans parsed')
    exact absurd ((complete _).2 ⟨p, hp, dependency, breaks, rfl⟩) List.not_mem_nil
  · intro some
    obtain ⟨v, rest, rfl⟩ := List.exists_cons_of_ne_nil some
    obtain ⟨p, hp, dependency, breaks, -⟩ := (complete v.message).1 List.mem_cons_self
    exact ⟨layer, o, hhead, parsed, p, hp, dependency, breaks⟩

/-! ## All sources -/

/-- What is found in a source: nothing, unless it is one of a layer. -/
def foundIn (parse : Parser) (s : Source) : List Violation :=
  match s.layer?, parse s.contents with
  | some layer, .ok o => violationsIn layer s o
  | _, _ => []

theorem lists_foundIn (sole : s.inLayer = true) (parsable : ¬Unparsable parse [s]) :
    Lists parse s (foundIn parse s) := by
  obtain ⟨layer, hlayer⟩ := Option.isSome_iff_exists.1 sole
  cases parsed : parse s.contents with
  | error detail => exact absurd ⟨s, List.mem_singleton_self s, sole, detail, parsed⟩ parsable
  | ok o =>
    rw [foundIn, hlayer, parsed]
    exact lists_violationsIn hlayer parsed

theorem unparsable_cons {t : Source} : Unparsable parse (t :: sources) ↔
    Unparsable parse [t] ∨ Unparsable parse sources := by
  simp [Unparsable]

theorem unparsable_append {others : List Source} : Unparsable parse (sources ++ others) ↔
    Unparsable parse sources ∨ Unparsable parse others := by
  simp [Unparsable, or_and_right, exists_or]

/-- A check goes through if all sources of layers are sources. -/
theorem checkAll_of_parsable (parsable : ¬Unparsable parse sources) :
    checkAll parse sources = .ok ((sources.filter Source.inLayer).map fun s =>
      (s.module.text, foundIn parse s)) := by
  induction sources with
  | nil => rfl
  | cons t rest ih =>
    obtain ⟨own, others⟩ := not_or.1 (mt unparsable_cons.2 parsable)
    rw [checkAll]
    cases hlayer : t.layer? with
    | none =>
      have outside : ¬t.inLayer = true := by simp [Source.inLayer, hlayer]
      rw [List.filter_cons_of_neg outside]
      exact ih others
    | some layer =>
      have inside : t.inLayer = true := by simp [Source.inLayer, hlayer]
      rw [List.filter_cons_of_pos inside]
      cases parsed : parse t.contents with
      | error detail => exact absurd ⟨t, List.mem_singleton_self t, inside, detail, parsed⟩ own
      | ok o => simp [checkSource, parsed, ih others, foundIn, hlayer, violationsIn, bind,
          Except.bind, pure, Except.pure]

/-- A check ends at the first source of a layer that is no source. -/
theorem checkAll_of_first {before after : List Source} {detail : String}
    (parsable : ¬Unparsable parse before) (inside : s.inLayer = true)
    (bad : parse s.contents = .error detail) :
    checkAll parse (before ++ s :: after) = .error (.unparsable s.file detail) := by
  induction before with
  | nil =>
    obtain ⟨layer, hlayer⟩ := Option.isSome_iff_exists.1 inside
    rw [List.nil_append, checkAll, hlayer]
    simp [checkSource, bad, bind, Except.bind]
  | cons t rest ih =>
    obtain ⟨own, others⟩ := not_or.1 (mt unparsable_cons.2 parsable)
    rw [List.cons_append, checkAll]
    cases hlayer : t.layer? with
    | none => exact ih others
    | some layer =>
      have inside' : t.inLayer = true := by simp [Source.inLayer, hlayer]
      cases parsed : parse t.contents with
      | error detail' => exact absurd ⟨t, List.mem_singleton_self t, inside', detail', parsed⟩ own
      | ok o => simp [checkSource, parsed, ih others, bind, Except.bind]

/-- Of some sources that are not all ones, one is the first that is none. -/
theorem Unparsable.exists_first (bad : Unparsable parse sources) :
    ∃ before s after detail, sources = before ++ s :: after ∧ ¬Unparsable parse before ∧
      s.inLayer = true ∧ parse s.contents = .error detail := by
  induction sources with
  | nil =>
    obtain ⟨s, among, -⟩ := bad
    exact absurd among List.not_mem_nil
  | cons t rest ih =>
    by_cases own : Unparsable parse [t]
    · obtain ⟨s, among, inside, detail, refused⟩ := own
      obtain rfl := List.mem_singleton.1 among
      exact ⟨[], s, rest, detail, rfl, by simp [Unparsable], inside, refused⟩
    · obtain ⟨before, s, after, detail, rfl, parsable, first⟩ :=
        ih ((unparsable_cons.1 bad).resolve_left own)
      exact ⟨t :: before, s, after, detail, rfl,
        mt unparsable_cons.1 (not_or.2 ⟨own, parsable⟩), first⟩

/-- Sources outside the layers do not count. -/
theorem checkAll_filter (parse : Parser) (sources : List Source) :
    checkAll parse (sources.filter Source.inLayer) = checkAll parse sources := by
  induction sources with
  | nil => rfl
  | cons t rest ih =>
    cases hlayer : t.layer? with
    | none =>
      rw [List.filter_cons_of_neg (by simp [Source.inLayer, hlayer]), ih, checkAll, hlayer]
    | some layer =>
      rw [List.filter_cons_of_pos (by simp [Source.inLayer, hlayer]), checkAll, checkAll, hlayer,
        ih]

theorem verdict_of_found {checked : List (String × List Violation)}
    (found : checked.flatMap Prod.snd ≠ []) :
    verdict checked = .error (.violations (checked.flatMap Prod.snd)) := by
  unfold verdict
  split
  · next none => exact absurd none found
  · rfl

theorem verdict_of_none {checked : List (String × List Violation)}
    (none : checked.flatMap Prod.snd = []) : verdict checked = .ok (checked.map Prod.fst) := by
  unfold verdict
  rw [none]

theorem listed_verdict (checked : List (String × List Violation)) :
    listed (verdict checked) = checked.flatMap Prod.snd := by
  by_cases none : checked.flatMap Prod.snd = []
  · rw [verdict_of_none none, none]
    rfl
  · rw [verdict_of_found none]
    rfl

theorem lintSources_of_parsable (parsable : ¬Unparsable parse sources) :
    lintSources parse sources = verdict ((sources.filter Source.inLayer).map fun s =>
      (s.module.text, foundIn parse s)) := by
  rw [lintSources_eq, checkAll_of_parsable parsable]
  rfl

theorem listed_lintSources (parsable : ¬Unparsable parse sources) :
    listed (lintSources parse sources) =
      (sources.filter Source.inLayer).flatMap (foundIn parse) := by
  rw [lintSources_of_parsable parsable, listed_verdict, List.flatMap_map]

/-- **What a check says of a list of sources.**  The sources of layers are those whose module begins
with the name of a layer; the others make no difference.  If a source of a layer is none, the result
is the error about the first such one.  Otherwise, for each source of a layer there is a list of
what is wrong with it; if something is wrong with one of them, the result is these lists one after
the other, and if not, the result is the names of their modules.  So what is listed of two lists of
sources one after the other is what is listed of the first and then what is listed of the second, if
all are sources. -/
theorem lintSources_exhaustive (parse : Parser) (sources : List Source) :
    (∀ s : Source, s.inLayer = true ↔ ∃ layer : Layer, s.module.head? = some layer.name) ∧
    lintSources parse (sources.filter Source.inLayer) = lintSources parse sources ∧
    (Unparsable parse sources → ∃ before s after detail,
      sources = before ++ s :: after ∧ ¬Unparsable parse before ∧ s.inLayer = true ∧
        parse s.contents = .error detail ∧
        lintSources parse sources = .error (.unparsable s.file detail)) ∧
    (¬Unparsable parse sources → ∃ lists : List (Source × List Violation),
      lists.map Prod.fst = sources.filter Source.inLayer ∧
      (∀ entry ∈ lists, Lists parse entry.1 entry.2) ∧
      ((∃ s ∈ sources, Broken parse s) →
        lintSources parse sources = .error (.violations (lists.flatMap Prod.snd))) ∧
      ((∀ s ∈ sources, ¬Broken parse s) →
        lintSources parse sources = .ok (lists.map fun entry => entry.1.module.text))) ∧
    (∀ layer, Function.Injective (Dependency.message layer)) ∧
    ∀ others, ¬Unparsable parse (sources ++ others) →
      listed (lintSources parse (sources ++ others)) =
        listed (lintSources parse sources) ++ listed (lintSources parse others) := by
  refine ⟨?_, ?_, ?_, ?_, Dependency.message_injective, ?_⟩
  · intro s
    simp only [← layer?_eq_some_iff]
    exact Option.isSome_iff_exists
  · rw [lintSources_eq, lintSources_eq, checkAll_filter]
  · intro bad
    obtain ⟨before, s, after, detail, rfl, parsable, inside, bad⟩ := bad.exists_first
    refine ⟨before, s, after, detail, rfl, parsable, inside, bad, ?_⟩
    rw [lintSources_eq, checkAll_of_first parsable inside bad]
    rfl
  · intro parsable
    have each : ∀ s ∈ sources.filter Source.inLayer, Lists parse s (foundIn parse s) := by
      intro s among
      obtain ⟨given, inside⟩ := List.mem_filter.1 among
      refine lists_foundIn inside ?_
      rintro ⟨t, sole, bad⟩
      obtain rfl := List.mem_singleton.1 sole
      exact parsable ⟨t, given, bad⟩
    refine ⟨(sources.filter Source.inLayer).map fun s => (s, foundIn parse s), ?_, ?_, ?_, ?_⟩
    · simp [Function.comp_def]
    · intro entry among
      obtain ⟨s, given, rfl⟩ := List.mem_map.1 among
      exact each s given
    · rintro ⟨s, given, broken⟩
      have among : s ∈ sources.filter Source.inLayer := List.mem_filter.2 ⟨given, broken.inLayer⟩
      have found : foundIn parse s ≠ [] := (each s among).broken_iff.1 broken
      rw [lintSources_of_parsable parsable, verdict_of_found, List.flatMap_map, List.flatMap_map]
      rw [List.flatMap_map]
      intro none
      exact found (List.flatMap_eq_nil_iff.1 none s among)
    · intro sound
      have none : (sources.filter Source.inLayer).flatMap (foundIn parse) = [] := by
        refine List.flatMap_eq_nil_iff.2 fun s among => ?_
        by_contra found
        exact sound s (List.mem_filter.1 among).1 ((each s among).broken_iff.2 found)
      rw [lintSources_of_parsable parsable, verdict_of_none (by rw [List.flatMap_map, none]),
        List.map_map, List.map_map]
      rfl
  · intro others parsable
    obtain ⟨left, right⟩ := not_or.1 (mt unparsable_append.2 parsable)
    rw [listed_lintSources parsable, listed_lintSources left, listed_lintSources right,
      List.filter_append, List.flatMap_append]

/-- A text that imports what the domain may not reach, one thing twice. -/
def reachingText : String := "use diesel::PgConnection; use crate::outbound::pool; use diesel::dsl;"

def reachingTable : SourceTable :=
  [("backend/src/domain/rows.rs", reachingText,
    ⟨[.item .imports [] [.use (.under "diesel" (.name "PgConnection"))],
      .item .imports [] [.use (.under "crate" (.under "outbound" (.name "pool")))],
      .item .imports [] [.use (.under "diesel" (.name "dsl"))]]⟩)]

/-- A module outside the layers with a text. -/
def settingsModule (contents : String) : Source := ⟨["config"], "config.rs", contents⟩

/-- A text that is no source does not matter outside the layers.  In a layer it ends the check. -/
theorem lintSources_exhaustive_reaching :
    (∃ lists : List (Source × List Violation), lists.map Prod.fst = [domainModule reachingText] ∧
      (∀ entry ∈ lists, Lists reachingTable.parser entry.1 entry.2) ∧
      lintSources reachingTable.parser [settingsModule "use \x7b", domainModule reachingText] =
        .error (.violations (lists.flatMap Prod.snd))) ∧
    listed (lintSources reachingTable.parser
        [settingsModule "use \x7b", domainModule reachingText]) =
      [⟨"domain::rows", "domain/rows.rs", "domain must not depend on crate::outbound"⟩,
        ⟨"domain::rows", "domain/rows.rs", "domain must not depend on external crate `diesel`"⟩] ∧
    (∃ before s after detail,
      [domainModule reachingText, domainModule "use \x7b"] = before ++ s :: after ∧
        lintSources reachingTable.parser [domainModule reachingText, domainModule "use \x7b"] =
          .error (.unparsable s.file detail)) ∧
    listed (lintSources reachingTable.parser
        ([domainModule reachingText] ++ [domainModule reachingText])) =
      listed (lintSources reachingTable.parser [domainModule reachingText]) ++
        listed (lintSources reachingTable.parser [domainModule reachingText]) := by
  have sole : ¬Unparsable reachingTable.parser [domainModule reachingText] := by
    rintro ⟨s, among, -, detail, refused⟩
    obtain rfl := List.mem_singleton.1 among
    cases refused
  have outside : ¬Unparsable reachingTable.parser
      [settingsModule "use \x7b", domainModule reachingText] := by
    refine mt unparsable_cons.1 (not_or.2 ⟨?_, sole⟩)
    rintro ⟨s, among, inside, -⟩
    obtain rfl := List.mem_singleton.1 among
    cases inside
  have bad : Unparsable reachingTable.parser [domainModule reachingText, domainModule "use \x7b"] :=
    ⟨_, .tail _ (.head _), rfl, _, rfl⟩
  have broken : Broken reachingTable.parser (domainModule reachingText) :=
    ⟨.domain, _, rfl, rfl, _, .head _, _, .external rfl (by decide)⟩
  obtain ⟨-, -, -, lists, -⟩ := lintSources_exhaustive reachingTable.parser
    [settingsModule "use \x7b", domainModule reachingText]
  obtain ⟨-, -, stops, -⟩ := lintSources_exhaustive reachingTable.parser
    [domainModule reachingText, domainModule "use \x7b"]
  obtain ⟨-, -, -, -, -, joined⟩ := lintSources_exhaustive reachingTable.parser
    [domainModule reachingText]
  obtain ⟨lists, sources, each, found, -⟩ := lists outside
  obtain ⟨before, s, after, detail, parts, -, -, -, ends⟩ := stops bad
  refine ⟨⟨lists, sources, each, found ⟨_, .tail _ (.head _), broken⟩⟩, by decide,
    ⟨before, s, after, detail, parts, ends⟩, joined [domainModule reachingText] ?_⟩
  exact mt unparsable_append.1 (not_or.2 ⟨sole, sole⟩)

end CoinLedger.Layering
