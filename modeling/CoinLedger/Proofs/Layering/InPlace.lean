import CoinLedger.Layering.Grammar.File
import CoinLedger.Proofs.Layering.Listing
import CoinLedger.Proofs.Layering.Resolution

/-!
# Relative paths in modules in place

A path with `super` leads up from the module that it is written in, which may be one in place within
the module of its file.  A check knows only the module of the file and takes every path for one
that is written there.

That makes no difference to a path that stays below the module of the file, nor to one that leads
up to the crate root: so no path to a forbidden layer goes unnoticed.  But a path may lead up far
enough to leave the module of the file and still not reach the root from where it is written.  Such
a path stays in the layer of its file, and if the name that follows is that of a forbidden layer, it
is reported nevertheless (`Misread`).

## Main definitions

* `LeadsTo` — the layer that a path leads to from where it is written.
* `Misread` — a path that is taken for one to another layer.

## Main results

* `prefix_of_mem_located` — what is written in a file is written in its module or further inside.
* `relative_reported` — which relative paths are reported.
-/

namespace CoinLedger.Layering

/-- From where it is written, a path leads to a layer. -/
def LeadsTo (enclosing : ModulePath) (p : Segments) (target : Layer) : Prop :=
  ∃ path, absolute? enclosing p = some (.inside path) ∧ path.head? = some target.name

/-- A path leads up out of the module of its file, but not to the crate root, and goes on with the
name of a layer. -/
def Misread (module enclosing : ModulePath) (p : Segments) (target : Layer) : Prop :=
  module.length ≤ ups p ∧ ups p < enclosing.length ∧
    (p.dropWhile isRelative).head? = some target.name

/-! ## Where paths are written -/

namespace Node

theorem prefix_standsIn {outside inside : ModulePath} (around : outside <+: inside) (node : Node) :
    outside <+: node.standsIn outside inside := by
  cases node with
  | path segments => exact List.prefix_rfl
  | use tree => exact around
  | item kind attributes body => exact around

theorem prefix_inside (module : ModulePath) (kind : ItemKind) : module <+: kind.inside module := by
  unfold ItemKind.inside
  split
  · exact List.prefix_append _ _
  · exact List.prefix_rfl

variable {enclosing : ModulePath} {p : Segments}

mutual

/-- What is written in a node of a module is written in the module or further inside. -/
theorem prefix_of_mem_located (module : ModulePath) : (node : Node) →
    (enclosing, p) ∈ node.located module → module <+: enclosing
  | path segments, written => by
    rw [located, List.mem_singleton] at written
    obtain ⟨rfl, -⟩ := Prod.mk.inj written
    exact List.prefix_rfl
  | use tree, written => by
    rw [located, List.mem_map] at written
    obtain ⟨segments, -, same⟩ := written
    obtain ⟨rfl, -⟩ := Prod.mk.inj same
    exact List.prefix_rfl
  | item kind attributes body, written => by
    rw [located] at written
    split at written
    · exact absurd written List.not_mem_nil
    · exact prefix_of_mem_locatedInAll _ _ (prefix_inside module kind) body written

theorem prefix_of_mem_locatedInAll (outside inside : ModulePath) (around : outside <+: inside) :
    (nodes : List Node) → (enclosing, p) ∈ locatedInAll outside inside nodes →
      outside <+: enclosing
  | [], written => absurd written List.not_mem_nil
  | node :: rest, written => by
    rw [locatedInAll, List.mem_append] at written
    rcases written with first | later
    · exact (prefix_standsIn around node).trans (prefix_of_mem_located _ node first)
    · exact prefix_of_mem_locatedInAll outside inside around rest later

end

end Node

/-- The paths that count are those that are written somewhere. -/
theorem mem_paths_iff {o : Outline} {p : Segments} (module : ModulePath) :
    p ∈ o.paths ↔ ∃ enclosing, (enclosing, p) ∈ o.located module := by
  rw [Outline.paths, ← Node.map_locatedInAll module module, List.mem_map]
  simp [Outline.located]

/-! ## What relative paths lead to -/

theorem breaks_layer_iff {layer target : Layer} {module : ModulePath} {p : Segments} :
    Breaks layer module p (.layer target) ↔
      classify module p = .layer target ∧ target ∈ layer.forbiddenLayers := by
  constructor
  · rintro ⟨leads, forbidden⟩
    exact ⟨leads, forbidden⟩
  · rintro ⟨leads, forbidden⟩
    exact .layer leads forbidden

section Relative

variable {module enclosing : ModulePath} {p : Segments} {layer target : Layer}
  (relative : p.head? = some "self" ∨ p.head? = some "super")
include relative

theorem exists_relative : ∃ first rest, p = first :: rest ∧ isRelative first = true := by
  rcases relative with own | up
  · obtain ⟨rest, rfl⟩ := List.head?_eq_some_iff.1 own
    exact ⟨_, rest, rfl, isRelative_self⟩
  · obtain ⟨rest, rfl⟩ := List.head?_eq_some_iff.1 up
    exact ⟨_, rest, rfl, isRelative_super⟩

theorem classify_relative_iff : classify module p = .layer target ↔
    (if ups p < module.length then module.head? else (p.dropWhile isRelative).head?) =
      some target.name := by
  obtain ⟨first, rest, rfl, step⟩ := exists_relative relative
  rw [classify_of_relative step, layerAt_eq_layer_iff]

theorem leadsTo_iff (below : ups p ≤ enclosing.length) : LeadsTo enclosing p target ↔
    (if ups p < enclosing.length then enclosing.head? else (p.dropWhile isRelative).head?) =
      some target.name := by
  obtain ⟨first, rest, rfl, step⟩ := exists_relative relative
  have rootless : ¬isRoot first = true := by
    intro root
    rw [isRelative_of_isRoot root] at step
    cases step
  have walked := walk_of_le below
  rw [LeadsTo, absolute?, if_neg rootless, if_pos step, ← head?_of_walk walked, walked]
  simp

/-- A relative path is reported if it leads to a forbidden layer from where it is written, or is
misread. -/
theorem breaks_relative_iff (within : module <+: enclosing) (below : ups p ≤ enclosing.length)
    (hlayer : module.head? = some layer.name) : Breaks layer module p (.layer target) ↔
      target ∈ layer.forbiddenLayers ∧
        (LeadsTo enclosing p target ∨ Misread module enclosing p target) := by
  have hlayer' : enclosing.head? = some layer.name := by
    obtain ⟨inner, rfl⟩ := within
    rw [List.head?_append, hlayer]
    rfl
  have shorter : module.length ≤ enclosing.length := within.length_le
  rw [breaks_layer_iff, classify_relative_iff relative, leadsTo_iff relative below, Misread,
    and_comm, hlayer, hlayer']
  refine and_congr_right fun forbidden => ?_
  -- Nothing is forbidden in the layer itself.
  have other : layer.name ≠ target.name := by
    intro same
    rw [Layer.name_injective same] at forbidden
    exact Layer.not_mem_forbiddenLayers_self target forbidden
  by_cases inside : ups p < module.length
  · simp [inside, Nat.lt_of_lt_of_le inside shorter, Nat.not_le_of_lt inside]
  · by_cases between : ups p < enclosing.length
    · simp [inside, between, Nat.le_of_not_lt inside, other]
    · simp [inside, between]

/-- A misread path stays in the layer of its file. -/
theorem Misread.leadsTo (misread : Misread module enclosing p target)
    (within : module <+: enclosing) (hlayer : module.head? = some layer.name) :
    LeadsTo enclosing p layer := by
  obtain ⟨-, between, -⟩ := misread
  obtain ⟨inner, rfl⟩ := within
  rw [leadsTo_iff relative (Nat.le_of_lt between), if_pos between, List.head?_append, hlayer]
  rfl

end Relative

/-- **Which relative paths are reported.**  A check of a module of a layer reports each layer that a
path in the file, wherever it is written, must not lead to.  A path that begins with `self` or
`super` and does not lead above the crate root is reported if it leads to a forbidden layer from
where it is written; besides, it is reported if it leads up out of the module of the file, but not
to the crate root, and goes on with the name of a forbidden layer.  That path stays in the layer of
the file. -/
theorem relative_reported (parse : Parser) (s : Source) (layer : Layer) (o : Outline)
    (hlayer : s.layer? = some layer) (parsed : parse s.contents = .ok o) :
    (∃ found, checkSource parse layer s = .ok found ∧ ∀ target,
      ⟨s.module.text, s.file, (Dependency.layer target).message layer⟩ ∈ found ↔
        ∃ enclosing p, (enclosing, p) ∈ o.located s.module ∧
          Breaks layer s.module p (.layer target)) ∧
    ∀ enclosing p target, (enclosing, p) ∈ o.located s.module →
      p.head? = some "self" ∨ p.head? = some "super" → ups p ≤ enclosing.length →
      (Breaks layer s.module p (.layer target) ↔ target ∈ layer.forbiddenLayers ∧
        (LeadsTo enclosing p target ∨ Misread s.module enclosing p target)) ∧
      (Misread s.module enclosing p target → LeadsTo enclosing p layer) := by
  have root : s.module.head? = some layer.name := layer?_eq_some_iff.1 hlayer
  constructor
  · refine ⟨violationsIn layer s o, ?_, fun target => ?_⟩
    · rw [checkSource, parsed]
      rfl
    · rw [reported_iff]
      simp only [mem_paths_iff s.module, ← exists_and_right]
      exact exists_comm
  · intro enclosing p target written relative below
    have within : s.module <+: enclosing :=
      Node.prefix_of_mem_locatedInAll _ _ List.prefix_rfl o.nodes written
    exact ⟨breaks_relative_iff relative within below root,
      fun misread => misread.leadsTo relative within root⟩

/-! ### A module in place -/

/-- A text of the domain whose module `queue` uses a sibling that is named like a layer, and the
layer of another name. -/
def queueText : String :=
  "pub mod inbound \x7b pub struct Event; \x7d mod queue \x7b use super::inbound::Event; " ++
    "use super::super::outbound::Pool; \x7d"

def queueModule : Source := ⟨["domain"], "domain.rs", queueText⟩

theorem queueText_located : (parseFile queueText).toOption.map (Outline.located ["domain"]) =
    some [(["domain", "queue"], ["super", "inbound", "Event"]),
      (["domain", "queue"], ["super", "super", "outbound", "Pool"])] := by
  decide +kernel

/-- Both paths are reported, but only the second one leads out of the domain. -/
theorem relative_reported_queue :
    Breaks .domain ["domain"] ["super", "inbound", "Event"] (.layer .inbound) ∧
      LeadsTo ["domain", "queue"] ["super", "inbound", "Event"] .domain ∧
    Breaks .domain ["domain"] ["super", "super", "outbound", "Pool"] (.layer .outbound) ∧
      LeadsTo ["domain", "queue"] ["super", "super", "outbound", "Pool"] .outbound ∧
    ∃ found, checkSource parseFile .domain queueModule = .ok found ∧
      ⟨"domain", "domain.rs", "domain must not depend on crate::inbound"⟩ ∈ found := by
  obtain ⟨o, parsed, located⟩ : ∃ o, parseFile queueText = .ok o ∧ o.located ["domain"] = _ := by
    have located := queueText_located
    cases parsed : parseFile queueText with
    | error detail =>
      rw [parsed] at located
      cases located
    | ok o =>
      rw [parsed] at located
      exact ⟨o, rfl, Option.some.inj located⟩
  obtain ⟨⟨found, checked, reported⟩, each⟩ :=
    relative_reported parseFile queueModule .domain o rfl parsed
  have misread : Misread ["domain"] ["domain", "queue"] ["super", "inbound", "Event"] .inbound :=
    ⟨by decide, by decide, by decide⟩
  have leads : LeadsTo ["domain", "queue"] ["super", "super", "outbound", "Pool"] .outbound :=
    ⟨["outbound", "Pool"], by decide, rfl⟩
  have first : (["domain", "queue"], ["super", "inbound", "Event"]) ∈ o.located ["domain"] := by
    rw [located]
    exact .head _
  have second : (["domain", "queue"], ["super", "super", "outbound", "Pool"]) ∈
      o.located ["domain"] := by
    rw [located]
    exact .tail _ (.head _)
  obtain ⟨alarm, stays⟩ := each _ _ .inbound first (.inr rfl) (by decide)
  obtain ⟨right, -⟩ := each _ _ .outbound second (.inr rfl) (by decide)
  have breaks : Breaks .domain ["domain"] ["super", "inbound", "Event"] (.layer .inbound) :=
    alarm.2 ⟨by decide, .inr misread⟩
  exact ⟨breaks, stays misread, right.2 ⟨by decide, .inl leads⟩, leads, found, checked,
    (reported .inbound).2 ⟨_, _, first, breaks⟩⟩

end CoinLedger.Layering
