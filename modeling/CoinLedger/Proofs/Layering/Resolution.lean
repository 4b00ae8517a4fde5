import CoinLedger.Layering.Target
import Mathlib.Data.List.TakeDrop
import Mathlib.Data.List.TakeWhile

/-!
# Resolution and classification of paths

Resolving a path takes one step for each segment: every leading `super` drops the last name of a
module path, every leading `self` none, and what follows is appended.  After `n` times `super` in
any mixture with `self`, what is left of the module path is its front without `n` names
(`walk_of_le`), so its first name is the module's own, until nothing is left of it.  That is all
that `classify` looks at: it counts, and it never builds the path.

## Main definitions

* `ups` — how many modules the leading steps of a path lead up.

## Main results

* `walk_of_le`, `walk_of_lt` — the leading steps taken all at once.
* `classify_resolved` — what a path is classified as is what it leads to step by step.
-/

namespace CoinLedger.Layering

/-- How many modules the leading steps of a path lead up. -/
def ups (segments : Segments) : Nat := (segments.takeWhile isRelative).count "super"

variable {module : ModulePath} {segments rest path : Segments} {first : String}

/-! ## Leading steps -/

@[simp] theorem isRelative_self : isRelative "self" = true := by decide

@[simp] theorem isRelative_super : isRelative "super" = true := by decide

theorem isRelative_iff : isRelative first = true ↔ first = "self" ∨ first = "super" := by
  simp [isRelative]

/-- The crate root is no relative step. -/
theorem isRelative_of_isRoot (root : isRoot first = true) : isRelative first = false := by
  rw [isRoot, Bool.or_eq_true, decide_eq_true_eq, decide_eq_true_eq] at root
  rcases root with rfl | rfl <;> decide

@[simp] theorem ups_nil : ups [] = 0 := rfl

@[simp] theorem ups_self (rest : Segments) : ups ("self" :: rest) = ups rest := by
  simp [ups]

@[simp] theorem ups_super (rest : Segments) : ups ("super" :: rest) = ups rest + 1 := by
  simp [ups]

theorem ups_of_absolute (absolute : isRelative first = false) : ups (first :: rest) = 0 := by
  simp [ups, absolute]

/-- The leading steps taken all at once: as many names of the module are dropped as there are
`super`. -/
theorem walk_of_le (below : ups segments ≤ module.length) :
    walk module segments =
      some (module.take (module.length - ups segments) ++ segments.dropWhile isRelative) := by
  -- Induction on the path; each `super` shortens the module, so that is general.
  induction segments generalizing module with
  | nil => simp [walk]
  | cons first rest ih =>
    by_cases own : first = "self"
    · subst own
      rw [ups_self] at below ⊢
      rw [walk, if_pos rfl, ih below, List.dropWhile_cons_of_pos isRelative_self]
    · by_cases up : first = "super"
      · subst up
        rw [ups_super] at below ⊢
        have some : module ≠ [] := by
          rintro rfl
          exact absurd below (Nat.not_succ_le_zero _)
        have shorter : module.dropLast.length = module.length - 1 := List.length_dropLast
        have below' : ups rest ≤ module.dropLast.length := by omega
        have front : module.dropLast.take (module.dropLast.length - ups rest) =
            module.take (module.length - (ups rest + 1)) := by
          rw [List.dropLast_eq_take, List.take_take, List.length_take]
          congr 1
          omega
        rw [walk, if_neg own, if_pos rfl, if_neg some, ih below', front,
          List.dropWhile_cons_of_pos isRelative_super]
      · have absolute : isRelative first = false := by
          rw [Bool.eq_false_iff, Ne, isRelative_iff]
          exact not_or.2 ⟨own, up⟩
        rw [walk, if_neg own, if_neg up, ups_of_absolute absolute, Nat.sub_zero, List.take_length,
          List.dropWhile_cons_of_neg (by rw [absolute]; exact Bool.false_ne_true)]

/-- There is nothing above the crate root. -/
theorem walk_of_lt (above : module.length < ups segments) : walk module segments = none := by
  induction segments generalizing module with
  | nil => exact absurd above (Nat.not_lt_zero _)
  | cons first rest ih =>
    by_cases own : first = "self"
    · subst own
      rw [ups_self] at above
      rw [walk, if_pos rfl, ih above]
    · by_cases up : first = "super"
      · subst up
        rw [ups_super] at above
        rw [walk, if_neg own, if_pos rfl]
        split
        · rfl
        · next some =>
          have shorter : module.dropLast.length = module.length - 1 := List.length_dropLast
          have long : 0 < module.length := List.length_pos_iff.2 some
          exact ih (by omega)
      · have absolute : isRelative first = false := by
          rw [Bool.eq_false_iff, Ne, isRelative_iff]
          exact not_or.2 ⟨own, up⟩
        rw [ups_of_absolute absolute] at above
        exact absurd above (Nat.not_lt_zero _)

/-- Where the leading steps of a relative path lead begins with the module's own first name, unless
they lead up to the crate root. -/
theorem head?_of_walk (walked : walk module segments = some path) :
    path.head? = if ups segments < module.length then module.head?
      else (segments.dropWhile isRelative).head? := by
  by_cases below : ups segments ≤ module.length
  · rw [walk_of_le below] at walked
    obtain rfl := Option.some.inj walked
    by_cases inside : ups segments < module.length
    · obtain ⟨name, names, rfl⟩ := List.exists_cons_of_length_pos (Nat.zero_lt_of_lt inside)
      obtain ⟨kept, hkept⟩ : ∃ kept, (name :: names).length - ups segments = kept + 1 :=
        Nat.exists_eq_succ_of_ne_zero (by omega)
      rw [if_pos inside, hkept]
      rfl
    · have all : module.length - ups segments = 0 := by omega
      rw [if_neg inside, all]
      rfl
  · rw [walk_of_lt (Nat.lt_of_not_le below)] at walked
    cases walked

/-! ## Targets -/

theorem layerAt_eq_layer_iff {name : Option String} {layer : Layer} :
    layerAt name = .layer layer ↔ name = some layer.name := by
  cases name with
  | none => simp [layerAt]
  | some name =>
    rw [Option.some_inj, ← Layer.ofName?_eq_some_iff, layerAt]
    cases Layer.ofName? name <;> simp

theorem layerAt_eq_here_iff {name : Option String} :
    layerAt name = .here ↔ ∀ layer : Layer, name ≠ some layer.name := by
  simp only [ne_eq, ← layerAt_eq_layer_iff]
  cases name with
  | none => simp [layerAt]
  | some name =>
    rw [layerAt]
    cases Layer.ofName? name <;> simp

theorem layerAt_ne_external {name : Option String} {other : String} :
    layerAt name ≠ .external other := by
  cases name with
  | none => simp [layerAt]
  | some name =>
    rw [layerAt]
    cases Layer.ofName? name <;> simp

/-- A relative path leads to the layer of its module as long as it leads up to no crate root. -/
theorem classify_of_relative (relative : isRelative first = true) :
    classify module (first :: rest) =
      layerAt (if ups (first :: rest) < module.length then module.head?
        else ((first :: rest).dropWhile isRelative).head?) := by
  have rootless : isRoot first = false := by
    cases hroot : isRoot first with
    | false => rfl
    | true =>
      rw [isRelative_of_isRoot hroot] at relative
      exact relative.symm
  rw [classify, rootless, relative]
  show (if ups (first :: rest) < module.length then _ else _) = _
  split <;> rfl

/-- What a path is classified as is what it leads to. -/
theorem classify_of_absolute? {place : Place} (some : segments ≠ [])
    (leads : absolute? module segments = .some place) :
    classify module segments = place.target := by
  obtain ⟨first, rest, rfl⟩ := List.exists_cons_of_ne_nil some
  rw [absolute?] at leads
  by_cases root : isRoot first = true
  · rw [if_pos root] at leads
    obtain rfl := Option.some.inj leads
    rw [classify, if_pos root]
    rfl
  · rw [if_neg root] at leads
    by_cases relative : isRelative first = true
    · rw [if_pos relative] at leads
      obtain ⟨path, walked, rfl⟩ := Option.map_eq_some_iff.1 leads
      rw [classify_of_relative relative, Place.target, head?_of_walk walked]
    · rw [if_neg relative] at leads
      obtain rfl := Option.some.inj leads
      rw [classify, if_neg root, if_neg relative]
      rfl

/-- A path leads somewhere unless it leads above the crate root. -/
theorem exists_absolute? (below : ups segments ≤ module.length) :
    ∃ place, absolute? module segments = some place := by
  cases segments with
  | nil => exact ⟨_, rfl⟩
  | cons first rest =>
    rw [absolute?]
    by_cases root : isRoot first = true
    · exact ⟨_, if_pos root⟩
    · rw [if_neg root]
      by_cases relative : isRelative first = true
      · rw [if_pos relative, walk_of_le below]
        exact ⟨_, rfl⟩
      · exact ⟨_, if_neg relative⟩

/-- **Classification is resolution.**  A path that is written in a module and does not lead above
the crate root leads to one place.  It is classified as a layer exactly if that place is in this
crate and the first name on the way to it is that of the layer, as elsewhere in this crate exactly
if that name is missing or is none of a layer, and as external exactly if the place is in that other
crate.  The empty path is classified as elsewhere in this crate. -/
theorem classify_resolved (module : ModulePath) (segments : Segments)
    (below : ups segments ≤ module.length) :
    classify module [] = .here ∧
    (segments ≠ [] → ∃ place, absolute? module segments = some place ∧
      (∀ layer, classify module segments = .layer layer ↔
        ∃ path, place = .inside path ∧ path.head? = some layer.name) ∧
      (classify module segments = .here ↔
        ∃ path, place = .inside path ∧ ∀ layer : Layer, path.head? ≠ some layer.name) ∧
      ∀ name, classify module segments = .external name ↔ place = .outside name) := by
  refine ⟨rfl, fun filled => ?_⟩
  obtain ⟨place, leads⟩ := exists_absolute? below
  refine ⟨place, leads, ?_⟩
  rw [classify_of_absolute? filled leads]
  cases place with
  | inside path =>
    simp only [Place.target, layerAt_eq_layer_iff, layerAt_eq_here_iff, Place.inside.injEq,
      exists_eq_left', reduceCtorEq, iff_false, true_and, implies_true]
    exact fun name => layerAt_ne_external
  | outside name => simp [Place.target, eq_comm]

/-- Two modules up from a module two below the root is the root; one more `self` makes no
difference. -/
theorem classify_resolved_port :
    classify ["domain", "ports"] ["super", "self", "super", "inbound", "http"] = .layer .inbound ∧
      absolute? ["domain", "ports"] ["super", "self", "super", "inbound", "http"] =
        some (.inside ["inbound", "http"]) := by
  have below : ups ["super", "self", "super", "inbound", "http"] ≤ ["domain", "ports"].length := by
    decide
  obtain ⟨place, leads, isLayer, -⟩ := (classify_resolved ["domain", "ports"]
    ["super", "self", "super", "inbound", "http"] below).2 (by simp)
  have walked : absolute? ["domain", "ports"] ["super", "self", "super", "inbound", "http"] =
      some (.inside ["inbound", "http"]) := by decide
  have known : place = .inside ["inbound", "http"] := Option.some.inj (leads.symm.trans walked)
  exact ⟨(isLayer .inbound).2 ⟨_, known, rfl⟩, walked⟩

end CoinLedger.Layering
