import CoinLedger.Layering.ModuleTree
import Mathlib.Logic.Relation

/-!
# What a walk finds

A walk goes from the file of a module to the places of the modules declared at its top
(`Crate.Leads`).  What it finds is told by this relation alone: the sources at all places that can
be reached from where it begins, whatever the order and the depth in which they are visited.  A walk
finds something if every file on its way is a source, every declaration on its way leads somewhere,
and no way is too long.

## Main definitions

* `Crate.Leads` — one step of a walk.
* `Crate.SourceAt` — the source of a module at a place.
* `Shallow` — whether all ways from somewhere are short.

## Main results

* `Crate.mem_visit_iff` — a walk finds exactly the sources at the places reached.
* `Crate.exists_visit` — when a walk finds something.
-/

namespace CoinLedger.Layering

/-- Whether every way from somewhere along a relation is shorter than a number. -/
def Shallow {α : Type} (r : α → α → Prop) : Nat → α → Prop
  | 0, _ => False
  | n + 1, a => ∀ b, r a b → Shallow r n b

namespace Crate

/-- The walk goes on from a module to the place of a module declared at the top of its file. -/
def Leads (c : Crate) (v next : Visit) : Prop :=
  ∃ contents outline d, c.Opens v.file contents outline ∧ Declares outline.nodes [] d ∧
    c.resolve v d = .ok next

/-- The source of the module at a place. -/
def SourceAt (c : Crate) (place : Visit) (s : Source) : Prop :=
  ∃ contents outline, c.Opens place.file contents outline ∧
    s = ⟨place.module, c.shown place.file, contents⟩

variable {c : Crate} {v : Visit} {depth : Nat} {found : List Source} {s : Source}

/-- A file has one text and one outline. -/
theorem Opens.unique {file : List Char} {contents contents' : String} {outline outline' : Outline}
    (h : c.Opens file contents outline) (h' : c.Opens file contents' outline') :
    contents = contents' ∧ outline = outline' := by
  obtain rfl : contents = contents' := Except.ok.inj (h.1.symm.trans h'.1)
  exact ⟨rfl, Except.ok.inj (h.2.symm.trans h'.2)⟩

/-- Where the walk looks for a module: at the path that an attribute sets, or else in the first of
two files that is there. -/
theorem resolve_eq_ok_iff {d : Declaration} {next : Visit} :
    c.resolve v d = .ok next ↔
      (∃ path, d.path? = some path ∧
        next = ⟨PathText.join (PathText.parent v.file) path.toList, v.module ++ [d.name],
          namesOwner path⟩) ∨
      d.path? = none ∧ (places v d.name).find? (fun place => c.files.isFile place.file) =
        some next := by
  unfold resolve setPlace? Declaration.path?
  cases d.attributes.findSome? Attribute.file? with
  | some path => simp [eq_comm]
  | none =>
    simp only [Option.map_none, reduceCtorEq, false_and, exists_false, true_and, false_or]
    cases (places v d.name).find? fun place => c.files.isFile place.file with
    | none => simp
    | some place => simp

theorem openFile_eq_ok_iff {file : List Char} {contents : String}
    {declarations : List Declaration} :
    c.openFile file = .ok (contents, declarations) ↔
      ∃ outline, c.Opens file contents outline ∧ declarations = outline.declarations := by
  unfold openFile Opens
  cases hread : c.files.read file with
  | error cause => simp
  | ok text =>
    cases hparse : c.parse text with
    | error detail =>
      simp only [hparse, reduceCtorEq, Except.ok.injEq, false_iff]
      rintro ⟨outline, ⟨rfl, parsed⟩, -⟩
      rw [hparse] at parsed
      cases parsed
    | ok outline =>
      simp only [hparse, Except.ok.injEq, Prod.mk.injEq]
      constructor
      · rintro ⟨rfl, rfl⟩
        exact ⟨outline, ⟨rfl, hparse⟩, rfl⟩
      · rintro ⟨outline', ⟨rfl, parsed⟩, rfl⟩
        rw [hparse] at parsed
        cases parsed
        exact ⟨rfl, rfl⟩

/-- Visiting declared modules one after the other finds what the visits find. -/
theorem visitAll_eq_ok {follow : Visit → Option Walked}
    {find : Declaration → Except LintError Visit} {ds : List Declaration}
    (h : visitAll follow find ds = some (.ok found)) :
    (∀ d ∈ ds, ∃ next part, find d = .ok next ∧ follow next = some (.ok part) ∧
      ∀ s ∈ part, s ∈ found) ∧
    ∀ s ∈ found, ∃ d ∈ ds, ∃ next part, find d = .ok next ∧ follow next = some (.ok part) ∧
      s ∈ part := by
  induction ds generalizing found with
  | nil =>
    cases h
    exact ⟨fun _ hd => absurd hd List.not_mem_nil, fun _ hs => absurd hs List.not_mem_nil⟩
  | cons d rest ih =>
    rw [visitAll] at h
    cases hfind : find d with
    | error e =>
      rw [hfind] at h
      cases h
    | ok next =>
      simp only [hfind] at h
      cases hfollow : follow next with
      | none =>
        rw [hfollow] at h
        cases h
      | some walked =>
        simp only [hfollow] at h
        cases walked with
        | error e => cases h
        | ok part =>
          obtain ⟨others, hothers, hfound⟩ := Option.map_eq_some_iff.1 h
          cases others with
          | error e => cases hfound
          | ok others =>
            obtain rfl : part ++ others = found := Except.ok.inj hfound
            obtain ⟨covers, comes⟩ := ih hothers
            constructor
            · intro d' hd'
              rcases List.mem_cons.1 hd' with rfl | later
              · exact ⟨next, part, hfind, hfollow, fun s hs => List.mem_append_left _ hs⟩
              · obtain ⟨next', part', hfind', hfollow', inside⟩ := covers d' later
                exact ⟨next', part', hfind', hfollow',
                  fun s hs => List.mem_append_right _ (inside s hs)⟩
            · intro s hs
              rcases List.mem_append.1 hs with first | later
              · exact ⟨d, List.mem_cons_self, next, part, hfind, hfollow, first⟩
              · obtain ⟨d', hd', rest'⟩ := comes s later
                exact ⟨d', List.mem_cons_of_mem _ hd', rest'⟩

/-- A visit that ends opens the file and visits what is declared at its top. -/
theorem visit_succ_eq_ok (h : c.visit (depth + 1) v = some (.ok found)) :
    ∃ contents outline others, c.Opens v.file contents outline ∧
      visitAll (c.visit depth) (c.resolve v) outline.declarations = some (.ok others) ∧
      found = others ++ [⟨v.module, c.shown v.file, contents⟩] := by
  rw [visit] at h
  cases hopen : c.openFile v.file with
  | error e =>
    rw [hopen] at h
    cases h
  | ok opened =>
    obtain ⟨contents, declarations⟩ := opened
    obtain ⟨outline, opens, rfl⟩ := openFile_eq_ok_iff.1 hopen
    simp only [hopen] at h
    obtain ⟨walked, hwalked, hfound⟩ := Option.map_eq_some_iff.1 h
    cases walked with
    | error e => cases hfound
    | ok others => exact ⟨contents, outline, others, opens, hwalked, (Except.ok.inj hfound).symm⟩

/-- **A walk finds exactly the sources at the places that it reaches.** -/
theorem mem_visit_iff (h : c.visit depth v = some (.ok found)) :
    s ∈ found ↔ ∃ place, Relation.ReflTransGen c.Leads v place ∧ c.SourceAt place s := by
  -- Induction on the depth: a place is the file itself, or it is reached from one of the modules
  -- that are declared at the top of the file.
  induction depth generalizing v found with
  | zero => cases h
  | succ depth ih =>
    obtain ⟨contents, outline, others, opens, visited, rfl⟩ := visit_succ_eq_ok h
    obtain ⟨covers, comes⟩ := visitAll_eq_ok visited
    constructor
    · intro hs
      rcases List.mem_append.1 hs with below | own
      · obtain ⟨d, hd, next, part, hfind, hpart, inside⟩ := comes s below
        obtain ⟨place, reached, source⟩ := (ih hpart).1 inside
        have step : c.Leads v next :=
          ⟨contents, outline, d, opens, mem_declarations_iff.1 hd, hfind⟩
        exact ⟨place, .head step reached, source⟩
      · exact ⟨v, .refl, contents, outline, opens, List.mem_singleton.1 own⟩
    · rintro ⟨place, reached, source⟩
      rcases reached.cases_head with rfl | ⟨next, step, reached⟩
      · obtain ⟨contents', outline', opens', rfl⟩ := source
        rw [(opens.unique opens').1]
        exact List.mem_append_right _ (List.mem_singleton.2 rfl)
      · obtain ⟨contents', outline', d, opens', hd, hfind⟩ := step
        obtain ⟨rfl, rfl⟩ := opens.unique opens'
        obtain ⟨next', part, hfind', hpart, inside⟩ := covers d (mem_declarations_iff.2 hd)
        obtain rfl : next = next' := Except.ok.inj (hfind.symm.trans hfind')
        exact List.mem_append_left _ (inside s ((ih hpart).2 ⟨place, reached, source⟩))

theorem exists_visitAll {follow : Visit → Option Walked}
    {find : Declaration → Except LintError Visit} {ds : List Declaration}
    (h : ∀ d ∈ ds, ∃ next part, find d = .ok next ∧ follow next = some (.ok part)) :
    ∃ found, visitAll follow find ds = some (.ok found) := by
  induction ds with
  | nil => exact ⟨[], rfl⟩
  | cons d rest ih =>
    obtain ⟨next, part, hfind, hpart⟩ := h d List.mem_cons_self
    obtain ⟨others, hothers⟩ := ih fun d' hd' => h d' (List.mem_cons_of_mem _ hd')
    refine ⟨part ++ others, ?_⟩
    rw [visitAll, hfind]
    simp only [hpart, hothers]
    rfl

/-- A walk finds something if all that it reaches can be opened, all declarations lead somewhere,
and no way is too long. -/
theorem exists_visit (shallow : Shallow c.Leads depth v)
    (opens : ∀ place, Relation.ReflTransGen c.Leads v place →
      ∃ contents outline, c.Opens place.file contents outline)
    (resolves : ∀ place contents outline d, Relation.ReflTransGen c.Leads v place →
      c.Opens place.file contents outline → Declares outline.nodes [] d →
      ∃ next, c.resolve place d = .ok next) :
    ∃ found, c.visit depth v = some (.ok found) := by
  induction depth generalizing v with
  | zero => exact shallow.elim
  | succ depth ih =>
    obtain ⟨contents, outline, own⟩ := opens v .refl
    have parts : ∀ d ∈ outline.declarations, ∃ next part, c.resolve v d = .ok next ∧
        c.visit depth next = some (.ok part) := by
      intro d hd
      have declares : Declares outline.nodes [] d := mem_declarations_iff.1 hd
      obtain ⟨next, hnext⟩ := resolves v contents outline d .refl own declares
      have step : c.Leads v next := ⟨contents, outline, d, own, declares, hnext⟩
      obtain ⟨part, hpart⟩ := ih (shallow next step)
        (fun place reached => opens place (.head step reached))
        (fun place text tree d reached => resolves place text tree d (.head step reached))
      exact ⟨next, part, hnext, hpart⟩
    obtain ⟨others, hothers⟩ := exists_visitAll parts
    have opened : c.openFile v.file = .ok (contents, outline.declarations) :=
      openFile_eq_ok_iff.2 ⟨outline, own, rfl⟩
    refine ⟨others ++ [⟨v.module, c.shown v.file, contents⟩], ?_⟩
    rw [visit, opened]
    simp only [hothers]
    rfl

end Crate

end CoinLedger.Layering
