import CoinLedger.Proofs.Layering.Walk

/-!
# Which modules are checked

The language compiles all modules that are declared anywhere in a crate; the walk goes to those that
are declared at the top of a file.  It also judges by its name whether a file that an attribute sets
owns its directory (`Crate.judged`), which the language does not, and it keeps the mark of a raw
name.  A declaration to which none of this makes a difference is followed (`Followed`), and a module
to which such declarations lead is in the open.

A crate whose walk ends is found to have all modules in the open, and none that is declared within
modules in place alone.  If every declaration of the crate is followed, what is found is what is
compiled.

## Main definitions

* `Crate.judged`, `Misjudged` — a module as the walk sees it, and where that is not so.
* `Followed`, `Crate.InTheOpen` — the declarations that the walk follows as the language does, and
  the modules that they lead to.

## Main results

* `coverage` — what is found and checked.
-/

namespace CoinLedger.Layering

/-! ## The ends of paths -/

namespace PathText

theorem suffix_of_suffix_cut {s front last : List Char} (h : s <:+ front ++ '/' :: last)
    (slash : '/' ∉ s) : s <:+ last := by
  have whole : '/' :: last <:+ front ++ '/' :: last := List.suffix_append front ('/' :: last)
  -- Two ends of one text: the shorter one is an end of the other.
  rcases List.suffix_or_suffix_of_suffix h whole with inside | around
  · rcases List.suffix_cons_iff.1 inside with rfl | inside
    · exact absurd List.mem_cons_self slash
    · exact inside
  · exact absurd (around.subset List.mem_cons_self) slash

/-- A text without slashes is the end of a joined path only if it is the end of what is joined. -/
theorem suffix_join_iff {s directory path : List Char} (slash : '/' ∉ s) :
    s <:+ join directory path ↔ s <:+ path := by
  unfold join
  split
  · exact Iff.rfl
  · constructor
    · intro h
      split at h
      · next ends =>
        simp only [Bool.or_eq_true, decide_eq_true_eq] at ends
        rcases ends with rfl | closed
        · exact h
        · obtain ⟨front, rfl⟩ := List.getLast?_eq_some_iff.1 closed
          rw [List.append_assoc] at h
          exact suffix_of_suffix_cut h slash
      · exact suffix_of_suffix_cut h slash
    · intro h
      split
      · exact h.trans (List.suffix_append _ _)
      · exact h.trans ((List.suffix_cons '/' path).trans (List.suffix_append _ _))

end PathText

/-! ## What is followed -/

/-- The end of the names of files that own their directory. -/
def ownerName : List Char := "mod.rs".toList

/-- A file that an attribute sets and that owns its directory, of which its name does not say so. -/
def Misjudged (v : Visit) : Prop :=
  v.ownsDirectory = true ∧ v.module ≠ [] ∧ ¬ownerName <:+ v.file

instance (v : Visit) : Decidable (Misjudged v) :=
  inferInstanceAs (Decidable (v.ownsDirectory = true ∧ v.module ≠ [] ∧ ¬ownerName <:+ v.file))

/-- A declaration that the walk follows as the language does: it is at the top of its file, its name
is not raw, and if no attribute sets its path, the directory of the file is judged rightly. -/
structure Followed (v : Visit) (around : List Declaration) (d : Declaration) : Prop where
  top : around = []
  bare : bareName d.name = d.name
  owner : d.path? = none → ¬Misjudged v

namespace Crate

/-- A module as the walk sees it. -/
def judged (v : Visit) : Visit := if Misjudged v then { v with ownsDirectory := false } else v

/-- The modules to which declarations lead that are all followed. -/
inductive InTheOpen (c : Crate) : Visit → Prop where
  | root : InTheOpen c c.rootVisit
  | declared {v place : Visit} {contents : String} {outline : Outline}
      {around : List Declaration} {d : Declaration} :
      InTheOpen c v → c.Opens v.file contents outline → Declares outline.nodes around d →
      Followed v around d → c.PlacedAt v around d place → InTheOpen c place

/-- All declarations of a crate are followed. -/
def Plain (c : Crate) : Prop :=
  ∀ v contents outline around d, c.Compiles v → c.Opens v.file contents outline →
    Declares outline.nodes around d → Followed v around d

variable {c : Crate} {v place : Visit} {d : Declaration}

theorem InTheOpen.compiles (h : c.InTheOpen place) : c.Compiles place := by
  induction h with
  | root => exact .root
  | declared _ opens declares _ placed ih =>
    exact .declared ih ⟨_, _, _, _, opens, declares, placed⟩

@[simp] theorem judged_file (v : Visit) : (judged v).file = v.file := by
  unfold judged
  split <;> rfl

@[simp] theorem judged_module (v : Visit) : (judged v).module = v.module := by
  unfold judged
  split <;> rfl

theorem judged_rootVisit (c : Crate) : judged c.rootVisit = c.rootVisit :=
  if_neg fun misjudged => misjudged.2.1 rfl

/-- The walk judges the files rightly that no attribute sets. -/
theorem judged_of_unset {around : List Declaration} (placed : c.PlacedAt v around d place)
    (unset : d.path? = none) : judged place = place := by
  refine if_neg fun misjudged => ?_
  cases placed with
  | set hset =>
    rw [hset] at unset
    cases unset
  | flat _ _ _ => cases misjudged.1
  | nested _ hfile _ =>
    subst hfile
    exact misjudged.2.2 ((PathText.suffix_join_iff (by decide)).2 List.suffix_rfl)

/-- A file that an attribute sets owns its directory for the walk if its name says so. -/
theorem judged_set {directory : List Char} {path : String} {module : ModulePath}
    (filled : module ≠ []) :
    judged ⟨PathText.join directory path.toList, module, true⟩ =
      ⟨PathText.join directory path.toList, module, namesOwner path⟩ := by
  have named : namesOwner path = true ↔ ownerName <:+ PathText.join directory path.toList := by
    rw [PathText.suffix_join_iff (by decide)]
    exact List.isSuffixOf_iff_suffix
  unfold judged
  split
  · next misjudged =>
    have other : namesOwner path = false := Bool.eq_false_iff.2 (mt named.1 misjudged.2.2)
    rw [other]
  · next right =>
    have owner : namesOwner path = true :=
      named.2 (Classical.not_not.1 fun other => right ⟨rfl, filled, other⟩)
    rw [owner]

theorem moduleWithin_top (bare : bareName d.name = d.name) :
    moduleWithin v [] d = v.module ++ [d.name] := by
  show v.module ++ [bareName d.name] = v.module ++ [d.name]
  rw [bare]

/-- The walk goes where an attribute leads, and judges the file by its name. -/
theorem resolve_of_set {path : String} (bare : bareName d.name = d.name)
    (hpath : d.path? = some path) (placed : c.PlacedAt v [] d place) :
    c.resolve (judged v) d = .ok (judged place) := by
  rw [resolve_eq_ok_iff]
  left
  refine ⟨path, hpath, ?_⟩
  cases placed with
  | set hset =>
    obtain rfl := Option.some.inj (hpath.symm.trans hset)
    rw [judged_file, judged_module, moduleWithin_top bare, judged_set (by simp)]
    rfl
  | flat unset _ _ | nested unset _ _ =>
    rw [hpath] at unset
    cases unset

/-- Of the two files that a module may be in without an attribute, the walk takes the first; there
is no other one if the place is the only one. -/
theorem resolve_of_unset (bare : bareName d.name = d.name) (unset : d.path? = none)
    (placed : c.PlacedAt v [] d place)
    (only : ∀ other, c.PlacedAt v [] d other → other = place) :
    c.resolve v d = .ok place := by
  rw [resolve_eq_ok_iff]
  right
  refine ⟨unset, ?_⟩
  cases placed with
  | set hset =>
    rw [unset] at hset
    cases hset
  | flat _ hfile isFile =>
    subst hfile
    rw [moduleWithin_top bare]
    rw [bare] at isFile ⊢
    exact List.find?_cons_of_pos isFile
  | nested _ hfile isFile =>
    -- If the first file were there too, the module would have two places.
    have absent : ¬c.files.isFile (PathText.join (childDirectory v)
        (d.name ++ ".rs").toList) = true := by
      intro there
      rw [← bare] at there
      have first := only _ (.flat unset rfl there)
      cases congrArg Visit.ownsDirectory first
    subst hfile
    rw [moduleWithin_top bare]
    rw [bare] at isFile ⊢
    refine Eq.trans (List.find?_cons_of_neg ?_) ?_
    · exact absent
    · exact List.find?_cons_of_pos isFile

/-- The walk goes where the language looks, if the declaration is followed. -/
theorem resolve_judged (accepted : c.Accepted) {contents : String} {outline : Outline}
    {around : List Declaration} (compiles : c.Compiles v)
    (opens : c.Opens v.file contents outline) (declares : Declares outline.nodes around d)
    (followed : Followed v around d) (placed : c.PlacedAt v around d place) :
    c.resolve (judged v) d = .ok (judged place) := by
  obtain rfl := followed.top
  cases hpath : d.path? with
  | some path => exact resolve_of_set followed.bare hpath placed
  | none =>
    obtain ⟨first, -, unique⟩ := accepted.placed compiles opens declares
    have only : ∀ other, c.PlacedAt v [] d other → other = place := fun other hother =>
      (unique other hother).trans (unique place placed).symm
    rw [judged, if_neg (followed.owner hpath), judged_of_unset placed hpath]
    exact resolve_of_unset followed.bare hpath placed only

/-- The walk reaches the modules in the open. -/
theorem InTheOpen.reached (accepted : c.Accepted) (h : c.InTheOpen place) :
    Relation.ReflTransGen c.Leads c.rootVisit (judged place) := by
  induction h with
  | root =>
    rw [judged_rootVisit]
  | @declared v place contents outline around d before opens declares followed placed ih =>
    have resolved : c.resolve (judged v) d = .ok (judged place) :=
      resolve_judged accepted before.compiles opens declares followed placed
    obtain rfl := followed.top
    have opens' : c.Opens (judged v).file contents outline := by rwa [judged_file]
    exact ih.tail ⟨contents, outline, d, opens', declares, resolved⟩

theorem sourceAt_judged {s : Source} : c.SourceAt (judged place) s ↔ c.SourceAt place s := by
  unfold SourceAt
  rw [judged_file, judged_module]

/-- What is declared at the top of a file is a module of the module of the file. -/
theorem Leads.module_eq {next : Visit} (h : c.Leads v next) :
    ∃ contents outline d, c.Opens v.file contents outline ∧ Declares outline.nodes [] d ∧
      next.module = v.module ++ [d.name] := by
  obtain ⟨contents, outline, d, opens, declares, resolved⟩ := h
  refine ⟨contents, outline, d, opens, declares, ?_⟩
  rcases resolve_eq_ok_iff.1 resolved with ⟨path, -, rfl⟩ | ⟨-, found⟩
  · rfl
  · have among : next ∈ places v d.name := List.mem_of_find?_eq_some found
    simp only [places, List.mem_cons, List.not_mem_nil, or_false] at among
    rcases among with rfl | rfl <;> rfl

theorem Plain.inTheOpen (plain : c.Plain) (h : c.Compiles place) : c.InTheOpen place := by
  induction h with
  | root => exact .root
  | @declared v place compiles declared ih =>
    obtain ⟨contents, outline, around, d, opens, declares, placed⟩ := declared
    exact .declared ih opens declares (plain v contents outline around d compiles opens declares)
      placed

section Plain

variable (accepted : c.Accepted) (plain : c.Plain)
include accepted plain

/-- From a module, the walk goes to the modules that its file declares. -/
theorem Plain.leads (compiles : c.Compiles v) {next : Visit} (h : c.Leads (judged v) next) :
    ∃ place, c.HasModule v place ∧ judged place = next := by
  obtain ⟨contents, outline, d, opens, declares, resolved⟩ := h
  rw [judged_file] at opens
  obtain ⟨place, placed, -⟩ := accepted.placed compiles opens declares
  have followed := plain v contents outline [] d compiles opens declares
  have same := resolve_judged accepted compiles opens declares followed placed
  exact ⟨place, ⟨contents, outline, [], d, opens, declares, placed⟩,
    Except.ok.inj (same.symm.trans resolved)⟩

theorem Plain.reached (h : Relation.ReflTransGen c.Leads c.rootVisit v) :
    ∃ place, c.Compiles place ∧ judged place = v := by
  induction h with
  | refl => exact ⟨c.rootVisit, .root, judged_rootVisit c⟩
  | tail _ step ih =>
    obtain ⟨place, compiles, rfl⟩ := ih
    obtain ⟨next, declared, rfl⟩ := Plain.leads accepted plain compiles step
    exact ⟨next, .declared compiles declared, rfl⟩

theorem Plain.shallow {depth : Nat} (compiles : c.Compiles v)
    (h : Shallow c.HasModule depth v) : Shallow c.Leads depth (judged v) := by
  induction depth generalizing v with
  | zero => exact h
  | succ depth ih =>
    intro next step
    obtain ⟨place, declared, rfl⟩ := Plain.leads accepted plain compiles step
    exact ih (.declared compiles declared) (h place declared)

/-- The walk of a crate all of whose declarations are followed finds something. -/
theorem Plain.exists_visit {depth : Nat} (h : Shallow c.HasModule depth c.rootVisit) :
    ∃ found, c.visit depth c.rootVisit = some (.ok found) := by
  have shallow := Plain.shallow accepted plain .root h
  rw [judged_rootVisit] at shallow
  refine Crate.exists_visit shallow (fun v reached => ?_)
    fun v contents outline d reached opens declares => ?_
  · obtain ⟨place, compiles, rfl⟩ := Plain.reached accepted plain reached
    rw [judged_file]
    exact accepted.opens compiles
  · obtain ⟨place, compiles, rfl⟩ := Plain.reached accepted plain reached
    rw [judged_file] at opens
    obtain ⟨next, placed, -⟩ := accepted.placed compiles opens declares
    have followed := plain place contents outline [] d compiles opens declares
    exact ⟨judged next, resolve_judged accepted compiles opens declares followed placed⟩

end Plain

end Crate

/-! ## What is checked -/

/-- A source that is in a layer is checked when all are. -/
theorem checkAll_eq_ok {parse : Parser} {sources : List Source}
    {results : List (String × List Violation)} (h : checkAll parse sources = .ok results)
    {s : Source} (hs : s ∈ sources) {layer : Layer} (hlayer : s.layer? = some layer) :
    ∃ violations, checkSource parse layer s = .ok violations ∧
      (s.module.text, violations) ∈ results := by
  induction sources generalizing results with
  | nil => exact absurd hs List.not_mem_nil
  | cons first rest ih =>
    rw [checkAll] at h
    cases hfirst : first.layer? with
    | none =>
      simp only [hfirst] at h
      rcases List.mem_cons.1 hs with rfl | later
      · rw [hfirst] at hlayer
        cases hlayer
      · exact ih h later
    | some own =>
      simp only [hfirst] at h
      cases hcheck : checkSource parse own first with
      | error e =>
        rw [hcheck] at h
        cases h
      | ok violations =>
        cases hothers : checkAll parse rest with
        | error e =>
          rw [hcheck, hothers] at h
          cases h
        | ok others =>
          rw [hcheck, hothers] at h
          obtain rfl : (first.module.text, violations) :: others = results := Except.ok.inj h
          rcases List.mem_cons.1 hs with rfl | later
          · obtain rfl := Option.some.inj (hfirst.symm.trans hlayer)
            exact ⟨violations, hcheck, List.mem_cons_self⟩
          · obtain ⟨violations', checked, inside⟩ := ih hothers later
            exact ⟨violations', checked, List.mem_cons_of_mem _ inside⟩

theorem messages_eq_nil_iff {layer : Layer} {module : ModulePath} {paths : List Segments} :
    messages layer module paths = [] ↔ ∀ p ∈ paths, objection? layer module p = none := by
  unfold messages
  rw [← List.filterMap_eq_nil_iff, List.eq_nil_iff_forall_not_mem]
  simp only [mem_ascending, ← List.eq_nil_iff_forall_not_mem, List.map_eq_nil_iff]

/-- If the sources pass, each one in a layer is among the checked ones, and nothing is wrong with
its paths. -/
theorem lintSources_eq_ok {parse : Parser} {sources : List Source} {checked : List String}
    (h : lintSources parse sources = .ok checked) {s : Source} (hs : s ∈ sources) {layer : Layer}
    (hlayer : s.layer? = some layer) :
    s.module.text ∈ checked ∧ ∃ outline, parse s.contents = .ok outline ∧
      ∀ p ∈ outline.paths, objection? layer s.module p = none := by
  unfold lintSources at h
  cases hall : checkAll parse sources with
  | error e =>
    rw [hall] at h
    cases h
  | ok results =>
    rw [hall] at h
    obtain ⟨violations, hcheck, inside⟩ := checkAll_eq_ok hall hs hlayer
    cases hnone : results.flatMap Prod.snd with
    | cons first more =>
      simp only [bind, Except.bind, hnone] at h
      cases h
    | nil =>
      simp only [bind, Except.bind, hnone] at h
      obtain rfl : results.map Prod.fst = checked := Except.ok.inj h
      refine ⟨List.mem_map.2 ⟨_, inside, rfl⟩, ?_⟩
      obtain rfl : violations = [] := List.flatMap_eq_nil_iff.1 hnone _ inside
      unfold checkSource at hcheck
      cases hparse : parse s.contents with
      | error detail =>
        rw [hparse] at hcheck
        cases hcheck
      | ok outline =>
        rw [hparse] at hcheck
        have silent := List.map_eq_nil_iff.1 (Except.ok.inj hcheck)
        exact ⟨outline, rfl, messages_eq_nil_iff.1 silent⟩

/-- **What is found and checked of a crate that the language accepts.** A walk that ends has found
all modules in the open, and besides the root only what is declared at the top of a file that it has
found: a module that is declared within modules in place alone is never among it.  If the check
passes, the modules in the open that are in a layer have been checked, and nothing is wrong with
them.  If all declarations are followed and chains of modules are not too long, the walk finds
exactly what is compiled. -/
theorem coverage (files : Files) (parse : Parser) (directory : List Char)
    (accepted : Crate.Accepted ⟨files, parse, PathText.join directory "src".toList⟩) :
    let c : Crate := ⟨files, parse, PathText.join directory "src".toList⟩
    (∀ found, c.discover = some (.ok found) →
      (∀ place, c.InTheOpen place → ∃ s ∈ found, c.SourceAt place s) ∧
      ∀ s ∈ found, c.SourceAt c.rootVisit s ∨ ∃ parent ∈ found, ∃ outline d,
        parse parent.contents = .ok outline ∧ Declares outline.nodes [] d ∧
          s.module = parent.module ++ [d.name]) ∧
    (∀ checked, lintBelow files parse directory = some (.ok checked) →
      ∀ place layer, c.InTheOpen place → place.module.head?.bind Layer.ofName? = some layer →
        place.module.text ∈ checked ∧ ∃ contents outline, c.Opens place.file contents outline ∧
          ∀ p ∈ outline.paths, objection? layer place.module p = none) ∧
    (c.Plain → Shallow c.HasModule Crate.deepest c.rootVisit →
      ∃ found, c.discover = some (.ok found) ∧
        ∀ s, s ∈ found ↔ ∃ place, c.Compiles place ∧ c.SourceAt place s) := by
  intro c
  have open_found : ∀ found, c.discover = some (.ok found) → ∀ place, c.InTheOpen place →
      ∃ s ∈ found, c.SourceAt place s := by
    intro found hfound place isOpen
    obtain ⟨contents, outline, opens⟩ := accepted.opens isOpen.compiles
    have source : c.SourceAt place ⟨place.module, c.shown place.file, contents⟩ :=
      ⟨contents, outline, opens, rfl⟩
    exact ⟨_, (Crate.mem_visit_iff hfound).2
      ⟨_, isOpen.reached accepted, Crate.sourceAt_judged.2 source⟩, source⟩
  refine ⟨fun found hfound => ⟨open_found found hfound, ?_⟩, ?_, ?_⟩
  · intro s hs
    obtain ⟨place, reached, source⟩ := (Crate.mem_visit_iff hfound).1 hs
    rcases reached.cases_tail with rfl | ⟨parent, before, step⟩
    · exact .inl source
    · right
      obtain ⟨contents, outline, d, opens, declares, hmodule⟩ := step.module_eq
      have parentFound : (⟨parent.module, c.shown parent.file, contents⟩ : Source) ∈ found :=
        (Crate.mem_visit_iff hfound).2 ⟨parent, before, contents, outline, opens, rfl⟩
      obtain ⟨text, tree, -, rfl⟩ := source
      exact ⟨_, parentFound, outline, d, opens.2, declares, hmodule⟩
  · intro checked hchecked place layer isOpen hlayer
    obtain ⟨walked, hwalked, passed⟩ := Option.map_eq_some_iff.1 hchecked
    cases walked with
    | error e => cases passed
    | ok found =>
      obtain ⟨s, hs, contents, outline, opens, rfl⟩ := open_found found hwalked place isOpen
      obtain ⟨named, outline', parsed, silent⟩ := lintSources_eq_ok passed hs hlayer
      obtain rfl : outline = outline' := Except.ok.inj (opens.2.symm.trans parsed)
      exact ⟨named, contents, outline, opens, silent⟩
  · intro plain shallow
    obtain ⟨found, hfound⟩ : ∃ found, c.discover = some (.ok found) :=
      Crate.Plain.exists_visit accepted plain shallow
    refine ⟨found, hfound, fun s => ⟨fun hs => ?_, ?_⟩⟩
    · obtain ⟨v, reached, source⟩ := (Crate.mem_visit_iff hfound).1 hs
      obtain ⟨place, compiles, rfl⟩ := Crate.Plain.reached accepted plain reached
      exact ⟨place, compiles, Crate.sourceAt_judged.1 source⟩
    · rintro ⟨place, compiles, source⟩
      exact (Crate.mem_visit_iff hfound).2 ⟨_, (plain.inTheOpen compiles).reached accepted,
        Crate.sourceAt_judged.2 source⟩

/-! ### Two crates -/

/-- A crate is accepted, and its modules are known, if a list of modules holds the root and all that
the files of its members declare, each at one place. -/
theorem Crate.accepted_of_closed {c : Crate} {known : List Visit} (root : c.rootVisit ∈ known)
    (opens : ∀ v ∈ known, ∃ contents outline, c.Opens v.file contents outline)
    (placed : ∀ v ∈ known, ∀ contents outline around d, c.Opens v.file contents outline →
      Declares outline.nodes around d → ∃ only ∈ known, c.PlacedAt v around d only ∧
        ∀ other, c.PlacedAt v around d other → other = only) :
    c.Accepted ∧ ∀ v, c.Compiles v → v ∈ known := by
  have inside : ∀ v, c.Compiles v → v ∈ known := by
    intro v compiles
    induction compiles with
    | root => exact root
    | declared _ declared ih =>
      obtain ⟨contents, outline, around, d, own, declares, place⟩ := declared
      obtain ⟨only, among, -, unique⟩ := placed _ ih contents outline around d own declares
      rw [unique _ place]
      exact among
  refine ⟨⟨fun compiles => opens _ (inside _ compiles), fun compiles own declares => ?_⟩, inside⟩
  obtain ⟨only, -, place, unique⟩ := placed _ (inside _ compiles) _ _ _ _ own declares
  exact ⟨only, place, unique⟩

/-- Where a module is placed if there is no directory of its name. -/
theorem Crate.PlacedAt.eq_flat {c : Crate} {v place : Visit} {around : List Declaration}
    {d : Declaration} (placed : c.PlacedAt v around d place) (unset : d.path? = none)
    (absent : c.files.isFile (PathText.join (PathText.join (Crate.basesWithin v around).named
      (bareName d.name).toList) "mod.rs".toList) = false) :
    place = ⟨PathText.join (Crate.basesWithin v around).named (bareName d.name ++ ".rs").toList,
      Crate.moduleWithin v around d, false⟩ := by
  cases placed with
  | set hset =>
    rw [hset] at unset
    cases unset
  | flat _ hfile _ => rw [hfile]
  | nested _ hfile isFile =>
    subst hfile
    rw [absent] at isFile
    cases isFile

/-- Files with their texts and outlines. -/
abbrev SourceTable := List (String × String × Outline)

def SourceTable.files (table : SourceTable) : Files where
  read path :=
    match table.find? fun source => source.1.toList = path with
    | some source => .ok source.2.1
    | none => .error .notFound
  isFile path := table.any fun source => source.1.toList = path

def SourceTable.parser (table : SourceTable) : Parser := fun text =>
  match table.find? fun source => source.2.1 = text with
  | some source => .ok source.2.2
  | none => .error "unexpected token"

/-- The crate of a table whose root file is that of the service. -/
def SourceTable.crate (table : SourceTable) : Crate :=
  ⟨table.files, table.parser, "backend/src".toList⟩

/-- A crate whose modules are all declared at the top of a file. -/
def plainTable : SourceTable :=
  [("backend/src/lib.rs", "mod inbound;", ⟨[.item (.module "inbound" false) [] []]⟩),
    ("backend/src/inbound.rs", "", ⟨[]⟩)]

/-- A crate with one more module, which is declared within a module in place and breaks a rule of
its layer. -/
def sightlessTable : SourceTable :=
  [("backend/src/lib.rs", "mod inbound; mod domain \x7b mod account; \x7d",
      ⟨[.item (.module "inbound" false) [] [],
        .item (.module "domain" true) [] [.item (.module "account" false) [] []]]⟩),
    ("backend/src/inbound.rs", "", ⟨[]⟩),
    ("backend/src/domain/account.rs", "use diesel::PgConnection;",
      ⟨[.item .imports [] [.use (.under "diesel" (.name "PgConnection"))]]⟩)]

def rootPlace : Visit := ⟨"backend/src/lib.rs".toList, [], true⟩

def inboundPlace : Visit := ⟨"backend/src/inbound.rs".toList, ["inbound"], false⟩

def accountPlace : Visit := ⟨"backend/src/domain/account.rs".toList, ["domain", "account"], false⟩

/-- A file without items declares nothing. -/
theorem not_declares_nil {around : List Declaration} {d : Declaration} : ¬Declares [] around d := by
  intro h
  cases h with
  | here inside _ | within inside _ _ => exact absurd inside List.not_mem_nil

/-- An item that declares a module in another file declares only that. -/
theorem declares_module_cons {name : String} {rest : List Node} {around : List Declaration}
    {d : Declaration} (h : Declares (.item (.module name false) [] [] :: rest) around d) :
    around = [] ∧ d = ⟨name, []⟩ ∨ Declares rest around d := by
  cases h with
  | here inside test =>
    rcases List.mem_cons.1 inside with own | later
    · simp only [Node.item.injEq, ItemKind.module.injEq, and_true] at own
      obtain ⟨rfl, rfl, -⟩ := own
      exact .inl ⟨rfl, rfl⟩
    · exact .inr (.here later test)
  | within inside test deeper =>
    rcases List.mem_cons.1 inside with own | later
    · simp at own
    · exact .inr (.within later test deeper)

/-- What the modules in place declare is declared within them. -/
theorem declares_inPlace {name : String} {body : List Node} {around : List Declaration}
    {d : Declaration} (h : Declares [.item (.module name true) [] body] around d) :
    ∃ deeper, around = ⟨name, []⟩ :: deeper ∧ Declares body deeper d := by
  cases h with
  | here inside _ => simp at inside
  | within inside _ deeper =>
    simp only [List.mem_cons, Node.item.injEq, ItemKind.module.injEq, and_true, List.not_mem_nil,
      or_false] at inside
    obtain ⟨rfl, rfl, rfl⟩ := inside
    exact ⟨_, rfl, deeper⟩

theorem plainTable_declares {v : Visit} {contents : String} {outline : Outline}
    {around : List Declaration} {d : Declaration} (known : v ∈ [rootPlace, inboundPlace])
    (opens : plainTable.crate.Opens v.file contents outline)
    (declares : Declares outline.nodes around d) :
    v = rootPlace ∧ around = [] ∧ d = ⟨"inbound", []⟩ := by
  obtain ⟨hread, hparse⟩ := opens
  rcases List.mem_cons.1 known with rfl | known
  · obtain rfl := Except.ok.inj hread
    obtain rfl := Except.ok.inj hparse
    rcases declares_module_cons declares with ⟨rfl, rfl⟩ | none
    · exact ⟨rfl, rfl, rfl⟩
    · exact absurd none not_declares_nil
  · obtain rfl := List.mem_singleton.1 known
    obtain rfl := Except.ok.inj hread
    obtain rfl := Except.ok.inj hparse
    exact absurd declares not_declares_nil

theorem plainTable_closed : plainTable.crate.Accepted ∧
    ∀ v, plainTable.crate.Compiles v → v ∈ [rootPlace, inboundPlace] := by
  refine Crate.accepted_of_closed (.head _) ?_ ?_
  · intro v known
    rcases List.mem_cons.1 known with rfl | known
    · exact ⟨_, _, rfl, rfl⟩
    · obtain rfl := List.mem_singleton.1 known
      exact ⟨_, _, rfl, rfl⟩
  · intro v known contents outline around d opens declares
    obtain ⟨rfl, rfl, rfl⟩ := plainTable_declares known opens declares
    exact ⟨inboundPlace, .tail _ (.head _), .flat rfl rfl rfl,
      fun place placed => placed.eq_flat rfl rfl⟩

theorem sightlessTable_accepted : sightlessTable.crate.Accepted := by
  suffices closed : sightlessTable.crate.Accepted ∧
      ∀ v, sightlessTable.crate.Compiles v → v ∈ [rootPlace, inboundPlace, accountPlace] from
    closed.1
  refine Crate.accepted_of_closed (.head _) ?_ ?_
  · intro v known
    simp only [List.mem_cons, List.not_mem_nil, or_false] at known
    rcases known with rfl | rfl | rfl
    · exact ⟨_, _, rfl, rfl⟩
    · exact ⟨_, _, rfl, rfl⟩
    · exact ⟨_, _, rfl, rfl⟩
  · rintro v known contents outline around d ⟨hread, hparse⟩ declares
    simp only [List.mem_cons, List.not_mem_nil, or_false] at known
    rcases known with rfl | rfl | rfl
    · obtain rfl := Except.ok.inj hread
      obtain rfl := Except.ok.inj hparse
      rcases declares_module_cons declares with ⟨rfl, rfl⟩ | inPlace
      · exact ⟨inboundPlace, .tail _ (.head _), .flat rfl rfl rfl,
          fun place placed => placed.eq_flat rfl rfl⟩
      · obtain ⟨deeper, rfl, inside⟩ := declares_inPlace inPlace
        rcases declares_module_cons inside with ⟨rfl, rfl⟩ | none
        · exact ⟨accountPlace, .tail _ (.tail _ (.head _)), .flat rfl rfl rfl,
            fun place placed => placed.eq_flat rfl rfl⟩
        · exact absurd none not_declares_nil
    · obtain rfl := Except.ok.inj hread
      obtain rfl := Except.ok.inj hparse
      exact absurd declares not_declares_nil
    · obtain rfl := Except.ok.inj hread
      obtain rfl := Except.ok.inj hparse
      cases declares with
      | here inside _ | within inside _ _ => simp at inside

/-- Of the plain crate exactly its two modules are found.  The check of the other one passes as
well, though the language compiles a module of it that breaks a rule of its layer. -/
theorem coverage_tables :
    (∃ found, plainTable.crate.discover = some (.ok found) ∧
      ∀ s, s ∈ found ↔ ∃ place, plainTable.crate.Compiles place ∧
        plainTable.crate.SourceAt place s) ∧
    sightlessTable.crate.Compiles accountPlace ∧
    objection? .domain accountPlace.module ["diesel", "PgConnection"] =
      some (.external "diesel") ∧
    lintBelow sightlessTable.files sightlessTable.parser "backend".toList =
      some (.ok ["inbound"]) ∧
    ∃ contents outline, sightlessTable.crate.Opens inboundPlace.file contents outline ∧
      ∀ p ∈ outline.paths, objection? .inbound inboundPlace.module p = none := by
  obtain ⟨accepted, known⟩ := plainTable_closed
  have plain : plainTable.crate.Plain := by
    intro v contents outline around d compiles opens declares
    obtain ⟨rfl, rfl, rfl⟩ := plainTable_declares (known v compiles) opens declares
    exact ⟨rfl, rfl, fun _ misjudged => misjudged.2.1 rfl⟩
  have shallow : Shallow plainTable.crate.HasModule (9998 + 2) rootPlace := by
    rintro place ⟨contents, outline, around, d, opens, declares, placed⟩
    obtain ⟨-, rfl, rfl⟩ := plainTable_declares (.head _) opens declares
    obtain rfl : place = inboundPlace := placed.eq_flat rfl rfl
    rintro next ⟨text, tree, around, d, opens, declares, -⟩
    have same := (plainTable_declares (.tail _ (.head _)) opens declares).1
    exact absurd same (by decide)
  have hidden : Declares [.item (.module "inbound" false) [] [],
      .item (.module "domain" true) [] [.item (.module "account" false) [] []]]
      [⟨"domain", []⟩] ⟨"account", []⟩ :=
    .within (.tail _ (.head _)) (by decide) (.here (.head _) (by decide))
  have compiles : sightlessTable.crate.Compiles accountPlace :=
    .declared .root ⟨_, _, _, _, ⟨rfl, rfl⟩, hidden, .flat rfl rfl rfl⟩
  have isOpen : sightlessTable.crate.InTheOpen inboundPlace :=
    .declared .root ⟨rfl, rfl⟩ (.here (.head _) (by decide))
      ⟨rfl, rfl, fun _ misjudged => misjudged.2.1 rfl⟩ (.flat rfl rfl rfl)
  have passes : lintBelow sightlessTable.files sightlessTable.parser "backend".toList =
      some (.ok ["inbound"]) := rfl
  obtain ⟨-, -, finds⟩ := coverage plainTable.files plainTable.parser "backend".toList accepted
  obtain ⟨-, checked, -⟩ := coverage sightlessTable.files sightlessTable.parser "backend".toList
    sightlessTable_accepted
  exact ⟨finds plain shallow, compiles, by decide, passes,
    (checked _ passes inboundPlace .inbound isOpen rfl).2⟩

end CoinLedger.Layering
