import CoinLedger.Proofs.Layering.Coverage
import CoinLedger.Proofs.Layering.Directories
import CoinLedger.Proofs.Text.Utf8
import Mathlib.Data.Set.Finite.List
import Mathlib.Order.Preorder.Finite
import Mathlib.Order.WellFounded

/-!
# When a walk ends

From the file of a module a walk goes on to the place of a declared module once everything declared
before it has been found (`Crate.Enters`).  How it goes on from there does not depend on the module
that the file is visited as, but only on the path of the file and on whether the file owns its
directory (`Visit.spot`).  So a walk that comes back to a spot that it is still visiting goes round
for ever.

The path of a file has a greatest length, so there are only finitely many spots, and a walk that
does not end comes back to one of them.  Without attributes each step leads to a deeper directory,
and no walk comes back.

## Main definitions

* `Crate.Ends`, `Crate.Enters` — walks that end, and the steps that they take down.
* `Visit.spot` — what decides how a walk goes on.

## Main results

* `Crate.not_ends_of_loop`, `Crate.exists_loop` — a walk does not end exactly if it goes round.
* `walk_ends_iff` — when the walk from the root file ends.
-/

namespace CoinLedger.Layering

open Relation

/-- What decides how a walk goes on from a place: the path of the file, and whether the file owns
its directory. -/
def Visit.spot (v : Visit) : List Char × Bool := (v.file, v.ownsDirectory)

namespace Crate

/-- A walk from a place ends, in one way or the other. -/
def Ends (c : Crate) (v : Visit) : Prop := ∃ depth, (c.visit depth v).isSome

/-- A walk from a place ends and meets no error. -/
def Finds (c : Crate) (v : Visit) : Prop := ∃ depth found, c.visit depth v = some (.ok found)

/-- While it visits a file, a walk follows a declaration to a place: all modules declared before it
have been found. -/
def Follows (c : Crate) (d : Declaration) (v next : Visit) : Prop :=
  ∃ contents outline before after, c.Opens v.file contents outline ∧
    outline.declarations = before ++ d :: after ∧
    (∀ earlier ∈ before, ∃ place, c.resolve v earlier = .ok place ∧ c.Finds place) ∧
    c.resolve v d = .ok next

/-- While it visits a file, a walk goes on to a place. -/
def Enters (c : Crate) (v next : Visit) : Prop := ∃ d, c.Follows d v next

variable {c : Crate} {v w next : Visit} {depth depth' : Nat} {walked walked' : Walked}

/-! ## Depths -/

theorem visit_of_le (h : c.visit depth v = some walked) (le : depth ≤ depth') :
    c.visit depth' v = some walked := by
  induction le with
  | refl => exact h
  | step _ ih => exact visit_succ ih

theorem visitAll_of_le {find : Declaration → Except LintError Visit} {ds : List Declaration}
    (h : visitAll (c.visit depth) find ds = some walked) (le : depth ≤ depth') :
    visitAll (c.visit depth') find ds = some walked :=
  visitAll_mono (fun _ _ visited => visit_of_le visited le) h

/-- All depths that suffice come to the same. -/
theorem visit_unique (h : c.visit depth v = some walked) (h' : c.visit depth' v = some walked') :
    walked = walked' := by
  have deep := visit_of_le h (Nat.le_max_left depth depth')
  have deep' := visit_of_le h' (Nat.le_max_right depth depth')
  exact Option.some.inj (deep.symm.trans deep')

/-! ## Steps down -/

/-- If the visits of some modules end and those of all before one of them find something, the visit
of that one ends. -/
theorem isSome_of_visitAll {follow : Visit → Option Walked}
    {find : Declaration → Except LintError Visit} {before after : List Declaration}
    {d : Declaration}
    (found : ∀ earlier ∈ before, ∃ place, find earlier = .ok place ∧
      ∀ walked, follow place = some walked → ∃ sources, walked = .ok sources)
    (step : find d = .ok next) (ends : (visitAll follow find (before ++ d :: after)).isSome) :
    (follow next).isSome := by
  induction before with
  | nil =>
    rw [List.nil_append, visitAll, step] at ends
    cases hnext : follow next with
    | none =>
      simp only [hnext] at ends
      cases ends
    | some walked => rfl
  | cons first rest ih =>
    obtain ⟨place, hplace, ok⟩ := found first List.mem_cons_self
    rw [List.cons_append, visitAll, hplace] at ends
    cases hfirst : follow place with
    | none =>
      simp only [hfirst] at ends
      cases ends
    | some walked =>
      obtain ⟨sources, rfl⟩ := ok walked hfirst
      simp only [hfirst, Option.isSome_map] at ends
      exact ih (fun earlier later => found earlier (List.mem_cons_of_mem _ later)) ends

/-- A walk that ends within a depth ends, from the places that it goes on to, within less. -/
theorem Enters.visit (enters : c.Enters v next) (ends : (c.visit depth v).isSome) :
    ∃ less < depth, (c.visit less next).isSome := by
  obtain ⟨less, rfl⟩ : ∃ less, depth = less + 1 := by
    refine Nat.exists_eq_succ_of_ne_zero ?_
    rintro rfl
    cases ends
  refine ⟨less, Nat.lt_succ_self less, ?_⟩
  obtain ⟨d, contents, outline, before, after, opens, parts, found, step⟩ := enters
  have opened : c.openFile v.file = .ok (contents, outline.declarations) :=
    openFile_eq_ok_iff.2 ⟨outline, opens, rfl⟩
  rw [Crate.visit, opened, parts] at ends
  simp only [Option.isSome_map] at ends
  refine isSome_of_visitAll (fun earlier among => ?_) step ends
  obtain ⟨place, hplace, depth', sources, hsources⟩ := found earlier among
  exact ⟨place, hplace, fun walked hwalked => ⟨sources, visit_unique hwalked hsources⟩⟩

/-- Of declarations that are followed one after the other, each that is come to leads to a place
from which the walk ends. -/
def EndInTurn (c : Crate) (find : Declaration → Except LintError Visit)
    (ds : List Declaration) : Prop :=
  ∀ before d after next, ds = before ++ d :: after →
    (∀ earlier ∈ before, ∃ place, find earlier = .ok place ∧ c.Finds place) →
    find d = .ok next → c.Ends next

variable {find : Declaration → Except LintError Visit} {d : Declaration} {rest : List Declaration}

theorem EndInTurn.head (turn : c.EndInTurn find (d :: rest)) (step : find d = .ok next) :
    c.Ends next :=
  turn [] d rest next rfl (fun _ among => absurd among List.not_mem_nil) step

theorem EndInTurn.tail (turn : c.EndInTurn find (d :: rest)) (step : find d = .ok next)
    (found : c.Finds next) : c.EndInTurn find rest := by
  intro before d' after next' parts earlier step'
  refine turn (d :: before) d' after next' (by rw [parts, List.cons_append]) ?_ step'
  exact List.forall_mem_cons.2 ⟨⟨next, step, found⟩, earlier⟩

/-- Visits one after the other end if each ends that is come to. -/
theorem EndInTurn.visitAll {ds : List Declaration} (turn : c.EndInTurn find ds) :
    ∃ depth, (Crate.visitAll (c.visit depth) find ds).isSome := by
  induction ds with
  | nil => exact ⟨0, rfl⟩
  | cons d rest ih =>
    cases step : find d with
    | error e =>
      refine ⟨0, ?_⟩
      rw [Crate.visitAll, step]
      rfl
    | ok next =>
      obtain ⟨depth, hdepth⟩ := turn.head step
      obtain ⟨walked, hwalked⟩ := Option.isSome_iff_exists.1 hdepth
      cases walked with
      | error e =>
        refine ⟨depth, ?_⟩
        rw [Crate.visitAll, step]
        simp only [hwalked]
        rfl
      | ok sources =>
        obtain ⟨depth', others⟩ := ih (turn.tail step ⟨depth, sources, hwalked⟩)
        obtain ⟨walked', hothers⟩ := Option.isSome_iff_exists.1 others
        -- The greater depth suffices for both.
        have first := visit_of_le hwalked (Nat.le_max_left depth depth')
        have later := visitAll_of_le hothers (Nat.le_max_right depth depth')
        refine ⟨max depth depth', ?_⟩
        rw [Crate.visitAll, step]
        simp only [first, later]
        rfl

/-- A walk ends if it ends from all places that it goes on to. -/
theorem ends_of_entered (ends : ∀ next, c.Enters v next → c.Ends next) : c.Ends v := by
  cases hopen : c.openFile v.file with
  | error e =>
    refine ⟨1, ?_⟩
    rw [visit, hopen]
    rfl
  | ok opened =>
    obtain ⟨contents, declarations⟩ := opened
    obtain ⟨outline, opens, rfl⟩ := openFile_eq_ok_iff.1 hopen
    have visited : ∃ depth,
        (visitAll (c.visit depth) (c.resolve v) outline.declarations).isSome :=
      EndInTurn.visitAll fun before d after next parts found step =>
        ends next ⟨d, contents, outline, before, after, opens, parts, found, step⟩
    obtain ⟨depth, hdepth⟩ := visited
    refine ⟨depth + 1, ?_⟩
    rw [visit, hopen]
    simpa only [Option.isSome_map] using hdepth

/-! ## Going round -/

/-- Two walks end alike: neither ends, both meet an error, or both find something.  From one spot
they need not come to the same, for what they come to names the modules. -/
inductive EndAlike : Option Walked → Option Walked → Prop where
  | endless : EndAlike none none
  | error {e e' : LintError} : EndAlike (some (.error e)) (some (.error e'))
  | ok {found found' : List Source} : EndAlike (some (.ok found)) (some (.ok found'))

/-- Two declarations lead to one spot, or both lead nowhere. -/
inductive LeadAlike : Except LintError Visit → Except LintError Visit → Prop where
  | error {e e' : LintError} : LeadAlike (.error e) (.error e')
  | ok {place place' : Visit} : place.spot = place'.spot → LeadAlike (.ok place) (.ok place')

theorem EndAlike.map {x y : Option Walked} (alike : EndAlike x y)
    (add add' : List Source → List Source) :
    EndAlike (x.map (Except.map add)) (y.map (Except.map add')) := by
  cases alike with
  | endless => exact .endless
  | error => exact .error
  | ok => exact .ok

theorem EndAlike.isSome_eq {x y : Option Walked} (alike : EndAlike x y) : x.isSome = y.isSome := by
  cases alike <;> rfl

/-- Where a declaration leads depends on the spot that it is in. -/
theorem resolve_alike (same : v.spot = w.spot) (d : Declaration) :
    LeadAlike (c.resolve v d) (c.resolve w d) := by
  obtain ⟨file, module, owns⟩ := v
  obtain ⟨file', module', owns'⟩ := w
  obtain ⟨rfl, rfl⟩ := Prod.mk.inj same
  have child : childDirectory ⟨file, module, owns⟩ = childDirectory ⟨file, module', owns⟩ := rfl
  unfold resolve setPlace?
  cases d.attributes.findSome? Attribute.file? with
  | some path => exact .ok rfl
  | none =>
    simp only [Option.map_none, places, child, List.find?_cons, List.find?_nil]
    cases c.files.isFile (PathText.join (childDirectory ⟨file, module', owns⟩)
      (d.name ++ ".rs").toList) with
    | true => exact .ok rfl
    | false =>
      cases c.files.isFile (PathText.join (PathText.join (childDirectory ⟨file, module', owns⟩)
        d.name.toList) "mod.rs".toList) with
      | true => exact .ok rfl
      | false => exact .error

/-- Visits one after the other end alike if they are at the same spots. -/
theorem visitAll_alike {follow : Visit → Option Walked}
    {find find' : Declaration → Except LintError Visit}
    (follows : ∀ v w : Visit, v.spot = w.spot → EndAlike (follow v) (follow w))
    (finds : ∀ d, LeadAlike (find d) (find' d)) (ds : List Declaration) :
    EndAlike (visitAll follow find ds) (visitAll follow find' ds) := by
  induction ds with
  | nil => exact .ok
  | cons d rest ih =>
    have places := finds d
    rw [visitAll, visitAll]
    generalize find d = place at places ⊢
    generalize find' d = place' at places ⊢
    cases places with
    | error => exact .error
    | @ok next next' same =>
      have walks := follows next next' same
      simp only
      generalize follow next = walked at walks ⊢
      generalize follow next' = walked' at walks ⊢
      cases walks with
      | endless => exact .endless
      | error => exact .error
      | ok => exact ih.map _ _

/-- How a walk ends depends on the spot that it begins at. -/
theorem visit_alike (same : v.spot = w.spot) : EndAlike (c.visit depth v) (c.visit depth w) := by
  induction depth generalizing v w with
  | zero => exact .endless
  | succ depth ih =>
    have file : v.file = w.file := congrArg Prod.fst same
    rw [visit, visit, file]
    cases c.openFile w.file with
    | error e => exact .error
    | ok opened => exact (visitAll_alike (fun _ _ => ih) (resolve_alike same) opened.2).map _ _

/-- From further down a walk ends within less depth. -/
theorem exists_lt_of_entered (down : TransGen c.Enters v w) (ends : (c.visit depth v).isSome) :
    ∃ less < depth, (c.visit less w).isSome := by
  induction down with
  | single enters => exact enters.visit ends
  | tail _ enters ih =>
    obtain ⟨less, lt, above⟩ := ih
    obtain ⟨less', lt', below⟩ := enters.visit above
    exact ⟨less', lt'.trans lt, below⟩

/-- A walk that goes round does not end. -/
theorem not_ends_of_loop (down : TransGen c.Enters v w) (round : w.spot = v.spot) :
    ¬c.Ends v := by
  -- From where it comes back the walk would end within less depth, and so it would from the
  -- beginning.
  rintro ⟨depth, ends⟩
  induction depth using Nat.strong_induction_on with
  | _ depth ih =>
    obtain ⟨less, lt, again⟩ := exists_lt_of_entered down ends
    exact ih less lt ((visit_alike round).isSome_eq ▸ again)

theorem Ends.entered (ends : c.Ends v) (reached : ReflTransGen c.Enters v w) : c.Ends w := by
  rcases reflTransGen_iff_eq_or_transGen.1 reached with rfl | down
  · exact ends
  · obtain ⟨depth, within⟩ := ends
    obtain ⟨less, -, again⟩ := exists_lt_of_entered down within
    exact ⟨less, again⟩

/-- A walk that does not end goes down without end. -/
theorem exists_chain (endless : ¬c.Ends v) :
    ∃ f : Nat → Visit, f 0 = v ∧ ∀ n, c.Enters (f n) (f (n + 1)) := by
  refine not_acc_iff_exists_descending_chain (r := fun next v => c.Enters v next).1 ?_
  intro accessible
  refine endless ?_
  clear endless
  induction accessible with
  | intro v _ ih => exact ends_of_entered ih

end Crate

/-! ## Trees -/

/-- A path that can be read is not too long. -/
theorem FileTree.length_le_of_read {t : FileTree} {path : List Char} {text : String}
    (h : t.read path = .ok text) : path.length ≤ FileTree.longestPath := by
  by_contra long
  have bytes : FileTree.longestPath < FileTree.byteLength path :=
    (Nat.lt_of_not_le long).trans_le (Text.Utf8.length_le_encode path)
  have filled : path ≠ [] := by
    rintro rfl
    exact long (Nat.zero_le _)
  obtain ⟨cause, refused⟩ : ∃ cause, t.locate path = .error cause := by
    unfold FileTree.locate
    rw [if_neg filled, if_pos bytes]
    split <;> exact ⟨_, rfl⟩
  unfold FileTree.read at h
  rw [refused] at h
  cases h

/-- A file that holds the code of a text is read as that text. -/
theorem FileTree.read_of_locate {t : FileTree} {path : List Char} {text : String}
    (located : t.locate path = .ok (.file (Text.Utf8.encode text.toList))) :
    t.read path = .ok text := by
  rw [FileTree.read, located]
  simp only [Text.Utf8.decode?_encode, String.ofList_toList]

/-- There are only finitely many characters. -/
theorem finite_char : Finite Char := by
  refine Finite.of_injective (fun c : Char => (⟨c.val.toNat, c.val.toNat_lt⟩ : Fin _)) ?_
  intro a b same
  exact Char.ext (UInt32.toNat_inj.1 (congrArg Fin.val same))

/-- There are only finitely many spots with short paths. -/
theorem finite_spots (longest : Nat) :
    {spot : List Char × Bool | spot.1.length ≤ longest}.Finite := by
  have := finite_char
  have paths := List.finite_length_le Char longest
  have both : {spot : List Char × Bool | spot.1.length ≤ longest} =
      {path | path.length ≤ longest} ×ˢ Set.univ := by
    ext spot
    simp
  rw [both]
  exact paths.prod Set.finite_univ

/-- A walk in a tree that does not end goes round. -/
theorem Crate.exists_loop {t : FileTree} {parse : Parser} {directory : List Char} {v : Visit}
    (endless : ¬Crate.Ends ⟨t.files, parse, directory⟩ v) :
    let c : Crate := ⟨t.files, parse, directory⟩
    ∃ place again, ReflTransGen c.Enters v place ∧ TransGen c.Enters place again ∧
      again.spot = place.spot := by
  intro c
  obtain ⟨f, rfl, chain⟩ := exists_chain endless
  have short : ∀ n, (f n).spot ∈
      {spot : List Char × Bool | spot.1.length ≤ FileTree.longestPath} := by
    intro n
    obtain ⟨d, contents, outline, before, after, opens, -⟩ := chain n
    exact FileTree.length_le_of_read opens.1
  obtain ⟨m, n, lt, same⟩ := (finite_spots _).exists_lt_map_eq_of_forall_mem short
  refine ⟨f m, f n, ?_, ?_, same.symm⟩
  · exact Nat.rel_of_forall_rel_succ_of_le _ (fun n => .single (chain n)) (Nat.zero_le m)
  · exact Nat.rel_of_forall_rel_succ_of_lt _ (fun n => .single (chain n)) lt

/-! ## Steps without attributes -/

/-- A parser takes nothing but names for the names of modules. -/
def NamesModules (parse : Parser) : Prop :=
  ∀ text outline, parse text = .ok outline → ∀ d ∈ outline.declarations, IsName d.name

namespace Crate

variable {c : Crate} {v w next : Visit}

/-- While it visits a file, a walk goes on to the place of a module that no attribute sets a file
for. -/
def EntersUnset (c : Crate) (v next : Visit) : Prop := ∃ d, c.Follows d v next ∧ d.path? = none

theorem EntersUnset.deeper (names : NamesModules c.parse) (enters : c.EntersUnset v next) :
    (PathText.trimEnd (childDirectory v)).length <
      (PathText.trimEnd (childDirectory next)).length := by
  obtain ⟨d, ⟨contents, outline, before, after, opens, parts, -, step⟩, unset⟩ := enters
  have declared : d ∈ outline.declarations := by
    rw [parts]
    exact List.mem_append_right _ List.mem_cons_self
  exact deeper_of_unset (names _ _ opens.2 d declared) unset step

/-- Without attributes a walk does not go round. -/
theorem spot_ne_of_unset (names : NamesModules c.parse) (down : TransGen c.EntersUnset v w) :
    w.spot ≠ v.spot := by
  have deeper : (PathText.trimEnd (childDirectory v)).length <
      (PathText.trimEnd (childDirectory w)).length := by
    induction down with
    | single enters => exact enters.deeper names
    | tail _ enters ih => exact ih.trans (enters.deeper names)
  intro round
  obtain ⟨file, module, owns⟩ := v
  obtain ⟨file', module', owns'⟩ := w
  obtain ⟨rfl, rfl⟩ := Prod.mk.inj round
  exact Nat.lt_irrefl _ deeper

/-- A walk that follows no attribute goes down without attributes. -/
theorem entersUnset_of_entered
    (unset : ∀ place next d, ReflTransGen c.Enters v place → c.Follows d place next →
      d.path? = none)
    (down : TransGen c.Enters v w) : TransGen c.EntersUnset v w := by
  induction down with
  | single enters =>
    obtain ⟨d, follows⟩ := enters
    exact .single ⟨d, follows, unset _ _ d .refl follows⟩
  | tail above enters ih =>
    obtain ⟨d, follows⟩ := enters
    exact ih.tail ⟨d, follows, unset _ _ d above.to_reflTransGen follows⟩

end Crate

/-- **When a walk ends.**  The walk from the root file of a tree ends, with the modules that it
finds or the first error that it meets, exactly if it does not come back to a spot that it is still
visiting.  Along declarations without attributes it never does, if all modules have names; so it
ends if it follows no attribute. -/
theorem walk_ends_iff (t : FileTree) (parse : Parser) (directory : List Char) :
    let c : Crate := ⟨t.files, parse, directory⟩
    (c.Terminates ↔ ¬∃ place again, ReflTransGen c.Enters c.rootVisit place ∧
      TransGen c.Enters place again ∧ again.spot = place.spot) ∧
    (NamesModules parse →
      (∀ place again, TransGen c.EntersUnset place again → again.spot ≠ place.spot) ∧
      ((∀ place next d, ReflTransGen c.Enters c.rootVisit place → c.Follows d place next →
        d.path? = none) → c.Terminates)) := by
  intro c
  have ends_iff : c.Terminates ↔ ¬∃ place again, ReflTransGen c.Enters c.rootVisit place ∧
      TransGen c.Enters place again ∧ again.spot = place.spot := by
    constructor
    · rintro ends ⟨place, again, reached, down, round⟩
      exact Crate.not_ends_of_loop down round (Crate.Ends.entered ends reached)
    · intro never
      by_contra endless
      exact never (Crate.exists_loop endless)
  refine ⟨ends_iff, fun names => ⟨fun place again => Crate.spot_ne_of_unset names, ?_⟩⟩
  intro unset
  refine ends_iff.2 ?_
  rintro ⟨place, again, reached, down, round⟩
  have down' : TransGen c.EntersUnset place again := Crate.entersUnset_of_entered
    (fun place' next d further => unset place' next d (reached.trans further)) down
  exact Crate.spot_ne_of_unset names down' round

/-! ### Two crates of one file -/

/-- The path of the only file. -/
def soleFile : List Char := "backend/src/lib.rs".toList

/-- A tree that holds nothing but the root file of the service. -/
def soleTree (text : String) : FileTree where
  entries := [(["backend".toList, "src".toList, "lib.rs".toList],
    .file (Text.Utf8.encode text.toList))]

/-- A crate of one file with an outline. -/
def soleCrate (text : String) (outline : Outline) : Crate :=
  ⟨(soleTree text).files, SourceTable.parser [("backend/src/lib.rs", text, outline)],
    "backend/src".toList⟩

/-- The root file declares a module that is in the root file. -/
def roundOutline : Outline :=
  ⟨[.item (.module "again" false) [⟨some "path", .text "lib.rs"⟩] [.path ["path"]]]⟩

/-- The root file declares a module of its own name. -/
def namesakeOutline : Outline := ⟨[.item (.module "lib" false) [] []]⟩

theorem soleTree_read (text : String) : (soleTree text).read soleFile = .ok text :=
  FileTree.read_of_locate rfl

theorem soleCrate_parse_eq_ok_iff {text text' : String} {outline outline' : Outline} :
    (soleCrate text outline).parse text' = .ok outline' ↔ text = text' ∧ outline = outline' := by
  show SourceTable.parser [("backend/src/lib.rs", text, outline)] text' = .ok outline' ↔ _
  by_cases same : text = text' <;> simp [SourceTable.parser, same]

/-- A walk goes on from the only file to where its only declaration leads. -/
theorem soleCrate_enters {text : String} {outline : Outline} {d : Declaration} {v next : Visit}
    (sole : v.file = soleFile) (declares : outline.declarations = [d])
    (step : (soleCrate text outline).resolve v d = .ok next) :
    (soleCrate text outline).Enters v next := by
  have opens : (soleCrate text outline).Opens v.file text outline :=
    ⟨sole ▸ soleTree_read text, soleCrate_parse_eq_ok_iff.2 ⟨rfl, rfl⟩⟩
  exact ⟨d, text, outline, [], [], opens, declares,
    fun _ among => absurd among List.not_mem_nil, step⟩

/-- A file that declares a module to be in the file itself is visited without end; one that declares
a module of its own name is not. -/
theorem walk_ends_iff_namesake :
    ¬(soleCrate "#[path = \"lib.rs\"] mod again;" roundOutline).Terminates ∧
      (soleCrate "mod lib;" namesakeOutline).Terminates := by
  constructor
  · intro ends
    refine (walk_ends_iff (soleTree "#[path = \"lib.rs\"] mod again;") _ _).1.1 ends ?_
    have enters : ∀ module owns, (soleCrate "#[path = \"lib.rs\"] mod again;" roundOutline).Enters
        ⟨soleFile, module, owns⟩ ⟨soleFile, module ++ ["again"], false⟩ :=
      fun module owns => soleCrate_enters rfl rfl rfl
    exact ⟨_, _, .single (enters [] true), .single (enters ["again"] false), rfl⟩
  · refine ((walk_ends_iff (soleTree "mod lib;") _ _).2 ?_).2 ?_
    · intro text outline parsed d among
      obtain ⟨-, rfl⟩ := soleCrate_parse_eq_ok_iff.1 parsed
      obtain rfl := List.mem_singleton.1 among
      exact ⟨by decide, by decide, by decide⟩
    · rintro place next d - ⟨contents, outline, before, after, opens, parts, -, -⟩
      obtain ⟨-, rfl⟩ := soleCrate_parse_eq_ok_iff.1 opens.2
      have among : d ∈ namesakeOutline.declarations := by
        rw [parts]
        exact List.mem_append_right _ List.mem_cons_self
      obtain rfl := List.mem_singleton.1 among
      rfl

end CoinLedger.Layering
