import CoinLedger.Proofs.Layering.Chains

/-!
# Conventional crates

A crate is conventional if its walk follows no attribute: its modules are found by their names
alone.  The walk then comes to what the chains of declarations lead to, and to nothing else.

While it visits a file the walk has found the modules of some declarations, and the others are left
(`Crate.Reading`).  Whether a declaration has an attribute matters only once the walk has come to
it, so it is known of the first one that is left, and that one leads to the site of its name.  What
the walk comes to there is known by induction on how deep it may still go; every step adds a
directory to the path of the file, and a path that can be read has a greatest length.

## Main definitions

* `Crate.Conventional` — sites from which the walk follows no attribute.
* `Crate.Reading` — what the walk has done while it visits a file.
* `Crate.AgreeOn` — two crates that have the same at a site.

## Main results

* `Crate.Conventional.visit` — the walk comes to its outcome.
* `Crate.Conventional.visit_viewed` — it depends on nothing but the sites that chains lead to.
* `discover_conventional` — what is discovered in a conventional crate.
-/

namespace CoinLedger.Layering

open Relation

/-- A source, with its text seen in some way. -/
def Source.seen {α : Type} (view : String → α) (source : Source) : ModulePath × String × α :=
  (source.module, source.file, view source.contents)

namespace Crate

/-- What a walk comes to, with the texts of files seen in some way. -/
def viewed {α : Type} (view : String → α) (walked : Walked) :
    Except LintError (List (ModulePath × String × α)) :=
  walked.map (List.map (Source.seen view))

/-- A site that is found by names, and from which the walk follows no attribute. -/
structure Conventional (c : Crate) (s : Site) : Prop where
  byNames : s.ByNames
  unset : ∀ place next d, ReflTransGen c.Enters (s.visit c.directory) place →
    c.Follows d place next → d.path? = none

/-- What the visit of a declared module comes to. -/
def visitDeclared (follow : Visit → Option Walked) (find : Declaration → Except LintError Visit)
    (d : Declaration) : Option Walked :=
  match find d with
  | .error e => some (.error e)
  | .ok place => follow place

/-- While it visits the file at a site, the walk has found the modules of some declarations. -/
structure Reading (c : Crate) (depth : Nat) (s : Site) (contents : String) (outline : Outline)
    (before rest : List Declaration) : Prop where
  opens : c.Opens (s.path c.directory) contents outline
  parts : outline.declarations = before ++ rest
  earlier : ∀ d ∈ before, ∃ found,
    visitDeclared (c.visit depth) (c.resolve (s.visit c.directory)) d = some (.ok found)

/-- Two crates agree on a site: both have a file there or neither has, and the file is refused for
the same reason, or it declares the same and its texts look the same. -/
structure AgreeOn {α : Type} (view : String → α) (c c' : Crate) (s : Site) : Prop where
  isFile : c'.files.isFile (s.path c'.directory) = c.files.isFile (s.path c.directory)
  opened :
    (∃ e, c.openFile (s.path c.directory) = .error e ∧
      c'.openFile (s.path c'.directory) = .error e) ∨
    ∃ contents outline contents' outline', c.Opens (s.path c.directory) contents outline ∧
      c'.Opens (s.path c'.directory) contents' outline' ∧
      outline'.declarations = outline.declarations ∧ view contents' = view contents

variable {c c' : Crate} {s next : Site} {depth : Nat} {contents : String} {outline : Outline}
  {before rest : List Declaration} {d : Declaration}

/-! ## Declarations one after the other -/

section Declared

variable {follow : Visit → Option Walked} {find : Declaration → Except LintError Visit}

theorem visitAll_cons : visitAll follow find (d :: rest) =
    match visitDeclared follow find d with
    | none => none
    | some (.error e) => some (.error e)
    | some (.ok found) => (visitAll follow find rest).map (Except.map (found ++ ·)) := by
  rw [visitAll, visitDeclared]
  cases find d with
  | error e => rfl
  | ok place => rfl

theorem visitDeclared_eq_ok {found : List Source}
    (h : visitDeclared follow find d = some (.ok found)) :
    ∃ place, find d = .ok place ∧ follow place = some (.ok found) := by
  unfold visitDeclared at h
  cases step : find d with
  | error e =>
    rw [step] at h
    cases h
  | ok place =>
    rw [step] at h
    exact ⟨place, rfl, h⟩

end Declared

section Names

variable (byNames : s.ByNames) (ends : PathText.EndsInName c.directory) (isName : IsName d.name)
  (unset : d.path? = none)
include byNames ends isName unset

theorem visitDeclared_of_refers (follow : Visit → Option Walked)
    (refers : c.Refers s d.name next) :
    visitDeclared follow (c.resolve (s.visit c.directory)) d = follow (next.visit c.directory) := by
  rw [visitDeclared, resolve_of_refers byNames ends isName unset refers]

theorem visitDeclared_of_lost (follow : Visit → Option Walked)
    (lost : ∀ next, ¬c.Refers s d.name next) :
    visitDeclared follow (c.resolve (s.visit c.directory)) d =
      some (.error (.missingModule (ModulePath.text (s.module ++ [d.name])) s.text)) := by
  rw [visitDeclared, resolve_of_lost byNames ends isName unset lost]

end Names

namespace Reading

theorem start (depth : Nat) (opens : c.Opens (s.path c.directory) contents outline) :
    c.Reading depth s contents outline [] outline.declarations :=
  ⟨opens, rfl, fun _ among => absurd among List.not_mem_nil⟩

section First

variable (reading : c.Reading depth s contents outline before (d :: rest))
include reading

theorem step {found : List Source} (here :
    visitDeclared (c.visit depth) (c.resolve (s.visit c.directory)) d = some (.ok found)) :
    c.Reading depth s contents outline (before ++ [d]) rest where
  opens := reading.opens
  parts := by rw [reading.parts, List.append_assoc, List.singleton_append]
  earlier := List.forall_mem_append.2
    ⟨reading.earlier, List.forall_mem_singleton.2 ⟨found, here⟩⟩

theorem declared : outline.declarations[before.length]? = some d := by
  rw [reading.parts, List.getElem?_append_right (Nat.le_refl _), Nat.sub_self]
  rfl

theorem isName (names : NamesModules c.parse) : IsName d.name :=
  names contents outline reading.opens.2 d (List.mem_of_getElem? reading.declared)

/-- The walk follows the first declaration that is left. -/
theorem follows {place : Visit} (step : c.resolve (s.visit c.directory) d = .ok place) :
    c.Follows d (s.visit c.directory) place := by
  refine ⟨contents, outline, before, rest, reading.opens, reading.parts, ?_, step⟩
  intro earlier among
  obtain ⟨found, visited⟩ := reading.earlier earlier among
  obtain ⟨place', step', inside⟩ := visitDeclared_eq_ok visited
  exact ⟨place', step', depth, found, inside⟩

variable (conventional : c.Conventional s)
include conventional

/-- The first declaration that is left has no attribute: an attribute would be followed. -/
theorem unset : d.path? = none := by
  cases set : d.path? with
  | none => rfl
  | some path =>
    rw [← set]
    obtain ⟨place, step⟩ : ∃ place, c.resolve (s.visit c.directory) d = .ok place :=
      ⟨_, resolve_eq_ok_iff.2 (.inl ⟨path, set, rfl⟩)⟩
    exact conventional.unset _ _ d .refl (reading.follows step)

theorem entered (ends : PathText.EndsInName c.directory) (names : NamesModules c.parse)
    (refers : c.Refers s d.name next) : c.Conventional next where
  byNames := refers.byNames conventional.byNames (reading.isName names)
  unset place place' d' reached := by
    have step := resolve_of_refers conventional.byNames ends (reading.isName names)
      (reading.unset conventional) refers
    exact conventional.unset place place' d' (reached.head ⟨d, reading.follows step⟩)

end First

/-- The declarations that are left come to what lies on the chains from them on. -/
theorem visitAll (ends : PathText.EndsInName c.directory) (names : NamesModules c.parse)
    (conventional : c.Conventional s)
    (reading : c.Reading depth s contents outline before rest)
    (follows : ∀ (d : Declaration) (next : Site), c.Refers s d.name next → c.Conventional next →
      ∃ walked, c.visit depth (next.visit c.directory) = some walked ∧
        c.Outcome next (fun _ => True) walked) :
    ∃ walked, Crate.visitAll (c.visit depth) (c.resolve (s.visit c.directory)) rest = some walked ∧
      c.Outcome s (BeginsFrom before.length) walked := by
  induction rest generalizing before with
  | nil =>
    refine ⟨.ok [], rfl, outcome_nil reading.opens ?_⟩
    rw [reading.parts, List.append_nil]
  | cons d rest ih =>
    have isName := reading.isName names
    have unset := reading.unset conventional
    rw [visitAll_cons]
    by_cases lost : ∀ next, ¬c.Refers s d.name next
    · rw [visitDeclared_of_lost conventional.byNames ends isName unset _ lost]
      exact ⟨_, rfl, outcome_lost reading.opens reading.declared lost⟩
    · obtain ⟨next, refers⟩ := not_forall_not.1 lost
      have here := visitDeclared_of_refers conventional.byNames ends isName unset (c.visit depth)
        refers
      obtain ⟨walked, visited, below⟩ :=
        follows d next refers (reading.entered conventional ends names refers)
      rw [here, visited]
      cases walked with
      | error e => exact ⟨_, rfl, outcome_stopped reading.opens reading.declared refers below⟩
      | ok found =>
        obtain ⟨walked', others, later⟩ := ih (reading.step (here.trans visited))
        rw [List.length_append] at later
        refine ⟨walked'.map (found ++ ·), ?_,
          outcome_append reading.opens reading.declared refers below later⟩
        simp only [others]
        rfl

end Reading

theorem visit_of_refused {e : LintError} (refused : c.openFile (s.path c.directory) = .error e) :
    c.visit (depth + 1) (s.visit c.directory) = some (.error e) := by
  rw [visit, Site.visit_file, refused]

theorem visit_of_opens (byNames : s.ByNames) (ends : PathText.EndsInName c.directory)
    (opens : c.Opens (s.path c.directory) contents outline) :
    c.visit (depth + 1) (s.visit c.directory) =
      (visitAll (c.visit depth) (c.resolve (s.visit c.directory)) outline.declarations).map
        (Except.map (· ++ [⟨s.module, s.text, contents⟩])) := by
  have opened : c.openFile (s.path c.directory) = .ok (contents, outline.declarations) :=
    openFile_eq_ok_iff.2 ⟨outline, opens, rfl⟩
  rw [visit, Site.visit_file, opened, shown_path byNames ends]
  rfl

/-- **The walk from a conventional site.**  It comes to the sources on all chains from there, or to
the trouble that is the first. -/
theorem Conventional.visit {longest : Nat} (depth : Nat)
    (ends : PathText.EndsInName c.directory) (names : NamesModules c.parse)
    (short : ∀ file contents, c.files.read file = .ok contents → file.length ≤ longest)
    (conventional : c.Conventional s) (near : s.module.length ≤ longest + 1)
    (deep : longest + 1 < depth + s.module.length) :
    ∃ walked, c.visit depth (s.visit c.directory) = some walked ∧
      c.Outcome s (fun _ => True) walked := by
  induction depth generalizing s with
  | zero => omega
  | succ depth ih =>
    have byNames := conventional.byNames
    cases hopen : c.openFile (s.path c.directory) with
    | error e => exact ⟨_, visit_of_refused hopen, outcome_refused byNames ends hopen⟩
    | ok opened =>
      obtain ⟨contents, declarations⟩ := opened
      obtain ⟨outline, opens, rfl⟩ := openFile_eq_ok_iff.1 hopen
      have inside : s.module.length ≤ longest :=
        (byNames.length_le_path ends).trans (short _ _ opens.1)
      obtain ⟨walked, visited, below⟩ := (Reading.start depth opens).visitAll ends names
        conventional fun d next refers conventional' => by
          have deeper : next.module.length = s.module.length + 1 := by
            rw [refers.module_eq, List.length_append]
            rfl
          exact ih conventional' (by omega) (by omega)
      refine ⟨_, ?_, outcome_opened opens below⟩
      rw [visit_of_opens byNames ends opens, visited]
      rfl

/-! ## What a walk depends on -/

section View

variable {α : Type} {view : String → α}

theorem viewed_map {add : List Source → List Source} {f : List (ModulePath × String × α) →
      List (ModulePath × String × α)} (walked : Walked)
    (seen : ∀ found, (add found).map (Source.seen view) = f (found.map (Source.seen view))) :
    viewed view (walked.map add) = (viewed view walked).map f := by
  cases walked with
  | error e => rfl
  | ok found => exact congrArg Except.ok (seen found)

/-- Two crates agree on all sites to which chains lead in one of them. -/
def AgreeBelow (view : String → α) (c c' : Crate) (s : Site) : Prop :=
  ∀ chain last, c.Chain s chain last ∨ c'.Chain s chain last → AgreeOn view c c' last

theorem Refers.of_agree {name : String} (refers : c.Refers s name next)
    (agree : ∀ next, c.Refers s name next ∨ c'.Refers s name next →
      c'.files.isFile (next.path c'.directory) = c.files.isFile (next.path c.directory)) :
    c'.Refers s name next := by
  have there := (agree next (.inl refers)).trans refers.isFile
  cases refers with
  | flat _ => exact .flat there
  | nested absent _ =>
    refine .nested (Bool.eq_false_iff.2 fun other => ?_) there
    -- The other crate would refer to the file, so it would be in this one.
    have both := agree _ (.inr (.flat other))
    rw [other, absent] at both
    cases both

section Opened

variable {contents' : String} {outline' : Outline} {i : Nat} (agree : AgreeBelow view c c' s)
  (opens : c.Opens (s.path c.directory) contents outline)
  (opens' : c'.Opens (s.path c'.directory) contents' outline')
  (same : outline'.declarations = outline.declarations)
  (declared : outline.declarations[i]? = some d)
include agree opens opens' same declared

theorem AgreeBelow.refers_iff : c'.Refers s d.name next ↔ c.Refers s d.name next := by
  have agree' : ∀ next, c.Refers s d.name next ∨ c'.Refers s d.name next →
      c'.files.isFile (next.path c'.directory) = c.files.isFile (next.path c.directory) :=
    fun next refers => (agree [i] next (refers.imp (.cons opens declared · .nil)
      (.cons opens' (same ▸ declared) · .nil))).isFile
  constructor
  · exact fun refers => refers.of_agree fun next either => (agree' next either.symm).symm
  · exact fun refers => refers.of_agree agree'

theorem AgreeBelow.below (refers : c.Refers s d.name next) : AgreeBelow view c c' next := by
  have refers' := (agree.refers_iff opens opens' same declared).2 refers
  intro chain last leads
  exact agree (i :: chain) last (leads.imp (.cons opens declared refers)
    (.cons opens' (same ▸ declared) refers'))

end Opened

theorem visitAll_cons_viewed {follow : Visit → Option Walked}
    {find : Declaration → Except LintError Visit} :
    (visitAll follow find (d :: rest)).map (viewed view) =
      match (visitDeclared follow find d).map (viewed view) with
      | none => none
      | some (.error e) => some (.error e)
      | some (.ok part) =>
        ((visitAll follow find rest).map (viewed view)).map (Except.map (part ++ ·)) := by
  rw [visitAll_cons]
  cases visitDeclared follow find d with
  | none => rfl
  | some walked =>
    cases walked with
    | error e => rfl
    | ok found =>
      have seen : ∀ walked : Walked, viewed view (walked.map (found ++ ·)) =
          (viewed view walked).map (found.map (Source.seen view) ++ ·) :=
        fun walked => viewed_map walked fun others => List.map_append
      simp only [Option.map_map, Function.comp_def, seen]
      rfl

theorem visitAll_viewed {follow follow' : Visit → Option Walked}
    {find find' : Declaration → Except LintError Visit}
    (first : (visitDeclared follow' find' d).map (viewed view) =
      (visitDeclared follow find d).map (viewed view))
    (others : ∀ found, visitDeclared follow find d = some (.ok found) →
      (visitAll follow' find' rest).map (viewed view) =
        (visitAll follow find rest).map (viewed view)) :
    (visitAll follow' find' (d :: rest)).map (viewed view) =
      (visitAll follow find (d :: rest)).map (viewed view) := by
  rw [visitAll_cons_viewed, visitAll_cons_viewed, first]
  cases here : visitDeclared follow find d with
  | none => rfl
  | some walked =>
    cases walked with
    | error e => rfl
    | ok found => rw [others found here]

theorem visit_viewed_of_opens (byNames : s.ByNames) (ends : PathText.EndsInName c.directory)
    (opens : c.Opens (s.path c.directory) contents outline) :
    (c.visit (depth + 1) (s.visit c.directory)).map (viewed view) =
      ((visitAll (c.visit depth) (c.resolve (s.visit c.directory)) outline.declarations).map
        (viewed view)).map (Except.map (· ++ [(s.module, s.text, view contents)])) := by
  have seen : ∀ walked : Walked, viewed view (walked.map (· ++ [⟨s.module, s.text, contents⟩])) =
      (viewed view walked).map (· ++ [(s.module, s.text, view contents)]) :=
    fun walked => viewed_map walked fun found => List.map_append
  rw [visit_of_opens byNames ends opens]
  simp only [Option.map_map, Function.comp_def, seen]

variable (ends : PathText.EndsInName c.directory) (ends' : PathText.EndsInName c'.directory)
  (names : NamesModules c.parse) (conventional : c.Conventional s) (agree : AgreeBelow view c c' s)
include ends ends' names conventional agree

theorem Reading.visitAll_viewed {contents' : String} {outline' : Outline}
    (reading : c.Reading depth s contents outline before rest)
    (opens' : c'.Opens (s.path c'.directory) contents' outline')
    (same : outline'.declarations = outline.declarations)
    (follows : ∀ (d : Declaration) (next : Site), c.Refers s d.name next → c.Conventional next →
      AgreeBelow view c c' next → (c'.visit depth (next.visit c'.directory)).map (viewed view) =
        (c.visit depth (next.visit c.directory)).map (viewed view)) :
    (Crate.visitAll (c'.visit depth) (c'.resolve (s.visit c'.directory)) rest).map (viewed view) =
      (Crate.visitAll (c.visit depth) (c.resolve (s.visit c.directory)) rest).map
        (viewed view) := by
  induction rest generalizing before with
  | nil => rfl
  | cons d rest ih =>
    refine Crate.visitAll_viewed ?_ fun found here => ih (reading.step here)
    have byNames := conventional.byNames
    have isName := reading.isName names
    have unset := reading.unset conventional
    have refers_iff : ∀ next, c'.Refers s d.name next ↔ c.Refers s d.name next := fun next =>
      agree.refers_iff reading.opens opens' same reading.declared
    by_cases lost : ∀ next, ¬c.Refers s d.name next
    · rw [visitDeclared_of_lost byNames ends isName unset _ lost,
        visitDeclared_of_lost byNames ends' isName unset _
          fun next => mt (refers_iff next).1 (lost next)]
    · obtain ⟨next, refers⟩ := not_forall_not.1 lost
      rw [visitDeclared_of_refers byNames ends isName unset _ refers,
        visitDeclared_of_refers byNames ends' isName unset _ ((refers_iff next).2 refers)]
      exact follows d next refers (reading.entered conventional ends names refers)
        (agree.below reading.opens opens' same reading.declared refers)

/-- **What a walk depends on.**  Two crates in which it comes to the same sites with the same files,
but for the texts, give it the same, but for the texts. -/
theorem Conventional.visit_viewed : (c'.visit depth (s.visit c'.directory)).map (viewed view) =
    (c.visit depth (s.visit c.directory)).map (viewed view) := by
  induction depth generalizing s with
  | zero => rfl
  | succ depth ih =>
    have byNames := conventional.byNames
    rcases (agree [] s (.inl .nil)).opened with ⟨e, refused, refused'⟩ |
      ⟨contents, outline, contents', outline', opens, opens', same, text⟩
    · rw [visit_of_refused refused, visit_of_refused refused']
    · have visited := (Reading.start depth opens).visitAll_viewed ends ends' names
        conventional agree opens' same fun d next refers conventional' agree' =>
          ih conventional' agree'
      rw [visit_viewed_of_opens byNames ends opens, visit_viewed_of_opens byNames ends' opens',
        same, text, visited]

end View

end Crate

/-- An item at the top of a file is no declaration if it is no module in another file, or is marked
as test code; what is inside it is none either. -/
theorem Outline.declarations_without {kind : ItemKind} {attributes : List Attribute}
    (other : ∀ name, kind = .module name false → attributes.any Attribute.marksTest = true)
    (before body after : List Node) :
    (⟨before ++ .item kind attributes body :: after⟩ : Outline).declarations =
      (⟨before ++ after⟩ : Outline).declarations := by
  simp only [Outline.declarations, List.filterMap_append]
  refine congrArg _ (List.filterMap_cons_none ?_)
  cases kind with
  | module name inPlace =>
    cases inPlace with
    | false => exact if_pos (other name rfl)
    | true => rfl
  | _ => rfl

/-- **Discovery in conventional crates.**  If no attribute sets a path for a declaration that is
followed, a crate below a directory is discovered, and there are either the sources on all chains of
declarations from its root, each once and in order, or there is the first trouble on one of them.
Nothing else matters: another crate that agrees on the sites to which chains lead comes to the same,
whatever other files it has and whatever in the files is no declaration of a module in another file
or is marked as test code. -/
theorem discover_conventional (t : FileTree) (parse : Parser) (directory : List Char)
    (names : NamesModules parse)
    (unset : let c : Crate := ⟨t.files, parse, PathText.join directory "src".toList⟩
      ∀ place next d, ReflTransGen c.Enters c.rootVisit place → c.Follows d place next →
        d.path? = none) :
    let c : Crate := ⟨t.files, parse, PathText.join directory "src".toList⟩
    ((∃ entries : List (List Nat × Source), c.discover = some (.ok (entries.map Prod.snd)) ∧
        entries.Pairwise (fun entry later => ListedBefore entry.1 later.1) ∧
        (∀ chain source, (chain, source) ∈ entries ↔ c.SourceOn .root chain source) ∧
        ∀ chain e, ¬c.Trouble .root chain e) ∨
      ∃ chain e, c.discover = some (.error e) ∧ c.Trouble .root chain e ∧
        ∀ chain' e', c.Trouble .root chain' e' → chain < chain' ∨ chain' = chain ∧ e' = e) ∧
    (∀ (α : Type) (view : String → α) (t' : FileTree) (parse' : Parser),
      let c' : Crate := ⟨t'.files, parse', PathText.join directory "src".toList⟩
      Crate.AgreeBelow view c c' .root →
        c'.discover.map (Crate.viewed view) = c.discover.map (Crate.viewed view)) ∧
    ∀ kind attributes before body after,
      (∀ name, kind = .module name false → attributes.any Attribute.marksTest = true) →
      (⟨before ++ .item kind attributes body :: after⟩ : Outline).declarations =
        (⟨before ++ after⟩ : Outline).declarations := by
  intro c
  have src : PathText.IsLast "src".toList := ⟨by decide, by decide, by decide⟩
  have ends : PathText.EndsInName c.directory := src.endsInName directory
  have conventional : c.Conventional .root := ⟨Site.byNames_root, unset⟩
  refine ⟨?_, ?_, ?_⟩
  · obtain ⟨walked, discovered, outcome⟩ := conventional.visit Crate.deepest ends names
      (fun _ _ => FileTree.length_le_of_read) (Nat.zero_le _) (by decide)
    cases outcome with
    | @found entries clear ordered complete =>
      refine .inl ⟨entries, discovered, ordered, ?_, fun chain e => clear chain e trivial⟩
      intro chain source
      rw [complete, true_and]
    | stopped _ trouble first =>
      exact .inr ⟨_, _, discovered, trouble, fun chain' e' => first chain' e' trivial⟩
  · intro α view t' parse' c' agree
    exact conventional.visit_viewed ends (src.endsInName directory) names agree
  · intro kind attributes before body after other
    exact Outline.declarations_without other before body after

/-! ### Crates of two modules -/

def storeSite : Site := Site.root.nested "store"

/-- A crate of a root file and a module that is in a directory of its name. -/
structure Shelf (c : Crate) : Prop where
  isFile : c.files.isFile (Site.root.path c.directory) = true
  root : ∃ contents outline, c.Opens (Site.root.path c.directory) contents outline ∧
    outline.declarations = [⟨"store", []⟩]
  refers : c.Refers .root "store" storeSite
  store : ∃ contents, c.Opens (storeSite.path c.directory) contents ⟨[]⟩

namespace Shelf

variable {c c' : Crate}

theorem site {chain : List Nat} {last : Site} (shelf : Shelf c)
    (leads : c.Chain .root chain last) : last = .root ∨ last = storeSite := by
  obtain ⟨contents, outline, opens, sole⟩ := shelf.root
  obtain ⟨text, opens'⟩ := shelf.store
  cases chain with
  | nil =>
    cases leads
    exact .inl rfl
  | cons i is =>
    obtain ⟨d, next, declared, refers, below⟩ := (Crate.chain_cons_iff opens).1 leads
    rw [sole] at declared
    obtain rfl := List.mem_singleton.1 (List.mem_of_getElem? declared)
    obtain rfl := refers.unique shelf.refers
    cases is with
    | nil =>
      cases below
      exact .inr rfl
    | cons j js =>
      obtain ⟨d, next, declared, -⟩ := (Crate.chain_cons_iff opens').1 below
      cases declared

theorem not_trouble {chain : List Nat} {e : LintError} (shelf : Shelf c) :
    ¬c.Trouble .root chain e := by
  rintro ⟨front, last, rest, leads, fault, -⟩
  rcases shelf.site leads with rfl | rfl
  · obtain ⟨contents, outline, opens, sole⟩ := shelf.root
    refine Crate.not_fault opens (fun d among => ?_) fault
    rw [sole] at among
    obtain rfl := List.mem_singleton.1 among
    exact ⟨storeSite, shelf.refers⟩
  · obtain ⟨contents, opens⟩ := shelf.store
    exact Crate.not_fault opens (fun d among => absurd among List.not_mem_nil) fault

/-- Two such crates agree on all that chains lead to, but for the texts. -/
theorem agree (shelf : Shelf c) (shelf' : Shelf c') :
    Crate.AgreeBelow (fun _ => ()) c c' .root := by
  intro chain last leads
  have among : last = .root ∨ last = storeSite := leads.elim shelf.site shelf'.site
  rcases among with rfl | rfl
  · obtain ⟨contents, outline, opens, sole⟩ := shelf.root
    obtain ⟨contents', outline', opens', sole'⟩ := shelf'.root
    exact ⟨shelf'.isFile.trans shelf.isFile.symm,
      .inr ⟨_, _, _, _, opens, opens', sole'.trans sole.symm, rfl⟩⟩
  · obtain ⟨contents, opens⟩ := shelf.store
    obtain ⟨contents', opens'⟩ := shelf'.store
    exact ⟨shelf'.refers.isFile.trans shelf.refers.isFile.symm,
      .inr ⟨_, _, _, _, opens, opens', rfl, rfl⟩⟩

end Shelf

/-- A tree of such files, and more files. -/
def shelfTree (lib : String) (more : List (FilePlace × FileEntry)) : FileTree where
  entries := [(["backend".toList, "src".toList, "lib.rs".toList],
      .file (Text.Utf8.encode lib.toList)),
    (["backend".toList, "src".toList, "store".toList, "mod.rs".toList],
      .file (Text.Utf8.encode "".toList))] ++ more

/-- A file that cannot be read, beside the root file. -/
def strayFile : FilePlace × FileEntry :=
  (["backend".toList, "src".toList, "probe.rs".toList], .file [0xff])

def bareLib : String := "mod store;"

/-- The root file with a module of test code. -/
def probedLib : String := "mod store; #[cfg(test)] mod probe;"

def shelfParser : Parser := SourceTable.parser
  [("backend/src/lib.rs", bareLib, ⟨[.item (.module "store" false) [] []]⟩),
    ("backend/src/lib.rs", probedLib, ⟨[.item (.module "store" false) [] [],
      .item (.module "probe" false) [⟨some "cfg", .arguments (some "test")⟩] [.path ["cfg"]]]⟩),
    ("backend/src/store/mod.rs", "", ⟨[]⟩)]

def shelfCrate (lib : String) (more : List (FilePlace × FileEntry)) : Crate :=
  ⟨(shelfTree lib more).files, shelfParser, PathText.join "backend".toList "src".toList⟩

/-- All that the files declare is the one module. -/
theorem shelfParser_declares {text : String} {outline : Outline} {d : Declaration}
    (parsed : shelfParser text = .ok outline) (among : d ∈ outline.declarations) :
    d = ⟨"store", []⟩ := by
  unfold shelfParser SourceTable.parser at parsed
  split at parsed
  · next source found =>
    obtain rfl := Except.ok.inj parsed
    have inside := List.mem_of_find?_eq_some found
    simp only [List.mem_cons, List.not_mem_nil, or_false] at inside
    rcases inside with rfl | rfl | rfl
    · exact List.mem_singleton.1 among
    · exact List.mem_singleton.1 among
    · exact absurd among List.not_mem_nil
  · cases parsed

theorem shelfCrate_read {lib text : String} {more : List (FilePlace × FileEntry)} {s : Site}
    (located : (shelfTree lib more).locate (s.path (shelfCrate lib more).directory) =
      .ok (.file (Text.Utf8.encode text.toList))) :
    (shelfCrate lib more).files.read (s.path (shelfCrate lib more).directory) = .ok text :=
  FileTree.read_of_locate located

theorem shelf_bare : Shelf (shelfCrate bareLib []) where
  isFile := rfl
  root := ⟨bareLib, _, ⟨shelfCrate_read rfl, rfl⟩, rfl⟩
  refers := .nested rfl rfl
  store := ⟨"", shelfCrate_read rfl, rfl⟩

theorem shelf_probed : Shelf (shelfCrate probedLib [strayFile]) where
  isFile := rfl
  root := ⟨probedLib, _, ⟨shelfCrate_read rfl, rfl⟩, rfl⟩
  refers := .nested rfl rfl
  store := ⟨"", shelfCrate_read rfl, rfl⟩

/-- Of a crate with a module of test code and a file that cannot be read, the two modules are
discovered; it is the same without them. -/
theorem discover_conventional_shelf :
    (∃ entries : List (List Nat × Source),
      (shelfCrate probedLib [strayFile]).discover = some (.ok (entries.map Prod.snd)) ∧
      ([0], ⟨["store"], "store/mod.rs", ""⟩) ∈ entries ∧
      ([], ⟨[], "lib.rs", probedLib⟩) ∈ entries) ∧
    (shelfCrate bareLib []).discover.map (Crate.viewed fun _ => ()) =
      (shelfCrate probedLib [strayFile]).discover.map (Crate.viewed fun _ => ()) := by
  obtain ⟨comes, same, -⟩ := discover_conventional (shelfTree probedLib [strayFile]) shelfParser
    "backend".toList
    (by
      intro text outline parsed d among
      obtain rfl := shelfParser_declares parsed among
      exact ⟨by decide, by decide, by decide⟩)
    (by
      rintro c place next d - ⟨contents, outline, before, after, opens, parts, -, -⟩
      have among : d ∈ outline.declarations := by
        rw [parts]
        exact List.mem_append_right _ List.mem_cons_self
      obtain rfl := shelfParser_declares opens.2 among
      rfl)
  refine ⟨?_, same Unit (fun _ => ()) (shelfTree bareLib []) shelfParser
    (shelf_probed.agree shelf_bare)⟩
  rcases comes with ⟨entries, discovered, -, complete, -⟩ | ⟨chain, e, -, trouble, -⟩
  · have store : (shelfCrate probedLib [strayFile]).SourceOn .root [0]
        ⟨["store"], "store/mod.rs", ""⟩ :=
      ⟨storeSite, "", ⟨[]⟩, .cons ⟨shelfCrate_read rfl, rfl⟩ rfl shelf_probed.refers .nil,
        ⟨shelfCrate_read rfl, rfl⟩, rfl⟩
    have root : (shelfCrate probedLib [strayFile]).SourceOn .root [] ⟨[], "lib.rs", probedLib⟩ :=
      ⟨.root, probedLib, _, .nil, ⟨shelfCrate_read rfl, rfl⟩, rfl⟩
    exact ⟨entries, discovered, (complete _ _).2 store, (complete _ _).2 root⟩
  · exact absurd trouble shelf_probed.not_trouble

end CoinLedger.Layering
