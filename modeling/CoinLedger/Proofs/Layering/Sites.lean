import CoinLedger.Proofs.Layering.Directories

/-!
# Modules found by their names

Without attributes, the file of a module is found by names: it is in the directory that the parent
has for its modules, either under the name of the module or as `mod.rs` in a directory of that name.
The parent has its modules beside it if it is the root file or a `mod.rs`, and otherwise in a
directory named like its file.  A site says where a file is by listing directories (`Site.within`,
`Crate.Refers`), without joining any paths or cutting them apart.

The walk does both, but it comes to the same as long as the crate is in a directory whose path ends
in a name: the directories that it joins and cuts off again are those of the site
(`Site.ByNames.childDirectory`), and so are the files that it asks for (`Crate.resolve_of_refers`,
`Crate.resolve_of_lost`).

## Main definitions

* `Site` — where the file of a module is below the directory of the crate.
* `Crate.Refers` — the site of a declared module.

## Main results

* `PathText.EndsInName.below?_join` — a path below a directory, as it is seen from there.
* `Site.ByNames.places` — the files that the walk asks for.
-/

namespace CoinLedger.Layering

/-- The file of a module among the directories of a crate. -/
structure Site where
  module : ModulePath
  /-- The directories from that of the crate down to the file. -/
  directories : List String
  /-- The name of the file without its ending. -/
  stem : String
  /-- Whether the modules that are declared in the file are beside it. -/
  owner : Bool

namespace Site

/-- The root file. -/
def root : Site := ⟨[], [], "lib", true⟩

/-- The directories down to the modules that are declared in a file: those of the file itself, or
one more, named like the file. -/
def within (s : Site) : List String :=
  if s.owner then s.directories else s.directories ++ [s.stem]

/-- A declared module in a file of its name. -/
def flat (s : Site) (name : String) : Site := ⟨s.module ++ [name], s.within, name, false⟩

/-- A declared module in the file `mod.rs` of a directory of its name. -/
def nested (s : Site) (name : String) : Site :=
  ⟨s.module ++ [name], s.within ++ [name], "mod", true⟩

/-- The path of the file from the directory of the crate. -/
def text (s : Site) : String :=
  s.directories.foldr (fun name rest => name ++ "/" ++ rest) (s.stem ++ ".rs")

/-- The path of the file, given that of the directory of the crate. -/
def path (directory : List Char) (s : Site) : List Char :=
  PathText.join directory s.text.toList

/-- The visit to the file. -/
def visit (directory : List Char) (s : Site) : Visit := ⟨s.path directory, s.module, s.owner⟩

@[simp] theorem visit_file (directory : List Char) (s : Site) :
    (s.visit directory).file = s.path directory := rfl

end Site

/-- The site of a module that is declared at another one: a file of its name if there is one, and
otherwise the file `mod.rs` of a directory of its name. -/
inductive Crate.Refers (c : Crate) (s : Site) (name : String) : Site → Prop where
  | flat : c.files.isFile ((s.flat name).path c.directory) = true → Refers c s name (s.flat name)
  | nested : c.files.isFile ((s.flat name).path c.directory) = false →
      c.files.isFile ((s.nested name).path c.directory) = true → Refers c s name (s.nested name)

/-! ## Paths that end in names -/

namespace PathText

/-- The path of a directory ends in a name: nothing at its end is without meaning, and what is
joined to it stands behind a separator. -/
structure EndsInName (directory : List Char) : Prop where
  filled : directory ≠ []
  opened : directory.getLast? ≠ some '/'
  trimmed : trimEnd directory = directory

/-- The directory of some names below another one. -/
def below (directory : List Char) (names : List String) : List Char :=
  names.foldl (fun directory name => join directory name.toList) directory

theorem below_concat (directory : List Char) (names : List String) (name : String) :
    below directory (names ++ [name]) = join (below directory names) name.toList := by
  simp [below]

theorem IsLast.endsInName {base : List Char} (last : IsLast base) (directory : List Char) :
    EndsInName (join directory base) := by
  obtain ⟨gap, joined, -⟩ := last.exists_join directory
  refine ⟨?_, ?_, last.trimEnd_join directory⟩
  · rw [joined]
    exact List.append_ne_nil_of_right_ne_nil _ last.filled
  · intro closed
    rw [joined, List.getLast?_append, List.getLast?_eq_some_getLast last.filled] at closed
    have same : base.getLast last.filled = '/' := Option.some.inj closed
    exact last.slash (same ▸ List.getLast_mem last.filled)

namespace EndsInName

variable {directory base : List Char} {names : List String}

theorem join (ends : EndsInName directory) (relative : isAbsolute base = false) :
    PathText.join directory base = directory ++ '/' :: base := by
  have behind : (directory = [] || directory.getLast? = some '/') = false := by
    simp [ends.filled, ends.opened]
  rw [PathText.join, relative, behind]
  rfl

theorem below (ends : EndsInName directory) (isNames : ∀ name ∈ names, IsName name) :
    EndsInName (below directory names) := by
  induction names generalizing directory with
  | nil => exact ends
  | cons name rest ih =>
    obtain ⟨isName, others⟩ := List.forall_mem_cons.1 isNames
    exact ih (isName.isLast.endsInName directory) others

end EndsInName

/-! ## Paths below a directory -/

theorem trimStart_of_name {c : Char} {rest : List Char} (slash : c ≠ '/') (dot : c ≠ '.') :
    trimStart (c :: rest) = c :: rest := by
  unfold trimStart
  split <;> simp_all

theorem trimStart_trimStart (path : List Char) : trimStart (trimStart path) = trimStart path := by
  fun_induction trimStart path with
  | case1 rest ih => exact ih
  | case2 => rfl
  | case3 rest ih => exact ih
  | case4 path slash dot dots =>
    unfold trimStart
    split <;> simp_all

/-- A component of a path has no separators, so it ends where a separator follows. -/
theorem trimStart_component {part rest : List Char} (slash : '/' ∉ part) (filled : part ≠ [])
    (dot : part ≠ ['.']) : trimStart (part ++ '/' :: rest) = part ++ '/' :: rest := by
  match part, slash, filled, dot with
  | [c], slash, _, dot =>
    refine trimStart_of_name ?_ ?_
    · rintro rfl
      exact slash (.head _)
    · rintro rfl
      exact dot rfl
  | c :: d :: more, slash, _, _ =>
    have first : c ≠ '/' := by
      rintro rfl
      exact slash (.head _)
    have second : d ≠ '/' := by
      rintro rfl
      exact slash (.tail _ (.head _))
    simp only [List.cons_append]
    unfold trimStart
    split <;> simp_all

theorem dropComponents_slash (parts : List (List Char)) (path : List Char) :
    dropComponents parts ('/' :: path) = dropComponents parts path := by
  cases parts <;> rfl

theorem dropComponents_trimStart (parts : List (List Char)) (path : List Char) :
    dropComponents parts (trimStart path) = dropComponents parts path := by
  cases parts with
  | nil => rw [dropComponents, dropComponents, trimStart_trimStart]
  | cons part rest =>
    rw [dropComponents, dropComponents]
    simp only [trimStart_trimStart]

/-- What is left behind the components of a path is what follows them. -/
theorem dropComponents_parts {parts : List (List Char)} (slash : ∀ part ∈ parts, '/' ∉ part)
    (rest : List Char) :
    dropComponents (parts.filter (· ≠ [])) (parts.flatMap (· ++ ['/']) ++ rest) =
      some (trimStart rest) := by
  induction parts with
  | nil => rfl
  | cons part others ih =>
    obtain ⟨own, clean⟩ := List.forall_mem_cons.1 slash
    have split : (part :: others).flatMap (· ++ ['/']) ++ rest =
        part ++ '/' :: (others.flatMap (· ++ ['/']) ++ rest) := by simp
    rw [split]
    by_cases filled : part = []
    · subst filled
      rw [List.filter_cons_of_neg (by simp), List.nil_append, dropComponents_slash]
      exact ih clean
    · rw [List.filter_cons_of_pos (by simpa using filled), dropComponents]
      by_cases dot : part = ['.']
      · subst dot
        show dropComponents _ (trimStart (others.flatMap (· ++ ['/']) ++ rest)) = _
        rw [dropComponents_trimStart]
        exact ih clean
      · have inside : ∀ c ∈ part, decide (c ≠ '/') = true := by
          intro c among
          refine decide_eq_true ?_
          rintro rfl
          exact own among
        simp only [trimStart_component own filled dot, if_neg dot,
          List.takeWhile_append_of_pos inside, List.dropWhile_append_of_pos inside]
        rw [List.takeWhile_cons_of_neg (by simp), List.append_nil, if_pos rfl,
          List.dropWhile_cons_of_neg (by simp), dropComponents_slash]
        exact ih clean

/-- A path is its parts, each followed by a separator but the last one. -/
theorem splitOn_parts (path : List Char) : (∀ part ∈ path.splitOn '/', '/' ∉ part) ∧
    (path.splitOn '/').flatMap (· ++ ['/']) = path ++ ['/'] := by
  -- Induction on the length; a path with a separator is split there.
  induction length : path.length using Nat.strongRecOn generalizing path with
  | _ n ih =>
    by_cases slash : '/' ∈ path
    · obtain ⟨front, last, rfl⟩ := List.append_of_mem slash
      rw [List.length_append, List.length_cons] at length
      obtain ⟨slash₁, joined₁⟩ := ih front.length (by omega) front rfl
      obtain ⟨slash₂, joined₂⟩ := ih last.length (by omega) last rfl
      rw [List.splitOn_append_cons_self]
      refine ⟨List.forall_mem_append.2 ⟨slash₁, slash₂⟩, ?_⟩
      rw [List.flatMap_append, joined₁, joined₂]
      simp
    · rw [List.splitOn_eq_singleton slash]
      exact ⟨List.forall_mem_singleton.2 slash, by simp⟩

namespace EndsInName

variable {directory path : List Char}

theorem components (ends : EndsInName directory) :
    components directory = (directory.splitOn '/').filter (· ≠ []) := by
  have last : (directory.splitOn '/').getLast? ≠ some [] := by
    intro empty
    obtain ⟨front, parts⟩ := List.getLast?_eq_some_iff.1 empty
    have joined := (splitOn_parts directory).2
    rw [parts, List.flatMap_append] at joined
    have whole : front.flatMap (· ++ ['/']) = directory := by
      simpa using congrArg List.dropLast joined
    rcases List.eq_nil_or_concat front with rfl | ⟨before, part, rfl⟩
    · exact ends.filled whole.symm
    · refine ends.opened ?_
      rw [← whole]
      simp
  rw [PathText.components, if_neg last, List.append_nil]

/-- A path below a directory is seen from there as it was put together. -/
theorem below?_join (ends : EndsInName directory) (relative : isAbsolute path = false)
    (begins : trimStart path = path) : below? directory (PathText.join directory path) =
      some path := by
  obtain ⟨slash, joined⟩ := splitOn_parts directory
  have same : isAbsolute directory = isAbsolute (directory ++ '/' :: path) := by
    obtain ⟨c, rest, rfl⟩ := List.exists_cons_of_ne_nil ends.filled
    rfl
  have split : directory ++ '/' :: path = (directory.splitOn '/').flatMap (· ++ ['/']) ++ path := by
    rw [joined, List.append_assoc]
    rfl
  rw [ends.join relative, below?, if_pos same, ends.components, split,
    dropComponents_parts slash, begins]

end EndsInName

end PathText

/-! ## Sites by names -/

/-- All that leads to a site are names, and its modules are where their names say. -/
structure Site.ByNames (s : Site) : Prop where
  directories : ∀ name ∈ s.directories, IsName name
  stem : IsName s.stem
  within : s.within = s.module

namespace Site

open PathText

theorem isName_lib : IsName "lib" := ⟨by decide, by decide, by decide⟩

theorem isName_mod : IsName "mod" := ⟨by decide, by decide, by decide⟩

theorem byNames_root : root.ByNames := ⟨by simp [root], isName_lib, rfl⟩

namespace ByNames

variable {s : Site} {name : String} {directory : List Char}

theorem isName_of_mem_within (byNames : s.ByNames) : ∀ name ∈ s.within, IsName name := by
  intro name among
  unfold Site.within at among
  split at among
  · exact byNames.directories name among
  · rcases List.mem_append.1 among with above | own
    · exact byNames.directories name above
    · rw [List.mem_singleton.1 own]
      exact byNames.stem

theorem flat (byNames : s.ByNames) (isName : IsName name) : (s.flat name).ByNames where
  directories := byNames.isName_of_mem_within
  stem := isName
  within := by
    show s.within ++ [name] = s.module ++ [name]
    rw [byNames.within]

theorem nested (byNames : s.ByNames) (isName : IsName name) : (s.nested name).ByNames where
  directories := by
    show ∀ other ∈ s.within ++ [name], IsName other
    exact List.forall_mem_append.2
      ⟨byNames.isName_of_mem_within, List.forall_mem_singleton.2 isName⟩
  stem := isName_mod
  within := by
    show s.within ++ [name] = s.module ++ [name]
    rw [byNames.within]

/-- The path of a site begins with a name. -/
theorem exists_text (byNames : s.ByNames) :
    ∃ c rest, s.text.toList = c :: rest ∧ c ≠ '/' ∧ c ≠ '.' := by
  have first : ∀ name, IsName name → ∀ more : List Char,
      ∃ c rest, name.toList ++ more = c :: rest ∧ c ≠ '/' ∧ c ≠ '.' := by
    intro name isName more
    obtain ⟨c, rest, hname⟩ := List.exists_cons_of_ne_nil isName.filled
    refine ⟨c, rest ++ more, by rw [hname, List.cons_append], ?_, ?_⟩
    · rintro rfl
      exact isName.slash (hname ▸ List.mem_cons_self)
    · rintro rfl
      exact isName.dot (hname ▸ List.mem_cons_self)
  obtain ⟨module, directories, stem, owner⟩ := s
  cases directories with
  | nil =>
    show ∃ c rest, (stem ++ ".rs").toList = c :: rest ∧ _
    rw [String.toList_append]
    exact first stem byNames.stem _
  | cons name rest =>
    show ∃ c more, (name ++ "/" ++ _).toList = c :: more ∧ _
    rw [String.toList_append, String.toList_append, List.append_assoc]
    exact first name (byNames.directories name List.mem_cons_self) _

theorem relative (byNames : s.ByNames) : isAbsolute s.text.toList = false := by
  obtain ⟨c, rest, htext, slash, -⟩ := byNames.exists_text
  rw [htext]
  exact decide_eq_false fun same => slash (Option.some.inj same)

/-- The path of a site is shown as it is from the directory of the crate. -/
theorem below?_path (byNames : s.ByNames) (ends : EndsInName directory) :
    below? directory (s.path directory) = some s.text.toList := by
  refine ends.below?_join byNames.relative ?_
  obtain ⟨c, rest, htext, slash, dot⟩ := byNames.exists_text
  rw [htext]
  exact trimStart_of_name slash dot

/-- The path of a site from one directory to the next. -/
theorem path_eq (byNames : s.ByNames) (ends : EndsInName directory) :
    s.path directory = join (below directory s.directories) (s.stem ++ ".rs").toList := by
  obtain ⟨module, directories, stem, owner⟩ := s
  induction directories generalizing directory module with
  | nil => rfl
  | cons name rest ih =>
    obtain ⟨isName, names⟩ := List.forall_mem_cons.1 byNames.directories
    have ends' : EndsInName (join directory name.toList) := isName.isLast.endsInName directory
    -- Below the first directory, the file is that of a shorter chain of names.
    obtain ⟨inside, inner⟩ : ∃ inside : ModulePath, ByNames ⟨inside, rest, stem, owner⟩ :=
      ⟨Site.within ⟨[], rest, stem, owner⟩, names, byNames.stem, rfl⟩
    have split : path directory ⟨module, name :: rest, stem, owner⟩ =
        path (join directory name.toList) ⟨inside, rest, stem, owner⟩ := by
      show join directory _ = join (join directory name.toList) _
      rw [ends.join byNames.relative, ends'.join inner.relative, ends.join isName.isLast.relative]
      show directory ++ '/' :: (name ++ "/" ++ _).toList = _
      rw [String.toList_append, String.toList_append]
      simp [text]
    rw [split]
    exact ih ends' inside inner

/-- The directories of a site end in names. -/
theorem endsInName (byNames : s.ByNames) (ends : EndsInName directory) :
    EndsInName (below directory s.directories) :=
  ends.below byNames.directories

/-- The walk looks for modules in the directories where they are. -/
theorem childDirectory (byNames : s.ByNames) (ends : EndsInName directory) :
    Crate.childDirectory (s.visit directory) = below directory s.within := by
  have trimmed := (byNames.endsInName ends).trimmed
  obtain ⟨module, directories, stem, owner⟩ := s
  rw [visit, byNames.path_eq ends]
  cases owner with
  | true =>
    show parent (join _ _) = _
    rw [byNames.stem.isLast_file.parent_join, trimmed]
    rfl
  | false =>
    rw [Crate.childDirectory_flat byNames.stem, trimmed]
    exact (below_concat directory directories stem).symm

/-- The walk asks for the files in which a module may be. -/
theorem places (byNames : s.ByNames) (isName : IsName name) (ends : EndsInName directory) :
    Crate.places (s.visit directory) name =
      [(s.flat name).visit directory, (s.nested name).visit directory] := by
  have nested := (byNames.nested isName).path_eq ends
  rw [show (s.nested name).directories = s.within ++ [name] from rfl, below_concat] at nested
  rw [Crate.places, byNames.childDirectory ends]
  simp only [visit, (byNames.flat isName).path_eq ends, nested]
  rfl

/-- The path of a site is longer than the way to its module. -/
theorem length_le_path (byNames : s.ByNames) (ends : EndsInName directory) :
    s.module.length ≤ (s.path directory).length := by
  have long : ∀ names : List String, ∀ base : String,
      names.length ≤ (names.foldr (fun name rest => name ++ "/" ++ rest) base).toList.length := by
    intro names base
    induction names with
    | nil => exact Nat.zero_le _
    | cons name rest ih =>
      rw [List.foldr_cons, String.toList_append, String.toList_append, List.length_append,
        List.length_append, List.length_cons]
      show rest.length + 1 ≤ name.toList.length + 1 + _
      omega
  have text : s.directories.length ≤ s.text.toList.length := long _ _
  have deep : s.module.length ≤ s.directories.length + 1 := by
    rw [← byNames.within, Site.within]
    split
    · exact Nat.le_succ _
    · rw [List.length_append]
      exact Nat.le_refl _
  rw [path, ends.join byNames.relative, List.length_append, List.length_cons]
  omega

end ByNames

end Site

/-! ## Declared modules -/

namespace Crate

variable {c : Crate} {s next next' : Site} {name : String}

/-- A declared module has one site. -/
theorem Refers.unique (refers : c.Refers s name next) (refers' : c.Refers s name next') :
    next = next' := by
  cases refers with
  | flat there =>
    cases refers' with
    | flat _ => rfl
    | nested absent _ =>
      rw [there] at absent
      cases absent
  | nested absent _ =>
    cases refers' with
    | flat there =>
      rw [there] at absent
      cases absent
    | nested _ _ => rfl

theorem Refers.module_eq (refers : c.Refers s name next) : next.module = s.module ++ [name] := by
  cases refers <;> rfl

theorem Refers.isFile (refers : c.Refers s name next) :
    c.files.isFile (next.path c.directory) = true := by
  cases refers with
  | flat there => exact there
  | nested _ there => exact there

theorem Refers.byNames (refers : c.Refers s name next) (byNames : s.ByNames)
    (isName : IsName name) : next.ByNames := by
  cases refers with
  | flat _ => exact byNames.flat isName
  | nested _ _ => exact byNames.nested isName

variable (byNames : s.ByNames) (ends : PathText.EndsInName c.directory)
include byNames ends

theorem shown_path : c.shown (s.path c.directory) = s.text := by
  rw [shown, byNames.below?_path ends]
  exact String.ofList_toList

variable {d : Declaration} (isName : IsName d.name) (unset : d.path? = none)
include isName unset

/-- Without an attribute, a declaration leads the walk to the site of the module. -/
theorem resolve_of_refers (refers : c.Refers s d.name next) :
    c.resolve (s.visit c.directory) d = .ok (next.visit c.directory) := by
  rw [resolve_eq_ok_iff, byNames.places isName ends]
  refine .inr ⟨unset, ?_⟩
  cases refers with
  | flat there => exact List.find?_cons_of_pos there
  | nested absent there =>
    refine Eq.trans (List.find?_cons_of_neg ?_) (List.find?_cons_of_pos there)
    exact ne_true_of_eq_false absent

/-- A declared module that has no site is missed by the walk. -/
theorem resolve_of_lost (lost : ∀ next, ¬c.Refers s d.name next) :
    c.resolve (s.visit c.directory) d =
      .error (.missingModule (ModulePath.text (s.module ++ [d.name])) s.text) := by
  have flat : c.files.isFile ((s.flat d.name).path c.directory) = false :=
    Bool.eq_false_iff.2 fun there => lost _ (.flat there)
  have nested : c.files.isFile ((s.nested d.name).path c.directory) = false :=
    Bool.eq_false_iff.2 fun there => lost _ (.nested flat there)
  have missed : (places (s.visit c.directory) d.name).find?
      (fun place => c.files.isFile place.file) = none := by
    rw [byNames.places isName ends]
    refine List.find?_eq_none.2 fun place among => ?_
    simp only [List.mem_cons, List.not_mem_nil, or_false] at among
    rcases among with rfl | rfl
    · exact ne_true_of_eq_false flat
    · exact ne_true_of_eq_false nested
  have free : setPlace? (s.visit c.directory) d = none := by
    unfold setPlace?
    rw [show d.attributes.findSome? Attribute.file? = none from unset]
    rfl
  have shown : c.shown (s.visit c.directory).file = s.text := shown_path byNames ends
  rw [resolve, free]
  simp only [missed, shown]
  rfl

end Crate

end CoinLedger.Layering
