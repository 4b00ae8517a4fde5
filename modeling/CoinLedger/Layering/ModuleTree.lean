import CoinLedger.Layering.Discovery
/-!
# Module trees

Which modules belong to a crate is laid down by the linted language, whether or not a walk finds
them. A module may be declared to be in another file at the top of a file or inside modules in
place, whose names, or the directories that attributes set for them, lead to it. A file that an
attribute sets owns its directory whatever it is called. The mark of a raw name is no part of the
name.

## Main definitions

* `Declares` — a declaration, and the modules in place around it.
* `Crate.PlacedAt` — where the language looks for a declared module.
* `Crate.HasModule` — which modules the file of a module declares.
* `Crate.Compiles` — the modules of a crate.
* `Crate.Accepted` — whether the language accepts a crate.
-/

namespace CoinLedger.Layering

/-- A name without the mark of raw names. -/
def bareName (name : String) : String :=
  match name.toList with
  | 'r' :: '#' :: rest => String.ofList rest
  | _ => name

/-- The path that an attribute sets for a declared module. -/
def Declaration.path? (d : Declaration) : Option String := d.attributes.findSome? Attribute.file?

/-- Some nodes declare a module that is in another file, within some modules in place. Nothing of it
is test code. -/
inductive Declares : List Node → List Declaration → Declaration → Prop where
  | here {nodes body : List Node} {name : String} {attributes : List Attribute} :
      .item (.module name false) attributes body ∈ nodes →
      ¬ attributes.any Attribute.marksTest → Declares nodes [] ⟨name, attributes⟩
  | within {nodes body : List Node} {name : String} {attributes : List Attribute}
      {around : List Declaration} {d : Declaration} :
      .item (.module name true) attributes body ∈ nodes →
      ¬ attributes.any Attribute.marksTest → Declares body around d →
      Declares nodes (⟨name, attributes⟩ :: around) d

namespace Crate

/-- Two directories: the one that paths set by attributes are counted from, and the one that files
are looked for in by name. -/
structure Bases where
  set : List Char
  named : List Char

/-- The directories for what is declared in modules in place of a file. They are the same once there
is such a module: its own directory, which an attribute may set. -/
def basesWithin (v : Visit) (around : List Declaration) : Bases :=
  around.foldl (fun bases m =>
    let directory :=
      match m.path? with
      | some path => PathText.join bases.set path.toList
      | none => PathText.join bases.named (bareName m.name).toList
    ⟨directory, directory⟩) ⟨PathText.parent v.file, childDirectory v⟩

/-- The path of a module that is declared within modules in place of another one. -/
def moduleWithin (v : Visit) (around : List Declaration) (d : Declaration) : ModulePath :=
  v.module ++ (around ++ [d]).map fun m => bareName m.name

/-- Where the language looks for a module that is declared in a file: at the path that an attribute
sets, or else in a file of its name, or in the file `mod.rs` of a directory of its name. -/
inductive PlacedAt (c : Crate) (v : Visit) (around : List Declaration) (d : Declaration) :
    Visit → Prop where
  | set {path : String} :
      d.path? = some path →
      PlacedAt c v around d
        ⟨PathText.join (basesWithin v around).set path.toList, moduleWithin v around d, true⟩
  | flat {file : List Char} :
      d.path? = none →
      file = PathText.join (basesWithin v around).named (bareName d.name ++ ".rs").toList →
      c.files.isFile file →
      PlacedAt c v around d ⟨file, moduleWithin v around d, false⟩
  | nested {file : List Char} :
      d.path? = none →
      file = PathText.join (PathText.join (basesWithin v around).named (bareName d.name).toList)
        "mod.rs".toList →
      c.files.isFile file →
      PlacedAt c v around d ⟨file, moduleWithin v around d, true⟩

/-- A file is a source with a text and an outline. -/
def Opens (c : Crate) (file : List Char) (contents : String) (outline : Outline) : Prop :=
  c.files.read file = .ok contents ∧ c.parse contents = .ok outline

/-- The file of a module declares another module that is at a place. -/
def HasModule (c : Crate) (v place : Visit) : Prop :=
  ∃ contents outline around d, c.Opens v.file contents outline ∧
    Declares outline.nodes around d ∧ c.PlacedAt v around d place

/-- The modules of a crate, beginning with its root. -/
inductive Compiles (c : Crate) : Visit → Prop where
  | root : Compiles c c.rootVisit
  | declared {v place : Visit} : Compiles c v → c.HasModule v place → Compiles c place

/-- A crate that the language accepts: the files of its modules are sources, and each module that
they declare is at one place. -/
structure Accepted (c : Crate) : Prop where
  opens {v : Visit} : c.Compiles v → ∃ contents outline, c.Opens v.file contents outline
  placed {v : Visit} {contents : String} {outline : Outline} {around : List Declaration}
    {d : Declaration} : c.Compiles v → c.Opens v.file contents outline →
    Declares outline.nodes around d →
    ∃ place, c.PlacedAt v around d place ∧ ∀ other, c.PlacedAt v around d other → other = place

end Crate

/-- The modules declared at the top of a file are the declarations within no other module. -/
theorem mem_declarations_iff {o : Outline} {d : Declaration} :
    d ∈ o.declarations ↔ Declares o.nodes [] d := by
  constructor
  · intro h
    obtain ⟨node, hn, h⟩ := List.mem_filterMap.1 h
    match node, h with
    | .item (.module name false) attributes body, h =>
      by_cases ht : attributes.any Attribute.marksTest = true
      · simp [ht] at h
      · simp only [ht, Bool.false_eq_true, if_false, Option.some.injEq] at h
        exact h ▸ .here hn ht
  · intro h
    cases h with
    | here hn ht => exact List.mem_filterMap.2 ⟨_, hn, by simp [ht]⟩

end CoinLedger.Layering
