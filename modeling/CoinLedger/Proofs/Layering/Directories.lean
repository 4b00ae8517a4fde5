import CoinLedger.Proofs.Layering.Walk

/-!
# Directories of modules

A module that no attribute sets a file for is looked for in a directory that is its parent's own, by
its name.  The directory in which its own modules are looked for is then the directory of that name
(`Crate.childDirectory_flat`, `Crate.childDirectory_nested`): the two layouts differ in where the
file of the module lies, but not in where its modules are.  So each such step leads one directory
down.

Separators and dots at the end of a directory mean nothing, and `parent` drops them, so a directory
may come back shorter than it was given.  The lengths that are compared are those without them
(`PathText.trimEnd`).

## Main definitions

* `PathText.trimEnd` — a path without what means nothing at its end.
* `PathText.IsLast`, `IsName` — what may stand last in a path, and names of modules.

## Main results

* `PathText.IsLast.parent_join` — the directory of a joined path is what it was joined to.
* `Crate.deeper_of_unset` — without an attribute a step leads down.
-/

namespace CoinLedger.Layering

/-! ## Parts of joined paths -/

namespace PathText

/-- A path without separators and `.` at its end; a lone root stays. -/
def trimEnd (path : List Char) : List Char := (trimReversed path.reverse).reverse

/-- What may stand last in a path: it has no separators, and no dot at its end. -/
structure IsLast (base : List Char) : Prop where
  slash : '/' ∉ base
  filled : base ≠ []
  dot : base.getLast filled ≠ '.'

theorem length_trimReversed_le (path : List Char) : (trimReversed path).length ≤ path.length := by
  fun_induction trimReversed path with
  | case1 => exact Nat.le_refl _
  | case2 rest _ ih => exact Nat.le_succ_of_le ih
  | case3 rest ih => exact Nat.le_succ_of_le ih
  | case4 => exact Nat.le_refl _

theorem length_trimEnd_le (path : List Char) : (trimEnd path).length ≤ path.length := by
  have reversed := length_trimReversed_le path.reverse
  rw [List.length_reverse] at reversed
  rwa [trimEnd, List.length_reverse]

theorem trimReversed_cons {c : Char} {rest : List Char} (slash : c ≠ '/') (dot : c ≠ '.') :
    trimReversed (c :: rest) = c :: rest := by
  unfold trimReversed
  split <;> simp_all

namespace IsLast

variable {directory base : List Char}

theorem relative (last : IsLast base) : isAbsolute base = false :=
  decide_eq_false fun absolute => last.slash (List.mem_of_mem_head? absolute)

theorem trimReversed_append (last : IsLast base) (gap : List Char) :
    trimReversed (base.reverse ++ gap) = base.reverse ++ gap := by
  obtain ⟨slash, filled, dot⟩ := last
  have front : base.reverse = base.getLast filled :: base.dropLast.reverse := by
    have whole := congrArg List.reverse (List.dropLast_concat_getLast filled)
    rw [List.reverse_append] at whole
    exact whole.symm
  rw [front, List.cons_append]
  refine trimReversed_cons ?_ dot
  intro separator
  exact slash (separator ▸ List.getLast_mem filled)

/-- A joined path from its end: the name, and the directory behind a separator. -/
theorem exists_join (last : IsLast base) (directory : List Char) : ∃ gap : List Char,
    join directory base = gap.reverse ++ base ∧ gap.takeWhile (· ≠ '/') = [] ∧
      directory.length ≤ gap.length ∧ trimReversed gap = trimReversed directory.reverse := by
  unfold join
  rw [last.relative, if_neg Bool.false_ne_true]
  split
  · next ends =>
    refine ⟨directory.reverse, by rw [List.reverse_reverse], ?_, by simp, rfl⟩
    simp only [Bool.or_eq_true, decide_eq_true_eq] at ends
    rcases ends with rfl | closed
    · rfl
    · obtain ⟨front, rfl⟩ := List.getLast?_eq_some_iff.1 closed
      simp
  · next opened =>
    refine ⟨'/' :: directory.reverse, by simp, by simp, by simp, ?_⟩
    simp only [Bool.or_eq_true, decide_eq_true_eq, not_or] at opened
    obtain ⟨c, rest, hreverse⟩ := List.exists_cons_of_ne_nil (mt List.reverse_eq_nil_iff.1 opened.1)
    rw [hreverse]
    rfl

/-- The directory of a joined path is what it was joined to, and its last component is the name. -/
theorem parts_join (last : IsLast base) (directory : List Char) :
    parent (join directory base) = trimEnd directory ∧
      lastComponent (join directory base) = base := by
  obtain ⟨gap, joined, cut, -, trimmed⟩ := last.exists_join directory
  have own : ∀ c ∈ base.reverse, decide (c ≠ '/') = true := by
    intro c hc
    refine decide_eq_true fun separator => last.slash ?_
    exact separator ▸ List.mem_reverse.1 hc
  have rest : gap.dropWhile (· ≠ '/') = gap := by
    have whole := List.takeWhile_append_dropWhile (p := (· ≠ '/')) (l := gap)
    rwa [cut, List.nil_append] at whole
  have reversed : trimReversed (join directory base).reverse = base.reverse ++ gap := by
    rw [joined, List.reverse_append, List.reverse_reverse, last.trimReversed_append]
  constructor
  · rw [parent, reversed, List.dropWhile_append_of_pos own, rest, trimmed]
    rfl
  · rw [lastComponent, reversed, List.takeWhile_append_of_pos own, cut, List.append_nil,
      List.reverse_reverse]

theorem parent_join (last : IsLast base) (directory : List Char) :
    parent (join directory base) = trimEnd directory := (last.parts_join directory).1

/-- Nothing at the end of a joined path is without meaning. -/
theorem trimEnd_join (last : IsLast base) (directory : List Char) :
    trimEnd (join directory base) = join directory base := by
  obtain ⟨gap, joined, -, -, -⟩ := last.exists_join directory
  rw [trimEnd, joined, List.reverse_append, List.reverse_reverse, last.trimReversed_append,
    List.reverse_append, List.reverse_reverse]

theorem length_lt_join (last : IsLast base) (directory : List Char) :
    directory.length < (join directory base).length := by
  obtain ⟨gap, joined, -, enough, -⟩ := last.exists_join directory
  have some : 0 < base.length := List.length_pos_iff.2 last.filled
  rw [joined, List.length_append, List.length_reverse]
  omega

end IsLast

end PathText

/-! ## Names of modules -/

/-- A name of a module: it has characters, none of which is a separator or a dot. -/
structure IsName (name : String) : Prop where
  filled : name.toList ≠ []
  slash : '/' ∉ name.toList
  dot : '.' ∉ name.toList

namespace IsName

open PathText

variable {name : String}

theorem isLast (isName : IsName name) : IsLast name.toList where
  slash := isName.slash
  filled := isName.filled
  dot ends := isName.dot (ends ▸ List.getLast_mem isName.filled)

theorem isLast_file (isName : IsName name) : IsLast (name ++ ".rs").toList := by
  rw [String.toList_append]
  refine ⟨?_, by simp, by simp⟩
  intro separator
  rcases List.mem_append.1 separator with inside | ending
  · exact isName.slash inside
  · simp at ending

/-- The file of a module without its ending is the module's name. -/
theorem stem?_join (isName : IsName name) (directory : List Char) :
    stem? (join directory (name ++ ".rs").toList) = some name.toList := by
  obtain ⟨c, rest, hname⟩ := List.exists_cons_of_ne_nil isName.filled
  have base : lastComponent (join directory (name ++ ".rs").toList) =
      c :: (rest ++ ['.', 'r', 's']) := by
    rw [(isName.isLast_file.parts_join directory).2, String.toList_append, hname]
    rfl
  have dotless : '.' ∉ c :: rest := hname ▸ isName.dot
  have own : ∀ d ∈ ['s', 'r'], decide (d ≠ '.') = true := by simp
  rw [stem?, base, hname]
  split
  · next none => cases none
  · next ups =>
    obtain rfl := (List.cons.inj ups).1
    exact absurd List.mem_cons_self dotless
  · next other =>
    obtain ⟨rfl, rfl⟩ := List.cons.inj other
    rw [if_pos (by simp), List.reverse_append]
    show some (_ :: (((['s', 'r'] ++ '.' :: rest.reverse).dropWhile (· ≠ '.')).drop 1).reverse) = _
    rw [List.dropWhile_append_of_pos own]
    simp

end IsName

/-! ## Steps without attributes -/

namespace Crate

open PathText

variable {c : Crate} {v next : Visit} {d : Declaration} {name : String}

/-- The directory for the modules of a file that is named like its module. -/
theorem childDirectory_flat (isName : IsName name) (directory : List Char) (module : ModulePath) :
    childDirectory ⟨join directory (name ++ ".rs").toList, module, false⟩ =
      join (trimEnd directory) name.toList := by
  unfold childDirectory
  rw [isName.isLast_file.parent_join, isName.stem?_join]
  rfl

/-- The directory for the modules of a file that is in a directory named like its module. -/
theorem childDirectory_nested (isName : IsName name) (directory : List Char)
    (module : ModulePath) :
    childDirectory ⟨join (join directory name.toList) "mod.rs".toList, module, true⟩ =
      join directory name.toList := by
  have last : IsLast "mod.rs".toList := ⟨by decide, by decide, by decide⟩
  show parent (join (join directory name.toList) "mod.rs".toList) = join directory name.toList
  rw [last.parent_join, isName.isLast.trimEnd_join]

/-- Without an attribute the modules of the declared module are in a deeper directory. -/
theorem deeper_of_unset (isName : IsName d.name) (unset : d.path? = none)
    (step : c.resolve v d = .ok next) :
    (trimEnd (childDirectory v)).length < (trimEnd (childDirectory next)).length := by
  rcases resolve_eq_ok_iff.1 step with ⟨path, set, -⟩ | ⟨-, found⟩
  · rw [unset] at set
    cases set
  · have place : next ∈ places v d.name := List.mem_of_find?_eq_some found
    simp only [places, List.mem_cons, List.not_mem_nil, or_false] at place
    rcases place with rfl | rfl
    · rw [childDirectory_flat isName, isName.isLast.trimEnd_join]
      exact isName.isLast.length_lt_join _
    · rw [childDirectory_nested isName, isName.isLast.trimEnd_join]
      calc (trimEnd (childDirectory v)).length
        _ ≤ (childDirectory v).length := length_trimEnd_le _
        _ < (join (childDirectory v) d.name.toList).length := isName.isLast.length_lt_join _

end Crate

end CoinLedger.Layering
