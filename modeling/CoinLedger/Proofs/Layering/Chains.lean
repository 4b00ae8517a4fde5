import CoinLedger.Proofs.Layering.Sites
import CoinLedger.Proofs.Layering.Termination

/-!
# Chains of declarations

A chain of declarations is told by numbers: which of the modules that the root file declares, which
of those that the file of that one declares, and so on.  Chains have two orders.  A walk comes upon
them in the order of the numbers, where a chain stands before all that continue it, so it ends with
the trouble whose chain is the least.  But a module is found only after those below it, so what is
found is listed in the other order, where a chain stands after all that continue it.

A walk comes to the least trouble, or else to the sources on all chains (`Crate.Outcome`).  What it
comes to from one site is put together from what it comes to from the sites of the declared modules:
what is left for it once it has gone through some of the declarations is what lies on the chains
that begin from the next one on (`BeginsFrom`).

## Main definitions

* `Crate.Chain` — chains of declarations from site to site.
* `Crate.SourceOn`, `Crate.Trouble` — what is at their ends.
* `ListedBefore`, `Crate.Outcome` — the order of the modules, and what a walk comes to.

## Main results

* `Crate.outcome_nil`, `Crate.outcome_lost`, `Crate.outcome_stopped`, `Crate.outcome_append` — what
  the declarations of a file come to, one after the other.
* `Crate.outcome_refused`, `Crate.outcome_opened` — what a file comes to.
-/

namespace CoinLedger.Layering

open Relation

/-- The order in which modules are listed, given the chains that lead to them: a module stands after
those below it, and otherwise they stand as they are declared. -/
def ListedBefore : List Nat → List Nat → Prop
  | [], _ => False
  | _ :: _, [] => True
  | i :: is, j :: js => i < j ∨ i = j ∧ ListedBefore is js

/-- The chains that begin with a declaration from a number on. -/
def BeginsFrom (k : Nat) : List Nat → Prop
  | [] => False
  | i :: _ => k ≤ i

section BeginsFrom

variable {k : Nat} {chain : List Nat}

theorem beginsFrom_cons (is : List Nat) : BeginsFrom k (k :: is) := Nat.le_refl k

theorem beginsFrom_iff :
    BeginsFrom k chain ↔ (∃ is, chain = k :: is) ∨ BeginsFrom (k + 1) chain := by
  cases chain with
  | nil => simp [BeginsFrom]
  | cons i is =>
    show k ≤ i ↔ (∃ is', i :: is = k :: is') ∨ k < i
    rw [Nat.le_iff_lt_or_eq]
    simp [or_comm, eq_comm]

/-- A chain that begins later stands later in both orders. -/
theorem BeginsFrom.after (begins : BeginsFrom (k + 1) chain) (is : List Nat) :
    k :: is < chain ∧ ListedBefore (k :: is) chain := by
  cases chain with
  | nil => exact begins.elim
  | cons j js => exact ⟨List.cons_lt_cons_iff.2 (.inl begins), .inl begins⟩

end BeginsFrom

namespace Crate

/-- A chain of declarations leads from one site to another. -/
inductive Chain (c : Crate) : Site → List Nat → Site → Prop where
  | nil {s : Site} : Chain c s [] s
  | cons {s next last : Site} {contents : String} {outline : Outline} {d : Declaration} {i : Nat}
      {is : List Nat} : c.Opens (s.path c.directory) contents outline →
      outline.declarations[i]? = some d → c.Refers s d.name next → Chain c next is last →
      Chain c s (i :: is) last

/-- The source of the module to which a chain leads. -/
def SourceOn (c : Crate) (s : Site) (chain : List Nat) (source : Source) : Prop :=
  ∃ last contents outline, c.Chain s chain last ∧
    c.Opens (last.path c.directory) contents outline ∧ source = ⟨last.module, last.text, contents⟩

/-- What is wrong with the file at a site, or with the declaration of some number in it. -/
inductive Fault (c : Crate) (s : Site) : List Nat → LintError → Prop where
  | unreadable {cause : ReadFailure} : c.files.read (s.path c.directory) = .error cause →
      Fault c s [] (.unreadable (String.ofList (s.path c.directory)) cause)
  | unparsable {contents detail : String} : c.files.read (s.path c.directory) = .ok contents →
      c.parse contents = .error detail → Fault c s [] (.unparsable s.text detail)
  | missing {contents : String} {outline : Outline} {d : Declaration} {i : Nat} :
      c.Opens (s.path c.directory) contents outline → outline.declarations[i]? = some d →
      (∀ next, ¬c.Refers s d.name next) →
      Fault c s [i] (.missingModule (ModulePath.text (s.module ++ [d.name])) s.text)

/-- What is wrong at the end of a chain. -/
def Trouble (c : Crate) (s : Site) (chain : List Nat) (e : LintError) : Prop :=
  ∃ front last rest, c.Chain s front last ∧ c.Fault last rest e ∧ chain = front ++ rest

/-- What a walk comes to on some of the chains from a site: the sources on all of them, or the
trouble that it comes upon first. -/
inductive Outcome (c : Crate) (s : Site) (part : List Nat → Prop) : Walked → Prop where
  | found {entries : List (List Nat × Source)} :
      (∀ chain e, part chain → ¬c.Trouble s chain e) →
      entries.Pairwise (fun entry later => ListedBefore entry.1 later.1) →
      (∀ chain source, (chain, source) ∈ entries ↔ part chain ∧ c.SourceOn s chain source) →
      Outcome c s part (.ok (entries.map Prod.snd))
  | stopped {chain : List Nat} {e : LintError} : part chain → c.Trouble s chain e →
      (∀ chain' e', part chain' → c.Trouble s chain' e' →
        chain < chain' ∨ chain' = chain ∧ e' = e) →
      Outcome c s part (.error e)

variable {c : Crate} {s next last : Site} {i k : Nat} {is chain : List Nat} {e : LintError}
  {source : Source} {contents : String} {outline : Outline} {d : Declaration}

/-! ## The first step of a chain -/

theorem trouble_nil_iff : c.Trouble s [] e ↔ c.Fault s [] e := by
  constructor
  · rintro ⟨front, last, rest, chain, fault, whole⟩
    obtain ⟨rfl, rfl⟩ := List.nil_eq_append_iff.1 whole
    cases chain with
    | nil => exact fault
  · exact fun fault => ⟨[], s, [], .nil, fault, rfl⟩

section Opened

variable (opens : c.Opens (s.path c.directory) contents outline)
include opens

theorem chain_cons_iff : c.Chain s (i :: is) last ↔ ∃ d next,
    outline.declarations[i]? = some d ∧ c.Refers s d.name next ∧ c.Chain next is last := by
  constructor
  · intro chain
    cases chain with
    | cons opens' declared refers below =>
      obtain ⟨-, rfl⟩ := opens.unique opens'
      exact ⟨_, _, declared, refers, below⟩
  · rintro ⟨d, next, declared, refers, below⟩
    exact .cons opens declared refers below

theorem sourceOn_nil_iff : c.SourceOn s [] source ↔ source = ⟨s.module, s.text, contents⟩ := by
  constructor
  · rintro ⟨last, contents', outline', chain, opens', rfl⟩
    cases chain with
    | nil =>
      obtain ⟨rfl, -⟩ := opens.unique opens'
      rfl
  · rintro rfl
    exact ⟨s, contents, outline, .nil, opens, rfl⟩

theorem sourceOn_cons_iff : c.SourceOn s (i :: is) source ↔ ∃ d next,
    outline.declarations[i]? = some d ∧ c.Refers s d.name next ∧ c.SourceOn next is source := by
  constructor
  · rintro ⟨last, contents', outline', chain, own⟩
    obtain ⟨d, next, declared, refers, below⟩ := (chain_cons_iff opens).1 chain
    exact ⟨d, next, declared, refers, last, contents', outline', below, own⟩
  · rintro ⟨d, next, declared, refers, last, contents', outline', below, own⟩
    exact ⟨last, contents', outline', .cons opens declared refers below, own⟩

theorem not_fault_nil : ¬c.Fault s [] e := by
  rintro (refused | ⟨read, refused⟩)
  · rw [opens.1] at refused
    cases refused
  · obtain rfl := Except.ok.inj (opens.1.symm.trans read)
    rw [opens.2] at refused
    cases refused

theorem not_trouble_nil : ¬c.Trouble s [] e := mt trouble_nil_iff.1 (not_fault_nil opens)

/-- Nothing is wrong at a site if its file can be opened and all that it declares have sites. -/
theorem not_fault {rest : List Nat}
    (found : ∀ d ∈ outline.declarations, ∃ next, c.Refers s d.name next) : ¬c.Fault s rest e := by
  intro fault
  cases fault with
  | unreadable refused => exact not_fault_nil opens (.unreadable refused)
  | unparsable read refused => exact not_fault_nil opens (.unparsable read refused)
  | missing opens' declared lost =>
    obtain ⟨-, rfl⟩ := opens.unique opens'
    obtain ⟨next, refers⟩ := found _ (List.mem_of_getElem? declared)
    exact lost next refers

theorem trouble_cons_iff : c.Trouble s (i :: is) e ↔ ∃ d, outline.declarations[i]? = some d ∧
    ((∀ next, ¬c.Refers s d.name next) ∧ is = [] ∧
        e = .missingModule (ModulePath.text (s.module ++ [d.name])) s.text ∨
      ∃ next, c.Refers s d.name next ∧ c.Trouble next is e) := by
  constructor
  · rintro ⟨front, last, rest, chain, fault, whole⟩
    rcases List.cons_eq_append_iff.1 whole with ⟨rfl, rfl⟩ | ⟨front', rfl, rfl⟩
    · cases chain with
      | nil =>
        cases fault with
        | missing opens' declared lost =>
          obtain ⟨-, rfl⟩ := opens.unique opens'
          exact ⟨_, declared, .inl ⟨lost, rfl, rfl⟩⟩
    · obtain ⟨d, next, declared, refers, below⟩ := (chain_cons_iff opens).1 chain
      exact ⟨d, declared, .inr ⟨next, refers, front', last, rest, below, fault, rfl⟩⟩
  · rintro ⟨d, declared, ⟨lost, rfl, rfl⟩ | ⟨next, refers, front, last, rest, below, fault, rfl⟩⟩
    · exact ⟨[], s, [i], .nil, .missing opens declared lost, rfl⟩
    · exact ⟨i :: front, last, rest, .cons opens declared refers below, fault, rfl⟩

/-! ## Outcomes -/

/-- Past the last declaration of a file there is nothing. -/
theorem outcome_nil (all : outline.declarations.length ≤ k) :
    c.Outcome s (BeginsFrom k) (.ok []) := by
  have past : ∀ i d, k ≤ i → outline.declarations[i]? ≠ some d := by
    intro i d from_k declared
    obtain ⟨inside, -⟩ := List.getElem?_eq_some_iff.1 declared
    omega
  refine @Outcome.found c s (BeginsFrom k) [] ?_ .nil ?_
  · rintro (_ | ⟨i, is⟩) e begins trouble
    · exact begins
    · obtain ⟨d, declared, -⟩ := (trouble_cons_iff opens).1 trouble
      exact past i d begins declared
  · rintro (_ | ⟨i, is⟩) source
    · exact ⟨fun among => absurd among List.not_mem_nil, fun ⟨begins, _⟩ => begins.elim⟩
    · refine ⟨fun among => absurd among List.not_mem_nil, fun ⟨begins, found⟩ => ?_⟩
      obtain ⟨d, next, declared, -⟩ := (sourceOn_cons_iff opens).1 found
      exact absurd declared (past i d begins)

variable (declared : outline.declarations[k]? = some d)
include declared

/-- A declaration that has no site is the first trouble. -/
theorem outcome_lost (lost : ∀ next, ¬c.Refers s d.name next) : c.Outcome s (BeginsFrom k)
    (.error (.missingModule (ModulePath.text (s.module ++ [d.name])) s.text)) := by
  refine .stopped (beginsFrom_cons [])
    ((trouble_cons_iff opens).2 ⟨d, declared, .inl ⟨lost, rfl, rfl⟩⟩) ?_
  intro chain e' begins trouble
  rcases beginsFrom_iff.1 begins with ⟨is, rfl⟩ | later
  · obtain ⟨d', declared', here⟩ := (trouble_cons_iff opens).1 trouble
    obtain rfl := Option.some.inj (declared.symm.trans declared')
    rcases here with ⟨-, rfl, rfl⟩ | ⟨next, refers, -⟩
    · exact .inr ⟨rfl, rfl⟩
    · exact absurd refers (lost next)
  · exact .inl (later.after []).1

variable (refers : c.Refers s d.name next)
include refers

theorem sourceOn_declared_iff : c.SourceOn s (k :: is) source ↔ c.SourceOn next is source := by
  rw [sourceOn_cons_iff opens]
  constructor
  · rintro ⟨d', next', declared', refers', below⟩
    obtain rfl := Option.some.inj (declared.symm.trans declared')
    exact refers.unique refers' ▸ below
  · exact fun below => ⟨d, next, declared, refers, below⟩

theorem trouble_declared_iff : c.Trouble s (k :: is) e ↔ c.Trouble next is e := by
  rw [trouble_cons_iff opens]
  constructor
  · rintro ⟨d', declared', here⟩
    obtain rfl := Option.some.inj (declared.symm.trans declared')
    rcases here with ⟨lost, -⟩ | ⟨next', refers', below⟩
    · exact absurd refers (lost next)
    · exact refers.unique refers' ▸ below
  · exact fun below => ⟨d, declared, .inr ⟨next, refers, below⟩⟩

/-- The first trouble below a declaration is the first one from there on. -/
theorem outcome_stopped (below : c.Outcome next (fun _ => True) (.error e)) :
    c.Outcome s (BeginsFrom k) (.error e) := by
  cases below with
  | @stopped chain _ _ trouble first =>
    refine .stopped (beginsFrom_cons chain)
      ((trouble_declared_iff opens declared refers).2 trouble) ?_
    intro chain' e' begins trouble'
    rcases beginsFrom_iff.1 begins with ⟨is, rfl⟩ | later
    · have inner := (trouble_declared_iff opens declared refers).1 trouble'
      rcases first is e' trivial inner with later | ⟨rfl, rfl⟩
      · exact .inl (List.cons_lt_cons_iff.2 (.inr ⟨rfl, later⟩))
      · exact .inr ⟨rfl, rfl⟩
    · exact .inl (later.after chain).1

/-- What is found below a declaration is followed by what is found from the next one on. -/
theorem outcome_append {found : List Source} {walked : Walked}
    (below : c.Outcome next (fun _ => True) (.ok found))
    (later : c.Outcome s (BeginsFrom (k + 1)) walked) :
    c.Outcome s (BeginsFrom k) (walked.map (found ++ ·)) := by
  have through : ∀ is source, c.SourceOn s (k :: is) source ↔ c.SourceOn next is source :=
    fun is source => sourceOn_declared_iff opens declared refers
  cases below with
  | @found entries clear ordered complete =>
    have clear : ∀ is e, ¬c.Trouble s (k :: is) e := fun is e trouble =>
      clear is e trivial ((trouble_declared_iff opens declared refers).1 trouble)
    cases later with
    | stopped begins trouble first =>
      refine .stopped (beginsFrom_iff.2 (.inr begins)) trouble ?_
      intro chain' e' begins' trouble'
      rcases beginsFrom_iff.1 begins' with ⟨is, rfl⟩ | later
      · exact absurd trouble' (clear is e')
      · exact first chain' e' later trouble'
    | @found entries' clear' ordered' complete' =>
      -- The entries from below, with the declaration put before their chains.
      let longer := entries.map fun entry => (k :: entry.1, entry.2)
      have joined : (longer ++ entries').map Prod.snd =
          entries.map Prod.snd ++ entries'.map Prod.snd := by
        simp [longer]
      show c.Outcome s (BeginsFrom k) (.ok (entries.map Prod.snd ++ entries'.map Prod.snd))
      rw [← joined]
      refine .found ?_ (List.pairwise_append.2 ⟨?_, ordered', ?_⟩) ?_
      · intro chain e begins trouble
        rcases beginsFrom_iff.1 begins with ⟨is, rfl⟩ | later
        · exact clear is e trouble
        · exact clear' chain e later trouble
      · exact List.pairwise_map.2 (ordered.imp fun before => .inr ⟨rfl, before⟩)
      · rintro entry among ⟨chain, source⟩ among'
        obtain ⟨inner, -, rfl⟩ := List.mem_map.1 among
        exact (((complete' chain source).1 among').1.after inner.1).2
      · intro chain source
        rw [List.mem_append, complete', List.mem_map]
        constructor
        · rintro (⟨⟨is, source'⟩, inside, same⟩ | ⟨begins, on⟩)
          · cases same
            exact ⟨beginsFrom_cons is, (through _ _).2 ((complete is source').1 inside).2⟩
          · exact ⟨beginsFrom_iff.2 (.inr begins), on⟩
        · rintro ⟨begins, on⟩
          rcases beginsFrom_iff.1 begins with ⟨is, rfl⟩ | later
          · exact .inl ⟨(is, source), (complete _ _).2 ⟨trivial, (through _ _).1 on⟩, rfl⟩
          · exact .inr ⟨later, on⟩

end Opened

/-- The module of a file is found after all that its declarations lead to. -/
theorem outcome_opened {walked : Walked} (opens : c.Opens (s.path c.directory) contents outline)
    (below : c.Outcome s (BeginsFrom 0) walked) :
    c.Outcome s (fun _ => True) (walked.map (· ++ [⟨s.module, s.text, contents⟩])) := by
  have clear : ∀ e, ¬c.Trouble s [] e := fun e => not_trouble_nil opens
  cases below with
  | stopped begins trouble first =>
    refine .stopped trivial trouble ?_
    rintro (_ | ⟨i, is⟩) e' - trouble'
    · exact absurd trouble' (clear e')
    · exact first _ e' (Nat.zero_le i) trouble'
  | @found entries clear' ordered complete =>
    let own : Source := ⟨s.module, s.text, contents⟩
    have joined : (entries ++ [([], own)]).map Prod.snd = entries.map Prod.snd ++ [own] := by
      simp
    show c.Outcome s _ (.ok (entries.map Prod.snd ++ [own]))
    rw [← joined]
    refine .found ?_ (List.pairwise_append.2 ⟨ordered, List.pairwise_singleton _ _, ?_⟩) ?_
    · rintro (_ | ⟨i, is⟩) e - trouble
      · exact clear e trouble
      · exact clear' (i :: is) e (Nat.zero_le i) trouble
    · rintro ⟨_ | ⟨i, is⟩, source⟩ among later among'
      · exact (((complete _ _).1 among).1).elim
      · rw [List.mem_singleton.1 among']
        exact trivial
    · rintro (_ | ⟨i, is⟩) source
      · rw [sourceOn_nil_iff opens]
        simp [complete, BeginsFrom, own]
      · simp [complete, BeginsFrom]

variable (byNames : s.ByNames) (ends : PathText.EndsInName c.directory)
include byNames ends

theorem fault_nil_iff : c.Fault s [] e ↔ c.openFile (s.path c.directory) = .error e := by
  unfold openFile
  rw [shown_path byNames ends]
  constructor
  · intro fault
    cases fault with
    | unreadable refused => rw [refused]
    | unparsable read refused => simp only [read, refused]
  · intro refused
    cases hread : c.files.read (s.path c.directory) with
    | error cause =>
      rw [hread] at refused
      cases refused
      exact .unreadable hread
    | ok contents =>
      simp only [hread] at refused
      cases hparse : c.parse contents with
      | error detail =>
        simp only [hparse] at refused
        cases refused
        exact .unparsable hread hparse
      | ok outline =>
        simp only [hparse] at refused
        cases refused

/-- A file that cannot be opened is the first trouble from there on. -/
theorem outcome_refused (refused : c.openFile (s.path c.directory) = .error e) :
    c.Outcome s (fun _ => True) (.error e) := by
  have trouble := fun e' => trouble_nil_iff.trans (fault_nil_iff (e := e') byNames ends)
  refine .stopped trivial ((trouble e).2 refused) ?_
  rintro (_ | ⟨i, is⟩) e' - trouble'
  · exact .inr ⟨rfl, Except.error.inj (((trouble e').1 trouble').symm.trans refused)⟩
  · exact .inl (List.nil_lt_cons i is)

end Crate

end CoinLedger.Layering
