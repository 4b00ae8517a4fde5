import CoinLedger.Interleaving
import CoinLedger.Proofs.Ledger.Rules
import CoinLedger.Proofs.Ledger.Units
import Mathlib.Logic.Relation

/-!
# The changes a store goes through

However many callers are at work, and whatever fails or is given up on the way, a store only ever
changes in one of three ways: a row is created with the seed, a listed good is bought, coins move
between two users (`Store.Change`).  This is said once here, as one lemma on a caller's turn
(`Task.step_changes`) and one on schedules (`System.after_changes`).  What is to hold in every
state that can be reached is then shown for these three changes and for nothing else.

The lemma on a turn needs to know that a caller which has looked a good up will buy that good, and
that one which is about to move coins moves them between two users.  A caller carries this
knowledge as the rules which the rest of its program obeys.

## Main results

* `Task.step_changes` — one turn is no change or one change.
* `System.after_changes` — a schedule is a sequence of changes, from any start of commands.
-/

namespace CoinLedger

/-! ## The three changes -/

/-- One change of a store. -/
inductive Store.Change (seed : Coins) : Store → Store → Prop where
  /-- A row is created, unless it is there. -/
  | provision (s : Store) (u : UserId) : Change seed s (s.insertIfAbsent u seed)
  /-- A listed good is paid for, and the receipt is written. -/
  | purchase {s : Store} {u : UserId} {g : Good} {balance rest : Coins} :
      g ∈ s.goods → s.balance? u = some balance → balance.sub? g.price = some rest →
      Change seed s ((s.setBalance u rest).addPurchase ⟨u, g.id⟩)
  /-- A positive amount moves between two users, and the transfer is written. -/
  | transfer {s : Store} {u v : UserId} {amount source rest target sum : Coins} :
      u ≠ v → 0 < amount.toNat → s.balance? u = some source → source.sub? amount = some rest →
      s.balance? v = some target → target.add? amount = some sum →
      Change seed s (((s.setBalance u rest).setBalance v sum).addTransfer ⟨u, v, amount⟩)

/-- No change, or one. -/
def Store.MayChange (seed : Coins) : Store → Store → Prop :=
  Relation.ReflGen (Store.Change seed)

/-- Any number of changes. -/
def Store.Changes (seed : Coins) : Store → Store → Prop :=
  Relation.ReflTransGen (Store.Change seed)

theorem Store.MayChange.changes {seed : Coins} {s s' : Store} (h : Store.MayChange seed s s') :
    Store.Changes seed s s' :=
  Relation.ReflGen.to_reflTransGen h

/-- The catalog never changes. -/
theorem Store.Change.goods_eq {seed : Coins} {s s' : Store} (h : Store.Change seed s s') :
    s'.goods = s.goods := by
  cases h <;> rfl

theorem Store.Changes.goods_eq {seed : Coins} {s s' : Store} (h : Store.Changes seed s s') :
    s'.goods = s.goods := by
  induction h with
  | refl => rfl
  | tail _ hc ih => rw [hc.goods_eq, ih]

/-- A unit of the ledger that commits is one change. -/
theorem LedgerUnit.change {seed : Coins} {s s' : Store} {w : Work LedgerError Unit}
    (hw : LedgerUnit (· ∈ s.goods) w) (h : w.commitIfOk s = (.ok (), s')) :
    Store.Change seed s s' := by
  cases hw with
  | purchase u listed =>
    obtain ⟨balance, rest, hb, hr, rfl⟩ := UseCase.purchase_commits_iff.1 h
    exact .purchase listed hb hr
  | movement hne positive =>
    obtain ⟨source, rest, target, sum, hs, hr, ht, hsum, rfl⟩ :=
      (UseCase.movement_commits_iff hne).1 h
    exact .transfer hne positive hs hr ht hsum

theorem LedgerUnit.strict {listed : Good → Prop} {w : Work LedgerError Unit}
    (hw : LedgerUnit listed w) : w.Strict := by
  cases hw with
  | purchase u _ => exact UseCase.strict_purchase u _
  | movement _ _ => exact UseCase.strict_movement _ _ _

/-! ## Calls -/

/-- The store answers as the rules of the ledger foresee. -/
theorem Store.call_answers (d : Directory) (seed : Coins) {s s' : Store} {c : Call} {a : c.Answer}
    (h : Store.call d c s = (.ok a, s')) : (ledgerRules seed (· ∈ s.goods)).answer c a := by
  cases c with
  | findGood name =>
    cases a with
    | none => trivial
    | some g =>
      simp only [Store.call, Prod.mk.injEq, Except.ok.injEq] at h
      exact List.mem_of_find?_eq_some h.1
  | _ => cases a <;> trivial

/-- A call that the rules allow creates a row with the seed or changes nothing. -/
theorem Store.call_changes (d : Directory) {seed : Coins} {listed : Good → Prop} (s : Store)
    {c : Call} (h : (ledgerRules seed listed).call c) :
    Store.MayChange seed s (Store.call d c s).2 := by
  cases c with
  | insertIfAbsent u amount =>
    obtain rfl : amount = seed := h
    exact .single (.provision s u)
  | _ => exact .refl

namespace Interleaving

/-! ## Turns -/

variable {α : Type} {seed : Coins}

/-- Whether a caller stays within rules from where it stands. -/
def Task.Obeys (k : Rules) : Task α → Prop
  | .active rest => rest.Obeys k
  | .reading _ _ next => ∀ r, (next r).Obeys k
  | .abandoned => True

theorem Task.collect_obeys {k : Rules} {u : UserId}
    {next : Except LedgerError Holdings → UseCase α} (h : ∀ r, (next r).Obeys k)
    (got : Except LedgerError Gathered) : (Task.collect u next got).Obeys k := by
  cases got with
  | error e => exact h _
  | ok g =>
    simp only [Task.collect]
    split
    · exact h _
    · exact h

/-- **One turn of one caller** changes the store in one of the three ways or not at all, and the
caller stays within the rules. -/
theorem Task.step_changes {d : Directory} {m : Move} (honest : m.Honest) {t : Task α} {s : Store}
    (ht : t.Obeys (ledgerRules seed (· ∈ s.goods))) :
    (t.step d m s).1.Obeys (ledgerRules seed (· ∈ s.goods)) ∧
      Store.MayChange seed s (t.step d m s).2 := by
  cases honest with
  | abandon => cases t <;> exact ⟨trivial, .refl⟩
  | read which hscript =>
    cases t with
    | reading u got next => exact ⟨Task.collect_obeys ht _, .refl⟩
    | _ => exact ⟨ht, .refl⟩
  | @go script hscript =>
    cases t with
    | reading u got next => exact ⟨ht, .refl⟩
    | abandoned => exact ⟨ht, .refl⟩
    | active rest =>
      cases rest with
      | done r => exact ⟨ht, .refl⟩
      | gather u next => exact ⟨ht, .refl⟩
      | call c next =>
        simp only [Task.step]
        rcases (hscript.call 0 c).apply_cases (Store.call d c) s with genuine | ⟨f, hf⟩
        · rw [genuine]
          refine ⟨?_, Store.call_changes d s ht.1⟩
          cases ha : (Store.call d c s).1 with
          | ok a => exact ht.2.2 a (Store.call_answers d seed (Prod.ext ha rfl))
          | error f => exact ht.2.1 f
        · rw [hf]
          exact ⟨ht.2.1 f, .refl⟩
      | transact w next =>
        simp only [Task.step]
        split
        · next ending s' c hw =>
          refine ⟨ht.2 _, ?_⟩
          rcases Work.conclude_outcome hscript ht.1.strict hw with ⟨a, -, hok⟩ | ⟨e, -, rfl⟩
          · exact .single (ht.1.change hok)
          · exact .refl
        · exact ⟨ht, .refl⟩

/-! ## Schedules -/

/-- Whether all callers stay within the rules of the ledger, as its catalog stands. -/
def System.Lawful (seed : Coins) (y : System α) : Prop :=
  ∀ t ∈ y.tasks, t.Obeys (ledgerRules seed (· ∈ y.store.goods))

/-- One turn of a system is no change or one change. -/
theorem System.step_changes {d : Directory} {y : System α} (hy : y.Lawful seed) {t : Turn}
    (honest : t.move.Honest) :
    (y.step d t).Lawful seed ∧ Store.MayChange seed y.store (y.step d t).store := by
  unfold System.step
  split
  · exact ⟨hy, .refl⟩
  · next task htask =>
    have mem : task ∈ y.tasks := List.mem_of_getElem? htask
    obtain ⟨hobeys, hchanges⟩ := Task.step_changes (d := d) honest (hy task mem)
    refine ⟨fun x hx => ?_, hchanges⟩
    rw [show (task.step d t.move y.store).2.goods = y.store.goods from
      hchanges.changes.goods_eq]
    rcases List.mem_or_eq_of_mem_set hx with hx | rfl
    · exact hy x hx
    · exact hobeys

/-- A schedule is a sequence of changes. -/
theorem System.after_changes {d : Directory} {y : System α} (hy : y.Lawful seed)
    {schedule : Schedule} (honest : ∀ t ∈ schedule, t.move.Honest) :
    (y.after d schedule).Lawful seed ∧
      Store.Changes seed y.store (y.after d schedule).store := by
  refine System.after_induction
    (I := fun z => z.Lawful seed ∧ Store.Changes seed y.store z.store) ?_ ⟨hy, .refl⟩
  rintro z ⟨hz, hchanges⟩ t ht
  obtain ⟨hz', hstep⟩ := System.step_changes (d := d) hz (honest t ht)
  exact ⟨hz', hchanges.trans hstep.changes⟩

/-- Commands that are about to begin are within the rules. -/
theorem System.lawful_starting (seed : Coins) (commands : List Command) (s : Store) :
    (System.starting (commands.map (Command.program seed)) s).Lawful seed := by
  intro t ht
  simp only [System.starting, List.mem_map] at ht
  obtain ⟨p, ⟨c, -, rfl⟩, rfl⟩ := ht
  exact c.program_obeys seed _

end Interleaving

end CoinLedger
