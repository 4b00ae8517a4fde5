import CoinLedger.Proofs.Ledger.Inventory
import CoinLedger.Proofs.Ledger.Reconciliation

/-!
# What a view adds up to

A view shows a balance, an inventory and named transfers.  Where these come from a store, its totals
are those of the logs of the store: the names do not matter for the amounts, and the inventory,
priced by name, costs what the receipts did, as long as no two goods have one name.

## Main definitions

* `AccountInfo.Reconciles` — a view adds up by itself.

## Main results

* `UseCase.received_assemble`, `UseCase.sent_assemble`, `UseCase.spent_assemble` — the totals.
* `UseCase.reconciles_assemble_iff` — when a view adds up whose parts are of different stores.
-/

namespace CoinLedger

/-- Whether a view adds up: the balance, with what went out and what was spent, is the seed with
what came in. -/
def AccountInfo.Reconciles (goods : List Good) (seed : Coins) (a : AccountInfo) : Prop :=
  a.balance.toNat + a.sent + a.spent goods = seed.toNat + a.received

instance (goods : List Good) (seed : Coins) (a : AccountInfo) :
    Decidable (a.Reconciles goods seed) := inferInstanceAs (Decidable (_ = _))

/-! ## Totals over lists that are made from others -/

section
variable {α β : Type}

theorem totalOf_map (f : α → Nat) (g : β → α) (xs : List β) :
    totalOf f (xs.map g) = totalOf (fun x => f (g x)) xs := by
  induction xs with
  | nil => rfl
  | cons x rest ih => rw [List.map_cons, totalOf_cons, totalOf_cons, ih]

theorem totalOf_filterMap (f : α → Nat) (g : β → Option α) (xs : List β) :
    totalOf f (xs.filterMap g) = totalOf (fun x => ((g x).map f).getD 0) xs := by
  induction xs with
  | nil => rfl
  | cons x rest ih => cases h : g x <;> simp [h, ih]

theorem totalOf_filter (f : α → Nat) (p : α → Bool) (xs : List α) :
    totalOf f (xs.filter p) = totalOf (fun x => if p x then f x else 0) xs := by
  induction xs with
  | nil => rfl
  | cons x rest ih => cases h : p x <;> simp [h, ih]

end

/-- Writing an entry adds what it counts for and takes away what the one in its place did. -/
theorem SortedMap.totalOf_insert {κ ν : Type} [LT κ] [LE κ] [Std.IsLinearOrder κ]
    [Std.LawfulOrderLT κ] [DecidableLT κ] [DecidableEq κ] (f : κ × ν → Nat) (m : SortedMap κ ν)
    (k : κ) (v : ν) :
    totalOf f (m.insert k v).entries + ((m.get? k).map fun w => f (k, w)).getD 0 =
      totalOf f m.entries + f (k, v) := by
  obtain ⟨es, hes⟩ := m
  show totalOf f (insertEntry k v es) +
    (((es.find? fun e => e.1 = k).map Prod.snd).map fun w => f (k, w)).getD 0 = _
  induction es with
  | nil => exact Nat.add_comm _ _
  | cons e rest ih =>
    rw [List.pairwise_cons] at hes
    have tail := ih hes.2
    simp only [totalOf_cons] at tail ⊢
    rw [insertEntry]
    split
    · next before =>
      -- Nothing behind the new entry has its key.
      have absent : (e :: rest).find? (fun e => e.1 = k) = none := by
        refine List.find?_eq_none.2 fun x hx => ?_
        have later : k < x.1 := by
          rcases List.mem_cons.1 hx with rfl | hx
          · exact before
          · exact Std.lt_trans before (hes.1 x hx)
        simp only [decide_eq_true_eq]
        rintro rfl
        exact Std.lt_irrefl later
      rw [absent, totalOf_cons, totalOf_cons]
      exact Nat.add_comm (f (k, v)) _
    · split
      · next behind =>
        have other : e.1 ≠ k := by
          intro h
          exact Std.lt_irrefl (h ▸ behind)
        rw [List.find?_cons_of_neg (by simpa using other), totalOf_cons]
        omega
      · next ahead behind =>
        obtain rfl := eq_of_not_lt ahead behind
        rw [List.find?_cons_of_pos (by simp), totalOf_cons, Option.map_some, Option.map_some,
          Option.getD_some]
        show f (e.1, v) + totalOf f rest + f e = _
        omega

namespace Inventory

/-- What the pieces of an inventory cost. -/
def cost (price : String → Nat) (i : Inventory) : Nat :=
  totalOf (fun line => line.2 * price line.1) i.entries

theorem cost_addOne (price : String → Nat) (i : Inventory) (name : String) :
    (i.addOne name).cost price = i.cost price + price name := by
  have before : ((i.get? name).map fun w => w * price name).getD 0 =
      i.quantity name * price name := by
    unfold quantity
    cases i.get? name <;> simp
  have written : (i.addOne name).cost price + i.quantity name * price name =
      i.cost price + (i.quantity name + 1) * price name := by
    rw [← before]
    exact i.totalOf_insert (fun line => line.2 * price line.1) name (i.quantity name + 1)
  rw [Nat.add_mul, Nat.one_mul] at written
  omega

/-- A tally costs what its pieces do. -/
theorem cost_tally (price : String → Nat) (names : List String) :
    (tally names).cost price = totalOf price names := by
  have counted : ∀ i : Inventory,
      (names.foldl addOne i).cost price = i.cost price + totalOf price names := by
    induction names with
    | nil => exact fun i => rfl
    | cons name rest ih =>
      intro i
      rw [List.foldl_cons, ih, cost_addOne, totalOf_cons, Nat.add_assoc]
  exact (counted SortedMap.empty).trans (Nat.zero_add _)

end Inventory

/-! ## The parts of a store -/

namespace Store

variable (s : Store) (u : UserId)

theorem received_history :
    totalOf (fun e => e.amount.toNat) (s.history u).incoming = received u s.transfers := by
  rw [history, totalOf_filterMap, received]
  congr 1
  funext t
  split <;> rfl

theorem sent_history :
    totalOf (fun e => e.amount.toNat) (s.history u).outgoing = sent u s.transfers := by
  rw [history, totalOf_filterMap, sent]
  congr 1
  funext t
  split <;> rfl

variable {s} in
/-- Priced by name, an inventory costs what was paid for the receipts. -/
theorem cost_inventory (distinct : (s.goods.map Good.name).Nodup) (u : UserId) :
    (s.inventory u).cost (AccountInfo.priceOfNamed s.goods) = spent s.goods u s.purchases := by
  have price : ∀ p : Purchase, (((s.goodOf? p.good).map Good.name).map
      (AccountInfo.priceOfNamed s.goods)).getD 0 = priceOf s.goods p.good := by
    intro p
    unfold goodOf? priceOf
    cases hg : s.goods.find? fun g => g.id = p.good with
    | none => rfl
    | some g =>
      have named := find?_of_mem distinct (List.mem_of_find?_eq_some hg)
      simp [AccountInfo.priceOfNamed, named]
  rw [inventory_eq_tally, Inventory.cost_tally, bought, totalOf_filterMap, totalOf_filter, spent]
  congr 1
  funext p
  simp only [price, decide_eq_true_eq]

end Store

/-! ## The view -/

namespace UseCase

variable {goods : List Good} {s i t : Store} {u : UserId} {h : Holdings}
  (names : Names)

theorem received_assemble (hh : h.history = s.history u) :
    (assemble h names).received = CoinLedger.received u s.transfers := by
  rw [← Store.received_history, ← hh]
  exact totalOf_map _ _ _

theorem sent_assemble (hh : h.history = s.history u) :
    (assemble h names).sent = CoinLedger.sent u s.transfers := by
  rw [← Store.sent_history, ← hh]
  exact totalOf_map _ _ _

theorem spent_assemble (distinct : (goods.map Good.name).Nodup) (listed : s.goods = goods)
    (hi : h.inventory = s.inventory u) :
    (assemble h names).spent goods = CoinLedger.spent goods u s.purchases := by
  subst listed
  rw [← Store.cost_inventory distinct, ← hi]
  rfl

/-- A view of three stores adds up if their logs, each taken for its part, do. -/
theorem reconciles_assemble_iff (distinct : (goods.map Good.name).Nodup) (listed : i.goods = goods)
    (balance seed : Coins) :
    (assemble ⟨balance, i.inventory u, t.history u⟩ names).Reconciles goods seed ↔
      balance.toNat + CoinLedger.sent u t.transfers + CoinLedger.spent goods u i.purchases =
        seed.toNat + CoinLedger.received u t.transfers := by
  unfold AccountInfo.Reconciles
  rw [sent_assemble (s := t) (u := u) names rfl, received_assemble (s := t) (u := u) names rfl,
    spent_assemble names distinct listed (u := u) rfl]
  rfl

end UseCase

end CoinLedger
