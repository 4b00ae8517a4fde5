import CoinLedger.Database.Adapter
import CoinLedger.Database.Ledger
import CoinLedger.Proofs.Ledger.Inventory
import Mathlib.Data.List.Basic

/-!
# Tables read as a store

Tables that keep what the schema promises read as a store in memory (`Tables.Reads`).  Here each
statement is held against its counterpart in memory: a query, once its numbers have been converted,
answers what the store answers, and a change leaves tables that read as the store changed.

The columns are signed and amounts are not, so half of the amounts cannot be stored.  Queries never
meet one of these, since what is stored is stored already.  A change may: an amount that it carries
has to be one that can be stored, and so has every sum that it makes.  These are the only
conditions on top of those that the schema checks anyway.

Nothing here is about connections or transactions.

## Main definitions

* `Tables.Reads` — tables that are lawful and stand for a store.

## Main results

* `loadInventory_countPurchases`, `splitTransfers_findTransfers` — the two queries that are not a
  plain look-up.
* `Reads.insertBalance`, `Reads.decrement`, `Reads.increment`, `Reads.insertPurchase`,
  `Reads.insertTransfer` — the changes.
-/

namespace CoinLedger

theorem SortedMap.mapValues_insert {κ ν μ : Type} [LT κ] [LE κ] [Std.IsLinearOrder κ]
    [Std.LawfulOrderLT κ] [DecidableLT κ] [DecidableEq κ] (f : ν → μ) (m : SortedMap κ ν) (k : κ)
    (v : ν) : (m.insert k v).mapValues f = (m.mapValues f).insert k (f v) := by
  refine SortedMap.ext_get? fun j => ?_
  simp only [SortedMap.get?_mapValues, SortedMap.get?_insert]
  split <;> rfl

namespace Store

/-- A row that is there is left as it is. -/
theorem insertIfAbsent_of_some {s : Store} {u : UserId} {balance : Coins}
    (h : s.balance? u = some balance) (seed : Coins) : s.insertIfAbsent u seed = s := by
  have present : s.balances.contains u = true := (SortedMap.contains_iff _ _).2 ⟨balance, h⟩
  rw [insertIfAbsent, SortedMap.insertIfAbsent, if_pos present]

/-- A row that is missing is written. -/
theorem insertIfAbsent_of_none {s : Store} {u : UserId} (h : s.balance? u = none) (seed : Coins) :
    s.insertIfAbsent u seed = s.setBalance u seed := by
  have absent : s.balances.get? u = none := h
  simp [insertIfAbsent, SortedMap.insertIfAbsent, SortedMap.contains, absent, setBalance]

end Store

namespace Database

/-! ## Numbers that are amounts -/

theorem toNat_amountOf {n : Stored} (h : 0 ≤ n.toInt) : ((amountOf n).toNat : Int) = n.toInt := by
  have hlt : n.toInt < 9223372036854775808 := n.toInt_lt
  have exact_amount : ∃ c, ofStored? n = some c := by
    unfold ofStored? Coins.ofNat?
    rw [if_pos h, if_pos (by show n.toInt.toNat < 18446744073709551616; omega)]
    exact ⟨_, rfl⟩
  obtain ⟨c, hc⟩ := exact_amount
  rw [amountOf, hc, Option.getD_some]
  exact (ofStored?_eq_some_iff.1 hc).symm

/-- An amount that stands for a stored number can be stored. -/
theorem toNat_amountOf_lt (n : Stored) : (amountOf n).toNat < storedBound := by
  have hlt : n.toInt < 9223372036854775808 := n.toInt_lt
  by_cases h : 0 ≤ n.toInt
  · have := toNat_amountOf h
    show (amountOf n).toNat < 9223372036854775808
    omega
  · have hnone : ofStored? n = none := if_neg h
    rw [amountOf, hnone]
    decide

theorem load_eq {n : Stored} (h : 0 ≤ n.toInt) : load n = .ok (amountOf n) := by
  have hc : ofStored? n = some (amountOf n) := ofStored?_eq_some_iff.2 (toNat_amountOf h).symm
  rw [load, hc]

theorem exists_toStored? {c : Coins} (h : c.toNat < storedBound) : ∃ n, toStored? c = some n := by
  unfold toStored?
  rw [if_pos h]
  exact ⟨_, rfl⟩

theorem not_negative {n : Stored} (h : 0 ≤ n.toInt) : ¬n < 0 := by
  rw [Int64.lt_iff_toInt_lt]
  exact Int.not_lt.2 h

theorem toInt_sub_of_le {a b : Stored} (ha : 0 ≤ a.toInt) (h : a.toInt ≤ b.toInt) :
    (b - a).toInt = b.toInt - a.toInt := by
  have hb : b.toInt < 9223372036854775808 := b.toInt_lt
  rw [Int64.toInt_sub]
  exact Int.bmod_eq_of_le (by omega) (by omega)

theorem toInt_add_of_lt {a b : Stored} (ha : 0 ≤ a.toInt) (hb : 0 ≤ b.toInt)
    (h : a.toInt + b.toInt < storedBound) : (a + b).toInt = a.toInt + b.toInt := by
  have hsum : a.toInt + b.toInt < 9223372036854775808 := h
  rw [Int64.toInt_add]
  exact Int.bmod_eq_of_le (by omega) (by omega)

namespace Tables

theorem Lawful.balance {t : Tables} (lawful : t.Lawful) {u : UserId} {n : Stored}
    (h : t.balances.get? u = some n) : 0 ≤ n.toInt :=
  lawful.balances (u, n) (t.balances.mem_entries_iff.2 h)

/-! ## Reading -/

theorem loadOptional_findBalance {t : Tables} (lawful : t.Lawful) (u : UserId) :
    loadOptional (t.findBalance u) = .ok (t.ledger.balance? u) := by
  rw [findBalance, balance?_ledger]
  cases h : t.balances.get? u with
  | none => rfl
  | some n =>
    show (load n).map some = _
    rw [load_eq (lawful.balance h)]
    rfl

theorem loadRows_findBalances {t : Tables} (lawful : t.Lawful) (users : List UserId) :
    loadRows (t.findBalances users) = .ok (t.ledger.rows users) := by
  unfold findBalances Store.rows
  induction ascending users with
  | nil => rfl
  | cons u rest ih =>
    rw [List.filterMap_cons, List.filterMap_cons, balance?_ledger]
    cases h : t.balances.get? u with
    | none => exact ih
    | some n =>
      simp only [Option.map_some, loadRows, load_eq (lawful.balance h), ih]
      rfl

theorem loadGood_findGood {t : Tables} (lawful : t.Lawful) (name : String) :
    (match t.findGood name with
      | some r => (loadGood r).map some
      | none => .ok none) = .ok (t.ledger.findGood name) := by
  have hledger : t.ledger.findGood name = (t.findGood name).map GoodRow.good := by
    simp only [Store.findGood, ledger, findGood, List.find?_map]
    rfl
  rw [hledger]
  cases h : t.findGood name with
  | none => rfl
  | some r =>
    have hprice : 0 ≤ r.price.toInt := lawful.prices r (List.mem_of_find?_eq_some h)
    simp only [loadGood, load_eq hprice]
    rfl

end Tables

/-- Counts that are not negative are read as they are. -/
theorem loadInventory_counts (count : String → Nat) (names : List String) :
    ∃ i, loadInventory (names.map fun name => (name, (count name : Int))) = .ok i ∧
      ∀ name, i.get? name = if name ∈ names then some (count name) else none := by
  induction names with
  | nil => exact ⟨SortedMap.empty, rfl, fun name => rfl⟩
  | cons first rest ih =>
    obtain ⟨i, hi, hget⟩ := ih
    refine ⟨i.insert first (count first), ?_, fun name => ?_⟩
    · have hcount : ¬(count first : Int) < 0 := by omega
      rw [List.map_cons, loadInventory, if_neg hcount, hi]
      rfl
    · rw [SortedMap.get?_insert, hget]
      by_cases h : first = name
      · simp [h]
      · have hne : ¬name = first := fun h' => h h'.symm
        simp [h, hne]

namespace Tables

/-- The names that the database counts are those of the user's receipts. -/
theorem loadInventory_countPurchases (t : Tables) (user : UserId) :
    loadInventory (t.countPurchases user) = .ok (t.ledger.inventory user) := by
  have names : (t.purchases.filter fun p => p.buyer = user).filterMap t.nameOf? =
      t.ledger.bought user := by
    unfold Store.bought
    refine congrArg (List.filterMap · _) (funext fun p => ?_)
    simp only [nameOf?, Store.goodOf?, ledger, List.find?_map, Option.map_map]
    rfl
  obtain ⟨i, hi, hget⟩ := loadInventory_counts (fun name => (t.ledger.bought user).count name)
    (ascending (t.ledger.bought user))
  unfold countPurchases
  rw [names, hi, Store.inventory_eq_tally]
  refine congrArg Except.ok (SortedMap.ext_get? fun name => ?_)
  rw [hget, Inventory.get?_tally]
  simp only [mem_ascending]

end Tables

/-- Rows without negative amounts are split by direction, in their order. -/
theorem splitTransfers_eq (user : UserId) {rows : List TransferRow}
    (amounts : ∀ r ∈ rows, 0 ≤ r.amount.toInt) :
    splitTransfers user rows = .ok
      { incoming := rows.filterMap fun r =>
          if r.sender ≠ user ∧ r.recipient = user then some ⟨r.sender, amountOf r.amount⟩ else none
        outgoing := rows.filterMap fun r =>
          if r.sender = user then some ⟨r.recipient, amountOf r.amount⟩ else none } := by
  induction rows with
  | nil => rfl
  | cons r rest ih =>
    have hrest := ih fun r' h => amounts r' (List.mem_cons_of_mem r h)
    have hload := load_eq (amounts r List.mem_cons_self)
    simp only [splitTransfers, hload, hrest, List.filterMap_cons]
    by_cases hs : r.sender = user
    · simp [hs, bind, Except.bind, pure, Except.pure]
    · by_cases hr : r.recipient = user <;> simp [hs, hr, bind, Except.bind, pure, Except.pure]

namespace Tables

/-- A user's transfers are read as the ledger has them. -/
theorem splitTransfers_findTransfers {t : Tables} (lawful : t.Lawful) (user : UserId) :
    splitTransfers user (t.findTransfers user) = .ok (t.ledger.history user) := by
  have amounts : ∀ r ∈ t.findTransfers user, 0 ≤ r.amount.toInt := fun r h =>
    lawful.amounts r (List.mem_filter.1 h).1
  rw [splitTransfers_eq user amounts]
  unfold findTransfers Store.history ledger
  simp only [List.filterMap_filter, List.filterMap_map]
  congr 2
  · refine List.filterMap_congr fun r hr => ?_
    have hne := lawful.parties r hr
    by_cases hs : r.sender = user
    · have : ¬r.recipient = user := fun h => hne (hs.trans h.symm)
      simp [TransferRow.transfer, hs, this]
    · by_cases hv : r.recipient = user <;> simp [TransferRow.transfer, hs, hv]
  · refine List.filterMap_congr fun r hr => ?_
    by_cases hs : r.sender = user <;> simp [TransferRow.transfer, hs]

end Tables

/-! ## Changes -/

namespace Tables

/-- Tables that keep what the schema promises and read as a given store. -/
structure Reads (t : Tables) (m : Store) : Prop where
  lawful : t.Lawful
  ledger : t.ledger = m

theorem Reads.balance? {t : Tables} {m : Store} (h : t.Reads m) (u : UserId) :
    m.balance? u = (t.balances.get? u).map amountOf := by
  rw [← h.ledger, balance?_ledger]

/-- Writing an amount into a row. -/
theorem Reads.setBalance {t : Tables} {m : Store} (h : t.Reads m) (u : UserId) {n : Stored}
    {c : Coins} (hn : n.toInt = c.toNat) :
    ({ t with balances := t.balances.insert u n } : Tables).Reads (m.setBalance u c) where
  lawful :=
    { h.lawful with
      balances := fun e he => by
        rw [SortedMap.mem_entries_iff, SortedMap.get?_insert] at he
        split at he
        · obtain rfl : n = e.2 := Option.some.inj he
          omega
        · exact h.lawful.balance he }
  ledger := by
    have hc : amountOf n = c := by
      rw [amountOf, ofStored?_eq_some_iff.2 hn, Option.getD_some]
    rw [← h.ledger]
    simp only [Tables.ledger, Store.setBalance, SortedMap.mapValues_insert, hc]

/-- Provisioning with a seed that can be stored. -/
theorem Reads.insertBalance {t : Tables} {m : Store} (h : t.Reads m) (u : UserId) {seed : Coins}
    {n : Stored} (hn : toStored? seed = some n) :
    ∃ k t', t.insertBalance u n = .ok (k, t') ∧ t'.Reads (m.insertIfAbsent u seed) := by
  have hint := toInt_of_toStored? hn
  have hm := h.balance? u
  unfold Tables.insertBalance
  cases hu : t.balances.get? u with
  | some b =>
    rw [hu] at hm
    rw [if_pos (by simp [hu]), Store.insertIfAbsent_of_some hm]
    exact ⟨0, t, rfl, h⟩
  | none =>
    rw [hu] at hm
    rw [if_neg (by simp [SortedMap.contains, hu]), if_neg (not_negative (by omega)),
      Store.insertIfAbsent_of_none hm]
    exact ⟨1, _, rfl, h.setBalance u hint⟩

/-- The guarded subtraction, as far as the amount can be stored. -/
theorem Reads.decrement {t : Tables} {m : Store} (h : t.Reads m) (u : UserId) {amount : Coins}
    {n : Stored} (hn : toStored? amount = some n) :
    ∃ t', t.decrement u n = .ok ((m.decrement u amount).1, t') ∧
      t'.Reads (m.decrement u amount).2 := by
  have hint := toInt_of_toStored? hn
  have hm := h.balance? u
  unfold Tables.decrement Store.decrement
  cases hu : t.balances.get? u with
  | none =>
    rw [hu] at hm
    rw [hm]
    exact ⟨t, rfl, h⟩
  | some b =>
    have hb := toNat_amountOf (h.lawful.balance hu)
    rw [hu] at hm
    rw [hm]
    simp only [Option.map_some, Option.bind_some]
    cases hrest : (amountOf b).sub? amount with
    | none =>
      rw [Coins.sub?_eq_none_iff] at hrest
      have small : ¬n ≤ b := by
        rw [Int64.le_iff_toInt_le]
        omega
      rw [if_neg small]
      exact ⟨t, rfl, h⟩
    | some rest =>
      rw [Coins.sub?_eq_some_iff] at hrest
      have covered : n.toInt ≤ b.toInt := by omega
      have hsub := toInt_sub_of_le (by omega) covered
      rw [if_pos (Int64.le_iff_toInt_le.2 covered), if_neg (not_negative (by omega))]
      exact ⟨_, rfl, h.setBalance u (by omega)⟩

/-- The addition, as far as the sum can be stored. -/
theorem Reads.increment {t : Tables} {m : Store} (h : t.Reads m) (u : UserId) {amount : Coins}
    {n : Stored} (hn : toStored? amount = some n)
    (fits : ∀ b, m.balance? u = some b → b.toNat + amount.toNat < storedBound) :
    ∃ k t', t.increment u n = .ok (k, t') ∧ (m.increment u amount).1 = .ok k ∧
      t'.Reads (m.increment u amount).2 := by
  have hint := toInt_of_toStored? hn
  have hm := h.balance? u
  unfold Tables.increment Store.increment
  cases hu : t.balances.get? u with
  | none =>
    rw [hu] at hm
    rw [hm]
    exact ⟨0, t, rfl, rfl, h⟩
  | some b =>
    have hb := toNat_amountOf (h.lawful.balance hu)
    rw [hu] at hm
    have room : (amountOf b).toNat + amount.toNat < 9223372036854775808 := fits _ hm
    have hroom : b.toInt + n.toInt < (storedBound : Int) := by
      show _ < (9223372036854775808 : Int)
      omega
    have hadd := toInt_add_of_lt (by omega) (by omega) hroom
    obtain ⟨sum, hsum⟩ : ∃ sum, (amountOf b).add? amount = some sum := by
      refine Coins.exists_add? ?_
      show _ < 18446744073709551616
      omega
    have exact_sum := Coins.add?_eq_some_iff.1 hsum
    rw [hm]
    simp only [Option.map_some, hsum]
    rw [if_pos hroom, if_neg (by omega)]
    exact ⟨1, _, rfl, rfl, h.setBalance u (by omega)⟩

theorem Reads.insertPurchase {t : Tables} {m : Store} (h : t.Reads m) {p : Purchase}
    (listed : ∃ g ∈ m.goods, g.id = p.good) :
    ∃ k t', t.insertPurchase p = .ok (k, t') ∧ t'.Reads (m.addPurchase p) := by
  obtain ⟨r, hr, hid⟩ : ∃ r ∈ t.goods, r.id = p.good := by
    obtain ⟨g, hg, hid⟩ := listed
    rw [← h.ledger] at hg
    obtain ⟨r, hr, rfl⟩ := List.mem_map.1 hg
    exact ⟨r, hr, hid⟩
  have known : (t.goods.any fun g => g.id = p.good) = true :=
    List.any_eq_true.2 ⟨r, hr, decide_eq_true hid⟩
  refine ⟨1, { t with purchases := t.purchases ++ [p] }, if_pos known, ?_, ?_⟩
  · refine { h.lawful with purchases := fun q hq => ?_ }
    rcases List.mem_append.1 hq with hq | hq
    · exact h.lawful.purchases q hq
    · rw [List.mem_singleton.1 hq]
      exact ⟨r, hr, hid⟩
  · rw [← h.ledger]
    rfl

theorem Reads.insertTransfer {t : Tables} {m : Store} (h : t.Reads m) {e : Transfer}
    {n : Stored} (hn : toStored? e.amount = some n) (positive : 0 < e.amount.toNat)
    (parties : e.sender ≠ e.recipient) :
    ∃ k t', t.insertTransfer ⟨e.sender, e.recipient, n⟩ = .ok (k, t') ∧
      t'.Reads (m.addTransfer e) := by
  have hint := toInt_of_toStored? hn
  refine ⟨1, { t with transfers := t.transfers ++ [⟨e.sender, e.recipient, n⟩] }, ?_, ?_, ?_⟩
  · have allowed : 0 < n.toInt ∧ e.sender ≠ e.recipient := ⟨by omega, parties⟩
    exact if_pos allowed
  · refine { h.lawful with amounts := fun r hr => ?_, parties := fun r hr => ?_ }
    · rcases List.mem_append.1 hr with hr | hr
      · exact h.lawful.amounts r hr
      · rw [List.mem_singleton.1 hr]
        show 0 ≤ n.toInt
        omega
    · rcases List.mem_append.1 hr with hr | hr
      · exact h.lawful.parties r hr
      · rw [List.mem_singleton.1 hr]
        exact parties
  · rw [← h.ledger]
    simp only [Tables.ledger, Store.addTransfer, List.map_append, List.map_cons, List.map_nil,
      TransferRow.transfer, amountOf_of_toStored? hn]

end Tables

end Database

end CoinLedger
