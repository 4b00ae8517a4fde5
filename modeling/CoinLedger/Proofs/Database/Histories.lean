import CoinLedger.Proofs.Database.Reading
import Mathlib.Data.List.Perm.Basic

/-!
# Histories are faithful to the log

A user's history is made from rows in one pass, which puts a row among the transfers that went out,
or among those that came in, or passes it by.  Here the pass is compared with the rows that it is
given, whatever they are: rows of other users, rows from a user to the same user, rows that are no
transfers because their amount is negative.  The last kind spoils all of it, even if the row is
nobody's business (`splitTransfers_negative`); otherwise each row is found in one place, once, with
its amount as it is stored.

The store in memory makes its histories by two passes, one for each direction.  They come to the
same on a log in which nobody has sent coins to themselves.  Put together for all users, the
histories are then the log again, once by what went out and once by what came in.

## Main definitions

* `Splits` — what a history is to the rows that it is made from.
* `Store.sentBy`, `Store.receivedBy` — the records behind the histories of some users.

## Main results

* `splitTransfers_splits` — the pass makes such a history or meets a negative amount.
* `Store.sentBy_perm`, `Store.receivedBy_perm` — both directions give the log.
-/

namespace CoinLedger

/-! ## Records by their parties -/

/-- A list is the lists of its members with one key each, for all keys that occur. -/
theorem flatMap_filter_perm {α κ : Type} [DecidableEq κ] (key : α → κ) {keys : List κ}
    (nodup : keys.Nodup) {xs : List α} (cover : ∀ x ∈ xs, key x ∈ keys) :
    (keys.flatMap fun k => xs.filter fun x => key x = k).Perm xs := by
  -- The members with the first key are taken out, so the induction is over all lists.
  induction keys generalizing xs with
  | nil =>
    have empty : xs = [] :=
      List.eq_nil_iff_forall_not_mem.2 fun x hx => List.not_mem_nil (cover x hx)
    rw [empty]
    rfl
  | cons k rest ih =>
    obtain ⟨fresh, nodup⟩ := List.nodup_cons.1 nodup
    let others := xs.filter fun x => !decide (key x = k)
    have later : ∀ k' ∈ rest,
        (xs.filter fun x => key x = k') = others.filter fun x => key x = k' := by
      intro k' hk'
      rw [List.filter_filter]
      refine List.filter_congr fun x _ => ?_
      have hne : key x = k' → ¬key x = k := fun h h' => fresh (h'.symm.trans h ▸ hk')
      by_cases h : key x = k' <;> simp [h]
      exact fun h' => fresh (h' ▸ hk')
    have rest_perm : (rest.flatMap fun k' => xs.filter fun x => key x = k').Perm others := by
      rw [List.flatMap_congr later]
      refine ih nodup fun x hx => ?_
      obtain ⟨hx, hne⟩ := List.mem_filter.1 hx
      exact (List.mem_cons.1 (cover x hx)).resolve_left (by simpa using hne)
    rw [List.flatMap_cons]
    exact (rest_perm.append_left _).trans (List.filter_append_perm _ xs)

/-- What is made of the members with a property, as it is seen. -/
theorem map_filterMap_ite {α β γ : Type} {p : α → Prop} [DecidablePred p] {make : α → β}
    {see : β → γ} {seen : α → γ} (xs : List α) (h : ∀ x ∈ xs, p x → see (make x) = seen x) :
    (xs.filterMap fun x => if p x then some (make x) else none).map see =
      (xs.filter fun x => p x).map seen := by
  induction xs with
  | nil => rfl
  | cons x rest ih =>
    have later := ih fun y hy => h y (List.mem_cons_of_mem x hy)
    by_cases hx : p x
    · simp only [List.filterMap_cons, List.filter_cons, hx, if_true, decide_true, List.map_cons,
        later, h x List.mem_cons_self hx]
    · simp only [List.filterMap_cons, List.filter_cons, hx, if_false, decide_false, later,
        Bool.false_eq_true]

namespace Store

/-- The records behind what went out in the histories of some users. -/
def sentBy (s : Store) (users : List UserId) : List Transfer :=
  users.flatMap fun u => (s.history u).outgoing.map fun e => ⟨u, e.counterpart, e.amount⟩

/-- The records behind what came in in the histories of some users. -/
def receivedBy (s : Store) (users : List UserId) : List Transfer :=
  users.flatMap fun u => (s.history u).incoming.map fun e => ⟨e.counterpart, u, e.amount⟩

theorem outgoing_records (s : Store) (u : UserId) :
    ((s.history u).outgoing.map fun e => (⟨u, e.counterpart, e.amount⟩ : Transfer)) =
      s.transfers.filter fun t => t.sender = u := by
  have record : ∀ t ∈ s.transfers, t.sender = u →
      (⟨u, t.recipient, t.amount⟩ : Transfer) = id t := by
    rintro t - rfl
    rfl
  exact (map_filterMap_ite s.transfers record).trans (List.map_id _)

theorem incoming_records (s : Store) (u : UserId) :
    ((s.history u).incoming.map fun e => (⟨e.counterpart, u, e.amount⟩ : Transfer)) =
      s.transfers.filter fun t => t.recipient = u := by
  have record : ∀ t ∈ s.transfers, t.recipient = u →
      (⟨t.sender, u, t.amount⟩ : Transfer) = id t := by
    rintro t - rfl
    rfl
  exact (map_filterMap_ite s.transfers record).trans (List.map_id _)

/-- Every record is a transfer that went out in one place of one history, its sender's. -/
theorem sentBy_perm (s : Store) {users : List UserId} (nodup : users.Nodup)
    (cover : ∀ t ∈ s.transfers, t.sender ∈ users) : (s.sentBy users).Perm s.transfers := by
  unfold sentBy
  rw [List.flatMap_congr fun u _ => s.outgoing_records u]
  exact flatMap_filter_perm Transfer.sender nodup cover

/-- Every record is a transfer that came in in one place of one history, its recipient's. -/
theorem receivedBy_perm (s : Store) {users : List UserId} (nodup : users.Nodup)
    (cover : ∀ t ∈ s.transfers, t.recipient ∈ users) : (s.receivedBy users).Perm s.transfers := by
  unfold receivedBy
  rw [List.flatMap_congr fun u _ => s.incoming_records u]
  exact flatMap_filter_perm Transfer.recipient nodup cover

end Store

namespace Database

/-! ## Rows and what is made of them -/

/-- The failure of a read that meets a negative number. -/
def negativeStored : StorageFailure := .query "negative amount stored"

theorem load_negative {n : Stored} (h : n.toInt < 0) : load n = .error negativeStored := by
  have none : ofStored? n = none := if_neg (Int.not_le.2 h)
  rw [load, none]
  rfl

/-- What a row says. -/
def TransferRow.content (r : TransferRow) : UserId × UserId × Int :=
  (r.sender, r.recipient, r.amount.toInt)

end Database

/-- What a record says. -/
def Transfer.content (t : Transfer) : UserId × UserId × Int :=
  (t.sender, t.recipient, t.amount.toNat)

/-- What a line of a history says. -/
def Entry.content (e : Entry) : UserId × Int := (e.counterpart, e.amount.toNat)

namespace Database

/-- One negative amount spoils all rows, also those that come before it. -/
theorem splitTransfers_negative (u : UserId) {rows : List TransferRow}
    (h : ∃ r ∈ rows, r.amount.toInt < 0) : splitTransfers u rows = .error negativeStored := by
  induction rows with
  | nil => simp at h
  | cons r rest ih =>
    by_cases hr : r.amount.toInt < 0
    · simp only [splitTransfers, load_negative hr]
      rfl
    · have later := ((List.exists_mem_cons_iff _ _ _).1 h).resolve_left hr
      simp only [splitTransfers, load_eq (Int.not_lt.1 hr), ih later]
      rfl

/-- What a history is to the rows that it is made from: it has those from the user, in their order,
with the recipient; of the others those to the user, in their order, with the sender; and there are
none besides but rows that have nothing to do with the user. -/
structure Splits (u : UserId) (rows : List TransferRow) (h : History) : Prop where
  outgoing : h.outgoing.map Entry.content =
    (rows.filter fun r => r.sender = u).map fun r => (r.recipient, r.amount.toInt)
  incoming : h.incoming.map Entry.content =
    (rows.filter fun r => r.sender ≠ u ∧ r.recipient = u).map fun r => (r.sender, r.amount.toInt)
  complete : ((rows.filter fun r => r.sender = u) ++
    (rows.filter fun r => r.sender ≠ u ∧ r.recipient = u) ++
    rows.filter fun r => r.sender ≠ u ∧ r.recipient ≠ u).Perm rows

/-- Rows fall into three kinds by how they touch a user. -/
theorem kinds_perm (u : UserId) (rows : List TransferRow) :
    ((rows.filter fun r => r.sender = u) ++
      (rows.filter fun r => r.sender ≠ u ∧ r.recipient = u) ++
      rows.filter fun r => r.sender ≠ u ∧ r.recipient ≠ u).Perm rows := by
  have others := List.filter_append_perm (fun r : TransferRow => decide (r.recipient = u))
    (rows.filter fun r => !decide (r.sender = u))
  rw [List.filter_filter, List.filter_filter] at others
  rw [List.append_assoc]
  refine .trans (.append_left _ (.trans (.of_eq ?_) others))
    (List.filter_append_perm (fun r : TransferRow => decide (r.sender = u)) rows)
  congr 1 <;>
  · refine List.filter_congr fun r _ => ?_
    by_cases hs : r.sender = u <;> by_cases hr : r.recipient = u <;> simp [hs, hr]

theorem splitTransfers_splits (u : UserId) {rows : List TransferRow}
    (amounts : ∀ r ∈ rows, 0 ≤ r.amount.toInt) :
    ∃ h, splitTransfers u rows = .ok h ∧ Splits u rows h := by
  refine ⟨_, splitTransfers_eq u amounts, ?_, ?_, kinds_perm u rows⟩
  · refine map_filterMap_ite rows fun r hr _ => ?_
    rw [Entry.content, toNat_amountOf (amounts r hr)]
  · refine map_filterMap_ite rows fun r hr _ => ?_
    rw [Entry.content, toNat_amountOf (amounts r hr)]

/-! ## Rows and the log in memory -/

/-- Rows that say what the records of a store say are those of its records that fit a column. -/
theorem transfers_eq_of_content {s : Store} {rows : List TransferRow}
    (same : s.transfers.map Transfer.content = rows.map TransferRow.content) :
    (∀ r ∈ rows, 0 ≤ r.amount.toInt) ∧ s.transfers = rows.map TransferRow.transfer := by
  have amounts : ∀ r ∈ rows, 0 ≤ r.amount.toInt := by
    intro r hr
    have said : r.content ∈ s.transfers.map Transfer.content := same ▸ List.mem_map_of_mem hr
    obtain ⟨t, -, ht⟩ := List.mem_map.1 said
    have amount : (t.amount.toNat : Int) = r.amount.toInt := congrArg (fun x => x.2.2) ht
    omega
  have injective : Function.Injective Transfer.content := by
    rintro ⟨s, r, x⟩ ⟨s', r', x'⟩ h
    simp only [Transfer.content, Prod.mk.injEq, Int.natCast_inj] at h
    obtain ⟨rfl, rfl, h⟩ := h
    rw [Coins.toNat_inj.1 h]
  refine ⟨amounts, List.map_injective_iff.2 injective ?_⟩
  rw [same, List.map_map]
  refine List.map_congr_left fun r hr => ?_
  simp only [Function.comp_apply, Transfer.content, TransferRow.content, TransferRow.transfer,
    toNat_amountOf (amounts r hr)]

/-- Both ways of making histories come to the same on a log in which nobody has sent coins to
themselves. -/
theorem splitTransfers_eq_history (u : UserId) {s : Store} {rows : List TransferRow}
    (same : s.transfers.map Transfer.content = rows.map TransferRow.content)
    (parties : ∀ t ∈ s.transfers, t.sender ≠ t.recipient) :
    splitTransfers u rows = .ok (s.history u) := by
  obtain ⟨amounts, log⟩ := transfers_eq_of_content same
  rw [splitTransfers_eq u amounts, Store.history, log, List.filterMap_map, List.filterMap_map]
  congr 2
  refine List.filterMap_congr fun r hr => ?_
  have differ : r.sender ≠ r.recipient := parties r.transfer (log ▸ List.mem_map_of_mem hr)
  by_cases hv : r.recipient = u
  · have hs : r.sender ≠ u := fun h => differ (h.trans hv.symm)
    simp [TransferRow.transfer, hs, hv]
  · simp [TransferRow.transfer, hv]

/-- **Histories are faithful.**  Rows are split into what a user sent, what the user received, and
what is nobody's business, unless one of them has a negative amount.  On a log in which nobody has
sent coins to themselves the result is the history in memory, and the histories of all users hold
each record once as sent, by its sender, and once as received, by its recipient. -/
theorem histories_faithful (rows : List TransferRow) :
    (∀ u, (∃ e, splitTransfers u rows = .error e) ↔ ∃ r ∈ rows, r.amount.toInt < 0) ∧
    (∀ u h, splitTransfers u rows = .ok h → Splits u rows h) ∧
    ∀ s : Store, s.transfers.map Transfer.content = rows.map TransferRow.content →
      (∀ t ∈ s.transfers, t.sender ≠ t.recipient) →
      (∀ u, splitTransfers u rows = .ok (s.history u)) ∧
      ∀ users : List UserId, users.Nodup →
        (∀ t ∈ s.transfers, t.sender ∈ users ∧ t.recipient ∈ users) →
        (s.sentBy users).Perm s.transfers ∧ (s.receivedBy users).Perm s.transfers := by
  refine ⟨fun u => ⟨fun failed => ?_, fun negative => ⟨_, splitTransfers_negative u negative⟩⟩,
    fun u h made => ?_, fun s same parties => ⟨fun u => splitTransfers_eq_history u same parties,
      fun users nodup cover => ⟨?_, ?_⟩⟩⟩
  · by_contra none
    have amounts : ∀ r ∈ rows, 0 ≤ r.amount.toInt := fun r hr =>
      Int.not_lt.1 fun hneg => none ⟨r, hr, hneg⟩
    obtain ⟨h, made, -⟩ := splitTransfers_splits u amounts
    obtain ⟨e, failed⟩ := failed
    rw [made] at failed
    cases failed
  · have amounts : ∀ r ∈ rows, 0 ≤ r.amount.toInt := fun r hr =>
      Int.not_lt.1 fun hneg => by
        rw [splitTransfers_negative u ⟨r, hr, hneg⟩] at made
        cases made
    obtain ⟨h', made', splits⟩ := splitTransfers_splits u amounts
    rw [made] at made'
    cases made'
    exact splits
  · exact s.sentBy_perm nodup fun t ht => (cover t ht).1
  · exact s.receivedBy_perm nodup fun t ht => (cover t ht).2

end Database

end CoinLedger
