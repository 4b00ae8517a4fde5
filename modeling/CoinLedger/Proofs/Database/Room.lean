import CoinLedger.Command
import CoinLedger.Database.Tables
import CoinLedger.Proofs.Ledger.Units

/-!
# What fits the columns

The store in memory holds every amount below two to the sixty-fourth, the columns of the database
only those below half of it, and the schema asks for some things of a record that the store takes
as it comes.  A statement fits (`Statement.Fits`) if the database has nothing to object to it.  A
unit of work, or a whole use case, fits if all of its statements do, each in the store that it
meets when the use case runs in memory.

Commands fit by themselves: as long as the balances can be stored before and after the run, so can
whatever the run writes in between (`Command.program_fits`).  An amount that is too large to be
stored is larger than every balance, and a transfer of it is refused before it is written.

## Main definitions

* `Coins.Storable`, `Store.Storable` — amounts and balances that fit a column.
* `Statement.Fits`, `Work.Fits`, `Call.Fits`, `UseCase.Fits` — runs that meet no objection.
-/

namespace CoinLedger

open Database (storedBound)

/-- Whether an amount fits a column. -/
def Coins.Storable (c : Coins) : Prop := c.toNat < storedBound

/-- Whether every balance fits a column. -/
def Store.Storable (s : Store) : Prop := ∀ u balance, s.balance? u = some balance → balance.Storable

instance (c : Coins) : Decidable c.Storable := inferInstanceAs (Decidable (_ < _))

theorem Store.storable_iff {s : Store} :
    s.Storable ↔ ∀ row ∈ s.balances.entries, row.2.Storable :=
  ⟨fun h row hrow => h row.1 row.2 ((s.balances.mem_entries_iff).1 hrow),
    fun h u balance hu => h (u, balance) ((s.balances.mem_entries_iff).2 hu)⟩

instance (s : Store) : Decidable s.Storable := decidable_of_iff _ Store.storable_iff.symm

/-! ## Units of work -/

/-- Whether the database takes a statement as the store does. -/
def Statement.Fits : Statement → Store → Prop
  | .lockBalance _, _ => True
  | .lockBalances _, _ => True
  | .decrement _ amount, _ => amount.Storable
  | .increment u amount, s => amount.Storable ∧
      ∀ balance, s.balance? u = some balance → balance.toNat + amount.toNat < storedBound
  | .insertPurchase p, s => ∃ g ∈ s.goods, g.id = p.good
  | .insertTransfer t, _ => 0 < t.amount.toNat ∧ t.amount.Storable ∧ t.sender ≠ t.recipient

namespace Work

variable {ε α β : Type}

/-- Whether every statement of a unit fits, as the unit runs in memory. -/
def Fits : Work ε α → Store → Prop
  | done _, _ => True
  | ask q next, s => q.Fits s ∧ (next (Store.statement q s).1).Fits (Store.statement q s).2

theorem Fits.bind {w : Work ε α} {f : α → Work ε β} {s : Store} (hw : w.Fits s)
    (hf : ∀ a s', w.runOn Store.statement s = (.ok a, s') → (f a).Fits s') :
    (w >>= f).Fits s := by
  induction w generalizing s with
  | done r =>
    cases r with
    | ok a => exact hf a s rfl
    | error e => trivial
  | ask q next ih => exact ⟨hw.1, ih _ hw.2 hf⟩

theorem fits_run {q : Statement} {s : Store} (h : q.Fits s) : (run q).Fits s := by
  refine ⟨h, ?_⟩
  cases (Store.statement q s).1 <;> trivial

theorem fits_lock (u : UserId) (s : Store) : (lock u).Fits s :=
  (fits_run (q := .lockBalance u) trivial).bind fun balance _ _ => by cases balance <;> trivial

theorem fits_findLocked (rows : List (UserId × Coins)) (u : UserId) (s : Store) :
    (findLocked rows u).Fits s := by
  unfold findLocked
  split <;> trivial

theorem fits_lockPair (u v : UserId) (s : Store) : (lockPair u v).Fits s :=
  (fits_run (q := .lockBalances [u, v]) trivial).bind fun rows s' _ =>
    (fits_findLocked rows u s').bind fun _ s'' _ =>
      (fits_findLocked rows v s'').bind fun _ _ _ => trivial

theorem fits_debit {amount : Coins} (h : amount.Storable) (u : UserId) (s : Store) :
    (debit u amount).Fits s :=
  (fits_run (q := .decrement u amount) h).bind fun affected _ _ => by split <;> trivial

theorem fits_credit {u : UserId} {amount : Coins} {s : Store} (h : amount.Storable)
    (room : ∀ balance, s.balance? u = some balance →
      balance.toNat + amount.toNat < storedBound) : (credit u amount).Fits s :=
  (fits_run (q := .increment u amount) ⟨h, room⟩).bind fun affected _ _ => by split <;> trivial

end Work

namespace UseCase
open Work

/-- A purchase fits if its good is in the catalog, at a price that can be stored. -/
theorem fits_purchase (u : UserId) {g : Good} {s : Store} (listed : g ∈ s.goods)
    (price : g.price.Storable) : (purchase u g).Fits s := by
  refine (fits_lock u s).bind fun balance s' locked => ?_
  have same : s' = s := by
    rw [lock_runOn] at locked
    split at locked <;> cases locked
    rfl
  split
  · trivial
  · refine (fits_debit price u s').bind fun _ s'' paid => fits_run ?_
    have goods : s''.goods = s'.goods := by
      rw [debit_runOn] at paid
      split at paid <;> cases paid
      rfl
    refine ⟨g, ?_, rfl⟩
    rw [goods, same]
    exact listed

/-- A transfer fits if the balances can be stored before and after it. -/
theorem fits_movement {u v : UserId} {amount : Coins} {s : Store} (hne : u ≠ v)
    (positive : 0 < amount.toNat) (before : s.Storable)
    (after : ((movement u v amount).commitIfOk s).2.Storable) : (movement u v amount).Fits s := by
  refine (fits_lockPair u v s).bind fun balances s' locked => ?_
  obtain ⟨source, target⟩ := balances
  have rows : s' = s ∧ s.balance? u = some source ∧ s.balance? v = some target := by
    rw [lockPair_runOn] at locked
    split at locked <;> cases locked
    exact ⟨rfl, by assumption, by assumption⟩
  obtain ⟨rfl, hu, hv⟩ := rows
  dsimp only
  cases hrest : source.sub? amount with
  | none => trivial
  | some rest =>
    cases hsum : target.add? amount with
    | none => trivial
    | some sum =>
      have covered := Coins.sub?_eq_some_iff.1 hrest
      have raised := Coins.add?_eq_some_iff.1 hsum
      have hsource : source.toNat < storedBound := before u source hu
      have hamount : amount.Storable := by
        show amount.toNat < storedBound
        omega
      -- The sum is a balance of the store that the unit commits.
      have committed := (movement_commits_iff hne).2
        ⟨source, rest, target, sum, hu, hrest, hv, hsum, rfl⟩
      rw [committed] at after
      have room : sum.toNat < storedBound := after v sum (by simp)
      refine (fits_debit hamount u s').bind fun _ s₁ debited => ?_
      have hs₁ : s₁ = s'.setBalance u rest := by
        rw [debit_runOn, hu, Option.bind_some, hrest] at debited
        cases debited
        rfl
      refine (fits_credit hamount fun balance hb => ?_).bind fun _ s₂ _ =>
        fits_run ⟨positive, hamount, hne⟩
      rw [hs₁, Store.balance?_setBalance, if_neg hne, hv] at hb
      cases hb
      omega

end UseCase

/-! ## Use cases -/

/-- Whether what a call writes fits a column. -/
def Call.Fits : Call → Prop
  | .insertIfAbsent _ seed => seed.Storable
  | _ => True

namespace UseCase

variable {α β : Type} {d : Directory}

/-- Whether every call and every unit of a use case fits, as the use case runs in memory. -/
def Fits (d : Directory) : UseCase α → Store → Prop
  | done _, _ => True
  | call c next, s => c.Fits ∧ (next (Store.call d c s).1).Fits d (Store.call d c s).2
  | transact w next, s => w.Fits s ∧ (next (w.commitIfOk s).1).Fits d (w.commitIfOk s).2
  | gather u next, s => (next ((Backing.memory d).gather u s).1).Fits d s

theorem Fits.bind {p : UseCase α} {f : α → UseCase β} {s : Store} (hp : p.Fits d s)
    (hf : ∀ a s', p.runOn (Backing.memory d) s = (.ok a, s') → (f a).Fits d s') :
    (p >>= f).Fits d s := by
  induction p generalizing s with
  | done r =>
    cases r with
    | ok a => exact hf a s rfl
    | error e => trivial
  | call c next ih => exact ⟨hp.1, ih _ hp.2 hf⟩
  | transact w next ih => exact ⟨hp.1, ih _ hp.2 hf⟩
  | gather u next ih => exact ih _ hp hf

theorem Fits.ask_bind {c : Call} {a : c.Answer} {f : c.Answer → UseCase β} {s s' : Store}
    (hc : c.Fits) (answered : Store.call d c s = (.ok a, s')) (hf : (f a).Fits d s') :
    (ask c >>= f).Fits d s := by
  refine ⟨hc, ?_⟩
  rw [answered]
  exact hf

theorem fits_buyItem (u : UserId) (name : String) {s : Store}
    (prices : ∀ g ∈ s.goods, g.price.Storable) : (buyItem u name).Fits d s := by
  refine Fits.ask_bind (a := s.findGood name) trivial rfl ?_
  cases hg : s.findGood name with
  | none => trivial
  | some g =>
    have listed : g ∈ s.goods := List.mem_of_find?_eq_some hg
    exact ⟨fits_purchase u listed (prices g listed), trivial⟩

theorem fits_sendCoins {seed : Coins} (hseed : seed.Storable) (u : UserId) (name : Username)
    (amount : Coins) {s : Store} (before : s.Storable)
    (after : ((sendCoins seed u name amount).runOn (Backing.memory d) s).2.Storable) :
    (sendCoins seed u name amount).Fits d s := by
  unfold sendCoins at after ⊢
  by_cases hzero : amount.isZero = true
  · rw [if_pos hzero]
    trivial
  · rw [if_neg hzero] at after ⊢
    rw [runOn_ask_bind (b := Backing.memory d) (a := d.idOf? name) rfl] at after
    refine Fits.ask_bind (a := d.idOf? name) trivial rfl ?_
    cases hv : d.idOf? name with
    | none => trivial
    | some v =>
      rw [hv] at after
      dsimp only at after ⊢
      by_cases hvu : v = u
      · rw [if_pos hvu]
        trivial
      · rw [if_neg hvu] at after ⊢
        have positive : 0 < amount.toNat := by
          rw [Coins.isZero_iff] at hzero
          omega
        have provisioned : (s.insertIfAbsent v seed).Storable := by
          intro x balance hx
          rw [Store.balance?_insertIfAbsent] at hx
          split at hx
          · cases hb : s.balance? v with
            | none =>
              rw [hb] at hx
              cases hx
              exact hseed
            | some b =>
              rw [hb] at hx
              cases hx
              exact before v b hb
          · exact before x balance hx
        exact ⟨hseed, fits_movement (fun h => hvu h.symm) positive provisioned after, trivial⟩

end UseCase

/-- **Commands fit** as long as the balances can be stored before and after. -/
theorem Command.program_fits {d : Directory} {seed : Coins} (hseed : seed.Storable) (c : Command)
    {s : Store} (prices : ∀ g ∈ s.goods, g.price.Storable) (before : s.Storable)
    (after : ((c.program seed).runOn (Backing.memory d) s).2.Storable) :
    (c.program seed).Fits d s := by
  cases c with
  | ensureCreated u => exact ⟨hseed, trivial⟩
  | buyItem u name => exact (UseCase.fits_buyItem u name prices).bind fun _ _ _ => trivial
  | sendCoins u name amount =>
    rw [program, UseCase.runOn_bind_pure] at after
    exact (UseCase.fits_sendCoins hseed u name amount before after).bind fun _ _ _ => trivial
  | accountInfo u =>
    refine UseCase.Fits.bind ?_ fun _ _ _ => trivial
    unfold UseCase.accountInfo UseCase.Fits
    cases ((Backing.memory d).gather u s).1 with
    | error e => trivial
    | ok h =>
      dsimp only
      split
      · trivial
      · exact UseCase.Fits.ask_bind trivial rfl trivial

end CoinLedger
