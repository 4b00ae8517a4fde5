import CoinLedger.Proofs.Concurrency.Provisioning
import CoinLedger.Proofs.Ledger.Units

/-!
# Every outcome of a transfer

A transfer over the store in memory comes out in one of seven ways, which are checked in a fixed
order.  The first three concern the request alone and leave the store as it is.  After them the
recipient has a row, whatever becomes of the coins: the next three leave exactly that row behind,
and the last one moves the amount.

`SendOutcome` lists the seven, in terms of rows, amounts as unbounded numbers, and logs; none of its
rules mentions how a transfer is carried out.  A rule that leaves a store behind says what it
answers in full (`Store.Opened`, `Store.Moved`), so each of them determines the store that it
leaves.

## Main definitions

* `Store.Opened`, `Store.Moved` — a row more, and an amount moved.
* `SendOutcome` — the outcomes, one rule for each.

## Main results

* `UseCase.sendCoins_outcomes` — a transfer comes out as the rules say, and in no other way.
-/

namespace CoinLedger

/-! ## What a transfer leaves -/

namespace Store

/-- One store is another one in which a user has a row; if the row is new it holds the seed. -/
structure Opened (seed : Coins) (v : UserId) (s s' : Store) : Prop where
  row : s'.balance? v = some ((s.balance? v).getD seed)
  others : ∀ w, w ≠ v → s'.balance? w = s.balance? w
  goods : s'.goods = s.goods
  purchases : s'.purchases = s.purchases
  transfers : s'.transfers = s.transfers

/-- One store is another one after an amount has moved between two users. -/
structure Moved (u v : UserId) (amount : Coins) (s s' : Store) : Prop where
  paid : ∃ source rest, s.balance? u = some source ∧ s'.balance? u = some rest ∧
    rest.toNat + amount.toNat = source.toNat
  received : ∃ target sum, s.balance? v = some target ∧ s'.balance? v = some sum ∧
    sum.toNat = target.toNat + amount.toNat
  others : ∀ w, w ≠ u → w ≠ v → s'.balance? w = s.balance? w
  goods : s'.goods = s.goods
  purchases : s'.purchases = s.purchases
  transfers : s'.transfers = s.transfers ++ [⟨u, v, amount⟩]

variable {seed amount : Coins} {u v : UserId} {s s' : Store}

theorem opened_iff : s.Opened seed v s' ↔ s' = s.insertIfAbsent v seed := by
  constructor
  · intro h
    refine ext_parts (fun w => ?_) h.goods h.purchases h.transfers
    rw [balance?_insertIfAbsent]
    by_cases hw : v = w
    · rw [if_pos hw, ← hw, h.row]
    · rw [if_neg hw, h.others w (Ne.symm hw)]
  · rintro rfl
    refine ⟨s.balance?_insertIfAbsent_self v seed, fun w hw => ?_, rfl, rfl, rfl⟩
    rw [balance?_insertIfAbsent, if_neg hw.symm]

/-- A store after a movement is the one that a movement writes. -/
theorem moved_iff (huv : u ≠ v) : s.Moved u v amount s' ↔
    ∃ source rest target sum, s.balance? u = some source ∧ source.sub? amount = some rest ∧
      s.balance? v = some target ∧ target.add? amount = some sum ∧
      s' = ((s.setBalance u rest).setBalance v sum).addTransfer ⟨u, v, amount⟩ := by
  constructor
  · intro h
    obtain ⟨source, rest, hsource, hrest, lowered⟩ := h.paid
    obtain ⟨target, sum, htarget, hsum, raised⟩ := h.received
    refine ⟨source, rest, target, sum, hsource, Coins.sub?_eq_some_iff.2 lowered, htarget,
      Coins.add?_eq_some_iff.2 raised, ?_⟩
    refine ext_parts (fun w => ?_) h.goods h.purchases h.transfers
    rw [balance?_addTransfer, balance?_setBalance, balance?_setBalance]
    by_cases hv : v = w
    · rw [if_pos hv, ← hv, hsum]
    · rw [if_neg hv]
      by_cases hu : u = w
      · rw [if_pos hu, ← hu, hrest]
      · rw [if_neg hu, h.others w (Ne.symm hu) (Ne.symm hv)]
  · rintro ⟨source, rest, target, sum, hsource, hrest, htarget, hsum, rfl⟩
    constructor
    case paid =>
      refine ⟨source, rest, hsource, ?_, Coins.sub?_eq_some_iff.1 hrest⟩
      simp [huv.symm]
    case received => exact ⟨target, sum, htarget, by simp, Coins.add?_eq_some_iff.1 hsum⟩
    case others =>
      intro w hu hv
      simp [hu.symm, hv.symm]
    case goods => rfl
    case purchases => rfl
    case transfers => rfl

end Store

/-! ## The outcomes -/

/-- A positive amount is addressed to somebody else, for whom there is a row then. -/
structure Addressed (d : Directory) (seed : Coins) (u : UserId) (name : Username) (amount : Coins)
    (s : Store) (v : UserId) (s' : Store) : Prop where
  positive : 0 < amount.toNat
  resolved : d.idOf? name = some v
  other : v ≠ u
  opened : s.Opened seed v s'

/-- The outcomes of a transfer: the result, and the store that is left. -/
inductive SendOutcome (d : Directory) (seed : Coins) (u : UserId) (name : Username)
    (amount : Coins) (s : Store) : Except LedgerError Unit → Store → Prop where
  | nothing : amount.toNat = 0 →
      SendOutcome d seed u name amount s (.error (.invalidArguments .amountZero)) s
  | unknown : 0 < amount.toNat → d.idOf? name = none →
      SendOutcome d seed u name amount s (.error (.userNotFound name.text)) s
  | toSelf : 0 < amount.toNat → d.idOf? name = some u →
      SendOutcome d seed u name amount s (.error (.invalidArguments .sameParties)) s
  | senderMissing {v : UserId} {s' : Store} : Addressed d seed u name amount s v s' →
      s.balance? u = none →
      SendOutcome d seed u name amount s (.error (.balanceNotFound u)) s'
  | notCovered {v : UserId} {s' : Store} {source : Coins} : Addressed d seed u name amount s v s' →
      s.balance? u = some source → source.toNat < amount.toNat →
      SendOutcome d seed u name amount s (.error (.insufficientBalance u)) s'
  | recipientFull {v : UserId} {s' : Store} {source target : Coins} :
      Addressed d seed u name amount s v s' →
      s.balance? u = some source → amount.toNat ≤ source.toNat →
      s'.balance? v = some target → Coins.size ≤ target.toNat + amount.toNat →
      SendOutcome d seed u name amount s (.error (.invalidArguments .recipientFull)) s'
  | sent {v : UserId} {s' s'' : Store} {source target : Coins} :
      Addressed d seed u name amount s v s' →
      s.balance? u = some source → amount.toNat ≤ source.toNat →
      s'.balance? v = some target → target.toNat + amount.toNat < Coins.size →
      s'.Moved u v amount s'' → SendOutcome d seed u name amount s (.ok ()) s''

section
variable {d : Directory} {seed amount : Coins} {u v : UserId} {name : Username} {s s' : Store}

theorem isZero_of_pos (h : 0 < amount.toNat) : amount.isZero = false := by
  rw [Bool.eq_false_iff, ne_eq, Coins.isZero_iff]
  exact Nat.ne_of_gt h

/-- The sender's row is not the one that is opened. -/
theorem Addressed.source (h : Addressed d seed u name amount s v s') :
    s'.balance? u = s.balance? u :=
  h.opened.others u h.other.symm

/-- An addressed transfer is the unit of a movement. -/
theorem Addressed.runOn (h : Addressed d seed u name amount s v s') :
    (UseCase.sendCoins seed u name amount).runOn (.memory d) s =
      (UseCase.movement u v amount).commitIfOk s' := by
  rw [UseCase.sendCoins_runOn (isZero_of_pos h.positive) h.resolved h.other,
    Store.opened_iff.1 h.opened]

/-- An amount can always be sent, with one outcome or another. -/
theorem SendOutcome.exists (d : Directory) (seed : Coins) (u : UserId) (name : Username)
    (amount : Coins) (s : Store) : ∃ r s', SendOutcome d seed u name amount s r s' := by
  rcases Nat.eq_zero_or_pos amount.toNat with zero | positive
  · exact ⟨_, _, .nothing zero⟩
  cases resolved : d.idOf? name with
  | none => exact ⟨_, _, .unknown positive resolved⟩
  | some v =>
    by_cases hvu : v = u
    · exact ⟨_, _, .toSelf positive (hvu ▸ resolved)⟩
    have addressed : Addressed d seed u name amount s v (s.insertIfAbsent v seed) :=
      ⟨positive, resolved, hvu, Store.opened_iff.2 rfl⟩
    cases hsource : s.balance? u with
    | none => exact ⟨_, _, .senderMissing addressed hsource⟩
    | some source =>
      rcases Nat.lt_or_ge source.toNat amount.toNat with poor | covered
      · exact ⟨_, _, .notCovered addressed hsource poor⟩
      have htarget := addressed.opened.row
      rcases Nat.lt_or_ge (((s.balance? v).getD seed).toNat + amount.toNat) Coins.size with
        fits | exceeds
      · obtain ⟨rest, hrest⟩ := Coins.exists_sub? covered
        obtain ⟨sum, hsum⟩ := Coins.exists_add? fits
        have paid : (s.insertIfAbsent v seed).balance? u = some source :=
          addressed.source.trans hsource
        have moved := (Store.moved_iff (Ne.symm hvu)).2
          ⟨source, rest, _, sum, paid, hrest, htarget, hsum, rfl⟩
        exact ⟨_, _, .sent addressed hsource covered htarget fits moved⟩
      · exact ⟨_, _, .recipientFull addressed hsource covered htarget exceeds⟩

/-- A unit that fails leaves the store alone. -/
theorem Work.commitIfOk_of_error {ε α : Type} {w : Work ε α} {s s' : Store} {e : ε}
    (h : w.runOn Store.statement s = (.error e, s')) : w.commitIfOk s = (.error e, s) := by
  rw [commitIfOk, h]

/-- What the rules say comes true. -/
theorem SendOutcome.runOn {r : Except LedgerError Unit}
    (h : SendOutcome d seed u name amount s r s') :
    (UseCase.sendCoins seed u name amount).runOn (.memory d) s = (r, s') := by
  cases h with
  | nothing zero =>
    unfold UseCase.sendCoins
    rw [if_pos (Coins.isZero_iff.2 zero)]
    rfl
  | unknown positive unresolved =>
    unfold UseCase.sendCoins
    rw [isZero_of_pos positive, if_neg Bool.false_ne_true,
      UseCase.runOn_ask_bind (a := none) (v := s) (by rw [← unresolved]; rfl)]
    rfl
  | toSelf positive resolved =>
    unfold UseCase.sendCoins
    rw [isZero_of_pos positive, if_neg Bool.false_ne_true,
      UseCase.runOn_ask_bind (a := some u) (v := s) (by rw [← resolved]; rfl)]
    dsimp only
    rw [if_pos rfl]
    rfl
  | senderMissing addressed missing =>
    rw [addressed.runOn]
    apply Work.commitIfOk_of_error
    rw [UseCase.movement_runOn addressed.other.symm, addressed.source, missing]
  | @notCovered v _ source addressed hsource poor =>
    have target := addressed.opened.row
    rw [addressed.runOn]
    apply Work.commitIfOk_of_error
    rw [UseCase.movement_runOn addressed.other.symm, addressed.source, hsource, target]
    dsimp only
    rw [Coins.sub?_eq_none_iff.2 poor]
  | @recipientFull v _ source target addressed hsource covered htarget exceeds =>
    obtain ⟨rest, hrest⟩ := Coins.exists_sub? covered
    rw [addressed.runOn]
    apply Work.commitIfOk_of_error
    rw [UseCase.movement_runOn addressed.other.symm, addressed.source, hsource, htarget]
    dsimp only
    rw [hrest, Coins.add?_eq_none_iff.2 exceeds]
  | sent addressed hsource covered htarget fits moved =>
    rw [addressed.runOn, UseCase.movement_commits_iff addressed.other.symm]
    exact (Store.moved_iff addressed.other.symm).1 moved

end

namespace UseCase

/-- **A transfer comes out as the rules say, and in no other way.**  Zero coins are refused before
anything is asked for. -/
theorem sendCoins_outcomes (d : Directory) (seed : Coins) (u : UserId) (name : Username)
    (amount : Coins) (s : Store) :
    (∀ r s', (sendCoins seed u name amount).runOn (.memory d) s = (r, s') ↔
      SendOutcome d seed u name amount s r s') ∧
    (amount.toNat = 0 →
      sendCoins seed u name amount = .done (.error (.invalidArguments .amountZero))) := by
  constructor
  · intro r s'
    constructor
    · intro ran
      obtain ⟨r₀, s₀, outcome⟩ := SendOutcome.exists d seed u name amount s
      obtain ⟨rfl, rfl⟩ := Prod.mk.inj (ran.symm.trans outcome.runOn)
      exact outcome
    · exact SendOutcome.runOn
  · intro zero
    unfold sendCoins
    rw [if_pos (Coins.isZero_iff.2 zero)]
    rfl

/-- A user with five coins, and one whose account has room for five more. -/
def nearlyFull : Store where
  balances := SortedMap.ofList [(⟨1⟩, ⟨5⟩), (⟨2⟩, ⟨18446744073709551610⟩)]

/-- Five coins can be sent.  Six cannot, and what is said is that the sender lacks one, not that the
recipient has no room for it. -/
theorem sendCoins_outcomes_nearlyFull :
    let bob := Directory.ofList [(⟨2⟩, "bob")]
    let name : Username := ⟨"bob", by decide⟩
    (∃ s', s'.balance? ⟨1⟩ = some ⟨0⟩ ∧ s'.balance? ⟨2⟩ = some ⟨18446744073709551615⟩ ∧
      SendOutcome bob ⟨1000⟩ ⟨1⟩ name ⟨5⟩ nearlyFull (.ok ()) s') ∧
    SendOutcome bob ⟨1000⟩ ⟨1⟩ name ⟨6⟩ nearlyFull (.error (.insufficientBalance ⟨1⟩))
      nearlyFull := by
  intro bob name
  obtain ⟨five, -⟩ := sendCoins_outcomes bob ⟨1000⟩ ⟨1⟩ name ⟨5⟩ nearlyFull
  obtain ⟨six, -⟩ := sendCoins_outcomes bob ⟨1000⟩ ⟨1⟩ name ⟨6⟩ nearlyFull
  exact ⟨⟨_, by decide, by decide, (five _ _).1 rfl⟩, (six _ _).1 rfl⟩

end UseCase

end CoinLedger
