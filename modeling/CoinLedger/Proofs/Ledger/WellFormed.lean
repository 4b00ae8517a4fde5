import CoinLedger.Proofs.Ledger.Changes

/-!
# Every record is about users with rows

The store in memory checks no record: a statement appends whatever it is given.  That transfers move
a positive amount between two different users, that whoever is recorded has a balance row, and that
a receipt names a good of the catalog is the doing of the use cases alone, by the order in which
they check and write.

All of it is kept by the three changes a store goes through, and so it holds in every state that a
run may come to (`after_wellFormed`).  The same three changes say how a state differs from the one
before it: by one record at most, at the end of its log, and by no row less.

## Main definitions

* `Store.WellFormed` — what the records of a store may be relied on for.
* `Store.Grows` — one store is another one with at most one record more.

## Main results

* `Store.Change.wellFormed`, `Store.Change.grows` — what each of the three changes keeps and adds.
* `after_wellFormed` — the states of a run, and the steps from each of them to the next.
-/

namespace CoinLedger

namespace Store

/-- What the records of a store may be relied on for. -/
structure WellFormed (s : Store) : Prop where
  parties : ∀ t ∈ s.transfers, t.sender ≠ t.recipient
  positive : ∀ t ∈ s.transfers, 0 < t.amount.toNat
  rows : ∀ t ∈ s.transfers, (s.balance? t.sender).isSome ∧ (s.balance? t.recipient).isSome
  buyers : ∀ p ∈ s.purchases, (s.balance? p.buyer).isSome
  listed : ∀ p ∈ s.purchases, ∃ g ∈ s.goods, g.id = p.good

/-- Whether a store is an earlier one with at most one record more, at the end of its log, and with
no row less. -/
structure Grows (s s' : Store) : Prop where
  goods : s'.goods = s.goods
  logs : ∃ bought moved, s'.purchases = s.purchases ++ bought ∧
    s'.transfers = s.transfers ++ moved ∧ bought.length + moved.length ≤ 1
  rows : ∀ u, (s.balance? u).isSome → (s'.balance? u).isSome

/-! ## The three changes -/

variable {seed : Coins} {s s' : Store}

theorem wellFormed_of_empty (purchases : s.purchases = []) (transfers : s.transfers = []) :
    s.WellFormed := by
  have bought : ∀ p, p ∉ s.purchases := by
    intro p
    rw [purchases]
    exact List.not_mem_nil
  have moved : ∀ t, t ∉ s.transfers := by
    intro t
    rw [transfers]
    exact List.not_mem_nil
  exact
    { parties := fun t ht => absurd ht (moved t)
      positive := fun t ht => absurd ht (moved t)
      rows := fun t ht => absurd ht (moved t)
      buyers := fun p hp => absurd hp (bought p)
      listed := fun p hp => absurd hp (bought p) }

theorem isSome_setBalance {u v : UserId} {amount : Coins} (h : (s.balance? v).isSome) :
    ((s.setBalance u amount).balance? v).isSome := by
  rw [balance?_setBalance]
  split
  · rfl
  · exact h

theorem grows_refl (s : Store) : s.Grows s where
  goods := rfl
  logs := ⟨[], [], (List.append_nil _).symm, (List.append_nil _).symm, Nat.zero_le 1⟩
  rows _ h := h

/-- A change adds one record at most and takes no row away. -/
theorem Change.grows (h : Change seed s s') : s.Grows s' := by
  cases h with
  | provision u =>
    refine { s.grows_refl with goods := rfl, logs := s.grows_refl.logs, rows := fun v hv => ?_ }
    rw [balance?_insertIfAbsent]
    split
    · rfl
    · exact hv
  | purchase listed hb hr =>
    exact
      { goods := rfl
        logs := ⟨[_], [], rfl, (List.append_nil _).symm, Nat.le_refl 1⟩
        rows := fun v hv => isSome_setBalance hv }
  | transfer hne positive hs hr ht hsum =>
    exact
      { goods := rfl
        logs := ⟨[], [_], (List.append_nil _).symm, rfl, Nat.le_refl 1⟩
        rows := fun v hv => isSome_setBalance (isSome_setBalance hv) }

/-- Old records stay good as long as no row is lost; a new one has to be good by itself. -/
theorem WellFormed.grow (h : s.WellFormed) (grown : s.Grows s') {bought : List Purchase}
    {moved : List Transfer} (purchases : s'.purchases = s.purchases ++ bought)
    (transfers : s'.transfers = s.transfers ++ moved)
    (newPurchases : ∀ p ∈ bought, (s'.balance? p.buyer).isSome ∧ ∃ g ∈ s.goods, g.id = p.good)
    (newTransfers : ∀ t ∈ moved, t.sender ≠ t.recipient ∧ 0 < t.amount.toNat ∧
      (s'.balance? t.sender).isSome ∧ (s'.balance? t.recipient).isSome) : s'.WellFormed := by
  have purchase_cases : ∀ p ∈ s'.purchases, p ∈ s.purchases ∨ p ∈ bought := by
    intro p hp
    rw [purchases] at hp
    exact List.mem_append.1 hp
  have transfer_cases : ∀ t ∈ s'.transfers, t ∈ s.transfers ∨ t ∈ moved := by
    intro t ht
    rw [transfers] at ht
    exact List.mem_append.1 ht
  constructor
  · intro t ht
    rcases transfer_cases t ht with old | new
    · exact h.parties t old
    · exact (newTransfers t new).1
  · intro t ht
    rcases transfer_cases t ht with old | new
    · exact h.positive t old
    · exact (newTransfers t new).2.1
  · intro t ht
    rcases transfer_cases t ht with old | new
    · exact ⟨grown.rows _ (h.rows t old).1, grown.rows _ (h.rows t old).2⟩
    · exact (newTransfers t new).2.2
  · intro p hp
    rcases purchase_cases p hp with old | new
    · exact grown.rows _ (h.buyers p old)
    · exact (newPurchases p new).1
  · intro p hp
    rw [grown.goods]
    rcases purchase_cases p hp with old | new
    · exact h.listed p old
    · exact (newPurchases p new).2

/-- **Each of the three changes keeps a store well-formed**: what it records has been checked before
it is written. -/
theorem Change.wellFormed (hc : Change seed s s') (h : s.WellFormed) : s'.WellFormed := by
  have grown := hc.grows
  cases hc with
  | provision u =>
    exact h.grow grown (List.append_nil _).symm (List.append_nil _).symm nofun nofun
  | purchase listed hb hr =>
    refine h.grow grown rfl (List.append_nil _).symm ?_ nofun
    intro p hp
    obtain rfl := List.mem_singleton.1 hp
    exact ⟨grown.rows _ (by rw [hb]; rfl), _, listed, rfl⟩
  | transfer hne positive hs hr ht hsum =>
    refine h.grow grown (List.append_nil _).symm rfl nofun ?_
    intro t mem
    obtain rfl := List.mem_singleton.1 mem
    exact ⟨hne, positive, grown.rows _ (by rw [hs]; rfl), grown.rows _ (by rw [ht]; rfl)⟩

theorem Changes.wellFormed (hc : Changes seed s s') (h : s.WellFormed) : s'.WellFormed := by
  induction hc with
  | refl => exact h
  | tail _ last ih => exact last.wellFormed ih

theorem MayChange.grows (h : MayChange seed s s') : s.Grows s' := by
  cases h with
  | refl => exact s.grows_refl
  | single h => exact h.grows

end Store

/-! ## Runs -/

namespace Interleaving

/-- **The records of every run are well-formed.**  Any number of callers run commands over one store
whose logs are empty, in any order of their calls and units of work, with any of these failing and
any caller dropped at any point.  Then every state of the run is well-formed, and each differs from
the one before it by one record at most, by no row less, and not in its catalog. -/
theorem after_wellFormed (d : Directory) (seed : Coins) (commands : List Command) (s : Store)
    (purchases : s.purchases = []) (transfers : s.transfers = []) (schedule : Schedule)
    (honest : ∀ t ∈ schedule, t.move.Honest) :
    let state (turns : Schedule) : Store :=
      ((System.starting (commands.map (Command.program seed)) s).after d turns).store
    (∀ before rest, schedule = before ++ rest → (state before).WellFormed) ∧
    ∀ before t rest, schedule = before ++ t :: rest →
      (state before).Grows (state (before ++ [t])) := by
  have lawful := System.lawful_starting seed commands s
  refine ⟨?_, ?_⟩
  · rintro before rest rfl
    have changes := (System.after_changes (d := d) lawful
      fun t ht => honest t (List.mem_append_left rest ht)).2
    exact changes.wellFormed (Store.wellFormed_of_empty purchases transfers)
  · rintro before t rest rfl
    have lawful_before := (System.after_changes (d := d) lawful
      fun t' ht' => honest t' (List.mem_append_left _ ht')).1
    have last : t.move.Honest := honest t (by simp)
    have step := (System.step_changes (d := d) lawful_before last).2
    dsimp only
    rw [System.after_append, System.after_cons, System.after_nil]
    exact step.grows

/-- A shop with two accounts in which nothing has been bought or sent. -/
def freshShop : Store where
  balances := SortedMap.ofList [(⟨1⟩, ⟨100⟩), (⟨3⟩, ⟨0⟩)]
  goods := Store.standardCatalog

/-- Two transfers to a user without a row, and a purchase by that user. -/
def crowd : List Command :=
  [.sendCoins ⟨1⟩ ⟨"erin", by decide⟩ ⟨30⟩, .sendCoins ⟨3⟩ ⟨"erin", by decide⟩ ⟨5⟩,
    .buyItem ⟨2⟩ "cup"]

/-- The first transfer makes the recipient's row and is overtaken by the purchase.  The second one
cannot be paid for, and its caller is dropped. -/
def crowdSchedule : Schedule :=
  [⟨0, .go .quiet⟩, ⟨0, .go .quiet⟩, ⟨1, .go .quiet⟩, ⟨2, .go .quiet⟩, ⟨2, .go .quiet⟩,
    ⟨1, .go .quiet⟩, ⟨1, .go .quiet⟩, ⟨1, .abandon⟩, ⟨0, .go .quiet⟩]

theorem honest_crowdSchedule : ∀ t ∈ crowdSchedule, t.move.Honest := by
  have quiet := Script.honest_quiet
  simp only [crowdSchedule, List.forall_mem_cons]
  exact ⟨.go quiet, .go quiet, .go quiet, .go quiet, .go quiet, .go quiet, .go quiet, .abandon,
    .go quiet, fun _ h => nomatch h⟩

/-- The crowded shop after some of the turns. -/
def crowdedShop (turns : Schedule) : Store :=
  ((System.starting (crowd.map (Command.program ⟨1000⟩)) freshShop).after
    (Directory.ofList [(⟨2⟩, "erin")]) turns).store

/-- In the crowded shop one purchase and one transfer come through, the transfer with the last
turn. -/
theorem after_wellFormed_crowd :
    freshShop.purchases = [] ∧ freshShop.transfers = [] ∧
    (∀ t ∈ crowdSchedule, t.move.Honest) ∧
    (crowdedShop crowdSchedule).purchases = [⟨⟨2⟩, ⟨2⟩⟩] ∧
    (crowdedShop crowdSchedule).transfers = [⟨⟨1⟩, ⟨2⟩, ⟨30⟩⟩] ∧
    (crowdedShop crowdSchedule).WellFormed ∧
    (crowdedShop (crowdSchedule.take 8)).Grows (crowdedShop (crowdSchedule.take 8 ++
      [⟨0, .go .quiet⟩])) := by
  obtain ⟨states, steps⟩ := after_wellFormed (Directory.ofList [(⟨2⟩, "erin")]) ⟨1000⟩ crowd
    freshShop rfl rfl crowdSchedule honest_crowdSchedule
  refine ⟨rfl, rfl, honest_crowdSchedule, by decide +kernel, by decide +kernel, ?_, ?_⟩
  · exact states crowdSchedule [] (List.append_nil _).symm
  · exact steps (crowdSchedule.take 8) ⟨0, .go .quiet⟩ [] rfl

end Interleaving

end CoinLedger
