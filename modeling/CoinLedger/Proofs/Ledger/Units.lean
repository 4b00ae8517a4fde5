import CoinLedger.Proofs.Ledger.Operations

/-!
# What a unit of work does to the store

The two units of work, a purchase and a movement, are programs of statements.  Here each of them
is read as one step of the store, from the equations of its operations: when it succeeds, with which
error it fails, and what it leaves.  After that nothing has to look at their statements again.

A unit whose statements may fail is no harder than one whose statements do not.  Both units are
*strict*: a failed statement ends them with an error, which is a fault of the service.  So a strict
unit that comes to a success under a script of failures has met none of them, and did what it does
undisturbed (`play_ok`).

## Main results

* `UseCase.purchase_runOn`, `UseCase.movement_runOn` — the two units as steps of the store.
* `UseCase.purchase_commits_iff`, `UseCase.movement_commits_iff` — when they commit, and what.
* `Work.conclude_outcome` — a strict unit in its transaction commits as a whole or leaves nothing.
-/

namespace CoinLedger

/-- A call under an honest treatment is performed as it is, or fails and has no effect. -/
theorem Treatment.Honest.apply_cases {σ ε α : Type} {t : Treatment ε α} (h : t.Honest)
    (genuine : σ → Except ε α × σ) (s : σ) :
    t.apply genuine s = genuine s ∨ ∃ f, t.apply genuine s = (.error f, s) := by
  rcases h with performed | ⟨f, failed⟩
  · exact .inl (apply_of_performed performed genuine s)
  · right
    exact ⟨f, by simp only [Treatment.apply, failed]⟩

/-- The script in which every commit fails and nothing else does. -/
def Script.lostCommit (f : StorageFailure) : Script :=
  { Script.quiet with commit := fun _ => { reply := .replaced (.error f) } }

theorem Script.honest_lostCommit (f : StorageFailure) : (Script.lostCommit f).Honest :=
  { Script.honest_quiet with commit := fun _ => .inr ⟨f, rfl⟩ }

namespace Work

variable {σ ε α β : Type}

/-! ## Running a unit -/

/-- A unit in memory that ends with success has written what its statements wrote. -/
theorem commitIfOk_eq_ok_iff {w : Work ε α} {s s' : Store} {a : α} :
    w.commitIfOk s = (.ok a, s') ↔ w.runOn Store.statement s = (.ok a, s') := by
  unfold commitIfOk
  split
  · next h => rw [h]
  · next h =>
    rw [h]
    constructor <;> intro h' <;> cases h'

/-! ## Strict units -/

/-- Whether a failed statement always ends the unit with an error. -/
def Strict : Work ε α → Prop
  | done _ => True
  | ask _ next => (∀ f, ∃ e, next (.error f) = done (.error e)) ∧ ∀ a, (next (.ok a)).Strict

/-- Whether a failed statement always ends the unit, with a fault of the service. -/
def FaultsOnFailure : Work LedgerError α → Prop
  | done _ => True
  | ask _ next =>
    (∀ f, ∃ g, next (.error f) = done (.error (.internal g))) ∧ ∀ a, (next (.ok a)).FaultsOnFailure

theorem FaultsOnFailure.strict {w : Work LedgerError α} (h : w.FaultsOnFailure) : w.Strict := by
  induction w with
  | done r => trivial
  | ask q next ih =>
    refine ⟨fun f => ?_, fun a => ih (.ok a) (h.2 a)⟩
    obtain ⟨g, hg⟩ := h.1 f
    exact ⟨.internal g, hg⟩

theorem FaultsOnFailure.bind {w : Work LedgerError α} {f : α → Work LedgerError β}
    (hw : w.FaultsOnFailure) (hf : ∀ a, (f a).FaultsOnFailure) : (w >>= f).FaultsOnFailure := by
  induction w with
  | done r =>
    cases r with
    | ok a => exact hf a
    | error e => trivial
  | ask q next ih =>
    refine ⟨fun failure => ?_, fun a => ih (.ok a) (hw.2 a)⟩
    obtain ⟨g, hg⟩ := hw.1 failure
    have hbind : (next (.error failure)).bind f = done (.error (.internal g)) := by rw [hg]; rfl
    exact ⟨g, hbind⟩

theorem faultsOnFailure_run (q : Statement) : (run q).FaultsOnFailure :=
  ⟨fun f => ⟨.statement f, rfl⟩, fun _ => trivial⟩

theorem faultsOnFailure_lock (u : UserId) : (lock u).FaultsOnFailure :=
  (faultsOnFailure_run _).bind fun balance => by cases balance <;> trivial

theorem faultsOnFailure_findLocked (rows : List (UserId × Coins)) (u : UserId) :
    (findLocked rows u).FaultsOnFailure := by
  unfold findLocked
  split <;> trivial

theorem faultsOnFailure_lockPair (u v : UserId) : (lockPair u v).FaultsOnFailure :=
  (faultsOnFailure_run _).bind fun rows => (faultsOnFailure_findLocked rows u).bind fun _ =>
    (faultsOnFailure_findLocked rows v).bind fun _ => trivial

theorem faultsOnFailure_debit (u : UserId) (amount : Coins) : (debit u amount).FaultsOnFailure :=
  (faultsOnFailure_run _).bind fun affected => by split <;> trivial

theorem faultsOnFailure_credit (u : UserId) (amount : Coins) :
    (credit u amount).FaultsOnFailure :=
  (faultsOnFailure_run _).bind fun affected => by split <;> trivial

/-- A strict unit that succeeds against a script of failures has done what it does without them. -/
theorem play_ok {e : Stage} (honest : e.script.Honest) {w : Work ε α} (strict : w.Strict)
    {s s' : Store} {c c' : Clock} {a : α} (h : w.play e s c = some (.ok a, s', c')) :
    w.runOn Store.statement s = (.ok a, s') := by
  induction w generalizing s c with
  | done r =>
    cases h
    rfl
  | ask q next ih =>
    simp only [play] at h
    split at h
    · rcases (honest.statement c.calls q).apply_cases (Store.statement q) s with genuine | failed
      · -- The statement is performed; an answer that is itself a failure ends the unit.
        rw [genuine] at h
        rw [runOn_ask]
        cases hq : (Store.statement q s).1 with
        | ok answer =>
          rw [hq] at h
          exact ih (.ok answer) (strict.2 answer) h
        | error f =>
          obtain ⟨err, herr⟩ := strict.1 f
          rw [hq, herr] at h
          cases h
      · obtain ⟨f, hf⟩ := failed
        obtain ⟨err, herr⟩ := strict.1 f
        rw [hf, herr] at h
        cases h
    · cases h

/-- A transaction leaves what its unit has come to with success, or the store as it was. -/
theorem conclude_cases {e : Stage} {w : Work LedgerError α} {s s' : Store} {c c' : Clock}
    {ending : Ending LedgerError α} (h : w.conclude e s c = some (ending, s', c')) :
    (∃ a c₁ c₂, ending.outcome = .ok a ∧ w.play e s c₁ = some (.ok a, s', c₂)) ∨
      ∃ err, ending.outcome = .error err ∧ s' = s := by
  simp only [conclude] at h
  split at h
  · split at h
    · cases h
      exact .inr ⟨_, rfl, rfl⟩
    · split at h
      · cases h
      · cases h
        exact .inr ⟨_, rfl, rfl⟩
      · next a s₁ c₂ hplay =>
        split at h
        · split at h
          · cases h
            exact .inr ⟨_, rfl, rfl⟩
          · cases h
            exact .inl ⟨a, _, c₂, rfl, hplay⟩
        · cases h
  · cases h

/-- A strict unit in its transaction either commits what it does undisturbed, or ends with an
error and leaves the store as it was. -/
theorem conclude_outcome {e : Stage} (honest : e.script.Honest) {w : Work LedgerError α}
    (strict : w.Strict) {s s' : Store} {c c' : Clock} {ending : Ending LedgerError α}
    (h : w.conclude e s c = some (ending, s', c')) :
    (∃ a, ending.outcome = .ok a ∧ w.commitIfOk s = (.ok a, s')) ∨
      ∃ err, ending.outcome = .error err ∧ s' = s := by
  rcases conclude_cases h with ⟨a, c₁, c₂, succeeded, played⟩ | failed
  · exact .inl ⟨a, succeeded, commitIfOk_eq_ok_iff.2 (play_ok honest strict played)⟩
  · exact .inr failed

end Work

namespace UseCase

/-! ## The two units -/

theorem faultsOnFailure_purchase (u : UserId) (g : Good) : (purchase u g).FaultsOnFailure :=
  (Work.faultsOnFailure_lock u).bind fun balance => by
    split
    · trivial
    · exact (Work.faultsOnFailure_debit u g.price).bind fun _ => Work.faultsOnFailure_run _

theorem faultsOnFailure_movement (u v : UserId) (amount : Coins) :
    (movement u v amount).FaultsOnFailure :=
  (Work.faultsOnFailure_lockPair u v).bind fun balances => by
    dsimp only
    split
    · trivial
    · split
      · trivial
      · exact (Work.faultsOnFailure_debit u amount).bind fun _ =>
          (Work.faultsOnFailure_credit v amount).bind fun _ => Work.faultsOnFailure_run _

theorem strict_purchase (u : UserId) (g : Good) : (purchase u g).Strict :=
  (faultsOnFailure_purchase u g).strict

theorem strict_movement (u v : UserId) (amount : Coins) : (movement u v amount).Strict :=
  (faultsOnFailure_movement u v amount).strict

/-- The unit of a purchase as one step of the store. -/
theorem purchase_runOn (u : UserId) (g : Good) (s : Store) :
    (purchase u g).runOn Store.statement s =
      match s.balance? u with
      | none => (.error (.balanceNotFound u), s)
      | some balance =>
        match balance.sub? g.price with
        | none => (.error (.insufficientBalance u), s)
        | some rest => (.ok (), (s.setBalance u rest).addPurchase ⟨u, g.id⟩) := by
  unfold purchase
  rw [Work.runOn_bind, Work.lock_runOn]
  cases hb : s.balance? u with
  | none => rfl
  | some balance =>
    cases hp : balance.sub? g.price with
    | none => simp [hp]
    | some rest => simp [Work.runOn_bind, Work.debit_runOn, Work.recordPurchase_runOn, hb, hp]

/-- The unit of a movement between two users as one step of the store. -/
theorem movement_runOn {u v : UserId} (huv : u ≠ v) (amount : Coins) (s : Store) :
    (movement u v amount).runOn Store.statement s =
      match s.balance? u, s.balance? v with
      | none, _ => (.error (.balanceNotFound u), s)
      | some _, none => (.error (.balanceNotFound v), s)
      | some source, some target =>
        match source.sub? amount, target.add? amount with
        | none, _ => (.error (.insufficientBalance u), s)
        | some _, none => (.error (.invalidArguments .recipientFull), s)
        | some rest, some sum =>
          (.ok (), ((s.setBalance u rest).setBalance v sum).addTransfer ⟨u, v, amount⟩) := by
  unfold movement
  rw [Work.runOn_bind, Work.lockPair_runOn]
  cases hu : s.balance? u with
  | none => rfl
  | some source =>
    cases hv : s.balance? v with
    | none => rfl
    | some target =>
      cases hs : source.sub? amount with
      | none => simp [hs]
      | some rest =>
        cases ht : target.add? amount with
        | none => simp [hs, ht]
        | some sum =>
          simp [Work.runOn_bind, Work.debit_runOn, Work.credit_runOn, Work.recordTransfer_runOn,
            hu, hv, hs, ht, huv]

/-- A purchase commits exactly if the buyer's row covers the price; it then lowers the row by the
price and appends one receipt. -/
theorem purchase_commits_iff {u : UserId} {g : Good} {s s' : Store} :
    (purchase u g).commitIfOk s = (.ok (), s') ↔
      ∃ balance rest, s.balance? u = some balance ∧ balance.sub? g.price = some rest ∧
        s' = (s.setBalance u rest).addPurchase ⟨u, g.id⟩ := by
  rw [Work.commitIfOk_eq_ok_iff, purchase_runOn]
  cases s.balance? u with
  | none => simp
  | some balance => cases hp : balance.sub? g.price <;> simp [hp, eq_comm]

/-- A movement commits exactly if the sender's row covers the amount and the recipient's row can
hold it; it then moves the amount and appends one transfer. -/
theorem movement_commits_iff {u v : UserId} (huv : u ≠ v) {amount : Coins} {s s' : Store} :
    (movement u v amount).commitIfOk s = (.ok (), s') ↔
      ∃ source rest target sum, s.balance? u = some source ∧ source.sub? amount = some rest ∧
        s.balance? v = some target ∧ target.add? amount = some sum ∧
        s' = ((s.setBalance u rest).setBalance v sum).addTransfer ⟨u, v, amount⟩ := by
  rw [Work.commitIfOk_eq_ok_iff, movement_runOn huv]
  cases s.balance? u with
  | none => simp
  | some source =>
    cases s.balance? v with
    | none => simp
    | some target =>
      cases hs : source.sub? amount <;> cases ht : target.add? amount <;> simp [hs, ht, eq_comm]

end UseCase

end CoinLedger
