import CoinLedger.UseCase
/-!
# Joining reads that run at the same time

Three reads are issued together and each is finished at a moment of its own. The join is over as
soon as one of them fails, with the failure that happens first; otherwise when the last one is
there. Of failures at one moment the one of the earlier read counts.

## Main results

* `failures_eq_nil_iff` — there is no failure exactly when all three reads succeed.
* `mem_failures`, `earliest_mem` — the failure reported is one of a read.
* `earliest_at_le` — no read failed before the one reported.
-/

namespace CoinLedger

/-- Something together with the moment from which on it is there. -/
structure Timed (α : Type) where
  value : α
  moment : Nat
  deriving DecidableEq, Repr

namespace Join

variable {ε α β γ : Type}

/-- The failure of a read that fails. -/
def failure? (r : Timed (Except ε α)) : Option (Timed ε) :=
  match r.value with
  | .ok _ => none
  | .error e => some ⟨e, r.moment⟩

/-- The failures among three reads, in the order of the reads. -/
def failures (a : Timed (Except ε α)) (b : Timed (Except ε β)) (c : Timed (Except ε γ)) :
    List (Timed ε) :=
  (failure? a).toList ++ (failure? b).toList ++ (failure? c).toList

/-- The failure with the least moment; the first of several. -/
def earliest (f : Timed ε) : List (Timed ε) → Timed ε
  | [] => f
  | g :: rest => if g.moment < f.moment then earliest g rest else earliest f rest

/-- The result of three reads that run at the same time. -/
def join (a : Timed (Except ε α)) (b : Timed (Except ε β)) (c : Timed (Except ε γ)) :
    Timed (Except ε (α × β × γ)) :=
  match failures a b c, a.value, b.value, c.value with
  | [], .ok x, .ok y, .ok z => ⟨.ok (x, y, z), max a.moment (max b.moment c.moment)⟩
  | f :: rest, _, _, _ => ⟨.error (earliest f rest).value, (earliest f rest).moment⟩
  | [], .error e, _, _ => ⟨.error e, a.moment⟩
  | [], _, .error e, _ => ⟨.error e, b.moment⟩
  | [], _, _, .error e => ⟨.error e, c.moment⟩

@[simp] theorem failure?_eq_some_iff {r : Timed (Except ε α)} {f : Timed ε} :
    failure? r = some f ↔ r.value = .error f.value ∧ r.moment = f.moment := by
  unfold failure?
  obtain ⟨v, m⟩ := r
  obtain ⟨e, n⟩ := f
  cases v <;> simp

theorem mem_failures {a : Timed (Except ε α)} {b : Timed (Except ε β)} {c : Timed (Except ε γ)}
    {f : Timed ε} :
    f ∈ failures a b c ↔
      (a.value = .error f.value ∧ a.moment = f.moment) ∨
      (b.value = .error f.value ∧ b.moment = f.moment) ∨
      (c.value = .error f.value ∧ c.moment = f.moment) := by
  simp [failures]

theorem failures_eq_nil_iff {a : Timed (Except ε α)} {b : Timed (Except ε β)}
    {c : Timed (Except ε γ)} :
    failures a b c = [] ↔
      (∃ x, a.value = .ok x) ∧ (∃ y, b.value = .ok y) ∧ ∃ z, c.value = .ok z := by
  obtain ⟨a, _⟩ := a
  obtain ⟨b, _⟩ := b
  obtain ⟨c, _⟩ := c
  cases a <;> cases b <;> cases c <;> simp [failures, failure?]

theorem earliest_mem (f : Timed ε) (rest : List (Timed ε)) : earliest f rest ∈ f :: rest := by
  induction rest generalizing f with
  | nil => simp [earliest]
  | cons g rest ih =>
    simp only [earliest]
    split
    · exact List.mem_cons_of_mem f (ih g)
    · rcases List.mem_cons.1 (ih f) with h | h
      · rw [h]; exact List.mem_cons_self
      · exact List.mem_cons_of_mem f (List.mem_cons_of_mem g h)

/-- No failure happened before the earliest. -/
theorem earliest_at_le (f : Timed ε) (rest : List (Timed ε)) :
    ∀ g ∈ f :: rest, (earliest f rest).moment ≤ g.moment := by
  induction rest generalizing f with
  | nil => simp [earliest]
  | cons d rest ih =>
    intro g hg
    simp only [earliest]
    split
    · next h =>
      have hd := ih d
      rcases List.mem_cons.1 hg with rfl | hg
      · have := hd d List.mem_cons_self
        omega
      · exact hd g hg
    · next h =>
      have hf := ih f
      rcases List.mem_cons.1 hg with rfl | hg
      · exact hf g List.mem_cons_self
      · rcases List.mem_cons.1 hg with rfl | hg
        · have := hf f List.mem_cons_self
          omega
        · exact hf g (List.mem_cons_of_mem f hg)

end Join

/-- A balance read that finds no row counts as failed. -/
def requireBalance (user : UserId) : Except StorageFailure (Option Coins) → Except LedgerError Coins
  | .ok (some amount) => .ok amount
  | .ok none => .error (.balanceNotFound user)
  | .error f => .error (.internal (.balances f))

/-- A failed history read is a fault of the service. -/
def requireHistory {α : Type} : Except StorageFailure α → Except LedgerError α
  | .ok a => .ok a
  | .error f => .error (.internal (.history f))

/-- The three reads of an account, joined. -/
def gatherReads (user : UserId) (balance : Timed (Except StorageFailure (Option Coins)))
    (inventory : Timed (Except StorageFailure Inventory))
    (transfers : Timed (Except StorageFailure History)) : Timed (Except LedgerError Holdings) :=
  let joined := Join.join ⟨requireBalance user balance.value, balance.moment⟩
    ⟨requireHistory inventory.value, inventory.moment⟩
    ⟨requireHistory transfers.value, transfers.moment⟩
  ⟨joined.value.map fun (b, i, t) => ⟨b, i, t⟩, joined.moment⟩

end CoinLedger
