import CoinLedger.Script

/-!
# The single calls of a run

A use case makes most of its calls one at a time, and goes on when one is over.  `UseCase.calls`
lists them for a run against a script: which ones are made, in which order, and at which moment
each of them is over.  The statements of a unit of work and the three joint reads of an account are
not among them.

The list depends on the script and on the store as the run itself does, so it is defined along with
the run, case by case.

## Main definitions

* `UseCase.calls` — the single calls of a run, with the moments at which they are over.

## Main results

* `UseCase.calls_ask_bind`, `UseCase.play_ask_bind` — a call, and what its reply leads to.
-/

namespace CoinLedger

/-- Three reads that are issued together are joined at the moment of one of them. -/
theorem Join.join_moment_cases {ε α β γ : Type} (a : Timed (Except ε α)) (b : Timed (Except ε β))
    (c : Timed (Except ε γ)) :
    (join a b c).moment = a.moment ∨ (join a b c).moment = b.moment ∨
      (join a b c).moment = c.moment := by
  unfold join
  split
  · dsimp only
    omega
  · next f rest failed =>
    have reported := earliest_mem f rest
    rw [← failed, mem_failures] at reported
    dsimp only
    rcases reported with ⟨-, h⟩ | ⟨-, h⟩ | ⟨-, h⟩ <;> simp [h]
  · exact .inl rfl
  · exact .inr (.inl rfl)
  · exact .inr (.inr rfl)

/-- The reads of an account are not there before they are issued. -/
theorem Stage.le_reads_moment (e : Stage) (s : Store) (c : Clock) (u : UserId) :
    c.time ≤ (e.reads s c u).moment := by
  have joined := Join.join_moment_cases
    ⟨requireBalance u (e.read s c (.findBalance u)).value, (e.read s c (.findBalance u)).moment⟩
    ⟨requireHistory (e.read s { c with calls := c.calls + 1 } (.inventory u)).value,
      (e.read s { c with calls := c.calls + 1 } (.inventory u)).moment⟩
    ⟨requireHistory (e.read s { c with calls := c.calls + 2 } (.transfers u)).value,
      (e.read s { c with calls := c.calls + 2 } (.transfers u)).moment⟩
  show c.time ≤ (Join.join _ _ _).moment
  rcases joined with h | h | h <;> rw [h] <;> exact Nat.le_add_right _ _

namespace UseCase

variable {α β : Type}

/-- The single calls of a run, each with the moment at which it is over. -/
def calls (e : Stage) : UseCase α → Store → Clock → List (Call × Nat)
  | done _, _, _ => []
  | call q next, s, c =>
    let t := e.script.call c.calls q
    let c' := c.after t.delay
    if e.allows c'.time then
      let (r, s') := t.apply (Store.call e.directory q) s
      (q, c'.time) :: (next r).calls e s' c'
    else []
  | transact w next, s, c =>
    match w.conclude e s c with
    | none => []
    | some (ending, s', c') => (next ending.outcome).calls e s' c'
  | gather user next, s, c =>
    let joined := e.reads s c user
    if e.allows joined.moment then
      (next joined.value).calls e s ⟨joined.moment, c.calls + 3⟩
    else []

variable {e : Stage}

/-- What is made of a result in the end takes no call. -/
theorem calls_bind_pure (p : UseCase α) (f : α → β) (s : Store) (c : Clock) :
    (p >>= fun a => pure (f a)).calls e s c = p.calls e s c := by
  induction p generalizing s c with
  | done r => cases r <;> rfl
  | call q next ih =>
    rw [call_bind]
    simp only [calls, ih]
  | transact w next ih =>
    rw [transact_bind]
    simp only [calls]
    split
    · rfl
    · exact ih _ _ _
  | gather u next ih =>
    rw [gather_bind]
    simp only [calls, ih]

/-- A use case that ends in a transaction makes no single call. -/
@[simp] theorem calls_inTransaction (w : Work LedgerError Unit) (s : Store) (c : Clock) :
    (inTransaction w).calls e s c = [] := by
  unfold inTransaction calls
  split <;> rfl

section
variable (unlimited : e.limit = none) (s : Store) (c : Clock)
include unlimited

/-- A call that is made in a run without a limit, and the calls that its reply leads to. -/
theorem calls_ask_bind {q : Call} (f : q.Answer → UseCase β) :
    (ask q >>= f).calls e s c =
      let c' := c.after (e.script.call c.calls q).delay
      (q, c'.time) ::
        match (e.script.call c.calls q).apply (Store.call e.directory q) s with
        | (.ok a, s') => (f a).calls e s' c'
        | (.error _, _) => [] := by
  rw [ask, call_bind, calls]
  simp only [Stage.allows_of_unlimited unlimited, if_true]
  rcases (e.script.call c.calls q).apply (Store.call e.directory q) s with ⟨failure | a, s'⟩ <;> rfl

/-- A call after which no other is made. -/
theorem calls_ask_last {q : Call} {f : q.Answer → UseCase β}
    (last : ∀ a s c, (f a).calls e s c = []) :
    (ask q >>= f).calls e s c = [(q, (c.after (e.script.call c.calls q).delay).time)] := by
  rw [calls_ask_bind unlimited]
  split
  · exact congrArg (List.cons _) (last _ _ _)
  · rfl

/-- A call that is made in a run without a limit, and the run that its reply leads to. -/
theorem play_ask_bind {q : Call} (f : q.Answer → UseCase β) :
    (ask q >>= f).play e s c =
      let c' := c.after (e.script.call c.calls q).delay
      match (e.script.call c.calls q).apply (Store.call e.directory q) s with
      | (.ok a, s') => (f a).play e s' c'
      | (.error failure, s') => .finished (.error (.internal (q.fault failure))) s' c' := by
  rw [ask, call_bind, play]
  simp only [Stage.allows_of_unlimited unlimited, if_true]
  rcases (e.script.call c.calls q).apply (Store.call e.directory q) s with ⟨failure | a, s'⟩ <;> rfl

end

end UseCase

end CoinLedger
