import CoinLedger.Proofs.Ledger.Calls
import CoinLedger.Proofs.Ledger.Units

/-!
# Runs under a limit

What a limit on the time does to a run is said in terms of the run without it, which comes to its
end at some moment.  If this is not past the limit, the limit makes no difference.  Otherwise the
run is cut, and what is left is what its single calls that were over by then have left.

The second half needs three things of a use case: a failed call ends it, so that a call which is
over in a run that goes on has been made; nothing comes after a unit of work, so that a run which
is cut has committed nothing; and a cut unit leaves nothing, which `Work.conclude` sees to.

## Main definitions

* `Stage.within` — the same stage with a limit.
* `Store.afterCalls`, `callsBy` — the store after some calls, and the calls that are over by then.
* `UseCase.Straight` — failed calls and units of work end a use case.

## Main results

* `Work.play_within`, `Work.conclude_within` — units of work under a limit.
* `UseCase.play_in_time`, `UseCase.play_late` — use cases under a limit.
-/

namespace CoinLedger

/-- The same stage with a limit. -/
def Stage.within (e : Stage) (limit : Nat) : Stage := { e with limit := some limit }

@[simp] theorem Stage.within_script (e : Stage) (limit : Nat) :
    (e.within limit).script = e.script := rfl

@[simp] theorem Stage.within_directory (e : Stage) (limit : Nat) :
    (e.within limit).directory = e.directory := rfl

@[simp] theorem Stage.within_reads (e : Stage) (limit : Nat) (s : Store) (c : Clock) (u : UserId) :
    (e.within limit).reads s c u = e.reads s c u := rfl

@[simp] theorem Stage.allows_within (e : Stage) (limit time : Nat) :
    ((e.within limit).allows time = true) = (time ≤ limit) :=
  decide_eq_true_eq

/-- The store after some calls have been made. -/
def Store.afterCalls (d : Directory) (s : Store) (calls : List Call) : Store :=
  calls.foldl (fun s q => (Store.call d q s).2) s

/-- Those of some calls that are over by a limit. -/
def callsBy (limit : Nat) (calls : List (Call × Nat)) : List Call :=
  (calls.filter (·.2 ≤ limit)).map Prod.fst

theorem callsBy_cons (limit : Nat) (x : Call × Nat) (rest : List (Call × Nat)) :
    callsBy limit (x :: rest) =
      if x.2 ≤ limit then x.1 :: callsBy limit rest else callsBy limit rest := by
  unfold callsBy
  by_cases ended : x.2 ≤ limit <;> simp [ended]

theorem callsBy_eq_nil {limit : Nat} {calls : List (Call × Nat)}
    (late : ∀ x ∈ calls, limit < x.2) : callsBy limit calls = [] := by
  unfold callsBy
  rw [List.map_eq_nil_iff, List.filter_eq_nil_iff]
  intro x hx
  simp [late x hx]

/-! ## Straight use cases -/

/-- Whether failed calls and units of work end a use case. -/
def UseCase.Straight {α : Type} : UseCase α → Prop
  | done _ => True
  | call _ next => (∀ f, ∃ err, next (.error f) = done (.error err)) ∧
      ∀ a, (next (.ok a)).Straight
  | transact _ next => ∀ r, ∃ r', next r = done r'
  | gather _ next => ∀ r, (next r).Straight

namespace UseCase

variable {α β : Type}

theorem Straight.bind_pure {p : UseCase α} (hp : p.Straight) (f : α → β) :
    (p >>= fun a => pure (f a)).Straight := by
  induction p with
  | done r => cases r <;> trivial
  | call q next ih =>
    refine ⟨fun failure => ?_, fun a => ih _ (hp.2 a)⟩
    obtain ⟨err, ends⟩ := hp.1 failure
    have still : (next (.error failure)).bind (fun a => pure (f a)) = done (.error err) := by
      rw [ends]
      rfl
    exact ⟨err, still⟩
  | transact w next ih =>
    intro r
    obtain ⟨r', ends⟩ := hp r
    have still : (next r).bind (fun a => pure (f a)) = done (r'.map f) := by
      rw [ends]
      cases r' <;> rfl
    exact ⟨r'.map f, still⟩
  | gather u next ih => exact fun r => ih r (hp r)

theorem straight_ask_bind {q : Call} {f : q.Answer → UseCase β} (hf : ∀ a, (f a).Straight) :
    (ask q >>= f).Straight :=
  ⟨fun failure => ⟨.internal (q.fault failure), rfl⟩, hf⟩

end UseCase

/-! ## Units of work under a limit -/

section
variable {e : Stage} (unlimited : e.limit = none)
include unlimited

namespace Work

variable {ε α : Type}

/-- Without a limit a unit comes to its end, and not before it begins. -/
theorem play_unlimited (w : Work ε α) (s : Store) (c : Clock) :
    ∃ r s' c', w.play e s c = some (r, s', c') ∧ c.time ≤ c'.time := by
  induction w generalizing s c with
  | done r => exact ⟨r, s, c, rfl, Nat.le_refl _⟩
  | ask q next ih =>
    simp only [play, Stage.allows_of_unlimited unlimited, if_true]
    obtain ⟨r, s', c', played, later⟩ := ih
      ((e.script.statement c.calls q).apply (Store.statement q) s).1
      ((e.script.statement c.calls q).apply (Store.statement q) s).2
      (c.after (e.script.statement c.calls q).delay)
    exact ⟨r, s', c', played, Nat.le_trans (Nat.le_add_right _ _) later⟩

/-- A unit under a limit does what it does without one, unless it would end later. -/
theorem play_within {w : Work ε α} {s s' : Store} {c c' : Clock} {r : Except ε α} {limit : Nat}
    (played : w.play e s c = some (r, s', c')) (begun : c.time ≤ limit) :
    w.play (e.within limit) s c = if c'.time ≤ limit then some (r, s', c') else none := by
  induction w generalizing s c with
  | done _ =>
    cases played
    exact (if_pos begun).symm
  | ask q next ih =>
    simp only [play, Stage.allows_of_unlimited unlimited, if_true] at played
    simp only [play, Stage.within_script, Stage.allows_within]
    by_cases answered : (c.after (e.script.statement c.calls q).delay).time ≤ limit
    · rw [if_pos answered]
      exact ih _ played answered
    · obtain ⟨_, _, _, played', later⟩ := play_unlimited unlimited
        (next ((e.script.statement c.calls q).apply (Store.statement q) s).1)
        ((e.script.statement c.calls q).apply (Store.statement q) s).2
        (c.after (e.script.statement c.calls q).delay)
      cases played.symm.trans played'
      have late : ¬c'.time ≤ limit := by omega
      rw [if_neg answered, if_neg late]

/-- Without a limit a transaction comes to its end, and not before it is opened. -/
theorem conclude_unlimited (w : Work ε α) (s : Store) (c : Clock) :
    ∃ ending s' c', w.conclude e s c = some (ending, s', c') ∧
      (c.after (e.script.begin c.calls).delay).time ≤ c'.time := by
  simp only [conclude, Stage.allows_of_unlimited unlimited, if_true]
  split
  · exact ⟨_, _, _, rfl, Nat.le_refl _⟩
  · obtain ⟨r, s', c', played, later⟩ := w.play_unlimited unlimited s
      (c.after (e.script.begin c.calls).delay)
    rw [played]
    cases r with
    | error err => exact ⟨_, _, _, rfl, later⟩
    | ok a =>
      have ended : (c.after (e.script.begin c.calls).delay).time ≤
          (c'.after (e.script.commit c'.calls).delay).time :=
        Nat.le_trans later (Nat.le_add_right _ _)
      dsimp only
      split <;> exact ⟨_, _, _, rfl, ended⟩

/-- A transaction under a limit does what it does without one, unless it would end later. -/
theorem conclude_within {w : Work ε α} {s s' : Store} {c c' : Clock} {ending : Ending ε α}
    {limit : Nat} (concluded : w.conclude e s c = some (ending, s', c')) :
    w.conclude (e.within limit) s c =
      if c'.time ≤ limit then some (ending, s', c') else none := by
  obtain ⟨_, _, _, again, later⟩ := w.conclude_unlimited unlimited s c
  cases concluded.symm.trans again
  simp only [conclude, Stage.allows_of_unlimited unlimited, if_true] at concluded
  simp only [conclude, Stage.within_script, Stage.allows_within]
  by_cases opened : (c.after (e.script.begin c.calls).delay).time ≤ limit
  · rw [if_pos opened]
    cases begun : ((e.script.begin c.calls).apply (fun s => (.ok (), s)) s).1 with
    | error cause =>
      rw [begun] at concluded
      cases concluded
      exact (if_pos opened).symm
    | ok _ =>
      obtain ⟨r, s₂, c₂, played, -⟩ := w.play_unlimited unlimited s
        (c.after (e.script.begin c.calls).delay)
      rw [begun] at concluded
      simp only [played] at concluded
      simp only [play_within unlimited played opened]
      -- The commit comes after the work, so a late unit is late in its work or in its commit.
      cases r with
      | error err =>
        cases concluded
        by_cases worked : c'.time ≤ limit
        · simp only [if_pos worked]
        · simp only [if_neg worked]
      | ok a =>
        have ends : c' = c₂.after (e.script.commit c₂.calls).delay := by
          dsimp only at concluded
          split at concluded <;> cases concluded <;> rfl
        by_cases worked : c₂.time ≤ limit
        · dsimp only at concluded
          rw [← ends] at concluded
          simp only [if_pos worked, ← ends, concluded]
        · have late : ¬c'.time ≤ limit := by
            rw [ends]
            have : c₂.time ≤ (c₂.after (e.script.commit c₂.calls).delay).time :=
              Nat.le_add_right _ _
            omega
          simp only [if_neg worked, if_neg late]
  · have late : ¬c'.time ≤ limit := by omega
    rw [if_neg opened, if_neg late]

end Work

/-! ## Use cases under a limit -/

namespace UseCase

variable {α : Type}

/-- Without a limit a use case comes to its end, and not before it begins. -/
theorem play_unlimited (p : UseCase α) (s : Store) (c : Clock) :
    ∃ r s' c', p.play e s c = .finished r s' c' ∧ c.time ≤ c'.time := by
  induction p generalizing s c with
  | done r => exact ⟨r, s, c, rfl, Nat.le_refl _⟩
  | call q next ih =>
    simp only [play, Stage.allows_of_unlimited unlimited, if_true]
    obtain ⟨r, s', c', played, later⟩ := ih
      ((e.script.call c.calls q).apply (Store.call e.directory q) s).1
      ((e.script.call c.calls q).apply (Store.call e.directory q) s).2
      (c.after (e.script.call c.calls q).delay)
    exact ⟨r, s', c', played, Nat.le_trans (Nat.le_add_right _ _) later⟩
  | transact w next ih =>
    obtain ⟨ending, s₁, c₁, concluded, later⟩ := w.conclude_unlimited unlimited s c
    obtain ⟨r, s', c', played, later'⟩ := ih ending.outcome s₁ c₁
    simp only [play, concluded]
    exact ⟨r, s', c', played,
      Nat.le_trans (Nat.le_add_right _ _) (Nat.le_trans later later')⟩
  | gather u next ih =>
    obtain ⟨r, s', c', played, later⟩ := ih (e.reads s c u).value s
      ⟨(e.reads s c u).moment, c.calls + 3⟩
    simp only [play, Stage.allows_of_unlimited unlimited, if_true]
    exact ⟨r, s', c', played, Nat.le_trans (e.le_reads_moment s c u) later⟩

/-- **A run that ends in time is the run without a limit.** -/
theorem play_in_time {p : UseCase α} {s s' : Store} {c c' : Clock} {r : Except LedgerError α}
    {limit : Nat} (played : p.play e s c = .finished r s' c') (intime : c'.time ≤ limit) :
    p.play (e.within limit) s c = .finished r s' c' := by
  induction p generalizing s c with
  | done _ => exact played
  | call q next ih =>
    simp only [play, Stage.allows_of_unlimited unlimited, if_true] at played
    obtain ⟨_, _, _, again, later⟩ := play_unlimited unlimited
      (next ((e.script.call c.calls q).apply (Store.call e.directory q) s).1)
      ((e.script.call c.calls q).apply (Store.call e.directory q) s).2
      (c.after (e.script.call c.calls q).delay)
    cases played.symm.trans again
    simp only [play, Stage.within_script, Stage.within_directory, Stage.allows_within]
    rw [if_pos (Nat.le_trans later intime)]
    exact ih _ played
  | transact w next ih =>
    obtain ⟨ending, s₁, c₁, concluded, -⟩ := w.conclude_unlimited unlimited s c
    simp only [play, concluded] at played
    obtain ⟨_, _, _, again, later⟩ := play_unlimited unlimited (next ending.outcome) s₁ c₁
    cases played.symm.trans again
    simp only [play, Work.conclude_within unlimited concluded, if_pos (Nat.le_trans later intime)]
    exact ih _ played
  | gather u next ih =>
    simp only [play, Stage.allows_of_unlimited unlimited, if_true] at played
    obtain ⟨_, _, _, again, later⟩ := play_unlimited unlimited (next (e.reads s c u).value) s
      ⟨(e.reads s c u).moment, c.calls + 3⟩
    cases played.symm.trans again
    simp only [play, Stage.within_reads, Stage.allows_within]
    rw [if_pos (Nat.le_trans later intime)]
    exact ih _ played

/-- No call of a run is over before the run begins. -/
theorem le_of_mem_calls {p : UseCase α} {s : Store} {c : Clock} {x : Call × Nat}
    (h : x ∈ p.calls e s c) : c.time ≤ x.2 := by
  induction p generalizing s c with
  | done r => cases h
  | call q next ih =>
    simp only [calls, Stage.allows_of_unlimited unlimited, if_true] at h
    have ended : c.time ≤ (c.after (e.script.call c.calls q).delay).time := Nat.le_add_right _ _
    rcases List.mem_cons.1 h with rfl | h
    · exact ended
    · exact Nat.le_trans ended (ih _ h)
  | transact w next ih =>
    obtain ⟨ending, s₁, c₁, concluded, later⟩ := w.conclude_unlimited unlimited s c
    simp only [calls, concluded] at h
    exact Nat.le_trans (Nat.le_add_right _ _) (Nat.le_trans later (ih _ h))
  | gather u next ih =>
    simp only [calls, Stage.allows_of_unlimited unlimited, if_true] at h
    exact Nat.le_trans (e.le_reads_moment s c u) (ih _ h)

/-- **A run that would end too late is cut**, and leaves what its calls that were over by then have
left. -/
theorem play_late (honest : e.script.Honest) {p : UseCase α} (straight : p.Straight)
    {s s' : Store} {c c' : Clock} {r : Except LedgerError α} {limit : Nat}
    (played : p.play e s c = .finished r s' c') (begun : c.time ≤ limit)
    (late : limit < c'.time) :
    p.play (e.within limit) s c =
      .cut (s.afterCalls e.directory (callsBy limit (p.calls e s c))) := by
  induction p generalizing s c with
  | done _ =>
    cases played
    omega
  | call q next ih =>
    obtain ⟨fails, goes⟩ := straight
    simp only [play, Stage.allows_of_unlimited unlimited, if_true] at played
    simp only [play, calls, Stage.allows_of_unlimited unlimited, if_true, Stage.within_script,
      Stage.within_directory, Stage.allows_within]
    by_cases ended : (c.after (e.script.call c.calls q).delay).time ≤ limit
    · rcases replied : (e.script.call c.calls q).apply (Store.call e.directory q) s with
        ⟨failure | a, s₁⟩
      · -- A failure would have ended the run in time.
        obtain ⟨err, ends⟩ := fails failure
        rw [replied] at played
        dsimp only at played
        rw [ends] at played
        cases played
        exact absurd ended (Nat.not_le.2 late)
      · have made : s₁ = (Store.call e.directory q s).2 := by
          rcases (honest.call c.calls q).apply_cases (Store.call e.directory q) s with
            genuine | ⟨f, failed⟩
          · rw [genuine] at replied
            rw [replied]
          · rw [failed] at replied
            cases replied
        rw [replied] at played
        rw [if_pos ended, callsBy_cons, if_pos ended, Store.afterCalls, List.foldl_cons, ← made]
        exact ih _ (goes a) played ended
    · have none_ended : ∀ x ∈ (q, (c.after (e.script.call c.calls q).delay).time) ::
          (next ((e.script.call c.calls q).apply (Store.call e.directory q) s).1).calls e
            ((e.script.call c.calls q).apply (Store.call e.directory q) s).2
            (c.after (e.script.call c.calls q).delay), limit < x.2 := by
        intro x hx
        rcases List.mem_cons.1 hx with rfl | hx
        · exact Nat.lt_of_not_le ended
        · exact Nat.lt_of_lt_of_le (Nat.lt_of_not_le ended) (le_of_mem_calls unlimited hx)
      rw [if_neg ended, callsBy_eq_nil none_ended]
      rfl
  | transact w next ih =>
    obtain ⟨ending, s₁, c₁, concluded, -⟩ := w.conclude_unlimited unlimited s c
    obtain ⟨r', ends⟩ := straight ending.outcome
    simp only [play, concluded, ends] at played
    cases played
    simp only [play, calls, Work.conclude_within unlimited concluded, concluded, ends,
      if_neg (Nat.not_le.2 late)]
    rfl
  | gather u next ih =>
    simp only [play, Stage.allows_of_unlimited unlimited, if_true] at played
    simp only [play, calls, Stage.allows_of_unlimited unlimited, if_true, Stage.within_reads,
      Stage.allows_within]
    by_cases there : (e.reads s c u).moment ≤ limit
    · rw [if_pos there]
      exact ih _ (straight _) played there
    · have none_ended : ∀ x ∈ (next (e.reads s c u).value).calls e s
          ⟨(e.reads s c u).moment, c.calls + 3⟩, limit < x.2 := by
        intro x hx
        exact Nat.lt_of_lt_of_le (Nat.lt_of_not_le there) (le_of_mem_calls unlimited hx)
      rw [if_neg there, callsBy_eq_nil none_ended]
      rfl

end UseCase

end

end CoinLedger
