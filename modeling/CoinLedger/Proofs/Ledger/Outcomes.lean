import CoinLedger.Proofs.Ledger.Units

/-!
# How a use case may come out

`UseCase.Ensures d post p s` says that `p`, begun in the store `s`, comes out as `post` allows,
whatever becomes of its calls: each of them may be made or fail, each unit of work may commit or
be rolled back, and the run may be cut before any of them.  Who waits until the limit takes a cut
for the failure `deadlineExceeded`, and so does `post`.

Every play against an honest script is such a run (`Ensures.play`).  What is proved by going
through the few calls of a use case thus covers every script of failures and delays, and every
limit.

## Main results

* `UseCase.Ensures.play` — an honest script keeps to what a use case ensures.
* `UseCase.buyItem_ensures` — a purchase commits its unit of work, or leaves the store alone.
* `UseCase.sendCoins_ensures` — a transfer commits its unit of work, or leaves at most a fresh row
  of the recipient.
-/

namespace CoinLedger

/-- Whether what a play came to is allowed; a cut counts as the failure of being late. -/
def Played.Meets {α : Type} (post : Except LedgerError α → Store → Prop) : Played α → Prop
  | .finished r s _ => post r s
  | .cut s => post (.error .deadlineExceeded) s

/-- What is allowed after a success and what after a failure, whichever it is. -/
def eitherWay {α : Type} (success failure : Store → Prop) : Except LedgerError α → Store → Prop
  | .ok _, s => success s
  | .error _, s => failure s

namespace UseCase

variable {α β : Type} {d : Directory}

/-- Whether a program, begun in a store, comes out as allowed, whatever fails and wherever it is
cut. -/
def Ensures (d : Directory) (post : Except LedgerError α → Store → Prop) :
    UseCase α → Store → Prop
  | done r, s => post r s
  | call c next, s =>
    post (.error .deadlineExceeded) s ∧ (∀ f, (next (.error f)).Ensures d post s) ∧
      (next (Store.call d c s).1).Ensures d post (Store.call d c s).2
  | transact w next, s =>
    w.Strict ∧ post (.error .deadlineExceeded) s ∧ (∀ e, (next (.error e)).Ensures d post s) ∧
      ∀ s', w.commitIfOk s = (.ok (), s') → (next (.ok ())).Ensures d post s'
  | gather _ next, s =>
    post (.error .deadlineExceeded) s ∧ ∀ r, (next r).Ensures d post s

/-- A program goes on from every success of the one before it, and fails as that one fails. -/
theorem Ensures.bind {middle : Except LedgerError α → Store → Prop}
    {post : Except LedgerError β → Store → Prop} {p : UseCase α} {f : α → UseCase β} {s : Store}
    (hp : p.Ensures d middle s) (fails : ∀ e s', middle (.error e) s' → post (.error e) s')
    (hf : ∀ a s', middle (.ok a) s' → (f a).Ensures d post s') : (p >>= f).Ensures d post s := by
  induction p generalizing s with
  | done r =>
    cases r with
    | ok a => exact hf a s hp
    | error e => exact fails e s hp
  | call c next ih =>
    obtain ⟨late, failed, answered⟩ := hp
    exact ⟨fails _ _ late, fun f => ih _ (failed f), ih _ answered⟩
  | transact w next ih =>
    obtain ⟨strict, late, failed, committed⟩ := hp
    exact ⟨strict, fails _ _ late, fun e => ih _ (failed e), fun s' h => ih _ (committed s' h)⟩
  | gather u next ih =>
    obtain ⟨late, read⟩ := hp
    exact ⟨fails _ _ late, fun r => ih r (read r)⟩

/-- A single call may be followed by whatever its genuine answer allows. -/
theorem Ensures.ask_bind {post : Except LedgerError β → Store → Prop} {c : Call}
    {f : c.Answer → UseCase β} {s s' : Store} {a : c.Answer}
    (genuine : Store.call d c s = (.ok a, s')) (fails : ∀ e, post (.error e) s)
    (hf : (f a).Ensures d post s') : (ask c >>= f).Ensures d post s := by
  refine ⟨fails _, fun _ => fails _, ?_⟩
  rw [genuine]
  exact hf

/-- **Every honest script keeps to what a use case ensures**, under any limit and from any moment
on. -/
theorem Ensures.play {e : Stage} (honest : e.script.Honest)
    {post : Except LedgerError α → Store → Prop} {p : UseCase α} {s : Store}
    (hp : p.Ensures e.directory post s) (c : Clock) : (p.play e s c).Meets post := by
  induction p generalizing s c with
  | done r => exact hp
  | call q next ih =>
    obtain ⟨late, failed, answered⟩ := hp
    simp only [UseCase.play]
    split
    · rcases (honest.call c.calls q).apply_cases (Store.call e.directory q) s with made | refused
      · rw [made]
        exact ih _ answered _
      · obtain ⟨f, hf⟩ := refused
        rw [hf]
        exact ih _ (failed f) _
    · exact late
  | transact w next ih =>
    obtain ⟨strict, late, failed, committed⟩ := hp
    simp only [UseCase.play]
    split
    · exact late
    · next ending s' c' h =>
      rcases Work.conclude_outcome honest strict h with ⟨_, hok, hcommit⟩ | ⟨err, herr, rfl⟩
      · rw [hok]
        exact ih _ (committed s' hcommit) _
      · rw [herr]
        exact ih _ (failed err) _
  | gather u next ih =>
    obtain ⟨late, read⟩ := hp
    simp only [UseCase.play]
    split
    · exact ih _ (read _) _
    · exact late

/-! ## The use cases -/

/-- A row is created, or the store is left alone. -/
theorem ensureCreated_ensures (d : Directory) (seed : Coins) (u : UserId) (s : Store) :
    (ensureCreated seed u).Ensures d (eitherWay (· = s.insertIfAbsent u seed) (· = s)) s :=
  ⟨rfl, fun _ => rfl, rfl⟩

/-- **A purchase is all or nothing**: its unit of work is committed for a good of that name, or the
store is left alone. -/
theorem buyItem_ensures (d : Directory) (u : UserId) (name : String) (s : Store) :
    (buyItem u name).Ensures d
      (eitherWay
        (fun s' => ∃ g, s.findGood name = some g ∧ (purchase u g).commitIfOk s = (.ok (), s'))
        (· = s)) s := by
  refine Ensures.ask_bind (a := s.findGood name) rfl (fun _ => rfl) ?_
  cases hg : s.findGood name with
  | none => exact rfl
  | some g => exact ⟨strict_purchase u g, rfl, fun _ => rfl, fun s' h => ⟨g, rfl, h⟩⟩

/-- **A transfer is all or nothing but for the recipient's row**: its unit of work is committed
behind the provisioning of the recipient, or the store is left alone but for that row. -/
theorem sendCoins_ensures (d : Directory) (seed : Coins) (u : UserId) (name : Username)
    (amount : Coins) (s : Store) :
    (sendCoins seed u name amount).Ensures d
      (eitherWay
        (fun s' => ∃ v, d.idOf? name = some v ∧ v ≠ u ∧
          (movement u v amount).commitIfOk (s.insertIfAbsent v seed) = (.ok (), s'))
        (fun s' => s' = s ∨ ∃ v, d.idOf? name = some v ∧ s' = s.insertIfAbsent v seed)) s := by
  unfold sendCoins
  split
  · exact .inl rfl
  · refine Ensures.ask_bind (a := d.idOf? name) rfl (fun _ => .inl rfl) ?_
    cases hv : d.idOf? name with
    | none => exact .inl rfl
    | some v =>
      dsimp only
      by_cases hvu : v = u
      · rw [if_pos hvu]
        exact .inl rfl
      · rw [if_neg hvu]
        refine (ensureCreated_ensures d seed v s).bind (fun _ _ h => .inl h) ?_
        rintro _ s' rfl
        refine ⟨strict_movement u v amount, .inr ⟨v, rfl, rfl⟩, ?_, ?_⟩
        · intro _
          exact .inr ⟨v, rfl, rfl⟩
        · intro s'' committed
          exact ⟨v, rfl, hvu, committed⟩

/-- Viewing an account leaves the store alone. -/
theorem accountInfo_ensures (d : Directory) (u : UserId) (s : Store) :
    (accountInfo u).Ensures d (fun _ s' => s' = s) s := by
  refine ⟨rfl, fun reads => ?_⟩
  cases reads with
  | error e => exact rfl
  | ok h =>
    dsimp only
    split
    · exact rfl
    · exact Ensures.ask_bind (a := d.namesOf h.history.counterparts) rfl (fun _ => rfl) rfl

end UseCase

end CoinLedger
