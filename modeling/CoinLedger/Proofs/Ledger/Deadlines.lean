import CoinLedger.Command
import CoinLedger.Proofs.Ledger.Limits
import CoinLedger.Proofs.Ledger.Sending

/-!
# Deadlines

A command that has a deadline either comes out as it does without one, or is late.  A late command
has no effect, with one exception: the row of a recipient who was provisioned in time stays.

## Main definitions

* `Command.Leaves` — what a command leaves that is cut.

## Main results

* `Command.answer_within` — every command under every limit.
-/

namespace CoinLedger

namespace UseCase

/-! ## The use cases are straight -/

theorem straight_inTransaction (w : Work LedgerError Unit) : (inTransaction w).Straight :=
  fun r => ⟨r, rfl⟩

theorem straight_ensureCreated (seed : Coins) (u : UserId) : (ensureCreated seed u).Straight :=
  ⟨fun f => ⟨.internal (.balances f), rfl⟩, fun _ => trivial⟩

theorem straight_buyItem (u : UserId) (name : String) : (buyItem u name).Straight :=
  straight_ask_bind fun found => by
    cases found with
    | none => trivial
    | some g => exact straight_inTransaction (purchase u g)

theorem straight_sendCoins (seed : Coins) (u : UserId) (name : Username) (amount : Coins) :
    (sendCoins seed u name amount).Straight := by
  unfold sendCoins
  split
  · trivial
  · refine straight_ask_bind fun found => ?_
    cases found with
    | none => trivial
    | some v =>
      dsimp only
      split
      · trivial
      · exact straight_ask_bind fun _ => straight_inTransaction (movement u v amount)

theorem straight_accountInfo (u : UserId) : (accountInfo u).Straight := by
  intro reads
  cases reads with
  | error err => trivial
  | ok h =>
    dsimp only
    split
    · trivial
    · exact straight_ask_bind fun _ => trivial

/-! ## The calls of the use cases -/

section
variable {e : Stage} (unlimited : e.limit = none) (s : Store) (c : Clock)
include unlimited

theorem calls_ensureCreated (seed : Coins) (u : UserId) :
    (ensureCreated seed u).calls e s c =
      [(.insertIfAbsent u seed,
        (c.after (e.script.call c.calls (.insertIfAbsent u seed)).delay).time)] := by
  simp only [ensureCreated, ask, calls, Stage.allows_of_unlimited unlimited, if_true]
  split <;> rfl

theorem calls_buyItem (u : UserId) (name : String) :
    ∃ t, (buyItem u name).calls e s c = [(.findGood name, t)] := by
  refine ⟨_, calls_ask_last unlimited s c fun found s c => ?_⟩
  cases found with
  | none => rfl
  | some g => exact calls_inTransaction (purchase u g) s c

/-- A transfer looks its recipient up, and then makes sure of the recipient's row. -/
theorem calls_sendCoins (honest : e.script.Honest) (seed : Coins) (u : UserId) (name : Username)
    (amount : Coins) :
    (sendCoins seed u name amount).calls e s c = [] ∨
      (∃ t, (sendCoins seed u name amount).calls e s c = [(.resolveUser name, t)]) ∨
      ∃ v t t', e.directory.idOf? name = some v ∧
        (sendCoins seed u name amount).calls e s c =
          [(.resolveUser name, t), (.insertIfAbsent v seed, t')] := by
  unfold sendCoins
  split
  · exact .inl rfl
  · rw [calls_ask_bind unlimited]
    dsimp only
    rcases (honest.call c.calls (.resolveUser name)).apply_cases
      (Store.call e.directory (.resolveUser name)) s with genuine | ⟨f, failed⟩
    · rw [genuine]
      dsimp only [Store.call]
      cases e.directory.idOf? name with
      | none => exact .inr (.inl ⟨_, rfl⟩)
      | some v =>
        dsimp only
        split
        · exact .inr (.inl ⟨_, rfl⟩)
        · have provisioned := calls_ask_last (q := .insertIfAbsent v seed) unlimited s
            (c.after (e.script.call c.calls (.resolveUser name)).delay)
            fun _ s c => calls_inTransaction (movement u v amount) s c
          exact .inr (.inr ⟨v, _, _, rfl, congrArg (List.cons _) provisioned⟩)
    · rw [failed]
      exact .inr (.inl ⟨_, rfl⟩)

theorem calls_accountInfo (u : UserId) :
    (accountInfo u).calls e s c = [] ∨
      ∃ users t, (accountInfo u).calls e s c = [(.resolveNames users, t)] := by
  simp only [accountInfo, calls, Stage.allows_of_unlimited unlimited, if_true]
  cases (e.reads s c u).value with
  | error err => exact .inl rfl
  | ok h =>
    dsimp only
    split
    · exact .inl rfl
    · exact .inr ⟨_, _, calls_ask_last unlimited _ _ fun _ _ _ => rfl⟩

end

end UseCase

/-! ## Commands -/

namespace Command

variable {d : Directory} {seed : Coins} {s left : Store} {calls : List (Call × Nat)} {limit : Nat}

/-- What a command leaves that is cut at a limit: for a transfer the row of the recipient, if the
call that makes sure of it was over by then, and otherwise the store as it was. -/
def Leaves (d : Directory) (seed : Coins) (s : Store) (calls : List (Call × Nat)) (limit : Nat)
    (left : Store) : Command → Prop
  | sendCoins _ name _ =>
    (∃ v t, d.idOf? name = some v ∧ (.insertIfAbsent v seed, t) ∈ calls ∧ t ≤ limit ∧
      s.Opened seed v left) ∨
    ((∀ v amount t, (.insertIfAbsent v amount, t) ∈ calls → limit < t) ∧ left = s)
  | _ => left = s

theorem straight_program (seed : Coins) (c : Command) : (c.program seed).Straight := by
  cases c with
  | ensureCreated u => exact (UseCase.straight_ensureCreated seed u).bind_pure _
  | buyItem u name => exact (UseCase.straight_buyItem u name).bind_pure _
  | sendCoins u name amount => exact (UseCase.straight_sendCoins seed u name amount).bind_pure _
  | accountInfo u => exact (UseCase.straight_accountInfo u).bind_pure _

/-- A call that reads leaves the store alone, in time or not. -/
theorem afterCalls_read {q : Call} (reads : ∀ s, (Store.call d q s).2 = s) (t : Nat) :
    s.afterCalls d (callsBy limit [(q, t)]) = s := by
  rw [callsBy_cons]
  split
  · exact reads s
  · rfl

section
variable {e : Stage} (unlimited : e.limit = none) {s' : Store} {c c' : Clock}
include unlimited

/-- The only call of a provisioning ends it, so in a late one it is late. -/
theorem leaves_ensureCreated {u : UserId} {r : Except LedgerError (Option AccountInfo)}
    (played : ((ensureCreated u).program seed).play e s c = .finished r s' c')
    (late : limit < c'.time) :
    s.afterCalls e.directory (callsBy limit ((UseCase.ensureCreated seed u).calls e s c)) = s := by
  have ends : c' = c.after (e.script.call c.calls (.insertIfAbsent u seed)).delay := by
    rw [program, UseCase.ensureCreated, UseCase.play_ask_bind unlimited] at played
    dsimp only at played
    split at played <;> cases played <;> rfl
  have unseen : callsBy limit ((UseCase.ensureCreated seed u).calls e s c) = [] := by
    refine callsBy_eq_nil fun x hx => ?_
    rw [UseCase.calls_ensureCreated unlimited, List.mem_singleton] at hx
    rw [hx, ← ends]
    exact late
  rw [unseen]
  rfl

/-- A transfer leaves the row of its recipient if the call that makes sure of it is in time. -/
theorem leaves_sendCoins (honest : e.script.Honest) (u : UserId) (name : Username)
    (amount : Coins) :
    let calls := (UseCase.sendCoins seed u name amount).calls e s c
    (sendCoins u name amount).Leaves e.directory seed s calls limit
      (s.afterCalls e.directory (callsBy limit calls)) := by
  intro calls
  rcases UseCase.calls_sendCoins unlimited s c honest seed u name amount with
    nothing | ⟨t, asked⟩ | ⟨v, t, t', resolved, provisioned⟩
  · have trace : calls = [] := nothing
    rw [trace]
    exact .inr ⟨fun v a t h => (List.not_mem_nil h).elim, rfl⟩
  · have trace : calls = [(.resolveUser name, t)] := asked
    rw [trace]
    refine .inr ⟨fun v a t h => ?_, afterCalls_read (fun _ => rfl) t⟩
    cases List.mem_singleton.1 h
  · have trace : calls = [(.resolveUser name, t), (.insertIfAbsent v seed, t')] := provisioned
    have looked : s.afterCalls e.directory (callsBy limit calls) =
        s.afterCalls e.directory (callsBy limit [(.insertIfAbsent v seed, t')]) := by
      rw [trace, callsBy_cons]
      split <;> rfl
    rw [looked, trace, callsBy_cons]
    by_cases ended : t' ≤ limit
    · refine .inl ⟨v, t', resolved, by simp, ended, ?_⟩
      rw [Store.opened_iff, if_pos ended]
      rfl
    · refine .inr ⟨fun w a t₁ h => ?_, ?_⟩
      · simp only [List.mem_cons, Prod.mk.injEq, reduceCtorEq, false_and, List.not_mem_nil,
          or_false, false_or] at h
        rw [h.2]
        exact Nat.lt_of_not_le ended
      · rw [if_neg ended]
        rfl

/-- The calls of a command that is cut leave what they are said to leave. -/
theorem leaves_afterCalls (honest : e.script.Honest) {command : Command}
    {r : Except LedgerError (Option AccountInfo)}
    (played : (command.program seed).play e s c = .finished r s' c') (late : limit < c'.time) :
    command.Leaves e.directory seed s ((command.program seed).calls e s c) limit
      (s.afterCalls e.directory (callsBy limit ((command.program seed).calls e s c))) := by
  cases command with
  | ensureCreated u =>
    have trace : ((ensureCreated u).program seed).calls e s c =
        (UseCase.ensureCreated seed u).calls e s c := UseCase.calls_bind_pure _ _ s c
    rw [trace]
    exact leaves_ensureCreated unlimited played late
  | buyItem u name =>
    obtain ⟨t, bought⟩ := UseCase.calls_buyItem unlimited s c u name
    have trace : ((buyItem u name).program seed).calls e s c = [(.findGood name, t)] :=
      (UseCase.calls_bind_pure _ _ s c).trans bought
    rw [trace]
    exact afterCalls_read (fun _ => rfl) t
  | sendCoins u name amount =>
    have trace : ((sendCoins u name amount).program seed).calls e s c =
        (UseCase.sendCoins seed u name amount).calls e s c := UseCase.calls_bind_pure _ _ s c
    rw [trace]
    exact leaves_sendCoins unlimited honest u name amount
  | accountInfo u =>
    have trace : ((accountInfo u).program seed).calls e s c =
        (UseCase.accountInfo u).calls e s c := UseCase.calls_bind_pure _ _ s c
    rw [trace]
    rcases UseCase.calls_accountInfo unlimited s c u with nothing | ⟨users, t, asked⟩
    · rw [nothing]
      rfl
    · rw [asked]
      exact afterCalls_read (fun _ => rfl) t

end

/-- **A deadline cuts cleanly.**  Without a limit a command comes to its end at some moment.  Under
a limit that is not before this moment it comes out the same; under an earlier one it is late, and
leaves nothing but the row of a recipient that was made sure of in time.  So a longer limit
changes nothing for a command that was not late. -/
theorem answer_within (d : Directory) (k : Script) (honest : k.Honest) (seed : Coins)
    (command : Command) (s : Store) :
    let e : Stage := { directory := d, script := k }
    let p := command.program seed
    ∃ r s' finish, p.play e s {} = .finished r s' finish ∧ ∀ limit,
      (finish.time ≤ limit → p.answer (e.within limit) s = (r, s')) ∧
      (limit < finish.time → ∃ left,
        p.answer (e.within limit) s = (.error .deadlineExceeded, left) ∧
        command.Leaves d seed s (p.calls e s {}) limit left) ∧
      ∀ longer, limit ≤ longer → (p.answer (e.within limit) s).1 ≠ .error .deadlineExceeded →
        p.answer (e.within longer) s = p.answer (e.within limit) s := by
  intro e p
  have unlimited : e.limit = none := rfl
  obtain ⟨r, s', finish, played, -⟩ := p.play_unlimited unlimited s {}
  have intime : ∀ limit, finish.time ≤ limit → p.answer (e.within limit) s = (r, s') := by
    intro limit enough
    rw [UseCase.answer, UseCase.play_in_time unlimited played enough]
  have cut : ∀ limit, limit < finish.time → ∃ left,
      p.answer (e.within limit) s = (.error .deadlineExceeded, left) ∧
      command.Leaves d seed s (p.calls e s {}) limit left := by
    intro limit late
    have left := UseCase.play_late unlimited honest (command.straight_program seed) played
      (Nat.zero_le limit) late
    refine ⟨_, ?_, leaves_afterCalls unlimited honest played late⟩
    rw [UseCase.answer, left]
  refine ⟨r, s', finish, played, fun limit => ⟨intime limit, cut limit, ?_⟩⟩
  intro longer longer_ge punctual
  rcases Nat.lt_or_ge limit finish.time with late | enough
  · obtain ⟨left, answered, -⟩ := cut limit late
    rw [answered] at punctual
    exact absurd rfl punctual
  · rw [intime limit enough, intime longer (Nat.le_trans enough longer_ge)]

/-- A transfer that takes ten to look its recipient up, twenty to make sure of the recipient's row
and thirty to commit. -/
def slowTransfer : Script :=
  { Script.quiet with
    call := fun n _ => { delay := 10 + 10 * n }
    commit := fun _ => { delay := 30 } }

theorem honest_slowTransfer : slowTransfer.Honest :=
  { Script.honest_quiet with
    call := fun _ _ => .inl rfl
    commit := fun _ => .inl rfl }

/-- The slow transfer takes sixty in all.  With sixty it comes through, with one less there is just
a row for its recipient, and with less than thirty there is nothing. -/
theorem answer_within_slowTransfer :
    let d := Directory.ofList [(⟨2⟩, "bob")]
    let e : Stage := { directory := d, script := slowTransfer }
    let command : Command := .sendCoins ⟨1⟩ ⟨"bob", by decide⟩ ⟨30⟩
    let p := command.program ⟨1000⟩
    let s : Store := { balances := SortedMap.ofList [(⟨1⟩, ⟨100⟩)] }
    slowTransfer.Honest ∧
    (p.answer (e.within 60) s).1 = .ok none ∧
    (∃ left, p.answer (e.within 59) s = (.error .deadlineExceeded, left) ∧
      s.Opened ⟨1000⟩ ⟨2⟩ left) ∧
    p.answer (e.within 29) s = (.error .deadlineExceeded, s) := by
  intro d e command p s
  obtain ⟨r, s', finish, played, under⟩ :=
    answer_within d slowTransfer honest_slowTransfer ⟨1000⟩ command s
  have calls : p.calls e s {} =
      [(.resolveUser ⟨"bob", by decide⟩, 10), (.insertIfAbsent ⟨2⟩ ⟨1000⟩, 30)] := rfl
  have ran : ∃ s₁ n, p.play e s {} = .finished (.ok none) s₁ ⟨60, n⟩ := ⟨_, _, rfl⟩
  obtain ⟨s₁, n, ran⟩ := ran
  cases played.symm.trans ran
  refine ⟨honest_slowTransfer, ?_, ?_, ?_⟩
  · rw [(under 60).1 (Nat.le_refl 60)]
  · obtain ⟨left, cut, ⟨v, t, resolved, -, -, opened⟩ | ⟨missing, -⟩⟩ :=
      (under 59).2.1 (show 59 < 60 by decide)
    · obtain rfl : v = ⟨2⟩ := Option.some.inj (resolved.symm.trans (by decide))
      exact ⟨left, cut, opened⟩
    · have late := missing ⟨2⟩ ⟨1000⟩ 30 (by rw [calls]; simp)
      exact absurd late (by decide)
  · obtain ⟨left, cut, ⟨v, t, -, made, ended, -⟩ | ⟨-, rfl⟩⟩ :=
      (under 29).2.1 (show 29 < 60 by decide)
    · rw [calls] at made
      simp only [List.mem_cons, Prod.mk.injEq, reduceCtorEq, false_and, List.not_mem_nil, or_false,
        false_or] at made
      omega
    · exact cut

end Command

end CoinLedger
