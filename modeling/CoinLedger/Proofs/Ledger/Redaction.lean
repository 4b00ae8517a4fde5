import CoinLedger.Proofs.Ledger.Units

/-!
# What failures say does not count

The text of a failure is of no use to a client and may be of use to the wrong one, so it has to be
without influence on what a use case does.  It could have some: the use cases carry the failures of
their calls along, join three reads into one, and go on after a unit of work with what came of it.

What a client may learn of a result is the result *redacted*, with all faults of the service made
one (`redact`).  Two scripts *fail alike* if they make the same calls fail, whatever the failures
are and say.  Then every run of a use case comes to the same redacted result at the same moment,
and leaves the same store (`UseCase.play_redacted`); and so does every run over two backings that
fail alike (`UseCase.runOn_redacted`).

This rests on one thing only that the use cases do: a failed call ends them with a fault, and a
failed unit of work or a failed reading with its own error (`UseCase.FaultsOnFailure`).

## Main definitions

* `LedgerError.redacted`, `redact` — errors and results without the details of faults.
* `Script.FailsAlike`, `Backing.FailsAlike` — the same calls fail.
-/

namespace CoinLedger

/-! ## Redacted results -/

/-- An error as a client may learn of it: the faults of the service are all one. -/
def LedgerError.redacted : LedgerError → LedgerError
  | internal _ => internal (.other "")
  | e => e

section
variable {α β γ : Type}

/-- A result as a client may learn of it. -/
def redact (r : Except LedgerError α) : Except LedgerError α := r.mapError LedgerError.redacted

@[simp] theorem redact_ok (a : α) : redact (.ok a) = .ok a := rfl

@[simp] theorem redact_error (e : LedgerError) :
    redact (.error e : Except LedgerError α) = .error e.redacted := rfl

theorem redact_map (r : Except LedgerError α) (f : α → β) :
    redact (r.map f) = (redact r).map f := by
  cases r <;> rfl

@[simp] theorem mapError_ok (g : β → γ) (a : α) :
    (Except.ok a : Except β α).mapError g = .ok a := rfl

@[simp] theorem mapError_error (g : β → γ) (e : β) :
    (Except.error e : Except β α).mapError g = .error (g e) := rfl

/-- Results whose errors are seen through a function agree if they are the same success, or two
errors that look the same. -/
theorem mapError_eq_mapError_iff {g : β → γ} {r r' : Except β α} :
    r.mapError g = r'.mapError g ↔ (∃ a, r = .ok a ∧ r' = .ok a) ∨
      ∃ e e', r = .error e ∧ r' = .error e' ∧ g e = g e' := by
  cases r <;> cases r' <;> simp [eq_comm]

theorem redact_eq_redact_iff {r r' : Except LedgerError α} :
    redact r = redact r' ↔ (∃ a, r = .ok a ∧ r' = .ok a) ∨
      ∃ e e', r = .error e ∧ r' = .error e' ∧ e.redacted = e'.redacted :=
  mapError_eq_mapError_iff

/-- Of two runs that agree when redacted, both are cut or neither is. -/
theorem map_fst_eq_map_fst {f : α → γ} {o o' : Option (α × β)}
    (h : o.map (Prod.map f id) = o'.map (Prod.map f id)) :
    (o = none ∧ o' = none) ∨
      ∃ r r' left, o = some (r, left) ∧ o' = some (r', left) ∧ f r = f r' := by
  rcases o with _ | ⟨r, left⟩ <;> rcases o' with _ | ⟨r', left'⟩
  · exact .inl ⟨rfl, rfl⟩
  · cases h
  · cases h
  · obtain ⟨same, rfl⟩ := Prod.mk.inj (Option.some.inj h)
    exact .inr ⟨r, r', _, rfl, rfl, same⟩

end

/-! ## Results that agree unless they are failures -/

/-- Whether two results are the same success, or two failures. -/
def SameSuccess {ε α : Type} (r r' : Except ε α) : Prop := r.toOption = r'.toOption

theorem SameSuccess.cases {ε α : Type} {r r' : Except ε α} (h : SameSuccess r r') :
    (∃ a, r = .ok a ∧ r' = .ok a) ∨ ∃ f f', r = .error f ∧ r' = .error f' := by
  cases r <;> cases r' <;> simp_all [SameSuccess, Except.toOption]

/-! ## Joined reads -/

/-- The same moment with another value. -/
def Timed.map {α β : Type} (f : α → β) (t : Timed α) : Timed β := ⟨f t.value, t.moment⟩

namespace Join

variable {ε ε' α β γ : Type} (g : ε → ε')

theorem failure?_mapError (a : Timed (Except ε α)) :
    failure? (a.map (Except.mapError g)) = (failure? a).map (Timed.map g) := by
  obtain ⟨e | x, n⟩ := a <;> rfl

theorem failures_mapError (a : Timed (Except ε α)) (b : Timed (Except ε β))
    (c : Timed (Except ε γ)) :
    failures (a.map (Except.mapError g)) (b.map (Except.mapError g)) (c.map (Except.mapError g)) =
      (failures a b c).map (Timed.map g) := by
  simp only [failures, failure?_mapError, List.map_append, Option.toList_map]

theorem earliest_map (f : Timed ε) (rest : List (Timed ε)) :
    earliest (f.map g) (rest.map (Timed.map g)) = (earliest f rest).map g := by
  induction rest generalizing f with
  | nil => rfl
  | cons d rest ih =>
    simp only [List.map_cons, earliest, ih, apply_ite (Timed.map g)]
    rfl

/-- The join looks at moments and at which reads fail, and not at the failures. -/
theorem join_mapError (a : Timed (Except ε α)) (b : Timed (Except ε β)) (c : Timed (Except ε γ)) :
    join (a.map (Except.mapError g)) (b.map (Except.mapError g)) (c.map (Except.mapError g)) =
      (join a b c).map (Except.mapError g) := by
  unfold join
  rw [failures_mapError]
  cases hf : failures a b c with
  | nil =>
    obtain ⟨⟨x, hx⟩, ⟨y, hy⟩, z, hz⟩ := failures_eq_nil_iff.1 hf
    simp only [Timed.map, hx, hy, hz, List.map_nil]
    rfl
  | cons f rest =>
    simp only [List.map_cons, earliest_map]
    rfl

end Join

/-- Reads that fail alike at the same moments are joined to the same redacted result at the same
moment. -/
theorem gatherReads_redacted (user : UserId)
    {balance balance' : Except StorageFailure (Option Coins)}
    {inventory inventory' : Except StorageFailure Inventory}
    {transfers transfers' : Except StorageFailure History} (hb : SameSuccess balance balance')
    (hi : SameSuccess inventory inventory') (ht : SameSuccess transfers transfers') (l m n : Nat) :
    redact (gatherReads user ⟨balance, l⟩ ⟨inventory, m⟩ ⟨transfers, n⟩).value =
        redact (gatherReads user ⟨balance', l⟩ ⟨inventory', m⟩ ⟨transfers', n⟩).value ∧
      (gatherReads user ⟨balance, l⟩ ⟨inventory, m⟩ ⟨transfers, n⟩).moment =
        (gatherReads user ⟨balance', l⟩ ⟨inventory', m⟩ ⟨transfers', n⟩).moment := by
  have required : redact (requireBalance user balance) = redact (requireBalance user balance') := by
    rcases hb.cases with ⟨a, rfl, rfl⟩ | ⟨f, f', rfl, rfl⟩ <;> rfl
  have history : ∀ {β : Type} {r r' : Except StorageFailure β}, SameSuccess r r' →
      redact (requireHistory r) = redact (requireHistory r') := by
    intro β r r' h
    rcases h.cases with ⟨a, rfl, rfl⟩ | ⟨f, f', rfl, rfl⟩ <;> rfl
  have joined :
      (Join.join ⟨requireBalance user balance, l⟩ ⟨requireHistory inventory, m⟩
        ⟨requireHistory transfers, n⟩).map redact =
      (Join.join ⟨requireBalance user balance', l⟩ ⟨requireHistory inventory', m⟩
        ⟨requireHistory transfers', n⟩).map redact := by
    unfold redact at required history ⊢
    rw [← Join.join_mapError, ← Join.join_mapError]
    simp only [Timed.map, required, history hi, history ht]
  have value := congrArg Timed.value joined
  have moment := congrArg Timed.moment joined
  unfold gatherReads
  refine ⟨?_, moment⟩
  rw [redact_map, redact_map]
  exact congrArg _ value

/-! ## Scripts that fail alike -/

/-- Whether two replies are one and the same, or two failures in the place of a call. -/
inductive Reply.FailsAlike {ε α : Type} : Reply ε α → Reply ε α → Prop where
  | same (r : Reply ε α) : FailsAlike r r
  | failures (f f' : ε) : FailsAlike (.replaced (.error f)) (.replaced (.error f'))

/-- Whether two treatments differ at most in a failure that both put in the place of the call. -/
structure Treatment.FailsAlike {ε α : Type} (t t' : Treatment ε α) : Prop where
  delay : t.delay = t'.delay
  reply : t.reply.FailsAlike t'.reply

theorem Treatment.FailsAlike.refl {ε α : Type} (t : Treatment ε α) : t.FailsAlike t :=
  ⟨rfl, .same _⟩

/-- A call under two such treatments leaves the same behind, and comes to the same or fails in
both. -/
theorem Treatment.FailsAlike.apply {σ ε α : Type} {t t' : Treatment ε α} (h : t.FailsAlike t')
    (genuine : σ → Except ε α × σ) (s : σ) :
    SameSuccess (t.apply genuine s).1 (t'.apply genuine s).1 ∧
      (t.apply genuine s).2 = (t'.apply genuine s).2 := by
  obtain ⟨delay, reply⟩ := t
  obtain ⟨delay', reply'⟩ := t'
  obtain ⟨-, hreply⟩ := h
  cases hreply with
  | same r => exact ⟨rfl, rfl⟩
  | failures f f' => exact ⟨rfl, rfl⟩

/-- Whether two scripts make the same calls, statements, openings and commits of a transaction
fail, with whatever failures, and agree on all others. -/
structure Script.FailsAlike (script script' : Script) : Prop where
  call : ∀ n c, (script.call n c).FailsAlike (script'.call n c)
  statement : ∀ n q, (script.statement n q).FailsAlike (script'.statement n q)
  begin : ∀ n, (script.begin n).FailsAlike (script'.begin n)
  commit : ∀ n, (script.commit n).FailsAlike (script'.commit n)

/-- The same stage with another script. -/
def Stage.under (e : Stage) (script : Script) : Stage := { e with script := script }

@[simp] theorem Stage.under_script (e : Stage) (script : Script) :
    (e.under script).script = script := rfl

@[simp] theorem Stage.under_directory (e : Stage) (script : Script) :
    (e.under script).directory = e.directory := rfl

@[simp] theorem Stage.under_allows (e : Stage) (script : Script) :
    (e.under script).allows = e.allows := rfl

/-! ## Units of work -/

namespace Work

variable {e : Stage} {script : Script} (alike : e.script.FailsAlike script)
include alike

/-- The statements of a unit come to the same redacted result. -/
theorem play_redacted {α : Type} {w : Work LedgerError α} (hw : w.FaultsOnFailure) (s : Store)
    (c : Clock) :
    (w.play e s c).map (Prod.map redact id) =
      (w.play (e.under script) s c).map (Prod.map redact id) := by
  induction w generalizing s c with
  | done r => rfl
  | ask q next ih =>
    have treated := alike.statement c.calls q
    obtain ⟨result, left⟩ := treated.apply (Store.statement q) s
    simp only [play, Stage.under_script, Stage.under_allows, ← treated.delay, ← left]
    split
    · rcases result.cases with ⟨a, ha, ha'⟩ | ⟨f, f', hf, hf'⟩
      · rw [ha, ha']
        exact ih (.ok a) (hw.2 a) _ _
      · obtain ⟨g, hg⟩ := hw.1 f
        obtain ⟨g', hg'⟩ := hw.1 f'
        rw [hf, hf', hg, hg']
        rfl
    · rfl

/-- A unit of work in its transaction comes to the same redacted outcome. -/
theorem conclude_redacted {w : Work LedgerError Unit} (hw : w.FaultsOnFailure) (s : Store)
    (c : Clock) :
    (w.conclude e s c).map (Prod.map (fun ending => redact ending.outcome) id) =
      (w.conclude (e.under script) s c).map
        (Prod.map (fun ending => redact ending.outcome) id) := by
  have begun := alike.begin c.calls
  obtain ⟨opening, -⟩ := begun.apply (fun s => (.ok (), s)) s
  simp only [conclude, Stage.under_script, Stage.under_allows, ← begun.delay]
  split
  · rcases opening.cases with ⟨_, ho, ho'⟩ | ⟨f, f', hf, hf'⟩
    · rw [ho, ho']
      dsimp only
      have played := play_redacted alike hw s (c.after (e.script.begin c.calls).delay)
      rcases map_fst_eq_map_fst played with
        ⟨hcut, hcut'⟩ | ⟨r, r', ⟨s', c'⟩, hplay, hplay', same⟩
      · rw [hcut, hcut']
      · rw [hplay, hplay']
        rcases redact_eq_redact_iff.1 same with ⟨a, rfl, rfl⟩ | ⟨err, err', rfl, rfl, he⟩
        · have ended := alike.commit c'.calls
          obtain ⟨closing, -⟩ := ended.apply (fun s => (.ok (), s)) s
          simp only [← ended.delay]
          split
          · rcases closing.cases with ⟨_, ho, ho'⟩ | ⟨f, f', hf, hf'⟩
            · rw [ho, ho']
            · rw [hf, hf']
              rfl
          · rfl
        · simp only [Option.map_some, Prod.map, Ending.outcome, redact_error, he]
    · rw [hf, hf']
      rfl
  · rfl

end Work

/-! ## Use cases -/

namespace UseCase

variable {α β : Type}

/-- Whether a failed call ends the use case with a fault, and a failed unit of work or reading with
its own error. -/
def FaultsOnFailure : UseCase α → Prop
  | done _ => True
  | call _ next =>
    (∀ f, ∃ g, next (.error f) = done (.error (.internal g))) ∧ ∀ a, (next (.ok a)).FaultsOnFailure
  | transact w next =>
    w.FaultsOnFailure ∧ (∀ e, next (.error e) = done (.error e)) ∧
      ∀ a, (next (.ok a)).FaultsOnFailure
  | gather _ next =>
    (∀ e, next (.error e) = done (.error e)) ∧ ∀ h, (next (.ok h)).FaultsOnFailure

theorem FaultsOnFailure.ask_bind {c : Call} {f : c.Answer → UseCase β}
    (hf : ∀ a, (f a).FaultsOnFailure) : (ask c >>= f).FaultsOnFailure :=
  ⟨fun failure => ⟨c.fault failure, rfl⟩, hf⟩

theorem faultsOnFailure_inTransaction {w : Work LedgerError Unit} (hw : w.FaultsOnFailure) :
    (inTransaction w).FaultsOnFailure :=
  ⟨hw, fun _ => rfl, fun _ => trivial⟩

theorem faultsOnFailure_ensureCreated (seed : Coins) (u : UserId) :
    (ensureCreated seed u).FaultsOnFailure :=
  ⟨fun f => ⟨.balances f, rfl⟩, fun _ => trivial⟩

theorem faultsOnFailure_buyItem (u : UserId) (name : String) : (buyItem u name).FaultsOnFailure :=
  .ask_bind fun good => by
    cases good with
    | none => trivial
    | some g => exact faultsOnFailure_inTransaction (faultsOnFailure_purchase u g)

theorem faultsOnFailure_sendCoins (seed : Coins) (u : UserId) (name : Username) (amount : Coins) :
    (sendCoins seed u name amount).FaultsOnFailure := by
  unfold sendCoins
  split
  · trivial
  · refine .ask_bind fun recipient => ?_
    cases recipient with
    | none => trivial
    | some v =>
      dsimp only
      split
      · trivial
      · exact .ask_bind fun _ => faultsOnFailure_inTransaction (faultsOnFailure_movement u v amount)

theorem faultsOnFailure_accountInfo (u : UserId) : (accountInfo u).FaultsOnFailure := by
  refine ⟨fun _ => rfl, fun h => ?_⟩
  dsimp only
  split
  · trivial
  · exact .ask_bind fun _ => trivial

end UseCase

/-! ## Runs against scripts that fail alike -/

/-- A run as a client may learn of it. -/
def Played.redacted {α : Type} : Played α → Played α
  | .finished r s c => .finished (redact r) s c
  | .cut s => .cut s

/-- The three reads of an account come to the same redacted result at the same moment. -/
theorem Stage.reads_redacted {e : Stage} {script : Script} (alike : e.script.FailsAlike script)
    (s : Store) (c : Clock) (user : UserId) :
    redact (e.reads s c user).value = redact ((e.under script).reads s c user).value ∧
      (e.reads s c user).moment = ((e.under script).reads s c user).moment := by
  have first := alike.call c.calls (.findBalance user)
  have second := alike.call (c.calls + 1) (.inventory user)
  have third := alike.call (c.calls + 2) (.transfers user)
  simp only [reads, read, under_script, under_directory]
  rw [← first.delay, ← second.delay, ← third.delay]
  exact gatherReads_redacted user (first.apply (Store.call e.directory _) s).1
    (second.apply (Store.call e.directory _) s).1 (third.apply (Store.call e.directory _) s).1 _ _ _

/-- **What the failures of a script are and say does not count**: a use case comes to the same
redacted result at the same moment, and leaves the same store. -/
theorem UseCase.play_redacted {α : Type} {e : Stage} {script : Script}
    (alike : e.script.FailsAlike script) {p : UseCase α} (hp : p.FaultsOnFailure) (s : Store)
    (c : Clock) : (p.play e s c).redacted = (p.play (e.under script) s c).redacted := by
  induction p generalizing s c with
  | done r => rfl
  | call q next ih =>
    have treated := alike.call c.calls q
    obtain ⟨result, left⟩ := treated.apply (Store.call e.directory q) s
    simp only [play, Stage.under_script, Stage.under_directory, Stage.under_allows,
      ← treated.delay, ← left]
    split
    · rcases result.cases with ⟨a, ha, ha'⟩ | ⟨f, f', hf, hf'⟩
      · rw [ha, ha']
        exact ih (.ok a) (hp.2 a) _ _
      · obtain ⟨g, hg⟩ := hp.1 f
        obtain ⟨g', hg'⟩ := hp.1 f'
        rw [hf, hf', hg, hg']
        rfl
    · rfl
  | transact w next ih =>
    obtain ⟨hw, fails, goes⟩ := hp
    simp only [play]
    rcases map_fst_eq_map_fst (Work.conclude_redacted alike hw s c) with
      ⟨hcut, hcut'⟩ | ⟨ending, ending', ⟨s', c'⟩, hended, hended', same⟩
    · rw [hcut, hcut']
    · rw [hended, hended']
      rcases redact_eq_redact_iff.1 same with ⟨a, ha, ha'⟩ | ⟨err, err', herr, herr', he⟩
      · simp only [ha, ha']
        exact ih (.ok a) (goes a) _ _
      · simp only [herr, herr', fails, play, Played.redacted, redact_error, he]
  | gather u next ih =>
    obtain ⟨fails, goes⟩ := hp
    obtain ⟨same, moment⟩ := Stage.reads_redacted alike s c u
    simp only [play, Stage.under_allows, ← moment]
    split
    · rcases redact_eq_redact_iff.1 same with ⟨h, hh, hh'⟩ | ⟨err, err', herr, herr', he⟩
      · rw [hh, hh']
        exact ih (.ok h) (goes h) _ _
      · rw [herr, herr', fails, fails]
        simp only [play, Played.redacted, redact_error, he]
    · rfl

/-! ## Runs over backings that fail alike -/

/-- Whether two backings of one world make the same calls fail, with whatever failures, and agree
on all others.  Of a unit of work that ends with a fault when a statement of it fails, the outcome
agrees when redacted. -/
structure Backing.FailsAlike {σ : Type} (b b' : Backing σ) : Prop where
  call : ∀ c w, SameSuccess (b.call c w).1 (b'.call c w).1 ∧ (b.call c w).2 = (b'.call c w).2
  transact : ∀ u : Work LedgerError Unit, u.FaultsOnFailure → ∀ w,
    redact (b.transact u w).1 = redact (b'.transact u w).1 ∧
      (b.transact u w).2 = (b'.transact u w).2
  arrivals : b.arrivals = b'.arrivals

/-- **What the failures of a backing are and say does not count.** -/
theorem UseCase.runOn_redacted {σ α : Type} {b b' : Backing σ} (alike : b.FailsAlike b')
    {p : UseCase α} (hp : p.FaultsOnFailure) (w : σ) :
    redact (p.runOn b w).1 = redact (p.runOn b' w).1 ∧ (p.runOn b w).2 = (p.runOn b' w).2 := by
  induction p generalizing w with
  | done r => exact ⟨rfl, rfl⟩
  | call c next ih =>
    obtain ⟨result, left⟩ := alike.call c w
    simp only [runOn, ← left]
    rcases result.cases with ⟨a, ha, ha'⟩ | ⟨f, f', hf, hf'⟩
    · rw [ha, ha']
      exact ih (.ok a) (hp.2 a) _
    · obtain ⟨g, hg⟩ := hp.1 f
      obtain ⟨g', hg'⟩ := hp.1 f'
      rw [hf, hf', hg, hg']
      exact ⟨rfl, rfl⟩
  | transact u next ih =>
    obtain ⟨hu, fails, goes⟩ := hp
    obtain ⟨same, left⟩ := alike.transact u hu w
    simp only [runOn, ← left]
    rcases redact_eq_redact_iff.1 same with ⟨a, ha, ha'⟩ | ⟨err, err', herr, herr', he⟩
    · rw [ha, ha']
      exact ih (.ok a) (goes a) _
    · rw [herr, herr', fails, fails]
      exact ⟨congrArg Except.error he, rfl⟩
  | gather u next ih =>
    obtain ⟨fails, goes⟩ := hp
    have gathered : redact (b.gather u w).1 = redact (b'.gather u w).1 ∧
        (b.gather u w).2 = (b'.gather u w).2 := by
      obtain ⟨balance, left₁⟩ := alike.call (.findBalance u) w
      obtain ⟨inventory, left₂⟩ := alike.call (.inventory u) (b.call (.findBalance u) w).2
      obtain ⟨transfers, left₃⟩ :=
        alike.call (.transfers u) (b.call (.inventory u) (b.call (.findBalance u) w).2).2
      simp only [Backing.gather, ← left₁, ← left₂, ← left₃, ← alike.arrivals]
      exact ⟨(gatherReads_redacted u balance inventory transfers _ _ _).1, trivial⟩
    obtain ⟨same, left⟩ := gathered
    simp only [runOn, ← left]
    rcases redact_eq_redact_iff.1 same with ⟨h, hh, hh'⟩ | ⟨err, err', herr, herr', he⟩
    · rw [hh, hh']
      exact ih (.ok h) (goes h) _
    · rw [herr, herr', fails, fails]
      exact ⟨congrArg Except.error he, rfl⟩

/-! ## Failures in other words -/

section
variable (say : String → String)

/-- A failure of the same kind with another message. -/
def StorageFailure.reworded : StorageFailure → StorageFailure
  | connection m => connection (say m)
  | query m => query (say m)

/-- A failure of the same kind, and of the same status, with another message. -/
def IdentityFailure.reworded : IdentityFailure → IdentityFailure
  | timeout m => timeout (say m)
  | transport m => transport (say m)
  | status code m => status code (say m)
  | decode m => decode (say m)

/-- A failure of the pool of the same kind with another message. -/
def PoolFailure.reworded : PoolFailure → PoolFailure
  | checkout m => checkout (say m)
  | build m => build (say m)

/-- What the pool says goes into the message of a repository's failure, and nowhere else. -/
theorem PoolFailure.toStorage_reworded (f : PoolFailure) :
    (f.reworded say).toStorage = f.toStorage.reworded say := by
  cases f <;> rfl

/-- A failed call of the same kind with another message. -/
def Call.reworded : (c : Call) → c.Failure → c.Failure
  | .insertIfAbsent _ _ => StorageFailure.reworded say
  | .findBalance _ => StorageFailure.reworded say
  | .findGood _ => StorageFailure.reworded say
  | .inventory _ => StorageFailure.reworded say
  | .transfers _ => StorageFailure.reworded say
  | .resolveUser _ => IdentityFailure.reworded say
  | .resolveNames _ => IdentityFailure.reworded say

/-- A fault of the same kind with another message. -/
def Fault.reworded : Fault → Fault
  | balances f => balances (f.reworded say)
  | goods f => goods (f.reworded say)
  | history f => history (f.reworded say)
  | statement f => statement (f.reworded say)
  | transaction f => transaction (f.reworded say)
  | identity f => identity (f.reworded say)
  | unconfigured => unconfigured
  | other m => other (say m)

/-- An error whose fault, if it is one, has another message. -/
def LedgerError.reworded : LedgerError → LedgerError
  | internal f => internal (f.reworded say)
  | e => e

/-- The same backing with other messages in its failures. -/
def Backing.reworded {σ : Type} (b : Backing σ) : Backing σ where
  call c w := ((b.call c w).1.mapError (c.reworded say), (b.call c w).2)
  transact u w := ((b.transact u w).1.mapError (LedgerError.reworded say), (b.transact u w).2)
  arrivals := b.arrivals

theorem LedgerError.redacted_reworded (e : LedgerError) :
    (e.reworded say).redacted = e.redacted := by
  cases e <;> rfl

theorem Backing.failsAlike_reworded {σ : Type} (b : Backing σ) :
    (b.reworded say).FailsAlike b where
  call c w := by
    have result : SameSuccess ((b.call c w).1.mapError (c.reworded say)) (b.call c w).1 := by
      cases (b.call c w).1 <;> rfl
    exact ⟨result, rfl⟩
  transact u _ w := by
    have outcome : redact ((b.transact u w).1.mapError (LedgerError.reworded say)) =
        redact (b.transact u w).1 := by
      cases (b.transact u w).1 with
      | ok a => rfl
      | error e => exact congrArg Except.error (e.redacted_reworded say)
    exact ⟨outcome, rfl⟩
  arrivals := rfl

end

end CoinLedger
