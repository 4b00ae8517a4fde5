import CoinLedger.Proofs.Concurrency.Provisioning

/-!
# Direct programs

A direct program creates rows, makes calls whose answers do not depend on the rows, and ends with
at most one unit of work, which is about users it has provisioned.  Buying and sending coins are
direct for a caller who has been provisioned.

Such a program can be moved past the provisioning of others (`UseCase.Direct.runOn_provision`), and
wherever it stands, what is left of it does what the whole would do now (`UseCase.Resumes`).  So its
provisioning may be put off until its unit of work (`UseCase.Stands.unit`).

## Main results

* `UseCase.Direct.runOn_provision` — a direct program does not notice who else is provisioned.
* `UseCase.Stands.unit` — a program at work takes effect at the moment of its unit.
* `UseCase.direct_buyItem`, `UseCase.direct_sendCoins` — the use cases that are direct.
-/

namespace CoinLedger

/-! ## Direct programs -/

/-- The users whose rows a call makes sure of. -/
def Call.creates : Call → List UserId
  | .insertIfAbsent u _ => [u]
  | _ => []

/-- Whether a call, on every store with a given catalog, gives one answer and provisions. -/
def Call.Steady (d : Directory) (seed : Coins) (goods : List Good) (c : Call) (a : c.Answer) :
    Prop :=
  ∀ s : Store, s.goods = goods → Store.call d c s = (.ok a, s.provision seed c.creates)

namespace UseCase

variable {α β : Type}

/-- Whether a program that has provisioned some users makes steady calls only, before a last unit
of work that is about these users. -/
def Direct (d : Directory) (seed : Coins) (goods : List Good) : UseCase α → List UserId → Prop
  | done _, _ => True
  | call c next, did =>
    ∃ a, c.Steady d seed goods a ∧ (next (.ok a)).Direct d seed goods (did ++ c.creates)
  | transact w next, did => w.Within did ∧ ∀ r, ∃ r', next r = done r'
  | gather _ _, _ => False

/-- Whether a program, from a store on which some users have been provisioned, does what another
one does from the store before that. -/
def Resumes (d : Directory) (seed : Coins) (goods : List Good) (p q : UseCase α)
    (did : List UserId) : Prop :=
  ∀ s : Store, s.goods = goods →
    p.runOn (.memory d) s = q.runOn (.memory d) (s.provision seed did)

variable {d : Directory} {seed : Coins} {goods : List Good}

/-- What is left after a steady call resumes the program too. -/
theorem Resumes.call {p : UseCase α} {c : Call} {next : Except c.Failure c.Answer → UseCase α}
    {did : List UserId} {a : c.Answer} (h : Resumes d seed goods p (call c next) did)
    (steady : c.Steady d seed goods a) :
    Resumes d seed goods p (next (.ok a)) (did ++ c.creates) := by
  intro s hs
  have kept : (s.provision seed did).goods = goods := by rw [Store.goods_provision, hs]
  have answered := steady (s.provision seed did) kept
  rw [h s hs, ← Store.provision_provision]
  show (next (Store.call d c (s.provision seed did)).1).runOn _ (Store.call d c _).2 = _
  rw [answered]

/-- A direct program does not change the catalog. -/
theorem Direct.goods_runOn {p : UseCase α} {did : List UserId} (hp : p.Direct d seed goods did)
    {s : Store} (hs : s.goods = goods) : (p.runOn (.memory d) s).2.goods = goods := by
  induction p generalizing did s with
  | done r => exact hs
  | call c next ih =>
    obtain ⟨a, steady, rest⟩ := hp
    show ((next (Store.call d c s).1).runOn _ (Store.call d c s).2).2.goods = goods
    rw [steady s hs]
    exact ih _ rest (by rw [Store.goods_provision, hs])
  | transact w next ih =>
    obtain ⟨r', hr'⟩ := hp.2 (w.commitIfOk s).1
    show ((next (w.commitIfOk s).1).runOn _ (w.commitIfOk s).2).2.goods = goods
    rw [hr']
    exact (w.goods_commitIfOk s).trans hs
  | gather u next ih => exact hp.elim

/-- **A direct program may be moved past provisioning**: it does not notice whether other users
have been provisioned before. -/
theorem Direct.runOn_provision {p : UseCase α} {did : List UserId}
    (hp : p.Direct d seed goods did) {s : Store} (hs : s.goods = goods) (rows : s.HasRows did)
    (users : List UserId) :
    p.runOn (.memory d) (s.provision seed users) =
      ((p.runOn (.memory d) s).1, (p.runOn (.memory d) s).2.provision seed users) := by
  induction p generalizing did s with
  | done r => rfl
  | call c next ih =>
    obtain ⟨a, steady, rest⟩ := hp
    have hs' : (s.provision seed users).goods = goods := by rw [Store.goods_provision, hs]
    have kept : (s.provision seed c.creates).goods = goods := by rw [Store.goods_provision, hs]
    show (next (Store.call d c _).1).runOn _ (Store.call d c _).2 =
      (((next (Store.call d c s).1).runOn _ (Store.call d c s).2).1,
        ((next (Store.call d c s).1).runOn _ (Store.call d c s).2).2.provision seed users)
    rw [steady _ hs', steady s hs, Store.provision_comm]
    exact ih _ rest kept (rows.provision.append Store.hasRows_provision_self)
  | transact w next ih =>
    obtain ⟨r', hr'⟩ := hp.2 (w.commitIfOk s).1
    show (next (w.commitIfOk _).1).runOn _ (w.commitIfOk _).2 =
      (((next (w.commitIfOk s).1).runOn _ (w.commitIfOk s).2).1,
        ((next (w.commitIfOk s).1).runOn _ (w.commitIfOk s).2).2.provision seed users)
    rw [hp.1.commitIfOk_provision rows, hr']
    rfl
  | gather u next ih => exact hp.elim

/-! ## Programs at work -/

/-- Where a program `p` stands while others are at work: what is left of it is `q`, and the users
it has provisioned are among those provisioned by anybody. -/
structure Stands (d : Directory) (seed : Coins) (goods : List Good) (made : List UserId)
    (p q : UseCase α) (did : List UserId) : Prop where
  direct : q.Direct d seed goods did
  resumes : Resumes d seed goods p q did
  among : did ⊆ made

theorem Stands.mono {made more did : List UserId} {p q : UseCase α}
    (h : Stands d seed goods made p q did) (sub : made ⊆ more) :
    Stands d seed goods more p q did :=
  ⟨h.direct, h.resumes, fun _ hu => sub (h.among hu)⟩

/-- The call of a program at work provisions and leads on. -/
theorem Stands.call {made did : List UserId} {p : UseCase α} {c : Call}
    {next : Except c.Failure c.Answer → UseCase α}
    (h : Stands d seed goods made p (call c next) did) :
    ∃ a, c.Steady d seed goods a ∧
      Stands d seed goods (made ++ c.creates) p (next (.ok a)) (did ++ c.creates) := by
  obtain ⟨a, steady, rest⟩ := h.direct
  refine ⟨a, steady, rest, h.resumes.call steady, fun u hu => ?_⟩
  rcases List.mem_append.1 hu with hu | hu
  · exact List.mem_append_left _ (h.among hu)
  · exact List.mem_append_right _ hu

/-- **A program takes effect as a whole at the moment of its unit of work**: if the store is that
of a serial run with some rows ahead of it, the whole program could be run now instead of its unit,
with the same result, and the same rows would be ahead afterwards. -/
theorem Stands.unit {made did : List UserId} {p : UseCase α} {w : Work LedgerError Unit}
    {next : Except LedgerError Unit → UseCase α}
    (h : Stands d seed goods made p (transact w next) did) {z : Store} (hz : z.goods = goods) :
    ∃ r z', p.runOn (.memory d) z = (r, z') ∧
      next (w.commitIfOk (z.provision seed made)).1 = done r ∧
      (w.commitIfOk (z.provision seed made)).2 = z'.provision seed made ∧
      z'.HasRows did ∧ ∀ users, z.HasRows users → z'.HasRows users := by
  obtain ⟨within, last⟩ := h.direct
  -- The store on which the whole program would come to its unit.
  let z₁ := z.provision seed did
  have own : z₁.HasRows did := Store.hasRows_provision_self
  have ahead : z.provision seed made = z₁.provision seed made :=
    (Store.provision_of_subset h.among).symm
  have committed : w.commitIfOk (z.provision seed made) =
      ((w.commitIfOk z₁).1, (w.commitIfOk z₁).2.provision seed made) := by
    rw [ahead]
    exact within.commitIfOk_provision own
  obtain ⟨r, hr⟩ := last (w.commitIfOk z₁).1
  refine ⟨r, (w.commitIfOk z₁).2, ?_, ?_, ?_, w.hasRows_commitIfOk own, fun users hu => ?_⟩
  · rw [h.resumes z hz]
    show (next (w.commitIfOk z₁).1).runOn _ (w.commitIfOk z₁).2 = _
    rw [hr]
    rfl
  · rw [committed]
    exact hr
  · rw [committed]
  · exact w.hasRows_commitIfOk hu.provision

/-! ## Direct use cases -/

theorem steady_insertIfAbsent (u : UserId) :
    (Call.insertIfAbsent u seed).Steady d seed goods () := fun _ _ => rfl

theorem steady_findGood (name : String) :
    (Call.findGood name).Steady d seed goods (goods.find? fun g => g.name = name) := by
  rintro s rfl
  rfl

theorem steady_resolveUser (name : Username) :
    (Call.resolveUser name).Steady d seed goods (d.idOf? name) := fun _ _ => rfl

/-- A single steady call may be followed by whatever is direct after its answer. -/
theorem Direct.ask_bind {c : Call} {f : c.Answer → UseCase β} {did : List UserId} {a : c.Answer}
    (steady : c.Steady d seed goods a) (hf : (f a).Direct d seed goods (did ++ c.creates)) :
    (ask c >>= f).Direct d seed goods did :=
  ⟨a, steady, hf⟩

theorem direct_inTransaction {w : Work LedgerError Unit} {did : List UserId} (hw : w.Within did) :
    (inTransaction w).Direct d seed goods did :=
  ⟨hw, fun r => ⟨r, rfl⟩⟩

/-- Whoever has been provisioned buys directly. -/
theorem direct_buyItem {did : List UserId} {u : UserId} (hu : u ∈ did) (name : String) :
    (buyItem u name).Direct d seed goods did := by
  refine Direct.ask_bind (steady_findGood name) ?_
  cases goods.find? fun g => g.name = name with
  | none => trivial
  | some g => exact direct_inTransaction (within_purchase (List.mem_append_left _ hu) g)

/-- Whoever has been provisioned sends coins directly, since the recipient is provisioned on the
way. -/
theorem direct_sendCoins {did : List UserId} {u : UserId} (hu : u ∈ did) (name : Username)
    (amount : Coins) : (sendCoins seed u name amount).Direct d seed goods did := by
  unfold sendCoins
  split
  · trivial
  · refine Direct.ask_bind (steady_resolveUser name) ?_
    cases d.idOf? name with
    | none => trivial
    | some v =>
      dsimp only
      split
      · trivial
      · refine Direct.ask_bind (steady_insertIfAbsent v) (direct_inTransaction ?_)
        refine within_movement ?_ (List.mem_append_right _ (List.mem_singleton.2 rfl)) amount
        exact List.mem_append_left _ (List.mem_append_left _ hu)

end UseCase

end CoinLedger
