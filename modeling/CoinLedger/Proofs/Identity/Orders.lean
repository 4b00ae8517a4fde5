import CoinLedger.Proofs.Identity.Names
import Mathlib.Data.List.Nodup
import Mathlib.Data.List.Perm.Basic

/-!
# Names in any order

The names of an answer stand in an object, and the members of an object have no order.  They are put
into the map of names one after the other nevertheless.  So the question is which of the results of
all orders differ.

Whether there is a result at all does not depend on the order, since one bad key is enough to have
none.  What an id is called does: every username that the answer gives to the id comes last in some
order, and the last one counts (`shown_iff`).  An answer can give several, because an id can be
spelled in several ways, with a sign or with zeros in front, and keys are told apart by their
spelling.  Nothing of the kind happens in an answer that spells ids as numbers are written.

## Main definitions

* `givenNames` — the usernames that some entries give to an id.
* `ReadInSomeOrder` — what entries come to in one order or another.

## Main results

* `shown_iff` — what an id may be called.
* `sameInAllOrders_iff` — whether the order counts.
-/

namespace CoinLedger.Identity

/-- The usernames that some entries give to an id, one for each entry that gives one. -/
def givenNames (v : UserId) (entries : List WrittenEntry) : List Username :=
  entries.filterMap (givenTo? v)

/-- What some entries come to when they are read in one order or another. -/
def ReadInSomeOrder (entries : List WrittenEntry) (r : Except String Names) : Prop :=
  ∃ order : List WrittenEntry, order.Perm entries ∧ namesOf order = r

/-! ## Keys -/

/-- One bad key is enough to have no names. -/
theorem addEntries_of_not_keyed {entries : List WrittenEntry}
    (bad : ∃ x ∈ entries, ¬WrittenEntry.Keyed x) (names : Names) :
    ∃ e, addEntries names entries = .error e := by
  induction entries generalizing names with
  | nil => simp at bad
  | cons x rest ih =>
    obtain ⟨key, text⟩ := x
    cases hid : keyId? key with
    | none => exact ⟨badKey key, by simp only [addEntries, hid]⟩
    | some id =>
      have later := ((List.exists_mem_cons_iff _ _ _).1 bad).resolve_left fun h => h ⟨id, hid⟩
      simp only [addEntries, hid]
      split <;> exact ih later _

/-- The keys of an answer are different texts. -/
theorem nodup_lastOfEach (entries : List WrittenEntry) :
    ((lastOfEach entries).map Prod.fst).Nodup := by
  have kept : ∀ entries : List WrittenEntry, ∀ x ∈ lastOfEach entries, x ∈ entries := by
    intro entries
    induction entries with
    | nil => exact fun x hx => hx
    | cons e rest ih =>
      intro x hx
      unfold lastOfEach at hx
      split at hx
      · exact List.mem_cons_of_mem e (ih x hx)
      · rcases List.mem_cons.1 hx with rfl | hx
        · exact List.mem_cons_self
        · exact List.mem_cons_of_mem e (ih x hx)
  induction entries with
  | nil => exact List.nodup_nil
  | cons e rest ih =>
    unfold lastOfEach
    split
    · exact ih
    · next fresh =>
      refine List.nodup_cons.2 ⟨fun again => fresh ?_, ih⟩
      obtain ⟨x, hx, same⟩ := List.mem_map.1 again
      exact List.any_eq_true.2 ⟨x, kept rest x hx, decide_eq_true same⟩

theorem nodup_keys {body : List UInt8} {entries : List WrittenEntry}
    (listed : entries? body = some entries) : (entries.map Prod.fst).Nodup := by
  have named : ∀ {v : Json.Value}, entriesOfNames? v = some entries →
      (entries.map Prod.fst).Nodup := by
    intro v h
    unfold entriesOfNames? at h
    split at h
    · obtain ⟨written, -, rfl⟩ := Option.map_eq_some_iff.1 h
      exact nodup_lastOfEach written
    · cases h
  obtain ⟨v, -, h⟩ := Option.bind_eq_some_iff.1 listed
  unfold entriesOfValue? at h
  split at h
  · split at h
    · cases h
      exact List.nodup_nil
    · exact named h
    · cases h
  · cases h
    exact List.nodup_nil
  · exact named h
  · cases h

/-! ## Orders -/

variable {entries : List WrittenEntry}

/-- Entries with good keys are read in every order. -/
theorem namesOf_of_perm (keyed : ∀ x ∈ entries, WrittenEntry.Keyed x) {order : List WrittenEntry}
    (perm : order.Perm entries) :
    ∃ names, namesOf order = .ok names ∧ ∀ v, names.get? v = lastGivenTo? v order := by
  obtain ⟨names, read, view⟩ :=
    get?_addEntries (fun x hx => keyed x (perm.mem_iff.1 hx)) SortedMap.empty
  exact ⟨names, read, fun v => by rw [view, SortedMap.get?_empty, Option.or_none]⟩

/-- Whether there are names does not depend on the order. -/
theorem error_iff {r : Except String Names} (read : ReadInSomeOrder entries r) :
    (∃ e, r = .error e) ↔ ∃ x ∈ entries, ¬WrittenEntry.Keyed x := by
  obtain ⟨order, perm, rfl⟩ := read
  constructor
  · rintro ⟨e, failed⟩
    by_contra none
    push Not at none
    obtain ⟨names, read, -⟩ := namesOf_of_perm none perm
    rw [read] at failed
    cases failed
  · rintro ⟨x, hx, bad⟩
    exact addEntries_of_not_keyed ⟨x, perm.mem_iff.2 hx, bad⟩ _

/-- What is given to an id in another order is the same, in another order. -/
theorem givenNames_perm {order : List WrittenEntry} (perm : order.Perm entries) (v : UserId) :
    (givenNames v order).Perm (givenNames v entries) := perm.filterMap _

theorem keyed_of_read {names : Names} (read : ReadInSomeOrder entries (.ok names)) :
    ∀ x ∈ entries, WrittenEntry.Keyed x := by
  by_contra bad
  push Not at bad
  obtain ⟨e, failed⟩ := (error_iff read).2 bad
  cases failed

/-- In every order an id is called by a name that it is given, if there is one. -/
theorem shown_of_read {names : Names} (read : ReadInSomeOrder entries (.ok names)) (v : UserId) :
    names.get? v = none ∧ givenNames v entries = [] ∨
      ∃ n ∈ givenNames v entries, names.get? v = some n := by
  have keyed := keyed_of_read read
  obtain ⟨order, perm, read⟩ := read
  obtain ⟨names', read', view⟩ := namesOf_of_perm keyed perm
  rw [read] at read'
  cases read'
  rw [view]
  cases last : lastGivenTo? v order with
  | none =>
    have nobody : givenNames v order = [] := List.getLast?_eq_none_iff.1 last
    exact .inl ⟨rfl, (nobody ▸ givenNames_perm perm v).symm.eq_nil⟩
  | some n =>
    have given : n ∈ givenNames v order := List.mem_of_getLast? last
    exact .inr ⟨n, (givenNames_perm perm v).mem_iff.1 given, rfl⟩

/-- For every name that an id is given there is an order in which the id is called by it: the entry
that gives it is read after all others. -/
theorem exists_read_of_given (keyed : ∀ x ∈ entries, WrittenEntry.Keyed x) {v : UserId}
    {n : Username} (given : n ∈ givenNames v entries) :
    ∃ names, ReadInSomeOrder entries (.ok names) ∧ names.get? v = some n := by
  obtain ⟨x, hx, gives⟩ := List.mem_filterMap.1 given
  obtain ⟨before, after, rfl⟩ := List.append_of_mem hx
  have perm : (before ++ after ++ [x]).Perm (before ++ x :: after) := by
    rw [List.append_assoc]
    exact (List.perm_append_singleton x after).append_left before
  obtain ⟨names, read, view⟩ := namesOf_of_perm keyed perm
  refine ⟨names, ⟨_, perm, read⟩, ?_⟩
  rw [view, lastGivenTo?, List.filterMap_append, List.filterMap_cons_some gives]
  exact List.getLast?_concat

/-- What an id may be called: by every name that it is given, and by none only if there is none. -/
theorem shown_iff {v : UserId} {shown : Option Username} :
    (∃ names, ReadInSomeOrder entries (.ok names) ∧ names.get? v = shown) ↔
      (∀ x ∈ entries, WrittenEntry.Keyed x) ∧
        (shown = none ∧ givenNames v entries = [] ∨
          ∃ n ∈ givenNames v entries, shown = some n) := by
  constructor
  · rintro ⟨names, read, rfl⟩
    exact ⟨keyed_of_read read, shown_of_read read v⟩
  · rintro ⟨keyed, ⟨rfl, nobody⟩ | ⟨n, given, rfl⟩⟩
    · obtain ⟨names, read, view⟩ := namesOf_of_perm keyed (.refl entries)
      refine ⟨names, ⟨entries, .refl _, read⟩, ?_⟩
      rw [view]
      exact List.getLast?_eq_none_iff.2 nobody
    · exact exists_read_of_given keyed given

/-- Whether all orders come to the same: all to a failure, or all to the same names. -/
def SameInAllOrders (entries : List WrittenEntry) : Prop :=
  ∀ r r', ReadInSomeOrder entries r → ReadInSomeOrder entries r' → r.toOption = r'.toOption

/-- No id that is given two different names: then all orders come to the same names. -/
theorem eq_of_read (single : ∀ v, ∀ n ∈ givenNames v entries, ∀ m ∈ givenNames v entries, n = m)
    {names names' : Names} (read : ReadInSomeOrder entries (.ok names))
    (read' : ReadInSomeOrder entries (.ok names')) : names = names' := by
  refine SortedMap.ext_get? fun v => ?_
  rcases shown_of_read read v with ⟨none, nobody⟩ | ⟨n, given, some⟩
  · rcases shown_of_read read' v with ⟨none', -⟩ | ⟨n', given', -⟩
    · rw [none, none']
    · rw [nobody] at given'
      cases given'
  · rcases shown_of_read read' v with ⟨-, nobody⟩ | ⟨n', given', some'⟩
    · rw [nobody] at given
      cases given
    · rw [some, some', single v n given n' given']

/-- The order does not count exactly if there are no names in any order, or no id is given two. -/
theorem sameInAllOrders_iff :
    SameInAllOrders entries ↔ (∃ x ∈ entries, ¬WrittenEntry.Keyed x) ∨
      ∀ v, ∀ n ∈ givenNames v entries, ∀ m ∈ givenNames v entries, n = m := by
  constructor
  · intro same
    by_cases keyed : ∀ x ∈ entries, WrittenEntry.Keyed x
    · refine .inr fun v n hn m hm => ?_
      obtain ⟨names, read, shown⟩ := exists_read_of_given keyed hn
      obtain ⟨names', read', shown'⟩ := exists_read_of_given keyed hm
      obtain rfl : names = names' := Option.some.inj (same _ _ read read')
      exact Option.some.inj (shown.symm.trans shown')
    · push Not at keyed
      exact .inl keyed
  · rintro (bad | single) r r' read read'
    · obtain ⟨e, rfl⟩ := (error_iff read).2 bad
      obtain ⟨e', rfl⟩ := (error_iff read').2 bad
      rfl
    · -- Both fail or neither does.
      have together : (∃ e, r = .error e) ↔ ∃ e, r' = .error e :=
        (error_iff read).trans (error_iff read').symm
      cases r with
      | error e =>
        obtain ⟨e', rfl⟩ := together.1 ⟨e, rfl⟩
        rfl
      | ok names =>
        cases r' with
        | error e' =>
          obtain ⟨e, failed⟩ := together.2 ⟨e', rfl⟩
          cases failed
        | ok names' => exact congrArg some (eq_of_read single read read')

/-- In an answer that spells ids as numbers are written no id is given two names. -/
theorem single_of_canonical (nodup : (entries.map Prod.fst).Nodup)
    (canonical : ∀ x ∈ entries, ∀ v, keyId? x.1 = some v → x.1 = v.text) (v : UserId) :
    ∀ n ∈ givenNames v entries, ∀ m ∈ givenNames v entries, n = m := by
  have key : ∀ {x : WrittenEntry} {n : Username}, givenTo? v x = some n → keyId? x.1 = some v := by
    intro x n gives
    unfold givenTo? at gives
    split at gives
    · assumption
    · cases gives
  intro n hn m hm
  obtain ⟨x, hx, gives⟩ := List.mem_filterMap.1 hn
  obtain ⟨y, hy, gives'⟩ := List.mem_filterMap.1 hm
  have same : x.1 = y.1 :=
    (canonical x hx v (key gives)).trans (canonical y hy v (key gives')).symm
  obtain rfl := List.inj_on_of_nodup_map nodup hx hy same
  exact Option.some.inj (gives.symm.trans gives')

/-- **The order of an answer and what is made of it.**  Whether there are names does not depend on
it.  An id may be called by every username that it is given under some spelling, so the order counts
exactly if there are names and some id is given two.  It does not count for an answer that spells
its ids as numbers are written. -/
theorem namesOf_orders (entries : List WrittenEntry) :
    (∀ r, ReadInSomeOrder entries r →
      ((∃ e, r = .error e) ↔ ∃ x ∈ entries, ¬WrittenEntry.Keyed x)) ∧
    (∀ v shown, (∃ names, ReadInSomeOrder entries (.ok names) ∧ names.get? v = shown) ↔
      (∀ x ∈ entries, WrittenEntry.Keyed x) ∧
        (shown = none ∧ givenNames v entries = [] ∨ ∃ n ∈ givenNames v entries, shown = some n)) ∧
    (SameInAllOrders entries ↔ (∃ x ∈ entries, ¬WrittenEntry.Keyed x) ∨
      ∀ v, ∀ n ∈ givenNames v entries, ∀ m ∈ givenNames v entries, n = m) ∧
    ∀ body, entries? body = some entries →
      (∀ x ∈ entries, ∀ v, keyId? x.1 = some v → x.1 = v.text) → SameInAllOrders entries :=
  ⟨fun _ read => error_iff read, fun _ _ => shown_iff, sameInAllOrders_iff,
    fun _ listed canonical =>
      sameInAllOrders_iff.2 (.inr (single_of_canonical (nodup_keys listed) canonical))⟩

/-- One user under two spellings: which name is shown is a matter of the order. -/
theorem namesOf_orders_two_spellings :
    let entries : List WrittenEntry := [("1", "alice"), ("+1", "bob")]
    (∃ names, ReadInSomeOrder entries (.ok names) ∧
      names.get? ⟨1⟩ = some ⟨"alice", by decide⟩) ∧
    (∃ names, ReadInSomeOrder entries (.ok names) ∧
      names.get? ⟨1⟩ = some ⟨"bob", by decide⟩) ∧
    ¬SameInAllOrders entries := by
  have shown := (namesOf_orders [("1", "alice"), ("+1", "bob")]).2.1 ⟨1⟩
  have keyed : ∀ x ∈ [("1", "alice"), ("+1", "bob")], WrittenEntry.Keyed x := by
    simp only [List.forall_mem_cons]
    exact ⟨⟨⟨1⟩, by decide⟩, ⟨⟨1⟩, by decide⟩, fun _ h => by cases h⟩
  have given : givenNames ⟨1⟩ [("1", "alice"), ("+1", "bob")] =
      [⟨"alice", by decide⟩, ⟨"bob", by decide⟩] := by decide
  refine ⟨(shown _).2 ⟨keyed, .inr ⟨_, by rw [given]; exact .head _, rfl⟩⟩,
    (shown _).2 ⟨keyed, .inr ⟨_, by rw [given]; exact .tail _ (.head _), rfl⟩⟩, fun same => ?_⟩
  rcases (namesOf_orders [("1", "alice"), ("+1", "bob")]).2.2.1.1 same with ⟨x, hx, bad⟩ | single
  · exact bad (keyed x hx)
  · have equal := single ⟨1⟩
    rw [given] at equal
    exact absurd (equal _ (.head _) _ (.tail _ (.head _))) (by decide)

end CoinLedger.Identity
