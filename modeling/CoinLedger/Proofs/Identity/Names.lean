import CoinLedger.Identity.Client

/-!
# The names in an answer

An answer lists names under the ids they belong to.  Its keys decide whether it is read at all; its
names do not.  A name that is no username is passed over, so what is read for an id is the last
username that the answer gives it.

## Main definitions

* `WrittenEntry.Keyed` — the key of an entry is an id.
* `givenTo?`, `lastGivenTo?` — the username that an entry, or a list of entries, gives to an id.

## Main results

* `get?_addEntries` — the names that are read, through their view.
-/

namespace CoinLedger.Identity

/-- Whether the key of an entry is an id. -/
def WrittenEntry.Keyed (x : WrittenEntry) : Prop := ∃ v, keyId? x.1 = some v

/-- The username that an entry gives to an id. -/
def givenTo? (v : UserId) (x : WrittenEntry) : Option Username :=
  if keyId? x.1 = some v then (Username.ofString x.2).toOption else none

/-- The last of the usernames that some entries give to an id. -/
def lastGivenTo? (v : UserId) (entries : List WrittenEntry) : Option Username :=
  (entries.filterMap (givenTo? v)).getLast?

theorem lastGivenTo?_cons (v : UserId) (x : WrittenEntry) (rest : List WrittenEntry) :
    lastGivenTo? v (x :: rest) = (lastGivenTo? v rest).or (givenTo? v x) := by
  unfold lastGivenTo?
  cases given : givenTo? v x with
  | none => rw [List.filterMap_cons_none given, Option.or_none]
  | some name =>
    rw [List.filterMap_cons_some given, List.getLast?_cons]
    cases (rest.filterMap (givenTo? v)).getLast? <;> rfl

/-- Entries with good keys are read, and what an id is called by them is the last username that they
give to it. -/
theorem get?_addEntries {entries : List WrittenEntry}
    (keyed : ∀ x ∈ entries, WrittenEntry.Keyed x) (names : Names) :
    ∃ names', addEntries names entries = .ok names' ∧
      ∀ v, names'.get? v = (lastGivenTo? v entries).or (names.get? v) := by
  -- Entries are added to the names read so far, so the induction is over all of these.
  induction entries generalizing names with
  | nil => exact ⟨names, rfl, fun v => rfl⟩
  | cons x rest ih =>
    obtain ⟨key, text⟩ := x
    have rest_keyed : ∀ x ∈ rest, WrittenEntry.Keyed x := fun x hx =>
      keyed x (List.mem_cons_of_mem _ hx)
    obtain ⟨id, hid⟩ := keyed (key, text) List.mem_cons_self
    cases read : Username.ofString text with
    | error defect =>
      obtain ⟨names', added, view⟩ := ih rest_keyed names
      refine ⟨names', by simp only [addEntries, hid, read, added], fun v => ?_⟩
      have nothing : givenTo? v (key, text) = none := by simp [givenTo?, read, Except.toOption]
      rw [view, lastGivenTo?_cons, nothing, Option.or_none]
    | ok name =>
      obtain ⟨names', added, view⟩ := ih rest_keyed (names.insert id name)
      refine ⟨names', by simp only [addEntries, hid, read, added], fun v => ?_⟩
      have given : givenTo? v (key, text) = if id = v then some name else none := by
        simp [givenTo?, hid, read, Except.toOption]
      rw [view, lastGivenTo?_cons, given, SortedMap.get?_insert, Option.or_assoc]
      split <;> rfl

/-- A complete answer with good keys is an answer, whatever its names are. -/
theorem foundNames_of_keyed {status : Nat} {body : List UInt8} {entries : List WrittenEntry}
    (success : isSuccess status = true) (listed : entries? (bodyOf status body) = some entries)
    (keyed : ∀ x ∈ entries, WrittenEntry.Keyed x) :
    ∃ names, foundNames (.answered status body) = .ok names ∧
      ∀ v, names.get? v = lastGivenTo? v entries := by
  obtain ⟨names, added, view⟩ := get?_addEntries keyed SortedMap.empty
  refine ⟨names, ?_, fun v => ?_⟩
  · simp only [foundNames, if_pos success, listed, namesOf, added]
    rfl
  · rw [view, SortedMap.get?_empty, Option.or_none]

end CoinLedger.Identity
