import CoinLedger.Proofs.Identity.Orders

/-!
# What becomes of each entry

Two things may be wrong with an entry of an answer, and they weigh differently.  A key that is no
number in the range of ids spoils the answer, whatever stands under it.  A name that is no username
is passed over, and this takes nothing away from any other entry: every id that some entry gives a
usable name is in the result, under the name of such an entry, as it was written.

Both conditions are about single entries, so the order in which the entries are read has a part only
in which bad key is complained about: it is the first one.

## Main definitions

* `SpellsNumber` — the decimal texts of a number.
* `IsId`, `Usable` — the two conditions on an entry.

## Main results

* `keyId?_eq_some_iff`, `ofString_iff` — what is read off a key and a name.
* `namesOf_entries` — what is read off all entries, in any order.
-/

namespace CoinLedger.Identity

open Text

/-! ## Keys -/

/-- Whether a text is the decimal text of a number: digits, at least one of them, with a sign in
front or none. -/
def SpellsNumber (text : String) (n : Int) : Prop :=
  ∃ digits, digits ≠ [] ∧ (∀ c ∈ digits, c.isDigit = true) ∧
    (n = (Nat.ofDigitChars 10 digits 0 : Int) ∧
        (text.toList = digits ∨ text.toList = '+' :: digits) ∨
      n = -(Nat.ofDigitChars 10 digits 0 : Int) ∧ text.toList = '-' :: digits)

/-- Whether a text is the decimal text of a number that an id may have. -/
def IsId (text : String) : Prop :=
  ∃ n, SpellsNumber text n ∧ -9223372036854775808 ≤ n ∧ n ≤ 9223372036854775807

theorem readInt?_iff_spellsNumber {text : String} {n : Int} :
    Decimal.readInt? text.toList = some n ↔ SpellsNumber text n := by
  rw [Decimal.readInt?_eq_some_iff]
  constructor
  · rintro ⟨digits, m, hm, spelled⟩
    obtain ⟨filled, digit, rfl⟩ := Decimal.readNat?_eq_some_iff.1 hm
    exact ⟨digits, filled, digit, spelled⟩
  · rintro ⟨digits, filled, digit, spelled⟩
    exact ⟨digits, _, Decimal.readNat?_eq_some_iff.2 ⟨filled, digit, rfl⟩, spelled⟩

/-- The id of a key is the one whose number the key spells. -/
theorem keyId?_eq_some_iff {key : String} {v : UserId} :
    keyId? key = some v ↔ SpellsNumber key v.toInt := by
  unfold keyId?
  rw [Option.bind_eq_some_iff]
  constructor
  · rintro ⟨n, read, fits⟩
    rw [UserId.ofInt?_eq_some_iff.1 fits]
    exact readInt?_iff_spellsNumber.1 read
  · intro spelled
    exact ⟨v.toInt, readInt?_iff_spellsNumber.2 spelled, UserId.ofInt?_eq_some_iff.2 rfl⟩

/-- The keys that are good are the numbers in the range of ids. -/
theorem keyed_iff {x : WrittenEntry} : WrittenEntry.Keyed x ↔ IsId x.1 := by
  constructor
  · rintro ⟨v, key⟩
    have lower : -UserId.bound ≤ v.toInt := v.word.le_toInt
    have upper : v.toInt < UserId.bound := v.word.toInt_lt
    exact ⟨v.toInt, keyId?_eq_some_iff.1 key, lower, Int.lt_add_one_iff.1 upper⟩
  · rintro ⟨n, spelled, lower, upper⟩
    have fits : UserId.ofInt? n = some ⟨Int64.ofInt n⟩ :=
      if_pos ⟨lower, Int.lt_add_one_iff.2 upper⟩
    refine ⟨⟨Int64.ofInt n⟩, keyId?_eq_some_iff.2 ?_⟩
    rw [UserId.ofInt?_eq_some_iff.1 fits]
    exact spelled

/-! ## Names -/

/-- Whether a text may be a username: it is not empty, and neither its first nor its last character
is blank. -/
structure Usable (name : String) : Prop where
  filled : name.toList ≠ []
  first : ∀ c, name.toList.head? = some c → isBlank c = false
  last : ∀ c, name.toList.getLast? = some c → isBlank c = false

/-- Usable texts are accepted as they are, and no others are. -/
theorem ofString_iff {text : String} {n : Username} :
    Username.ofString text = .ok n ↔ Usable text ∧ n.text = text := by
  rw [Username.ofString_eq_ok_iff, trim_eq_self_iff]
  constructor
  · rintro ⟨same, ⟨first, last⟩, filled⟩
    exact ⟨⟨filled, first, last⟩, same⟩
  · rintro ⟨usable, same⟩
    exact ⟨same, ⟨usable.first, usable.last⟩, usable.filled⟩

theorem exists_username {text : String} (usable : Usable text) : ∃ n : Username, n.text = text :=
  ⟨⟨text, Username.usernameDefect?_eq_none_iff.2
    ⟨trim_eq_self_iff.2 ⟨usable.first, usable.last⟩, usable.filled⟩⟩, rfl⟩

/-! ## Entries -/

/-- What an entry gives to an id: its own name, if it is usable and the key spells the id. -/
theorem givenTo?_eq_some_iff {v : UserId} {x : WrittenEntry} {n : Username} :
    givenTo? v x = some n ↔ SpellsNumber x.1 v.toInt ∧ Usable x.2 ∧ n.text = x.2 := by
  rw [← keyId?_eq_some_iff, ← ofString_iff]
  unfold givenTo?
  by_cases key : keyId? x.1 = some v
  · rw [if_pos key]
    cases Username.ofString x.2 <;> simp [key, Except.toOption]
  · rw [if_neg key]
    simp [key]

theorem mem_givenNames_iff {v : UserId} {entries : List WrittenEntry} {n : Username} :
    n ∈ givenNames v entries ↔
      ∃ x ∈ entries, SpellsNumber x.1 v.toInt ∧ Usable x.2 ∧ n.text = x.2 := by
  simp only [givenNames, List.mem_filterMap, givenTo?_eq_some_iff]

/-- It is the first bad key that is complained about. -/
theorem addEntries_eq_error {entries : List WrittenEntry} {names : Names} {e : String}
    (failed : addEntries names entries = .error e) :
    ∃ before x after, entries = before ++ x :: after ∧ (∀ y ∈ before, IsId y.1) ∧
      ¬IsId x.1 ∧ e = badKey x.1 := by
  induction entries generalizing names with
  | nil => cases failed
  | cons x rest ih =>
    obtain ⟨key, text⟩ := x
    rw [addEntries] at failed
    cases hid : keyId? key with
    | none =>
      rw [hid] at failed
      refine ⟨[], (key, text), rest, rfl, fun _ h => absurd h List.not_mem_nil, fun isId => ?_,
        (Except.error.inj failed).symm⟩
      obtain ⟨v, keyed⟩ := keyed_iff (x := (key, text)).2 isId
      rw [hid] at keyed
      cases keyed
    | some v =>
      -- Whether the name is added or passed over, the rest is read next.
      have later : ∃ names', addEntries names' rest = .error e := by
        rw [hid] at failed
        dsimp only at failed
        split at failed <;> exact ⟨_, failed⟩
      obtain ⟨names', failed'⟩ := later
      obtain ⟨before, x, after, rfl, good, bad, worded⟩ := ih failed'
      have own : IsId key := keyed_iff (x := (key, text)).1 ⟨v, hid⟩
      exact ⟨(key, text) :: before, x, after, rfl, List.forall_mem_cons.2 ⟨own, good⟩, bad, worded⟩

/-! ## All entries -/

/-- **One bad key costs the answer, one bad name nothing but itself.**  In whatever order the
entries of an answer are read, there are no names exactly if some key is not the decimal text of a
number in the range of ids, and the first such key is complained about.  Otherwise an id has a name
exactly if some entry gives it a usable one, and its name is that of such an entry, unchanged. -/
theorem namesOf_entries (entries order : List WrittenEntry) (perm : order.Perm entries) :
    ((∃ e, namesOf order = .error e) ↔ ∃ x ∈ entries, ¬IsId x.1) ∧
    (∀ e, namesOf order = .error e → ∃ before x after, order = before ++ x :: after ∧
      (∀ y ∈ before, IsId y.1) ∧ ¬IsId x.1 ∧ e = badKey x.1) ∧
    ∀ names, namesOf order = .ok names → ∀ v : UserId,
      ((∃ n, names.get? v = some n) ↔
        ∃ x ∈ entries, SpellsNumber x.1 v.toInt ∧ Usable x.2) ∧
      ∀ n, names.get? v = some n →
        ∃ x ∈ entries, SpellsNumber x.1 v.toInt ∧ Usable x.2 ∧ n.text = x.2 := by
  refine ⟨?_, fun e failed => addEntries_eq_error failed, fun names read v => ?_⟩
  · rw [error_iff ⟨order, perm, rfl⟩]
    simp only [keyed_iff]
  · have shown := shown_of_read ⟨order, perm, read⟩ v
    have given : ∀ n, names.get? v = some n →
        ∃ x ∈ entries, SpellsNumber x.1 v.toInt ∧ Usable x.2 ∧ n.text = x.2 := by
      intro n hn
      rcases shown with ⟨nobody, -⟩ | ⟨n', given, somebody⟩
      · rw [nobody] at hn
        cases hn
      · obtain rfl : n' = n := Option.some.inj (somebody.symm.trans hn)
        exact mem_givenNames_iff.1 given
    refine ⟨⟨?_, ?_⟩, given⟩
    · rintro ⟨n, hn⟩
      obtain ⟨x, hx, spelled, usable, -⟩ := given n hn
      exact ⟨x, hx, spelled, usable⟩
    · rintro ⟨x, hx, spelled, usable⟩
      obtain ⟨n, same⟩ := exists_username usable
      have gives : n ∈ givenNames v entries := mem_givenNames_iff.2 ⟨x, hx, spelled, usable, same⟩
      rcases shown with ⟨-, nobody⟩ | ⟨n', -, somebody⟩
      · rw [nobody] at gives
        exact absurd gives List.not_mem_nil
      · exact ⟨n', somebody⟩

/-- A name with blanks around it and one that is missing, among a name for the id seven under an odd
spelling and one for the least id; and the same with a key that is one too large. -/
theorem namesOf_entries_mixed :
    let entries : List WrittenEntry :=
      [("-9223372036854775808", "ann"), ("7", " bob "), ("+007", "bob"), ("8", "")]
    (∃ names, namesOf entries.reverse = .ok names ∧
      names.get? ⟨7⟩ = some ⟨"bob", by decide⟩ ∧ names.get? ⟨8⟩ = none) ∧
    namesOf (entries ++ [("9223372036854775808", "eve")]) =
      .error (badKey "9223372036854775808") := by
  intro entries
  have good : ∀ x ∈ entries, IsId x.1 := by
    have keyed : ∀ x ∈ entries, (keyId? x.1).isSome = true := by decide
    exact fun x hx => keyed_iff.1 (Option.isSome_iff_exists.1 (keyed x hx))
  have bad : ¬IsId "9223372036854775808" := by
    intro isId
    obtain ⟨v, keyed⟩ := keyed_iff (x := ("9223372036854775808", "eve")).2 isId
    have unread : keyId? "9223372036854775808" = none := by decide
    rw [unread] at keyed
    cases keyed
  constructor
  · obtain ⟨failsIff, -, found⟩ := namesOf_entries entries entries.reverse (List.reverse_perm _)
    cases read : namesOf entries.reverse with
    | error e =>
      obtain ⟨x, hx, spoiled⟩ := failsIff.1 ⟨e, read⟩
      exact absurd (good x hx) spoiled
    | ok names =>
      have bob : Usable "bob" := (ofString_iff (n := ⟨"bob", by decide⟩)).1 (by decide) |>.1
      have seven : SpellsNumber "+007" (⟨7⟩ : UserId).toInt := keyId?_eq_some_iff.1 (by decide)
      obtain ⟨some_iff, named⟩ := found names read ⟨7⟩
      obtain ⟨n, hn⟩ := some_iff.2 ⟨("+007", "bob"), by decide, seven, bob⟩
      have given : n ∈ givenNames ⟨7⟩ entries := mem_givenNames_iff.2 (named n hn)
      have only : givenNames ⟨7⟩ entries = [⟨"bob", by decide⟩] := by decide
      rw [only] at given
      refine ⟨names, rfl, hn.trans (congrArg some (List.mem_singleton.1 given)), ?_⟩
      cases eight : names.get? ⟨8⟩ with
      | none => rfl
      | some n =>
        have given : n ∈ givenNames ⟨8⟩ entries :=
          mem_givenNames_iff.2 ((found names read ⟨8⟩).2 n eight)
        have nobody : givenNames ⟨8⟩ entries = [] := by decide
        rw [nobody] at given
        cases given
  · obtain ⟨failsIff, worded, -⟩ :=
      namesOf_entries (entries ++ [("9223372036854775808", "eve")]) _ (.refl _)
    obtain ⟨e, failed⟩ := failsIff.2
      ⟨("9223372036854775808", "eve"), List.mem_append_right _ (.head _), bad⟩
    obtain ⟨before, x, after, split, -, spoiled, rfl⟩ := worded e failed
    have member : x ∈ entries ++ [("9223372036854775808", "eve")] := by
      rw [split]
      exact List.mem_append_right _ (.head _)
    rcases List.mem_append.1 member with inside | last
    · exact absurd (good x inside) spoiled
    · rw [failed, List.mem_singleton.1 last]

end CoinLedger.Identity
