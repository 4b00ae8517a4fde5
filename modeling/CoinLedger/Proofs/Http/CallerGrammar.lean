import CoinLedger.Proofs.Http.Gate
import Mathlib.Data.List.DropRight

/-!
# The grammar of a caller

The gate knows a caller by the bytes of two headers.  Here it is said which bytes these may be,
without decoding them: an id is one or more decimal digits, with a plus sign in front or none and
with spaces and tabs at the ends, and a name is any text that does not begin or end with a space or
a tab.  No other byte than a tab or one from the space to the tilde may stand in either.

The gate works on text and trims it of everything that counts as blank.  A readable byte is blank as
a character only if it is a space or a tab (`isBlank_charOf`), so on readable values the two ways of
trimming agree, and the rest is read off what the gate makes of the text.

## Main definitions

* `IdGrammar` — the header values that are a number.
* `NameGrammar` — the header values that are a name.
* `Request.FirstHeader` — the header of a name that counts.

## Main results

* `spells_iff_grammar` — the values that spell an id are those of the grammar in its range.
* `caller_iff_grammar` — who is known as a caller, and under which id and name.
-/

namespace CoinLedger.Http

open Text

/-! ## Bytes -/

/-- Whether a byte is a space or a tab. -/
def isGap (b : UInt8) : Bool := b.toNat = 0x20 || b.toNat = 0x09

/-- Whether all bytes are tabs or between the space and the tilde. -/
def Plain (value : List UInt8) : Prop :=
  ∀ b ∈ value, b.toNat = 0x09 ∨ 0x20 ≤ b.toNat ∧ b.toNat ≤ 0x7E

/-- A header value without the spaces and tabs at its ends. -/
def bare (value : List UInt8) : List UInt8 := (value.dropWhile isGap).rdropWhile isGap

/-- The number that decimal digits denote. -/
def numberOf (digits : List UInt8) : Nat :=
  digits.foldl (fun n b => 10 * n + (b.toNat - 0x30)) 0

/-- Whether a header value is a number: its bytes are plain, and spaces and tabs at its ends aside
they are decimal digits, at least one of them, with a plus sign in front or none. -/
structure IdGrammar (value : List UInt8) (n : Nat) : Prop where
  plain : Plain value
  numeral : ∃ digits, (bare value = digits ∨ bare value = 0x2B :: digits) ∧ digits ≠ [] ∧
    (∀ b ∈ digits, 0x30 ≤ b.toNat ∧ b.toNat ≤ 0x39) ∧ numberOf digits = n

/-- The character with the code of a byte. -/
def charOf (b : UInt8) : Char := Char.ofNat b.toNat

/-- Whether a header value is a name: its bytes are plain, there are some, and neither the first nor
the last one is a space or a tab. -/
structure NameGrammar (value : List UInt8) (name : String) : Prop where
  plain : Plain value
  filled : value ≠ []
  first : ∀ b, value.head? = some b → isGap b = false
  last : ∀ b, value.getLast? = some b → isGap b = false
  text : name.toList = value.map charOf

/-- What holds of the bytes one by one holds of each of them. -/
theorem byte_cases {P : UInt8 → Prop} (h : ∀ n < 256, P (UInt8.ofNat n)) (b : UInt8) : P b := by
  have own := h b.toNat b.toNat_lt
  rwa [UInt8.ofNat_toNat] at own

theorem isReadable_iff {b : UInt8} :
    isReadable b = true ↔ b.toNat = 0x09 ∨ 0x20 ≤ b.toNat ∧ b.toNat ≤ 0x7E := by
  unfold isReadable
  rw [Bool.or_eq_true, Bool.and_eq_true, decide_eq_true_iff, decide_eq_true_iff,
    decide_eq_true_iff]
  omega

theorem readable?_eq_some_iff {value : List UInt8} {text : List Char} :
    readable? value = some text ↔ Plain value ∧ text = value.map charOf := by
  have plain_iff : value.all isReadable = true ↔ Plain value := by
    simp only [List.all_eq_true, isReadable_iff, Plain]
  unfold readable?
  by_cases plain : Plain value
  · rw [if_pos (plain_iff.2 plain), Option.some.injEq]
    exact ⟨fun same => ⟨plain, same.symm⟩, fun same => same.2.symm⟩
  · rw [if_neg (mt plain_iff.1 plain)]
    simp [plain]

/-- Of the readable bytes only the space and the tab are blank. -/
theorem isBlank_charOf {b : UInt8} (readable : b.toNat = 0x09 ∨ 0x20 ≤ b.toNat ∧ b.toNat ≤ 0x7E) :
    isBlank (charOf b) = isGap b := by
  have every : ∀ n < 256, isReadable (UInt8.ofNat n) = true →
      isBlank (charOf (UInt8.ofNat n)) = isGap (UInt8.ofNat n) := by
    decide +kernel
  exact byte_cases (P := fun b => isReadable b = true → isBlank (charOf b) = isGap b) every b
    (isReadable_iff.2 readable)

theorem isDigit_charOf (b : UInt8) :
    (charOf b).isDigit = true ↔ 0x30 ≤ b.toNat ∧ b.toNat ≤ 0x39 := by
  have every : ∀ n < 256, ((charOf (UInt8.ofNat n)).isDigit = true ↔
      0x30 ≤ (UInt8.ofNat n).toNat ∧ (UInt8.ofNat n).toNat ≤ 0x39) := by
    decide +kernel
  exact byte_cases (P := fun b => (charOf b).isDigit = true ↔ 0x30 ≤ b.toNat ∧ b.toNat ≤ 0x39)
    every b

theorem charOf_toNat (b : UInt8) : (charOf b).toNat = b.toNat := by
  have every : ∀ n < 256, (charOf (UInt8.ofNat n)).toNat = (UInt8.ofNat n).toNat := by
    decide +kernel
  exact byte_cases (P := fun b => (charOf b).toNat = b.toNat) every b

theorem charOf_eq_plus_iff {b : UInt8} : charOf b = '+' ↔ b = 0x2B := by
  constructor
  · intro h
    have code : b.toNat = '+'.toNat := (charOf_toNat b).symm.trans (congrArg Char.toNat h)
    exact UInt8.toNat_inj.1 code
  · rintro rfl
    rfl

/-! ## Trimming -/

/-- What is dropped in front of a list of images is dropped in front of the list. -/
theorem dropWhile_map_of {α β : Type} {f : α → β} {p : β → Bool} {q : α → Bool} {l : List α}
    (h : ∀ a ∈ l, p (f a) = q a) : (l.map f).dropWhile p = (l.dropWhile q).map f := by
  induction l with
  | nil => rfl
  | cons a rest ih =>
    rw [List.map_cons, List.dropWhile_cons, List.dropWhile_cons, h a List.mem_cons_self]
    by_cases dropped : q a = true
    · rw [if_pos dropped, if_pos dropped]
      exact ih fun b hb => h b (List.mem_cons_of_mem a hb)
    · rw [if_neg dropped, if_neg dropped, List.map_cons]

/-- A readable text is trimmed of its spaces and tabs. -/
theorem trim_map_charOf {value : List UInt8} (plain : Plain value) :
    trim (value.map charOf) = (bare value).map charOf := by
  have blank : ∀ b ∈ value, isBlank (charOf b) = isGap b := fun b hb => isBlank_charOf (plain b hb)
  have front : (value.map charOf).dropWhile isBlank = (value.dropWhile isGap).map charOf :=
    dropWhile_map_of blank
  have blank_back : ∀ b ∈ (value.dropWhile isGap).reverse, isBlank (charOf b) = isGap b := by
    intro b hb
    exact blank b ((List.dropWhile_sublist _).subset (List.mem_reverse.1 hb))
  unfold trim bare List.rdropWhile
  rw [front, ← List.map_reverse, dropWhile_map_of blank_back, List.map_reverse]

/-! ## Numbers -/

theorem ofDigitChars_map_charOf (digits : List UInt8) (n : Nat) :
    Nat.ofDigitChars 10 (digits.map charOf) n =
      digits.foldl (fun n b => 10 * n + (b.toNat - 0x30)) n := by
  induction digits generalizing n with
  | nil => rfl
  | cons b rest ih =>
    rw [List.map_cons, Nat.ofDigitChars_cons, List.foldl_cons, ih, charOf_toNat]
    rfl

/-- The values that spell an id are those of the grammar, in the range of positive ids. -/
theorem spells_iff_grammar {value : List UInt8} {id : UserId} :
    Spells value id ↔
      ∃ n, IdGrammar value n ∧ 1 ≤ n ∧ n ≤ 9223372036854775807 ∧ id.toInt = n := by
  constructor
  · rintro ⟨text, digits, readable, trimmed, filled, digit, number, positive⟩
    obtain ⟨plain, rfl⟩ := readable?_eq_some_iff.1 readable
    rw [trim_map_charOf plain] at trimmed
    -- The digits are characters of bytes, for they are part of the text.
    obtain ⟨bytes, written, rfl⟩ : ∃ bytes, (bare value = bytes ∨ bare value = 0x2B :: bytes) ∧
        bytes.map charOf = digits := by
      rcases trimmed with unsigned | signed
      · exact ⟨bare value, .inl rfl, unsigned⟩
      · obtain ⟨b, bytes, split, plus, rest⟩ := List.map_eq_cons_iff.1 signed
        rw [charOf_eq_plus_iff] at plus
        exact ⟨bytes, .inr (by rw [split, plus]), rest⟩
    have below : id.toInt < UserId.bound := id.word.toInt_lt
    have value_eq : Nat.ofDigitChars 10 (bytes.map charOf) 0 = numberOf bytes :=
      ofDigitChars_map_charOf bytes 0
    rw [value_eq] at number
    refine ⟨numberOf bytes, ⟨plain, bytes, written, ?_, ?_, rfl⟩, by omega, ?_, number⟩
    · rintro rfl
      exact filled rfl
    · exact fun b hb => (isDigit_charOf b).1 (digit _ (List.mem_map_of_mem hb))
    · have small : (numberOf bytes : Int) < 9223372036854775808 := number ▸ below
      omega
  · rintro ⟨n, ⟨plain, digits, written, filled, digit, rfl⟩, positive, -, number⟩
    refine ⟨value.map charOf, digits.map charOf, readable?_eq_some_iff.2 ⟨plain, rfl⟩, ?_, ?_, ?_,
      ?_, by omega⟩
    · rw [trim_map_charOf plain]
      rcases written with unsigned | signed
      · exact .inl (by rw [unsigned])
      · exact .inr (by rw [signed]; rfl)
    · exact fun none => filled (List.map_eq_nil_iff.1 none)
    · intro c hc
      obtain ⟨b, hb, rfl⟩ := List.mem_map.1 hc
      exact (isDigit_charOf b).2 (digit b hb)
    · rw [number, ofDigitChars_map_charOf]
      rfl

/-! ## Names -/

theorem nameOfText?_eq_some_iff {text : List Char} {u : Username} :
    Caller.nameOfText? text = some u ↔ u.text.toList = text ∧ trim text = text ∧ text ≠ [] := by
  have read : Caller.nameOfText? text = some u ↔
      Username.ofString (String.ofList text) = .ok u := by
    unfold Caller.nameOfText?
    cases Username.ofString (String.ofList text) <;> simp [Except.toOption]
  rw [read, Username.ofString_eq_ok_iff, String.toList_ofList]
  refine and_congr_left fun _ => ?_
  rw [← String.toList_inj, String.toList_ofList]

/-- The values that are read as a name are those of the grammar. -/
theorem name_iff_grammar {value : List UInt8} {u : Username} :
    (readable? value).bind Caller.nameOfText? = some u ↔ NameGrammar value u.text := by
  simp only [Option.bind_eq_some_iff, readable?_eq_some_iff, nameOfText?_eq_some_iff,
    trim_eq_self_iff]
  constructor
  · rintro ⟨text, ⟨plain, rfl⟩, same, ⟨first, last⟩, filled⟩
    refine ⟨plain, fun none => filled (by rw [none]; rfl), fun b hb => ?_, fun b hb => ?_, same⟩
    · rw [← isBlank_charOf (plain b (List.mem_of_mem_head? hb))]
      exact first _ (by rw [List.head?_map, hb]; rfl)
    · rw [← isBlank_charOf (plain b (List.mem_of_getLast? hb))]
      exact last _ (by rw [List.getLast?_map, hb]; rfl)
  · rintro ⟨plain, filled, first, last, same⟩
    refine ⟨_, ⟨plain, rfl⟩, same, ⟨fun c hc => ?_, fun c hc => ?_⟩,
      fun none => filled (List.map_eq_nil_iff.1 none)⟩
    · rw [List.head?_map] at hc
      obtain ⟨b, hb, rfl⟩ := Option.map_eq_some_iff.1 hc
      rw [isBlank_charOf (plain b (List.mem_of_mem_head? hb)), first b hb]
    · rw [List.getLast?_map] at hc
      obtain ⟨b, hb, rfl⟩ := Option.map_eq_some_iff.1 hc
      rw [isBlank_charOf (plain b (List.mem_of_getLast? hb)), last b hb]

/-! ## Headers -/

/-- Whether a value is that of the first header of a name, whose case does not count. -/
def Request.FirstHeader (r : Request) (name : String) (value : List UInt8) : Prop :=
  ∃ before h after, r.headers = before ++ h :: after ∧ sameName h.name name = true ∧
    (∀ g ∈ before, sameName g.name name = false) ∧ h.value = value

theorem Request.header?_eq_some_iff {r : Request} {name : String} {value : List UInt8} :
    r.header? name = some value ↔ r.FirstHeader name value := by
  unfold Request.header? Request.FirstHeader
  rw [Option.map_eq_some_iff]
  constructor
  · rintro ⟨h, found, rfl⟩
    obtain ⟨named, before, after, split, others⟩ := List.find?_eq_some_iff_append.1 found
    refine ⟨before, h, after, split, named, fun g hg => ?_, rfl⟩
    simpa using others g hg
  · rintro ⟨before, h, after, split, named, others, rfl⟩
    refine ⟨h, List.find?_eq_some_iff_append.2 ⟨named, before, after, split, fun g hg => ?_⟩, rfl⟩
    rw [others g hg]
    rfl

theorem Request.header?_eq_none_iff {r : Request} {name : String} :
    r.header? name = none ↔ ∀ h ∈ r.headers, sameName h.name name = false := by
  unfold Request.header?
  rw [Option.map_eq_none_iff, List.find?_eq_none]
  simp only [Bool.not_eq_true]

/-! ## The caller -/

/-- What the gate makes of a request with an id header. -/
theorem ofRequest_of_present {r : Request} {value : List UInt8}
    (present : r.header? Caller.idHeader = some value) :
    Caller.ofRequest r =
      match (readable? value).bind Caller.idOfText? with
      | none => .error Caller.malformed
      | some id => .ok ⟨id, (r.headerText? Caller.nameHeader).bind Caller.nameOfText?⟩ := by
  unfold Caller.ofRequest
  generalize r.header? Caller.idHeader = found at present ⊢
  subst present
  rfl

theorem ofRequest_eq_ok_iff {r : Request} {value : List UInt8} {caller : Caller}
    (present : r.header? Caller.idHeader = some value) :
    Caller.ofRequest r = .ok caller ↔ Spells value caller.id ∧
      caller.username = (r.headerText? Caller.nameHeader).bind Caller.nameOfText? := by
  rw [ofRequest_of_present present, ← spells_iff]
  obtain ⟨id, username⟩ := caller
  cases (readable? value).bind Caller.idOfText? with
  | none => simp
  | some id' => simp [eq_comm]

/-- The username of a caller is that of the first header for it, if it is one. -/
theorem username_iff_grammar {r : Request} {u : Username} :
    (r.headerText? Caller.nameHeader).bind Caller.nameOfText? = some u ↔
      ∃ value, r.FirstHeader Caller.nameHeader value ∧ NameGrammar value u.text := by
  unfold Request.headerText?
  rw [Option.bind_assoc, Option.bind_eq_some_iff]
  simp only [name_iff_grammar, Request.header?_eq_some_iff]

/-- Without an id header there is no caller. -/
theorem ofRequest_of_absent {r : Request} (absent : r.header? Caller.idHeader = none) :
    Caller.ofRequest r = .error Caller.missing := by
  unfold Caller.ofRequest
  rw [absent]

/-- Whether there is a caller, and which one, depends on the first id header alone. -/
theorem ofRequest_congr {r r' : Request}
    (same : r.header? Caller.idHeader = r'.header? Caller.idHeader) :
    (Caller.ofRequest r).map Caller.id = (Caller.ofRequest r').map Caller.id := by
  cases present : r.header? Caller.idHeader with
  | none => rw [ofRequest_of_absent present, ofRequest_of_absent (same ▸ present)]
  | some value =>
    rw [ofRequest_of_present present, ofRequest_of_present (same ▸ present)]
    cases (readable? value).bind Caller.idOfText? <;> rfl

/-- **The grammar of a caller.**  A request without an id header has no caller.  With one, it has a
caller exactly if the value of the first one is a number that a positive id may have, which is then
the caller's id; any other value is malformed.  The caller has a name exactly if the first header
for it is a name.  Whether there is a caller, and which one, depends on the first id header
alone. -/
theorem caller_iff_grammar (r : Request) :
    ((∀ h ∈ r.headers, sameName h.name Caller.idHeader = false) →
      Caller.ofRequest r = .error Caller.missing) ∧
    (∀ value, r.FirstHeader Caller.idHeader value →
      (∀ id, (∃ username, Caller.ofRequest r = .ok ⟨id, username⟩) ↔
        ∃ n, IdGrammar value n ∧ 1 ≤ n ∧ n ≤ 9223372036854775807 ∧ id.toInt = n) ∧
      ((¬∃ n, IdGrammar value n ∧ 1 ≤ n ∧ n ≤ 9223372036854775807) →
        Caller.ofRequest r = .error Caller.malformed)) ∧
    (∀ caller, Caller.ofRequest r = .ok caller → ∀ u, caller.username = some u ↔
      ∃ value, r.FirstHeader Caller.nameHeader value ∧ NameGrammar value u.text) ∧
    ∀ r' : Request, (∀ value, r.FirstHeader Caller.idHeader value ↔
        r'.FirstHeader Caller.idHeader value) →
      (Caller.ofRequest r).map Caller.id = (Caller.ofRequest r').map Caller.id := by
  refine ⟨fun absent => ofRequest_of_absent (Request.header?_eq_none_iff.2 absent),
    fun value first => ?_, fun caller known u => ?_, fun r' same => ?_⟩
  · have present : r.header? Caller.idHeader = some value :=
      Request.header?_eq_some_iff.2 first
    constructor
    · intro id
      rw [← spells_iff_grammar]
      constructor
      · rintro ⟨username, known⟩
        exact ((ofRequest_eq_ok_iff present).1 known).1
      · intro spelled
        exact ⟨_, (ofRequest_eq_ok_iff present).2 ⟨spelled, rfl⟩⟩
    · intro none
      have unread : (readable? value).bind Caller.idOfText? = Option.none := by
        refine Option.eq_none_iff_forall_ne_some.2 fun id read => none ?_
        obtain ⟨n, grammar, positive, small, -⟩ := spells_iff_grammar.1 (spells_iff.1 read)
        exact ⟨n, grammar, positive, small⟩
      rw [ofRequest_of_present present, unread]
  · -- There is a caller, so there is an id header.
    cases present : r.header? Caller.idHeader with
    | none =>
      rw [ofRequest_of_absent present] at known
      cases known
    | some value =>
      rw [((ofRequest_eq_ok_iff present).1 known).2]
      exact username_iff_grammar
  · refine ofRequest_congr (Option.ext fun value => ?_)
    exact Request.header?_eq_some_iff.trans ((same value).trans Request.header?_eq_some_iff.symm)

/-- The greatest id, with zeros and a sign in front and gaps at its ends, before another id and with
a name that begins with a space; one more than that; and no id. -/
theorem caller_iff_grammar_greatest :
    (∃ caller, Caller.ofRequest (penRequest [textHeader "X-USER-ID" "\t +0009223372036854775807 ",
        textHeader "x-user-id" "5", textHeader "X-Username" " bob"]) = .ok caller ∧
      caller.id.toInt = 9223372036854775807 ∧ caller.username = none) ∧
    Caller.ofRequest (penRequest [textHeader "x-user-id" "9223372036854775808"]) =
      .error Caller.malformed ∧
    Caller.ofRequest (penRequest [textHeader "x-username" "bob"]) = .error Caller.missing := by
  refine ⟨?_, ?_, ?_⟩
  · obtain ⟨-, accepted, named, -⟩ := caller_iff_grammar (penRequest
      [textHeader "X-USER-ID" "\t +0009223372036854775807 ", textHeader "x-user-id" "5",
        textHeader "X-Username" " bob"])
    have grammar : IdGrammar (textHeader "X-USER-ID" "\t +0009223372036854775807 ").value
        9223372036854775807 := by
      refine ⟨by unfold Plain; decide +kernel, (textHeader "" "0009223372036854775807").value,
        .inr (by decide +kernel), by decide +kernel, by decide +kernel, by decide +kernel⟩
    obtain ⟨username, known⟩ := ((accepted _
      ⟨[], _, _, rfl, by decide +kernel, (fun _ h => nomatch h), rfl⟩).1 ⟨9223372036854775807⟩).2
        ⟨_, grammar, by decide, by decide, by decide⟩
    refine ⟨_, known, rfl, ?_⟩
    refine Option.eq_none_iff_forall_ne_some.2 fun u hu => ?_
    obtain ⟨value, first, name⟩ := (named _ known u).1 hu
    have only : some value = some (textHeader "X-Username" " bob").value :=
      (Request.header?_eq_some_iff.2 first).symm.trans (by decide +kernel)
    have gap := name.first 0x20 (by rw [Option.some.inj only]; decide +kernel)
    cases gap
  · obtain ⟨-, accepted, -, -⟩ :=
      caller_iff_grammar (penRequest [textHeader "x-user-id" "9223372036854775808"])
    refine (accepted _ ⟨[], _, _, rfl, by decide +kernel, (fun _ h => nomatch h), rfl⟩).2 ?_
    rintro ⟨n, ⟨-, digits, written, -, digit, rfl⟩, -, small⟩
    have whole : bare (textHeader "x-user-id" "9223372036854775808").value =
        (textHeader "x-user-id" "9223372036854775808").value := by
      decide +kernel
    rw [whole] at written
    rcases written with rfl | signed
    · exact absurd small (by decide +kernel)
    · cases signed
  · exact (caller_iff_grammar (penRequest [textHeader "x-username" "bob"])).1 (by decide +kernel)

end CoinLedger.Http
