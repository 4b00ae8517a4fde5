import CoinLedger.Proofs.Json.Numerals

/-!
# Written values are read back

Writing a value and reading what was written gives the value again, if the value is one that has a
written form of its own (`Value.Plain`): its numbers are whole and its literals have texts.

The reader works on a stream: it takes a value off the front and hands on the rest.  So the
statement that is proved over the structure of values is about any bytes that follow
(`value?_chars`), with the one proviso that they do not go on with a numeral.  It also says how much
fuel is enough, which is twice the length of the written value; the whole reader starts with more.

## Main definitions

* `Value.Plain` — values with a written form of their own.

## Main results

* `parse?_render` — such a value is read back from its compact form.
-/

namespace CoinLedger.Json

open Text

/-! ## Plain values -/

mutual

/-- Whether all numbers of a value are whole and all its literals have texts. -/
def Value.Plain : Value → Prop
  | .null => True
  | .bool _ => True
  | .number (.whole _) => True
  | .number (.other _) => False
  | .text s => s.isSome = true
  | .array items => PlainItems items
  | .object members => PlainMembers members

def PlainItems : List Value → Prop
  | [] => True
  | v :: rest => v.Plain ∧ PlainItems rest

def PlainMembers : List (Option String × Value) → Prop
  | [] => True
  | (k, v) :: rest => k.isSome = true ∧ v.Plain ∧ PlainMembers rest

end

theorem plainItems_iff {items : List Value} : PlainItems items ↔ ∀ v ∈ items, v.Plain := by
  induction items with
  | nil => simp [PlainItems]
  | cons v rest ih => simp [PlainItems, ih]

theorem plainMembers_iff {members : List (Option String × Value)} :
    PlainMembers members ↔ ∀ m ∈ members, m.1.isSome = true ∧ m.2.Plain := by
  induction members with
  | nil => simp [PlainMembers]
  | cons m rest ih => simp [PlainMembers, ih, and_assoc]

/-! ## Blanks and first bytes -/

theorem skipBlanks_cons {b : UInt8} (h : 0x20 < b.toNat) (rest : List UInt8) :
    skipBlanks (b :: rest) = b :: rest := by
  have blank : ∀ c : Char, (byte c).toNat ≤ 0x20 → b ≠ byte c := by
    rintro c hc rfl
    omega
  have printable : (b = byte ' ' || b = byte '\t' || b = byte '\n' || b = byte '\r') = false := by
    simp [blank ' ' (by decide), blank '\t' (by decide), blank '\n' (by decide),
      blank '\r' (by decide)]
  rw [skipBlanks, List.dropWhile_cons]
  simp only [printable]
  rfl

theorem encode_quote (s : List Char) (rest : List UInt8) :
    Utf8.encode (quote s) ++ rest =
      byte '"' :: (Utf8.encode (s.flatMap escape) ++ byte '"' :: rest) := by
  have bytes : Utf8.encode (quote s) =
      byte '"' :: (Utf8.encode (s.flatMap escape) ++ [byte '"']) := by
    unfold quote
    rw [List.cons_append, encode_cons_ascii (by decide), Utf8.encode_append]
    rfl
  rw [bytes, List.cons_append, List.append_assoc]
  rfl

/-- A numeral begins with a digit or a minus sign. -/
theorem numeral_begin (n : Int) :
    ∃ b rest, Utf8.encode (numeral n) = b :: rest ∧ 0x2D ≤ b.toNat ∧ b.toNat ≤ 0x39 := by
  cases n with
  | ofNat n =>
    obtain ⟨c, ds, digits, digit⟩ := digitsOf_eq_cons n
    have code := code_of_isDigit digit
    have value : (byte c).toNat = c.toNat := toNat_byte (by omega)
    have bytes : Utf8.encode (numeral (.ofNat n)) = byte c :: Utf8.encode ds := by
      show Utf8.encode (digitsOf n) = _
      rw [digits, encode_cons_ascii (by omega)]
    exact ⟨byte c, Utf8.encode ds, bytes, by omega, by omega⟩
  | negSucc n =>
    exact ⟨byte '-', _, encode_cons_ascii (by decide) _, by decide, by decide⟩

/-- The written form of a value begins with no blank, and with nothing that ends an array. -/
theorem chars_begin {v : Value} (hv : v.Plain) :
    ∃ b rest, Utf8.encode v.chars = b :: rest ∧ 0x20 < b.toNat ∧ b ≠ byte ']' := by
  have ascii : ∀ (c : Char) (s : List Char), c.toNat < 0x80 → 0x20 < (byte c).toNat →
      byte c ≠ byte ']' →
      ∃ b rest, Utf8.encode (c :: s) = b :: rest ∧ 0x20 < b.toNat ∧ b ≠ byte ']' :=
    fun c s hc printable other =>
      ⟨byte c, Utf8.encode s, encode_cons_ascii hc s, printable, other⟩
  cases v with
  | null => exact ascii 'n' _ (by decide) (by decide) (by decide)
  | bool b =>
    cases b with
    | true => exact ascii 't' _ (by decide) (by decide) (by decide)
    | false => exact ascii 'f' _ (by decide) (by decide) (by decide)
  | number n =>
    cases n with
    | whole n =>
      obtain ⟨b, rest, bytes, low, high⟩ := numeral_begin n
      refine ⟨b, rest, bytes, by omega, ?_⟩
      rintro rfl
      exact absurd high (by decide)
    | other written => exact hv.elim
  | text s => exact ascii '"' _ (by decide) (by decide) (by decide)
  | array items => exact ascii '[' _ (by decide) (by decide) (by decide)
  | object members => exact ascii '\x7b' _ (by decide) (by decide) (by decide)

/-! ## Values without parts -/

/-- A value is read off the front of what follows it, with fuel for two steps per character. -/
def Value.ReadsBack (v : Value) : Prop :=
  ∀ fuel rest, 2 * v.chars.length ≤ fuel → Ends rest →
    value? fuel (Utf8.encode v.chars ++ rest) = some (v, rest)

/-- Fuel for a character is fuel for a step. -/
theorem succ_of_enough {n fuel : Nat} (h : 2 * (n + 1) ≤ fuel) : ∃ k, fuel = k + 1 :=
  ⟨fuel - 1, by omega⟩

theorem readsBack_null : Value.null.ReadsBack := by
  intro fuel rest enough _
  obtain ⟨k, rfl⟩ := succ_of_enough enough
  show value? (k + 1) (byte 'n' :: _) = _
  rw [value?, skipBlanks_cons (by decide)]
  dsimp only
  rw [if_neg (by decide), if_neg (by decide), if_neg (by decide), if_neg (by decide),
    if_neg (by decide), if_pos rfl]
  rfl

theorem readsBack_bool (b : Bool) : (Value.bool b).ReadsBack := by
  intro fuel rest enough _
  cases b with
  | true =>
    obtain ⟨k, rfl⟩ := succ_of_enough enough
    show value? (k + 1) (byte 't' :: _) = _
    rw [value?, skipBlanks_cons (by decide)]
    dsimp only
    rw [if_neg (by decide), if_neg (by decide), if_neg (by decide), if_pos rfl]
    rfl
  | false =>
    obtain ⟨k, rfl⟩ := succ_of_enough enough
    show value? (k + 1) (byte 'f' :: _) = _
    rw [value?, skipBlanks_cons (by decide)]
    dsimp only
    rw [if_neg (by decide), if_neg (by decide), if_neg (by decide), if_neg (by decide), if_pos rfl]
    rfl

theorem readsBack_whole (n : Int) : (Value.number (.whole n)).ReadsBack := by
  intro fuel rest enough ends
  obtain ⟨b, tail, bytes, low, high⟩ := numeral_begin n
  have other : ∀ c : Char, ¬(0x2D ≤ (byte c).toNat ∧ (byte c).toNat ≤ 0x39) → b ≠ byte c := by
    rintro c hc rfl
    exact hc ⟨low, high⟩
  have positive : 0 < fuel := by
    have size : 0 < (numeral n).length := by
      cases n with
      | ofNat n => exact List.length_pos_iff.2 Nat.toDigits_ne_nil
      | negSucc n => exact Nat.succ_pos _
    have chars : 2 * (numeral n).length ≤ fuel := enough
    omega
  obtain ⟨k, rfl⟩ : ∃ k, fuel = k + 1 := ⟨fuel - 1, by omega⟩
  show value? (k + 1) (Utf8.encode (numeral n) ++ rest) = _
  have read := number?_numeral n ends
  rw [bytes, List.cons_append] at read ⊢
  rw [value?, skipBlanks_cons (by omega)]
  dsimp only
  rw [if_neg (other '"' (by decide)), if_neg (other '\x7b' (by decide)),
    if_neg (other '[' (by decide)), if_neg (other 't' (by decide)), if_neg (other 'f' (by decide)),
    if_neg (other 'n' (by decide)), read]
  rfl

theorem readsBack_text (s : String) : (Value.text (some s)).ReadsBack := by
  intro fuel rest enough _
  obtain ⟨k, rfl⟩ := succ_of_enough enough
  show value? (k + 1) (Utf8.encode (quote s.toList) ++ rest) = _
  rw [encode_quote, value?, skipBlanks_cons (by decide)]
  dsimp only
  rw [if_pos rfl, literal?_quote, Option.map_some, String.ofList_toList]

/-! ## Arrays -/

theorem itemChars_cons_cons (v w : Value) (items : List Value) :
    itemChars (v :: w :: items) = v.chars ++ ',' :: itemChars (w :: items) := by
  rw [itemChars.eq_def]

/-- The items of an array are read one after the other. -/
theorem items?_itemChars {v : Value} {items : List Value}
    (each : ∀ w ∈ v :: items, w.ReadsBack) (fuel : Nat) (read : List Value) (rest : List UInt8)
    (enough : 2 * (itemChars (v :: items)).length + 1 ≤ fuel) :
    items? fuel read (Utf8.encode (itemChars (v :: items)) ++ byte ']' :: rest) =
      some (.array (read.reverse ++ v :: items), rest) := by
  induction items generalizing v fuel read with
  | nil =>
    obtain ⟨k, rfl⟩ : ∃ k, fuel = k + 1 := ⟨fuel - 1, by omega⟩
    have first := each v (List.mem_cons_self ..) k (byte ']' :: rest)
      (by rw [itemChars] at enough; omega) (ends_cons (by decide))
    rw [items?, itemChars, first]
    dsimp only
    rw [skipBlanks_cons (by decide)]
    dsimp only
    rw [if_neg (by decide), if_pos rfl, List.reverse_cons]
  | cons w items ih =>
    obtain ⟨k, rfl⟩ : ∃ k, fuel = k + 1 := ⟨fuel - 1, by omega⟩
    rw [itemChars_cons_cons, List.length_append, List.length_cons] at enough
    have bytes : Utf8.encode (itemChars (v :: w :: items)) ++ byte ']' :: rest =
        Utf8.encode v.chars ++
          byte ',' :: (Utf8.encode (itemChars (w :: items)) ++ byte ']' :: rest) := by
      rw [itemChars_cons_cons, Utf8.encode_append, encode_cons_ascii (by decide),
        List.append_assoc, List.cons_append]
    have first := each v (List.mem_cons_self ..) k
      (byte ',' :: (Utf8.encode (itemChars (w :: items)) ++ byte ']' :: rest))
      (by omega) (ends_cons (by decide))
    rw [items?, bytes, first]
    dsimp only
    rw [skipBlanks_cons (by decide)]
    dsimp only
    rw [if_pos rfl, ih (fun u hu => each u (List.mem_cons_of_mem _ hu)) k (v :: read) (by omega),
      List.reverse_cons, List.append_assoc]
    rfl

theorem readsBack_array {items : List Value} (plain : ∀ v ∈ items, v.Plain)
    (each : ∀ v ∈ items, v.ReadsBack) : (Value.array items).ReadsBack := by
  intro fuel rest enough _
  have size : (Value.array items).chars.length = (itemChars items).length + 2 := by
    rw [Value.chars, List.length_append, List.length_cons]
    rfl
  have bytes : Utf8.encode (Value.array items).chars ++ rest =
      byte '[' :: (Utf8.encode (itemChars items) ++ byte ']' :: rest) := by
    rw [Value.chars, List.cons_append, encode_cons_ascii (by decide), Utf8.encode_append,
      List.cons_append, List.append_assoc]
    rfl
  obtain ⟨k, rfl⟩ : ∃ k, fuel = k + 1 := ⟨fuel - 1, by omega⟩
  rw [bytes, value?, skipBlanks_cons (by decide)]
  dsimp only
  rw [if_neg (by decide), if_neg (by decide), if_pos rfl]
  cases items with
  | nil =>
    have begins : Utf8.encode (itemChars []) ++ byte ']' :: rest = byte ']' :: rest := rfl
    rw [begins, skipBlanks_cons (by decide)]
    dsimp only
    rw [if_pos rfl]
  | cons v items =>
    -- The first item begins with no blank and with no closing bracket.
    have read := items?_itemChars each k [] rest (by omega)
    obtain ⟨b, tail, first, printable, other⟩ := chars_begin (plain v (List.mem_cons_self ..))
    have begins : ∃ tail, Utf8.encode (itemChars (v :: items)) ++ byte ']' :: rest = b :: tail := by
      cases items with
      | nil => exact ⟨_, by rw [itemChars, first, List.cons_append]⟩
      | cons w items =>
        exact ⟨_, by rw [itemChars_cons_cons, Utf8.encode_append, first, List.cons_append,
          List.cons_append]⟩
    obtain ⟨tail, begins⟩ := begins
    rw [begins] at read ⊢
    rw [skipBlanks_cons printable]
    dsimp only
    rw [if_neg other, read]
    rfl

/-! ## Objects -/

theorem memberChars_cons_cons (k : Option String) (v : Value) (m : Option String × Value)
    (members : List (Option String × Value)) :
    memberChars ((k, v) :: m :: members) =
      quote (k.getD "").toList ++ ':' :: v.chars ++ ',' :: memberChars (m :: members) := by
  rw [memberChars.eq_def]

/-- A name, a colon and a value are read as a member. -/
theorem members?_cons {v : Value} (back : v.ReadsBack) (name : String) {fuel : Nat}
    (read : List (Option String × Value)) {rest : List UInt8} (enough : 2 * v.chars.length ≤ fuel)
    (ends : Ends rest) :
    members? (fuel + 1) read
        (Utf8.encode (quote name.toList ++ ':' :: v.chars) ++ rest) =
      match skipBlanks rest with
      | [] => none
      | b :: r =>
        if b = byte ',' then members? fuel ((some name, v) :: read) r
        else if b = byte '\x7d' then some (.object ((some name, v) :: read).reverse, r)
        else none := by
  have bytes : Utf8.encode (quote name.toList ++ ':' :: v.chars) ++ rest =
      byte '"' :: (Utf8.encode (name.toList.flatMap escape) ++
        byte '"' :: byte ':' :: (Utf8.encode v.chars ++ rest)) := by
    rw [Utf8.encode_append, encode_cons_ascii (by decide), List.append_assoc, encode_quote,
      List.cons_append]
  have colon : skipBlanks (byte ':' :: (Utf8.encode v.chars ++ rest)) =
      byte ':' :: (Utf8.encode v.chars ++ rest) := skipBlanks_cons (by decide) _
  rw [bytes, members?, skipBlanks_cons (by decide)]
  dsimp only
  rw [if_pos rfl, literal?_quote]
  dsimp only
  rw [colon]
  dsimp only
  rewrite [if_pos rfl, back fuel rest enough ends, String.ofList_toList]
  rfl

/-- The members of an object are read one after the other. -/
theorem members?_memberChars {m : Option String × Value} {members : List (Option String × Value)}
    (each : ∀ n ∈ m :: members, n.1.isSome = true ∧ n.2.ReadsBack) (fuel : Nat)
    (read : List (Option String × Value)) (rest : List UInt8)
    (enough : 2 * (memberChars (m :: members)).length + 1 ≤ fuel) :
    members? fuel read (Utf8.encode (memberChars (m :: members)) ++ byte '\x7d' :: rest) =
      some (.object (read.reverse ++ m :: members), rest) := by
  obtain ⟨k, rfl⟩ : ∃ k, fuel = k + 1 := ⟨fuel - 1, by omega⟩
  induction members generalizing m k read with
  | nil =>
    obtain ⟨key, v⟩ := m
    obtain ⟨named, back⟩ : key.isSome = true ∧ v.ReadsBack := each _ (List.mem_cons_self ..)
    obtain ⟨name, rfl⟩ := Option.isSome_iff_exists.1 named
    have size : v.chars.length ≤ (memberChars [(some name, v)]).length := by
      rw [memberChars, List.length_append, List.length_cons]
      omega
    rw [memberChars]
    show members? (k + 1) read (Utf8.encode (quote name.toList ++ ':' :: v.chars) ++ _) = _
    rw [members?_cons back name read (by omega) (ends_cons (by decide)),
      skipBlanks_cons (by decide)]
    dsimp only
    rw [if_neg (by decide), if_pos rfl, List.reverse_cons]
  | cons n members ih =>
    obtain ⟨key, v⟩ := m
    obtain ⟨named, back⟩ : key.isSome = true ∧ v.ReadsBack := each _ (List.mem_cons_self ..)
    obtain ⟨name, rfl⟩ := Option.isSome_iff_exists.1 named
    have size : (memberChars ((some name, v) :: n :: members)).length =
        (quote name.toList).length + v.chars.length + (memberChars (n :: members)).length + 2 := by
      rw [memberChars_cons_cons, List.length_append, List.length_append, List.length_cons,
        List.length_cons, Option.getD_some]
      omega
    have bytes : Utf8.encode (memberChars ((some name, v) :: n :: members)) ++
          byte '\x7d' :: rest =
        Utf8.encode (quote name.toList ++ ':' :: v.chars) ++
          byte ',' :: (Utf8.encode (memberChars (n :: members)) ++ byte '\x7d' :: rest) := by
      rw [memberChars_cons_cons, Option.getD_some, Utf8.encode_append,
        encode_cons_ascii (by decide), List.append_assoc, List.cons_append]
    obtain ⟨j, rfl⟩ : ∃ j, k = j + 1 := ⟨k - 1, by omega⟩
    rw [bytes, members?_cons back name read (by omega) (ends_cons (by decide)),
      skipBlanks_cons (by decide)]
    dsimp only
    rw [if_pos rfl, ih (fun w hw => each w (List.mem_cons_of_mem _ hw)) ((some name, v) :: read) j
      (by omega), List.reverse_cons, List.append_assoc]
    rfl

theorem readsBack_object {members : List (Option String × Value)}
    (each : ∀ m ∈ members, m.1.isSome = true ∧ m.2.ReadsBack) :
    (Value.object members).ReadsBack := by
  intro fuel rest enough _
  have size : (Value.object members).chars.length = (memberChars members).length + 2 := by
    rw [Value.chars, List.length_append, List.length_cons]
    rfl
  have bytes : Utf8.encode (Value.object members).chars ++ rest =
      byte '\x7b' :: (Utf8.encode (memberChars members) ++ byte '\x7d' :: rest) := by
    rw [Value.chars, List.cons_append, encode_cons_ascii (by decide), Utf8.encode_append,
      List.cons_append, List.append_assoc]
    rfl
  obtain ⟨k, rfl⟩ : ∃ k, fuel = k + 1 := ⟨fuel - 1, by omega⟩
  rw [bytes, value?, skipBlanks_cons (by decide)]
  dsimp only
  rw [if_neg (by decide), if_pos rfl]
  cases members with
  | nil =>
    have begins : Utf8.encode (memberChars []) ++ byte '\x7d' :: rest = byte '\x7d' :: rest := rfl
    rw [begins, skipBlanks_cons (by decide)]
    dsimp only
    rw [if_pos rfl]
  | cons m members =>
    -- The first member begins with a quote.
    have read := members?_memberChars each k [] rest (by omega)
    have begins : ∃ tail, Utf8.encode (memberChars (m :: members)) ++ byte '\x7d' :: rest =
        byte '"' :: tail := by
      obtain ⟨key, v⟩ := m
      cases members with
      | nil =>
        rw [memberChars, Utf8.encode_append, List.append_assoc, encode_quote]
        exact ⟨_, rfl⟩
      | cons n members =>
        rw [memberChars_cons_cons, Utf8.encode_append, Utf8.encode_append, List.append_assoc,
          List.append_assoc, encode_quote]
        exact ⟨_, rfl⟩
    obtain ⟨tail, begins⟩ := begins
    rw [begins] at read ⊢
    rw [skipBlanks_cons (by decide)]
    dsimp only
    rw [if_neg (by decide), read]
    rfl

/-! ## All values -/

/-- **A plain value is read off the front of what follows it.** -/
theorem readsBack (v : Value) (plain : v.Plain) : v.ReadsBack := by
  match v with
  | .null => exact readsBack_null
  | .bool b => exact readsBack_bool b
  | .number (.whole n) => exact readsBack_whole n
  | .number (.other written) => exact plain.elim
  | .text none => cases plain
  | .text (some s) => exact readsBack_text s
  | .array items =>
    have each : ∀ v ∈ items, v.Plain := plainItems_iff.1 plain
    exact readsBack_array each fun v hv => readsBack v (each v hv)
  | .object members =>
    have each : ∀ m ∈ members, m.1.isSome = true ∧ m.2.Plain := plainMembers_iff.1 plain
    exact readsBack_object fun m hm => ⟨(each m hm).1, readsBack m.2 (each m hm).2⟩
termination_by sizeOf v
decreasing_by
  · have smaller := List.sizeOf_lt_of_mem hv
    simp only [Value.array.sizeOf_spec]
    omega
  · have smaller := List.sizeOf_lt_of_mem hm
    have part : sizeOf m = 1 + sizeOf m.1 + sizeOf m.2 := rfl
    simp only [Value.object.sizeOf_spec]
    omega

/-- **A plain value is read back from its compact form.** -/
theorem parse?_render {v : Value} (plain : v.Plain) :
    parse? (Utf8.encode v.render.toList) = some v := by
  have chars : v.render.toList = v.chars := String.toList_ofList
  have size := Utf8.length_le_encode v.chars
  have read := readsBack v plain (2 * (Utf8.encode v.chars).length + 2) [] (by omega) ends_nil
  rw [List.append_nil] at read
  unfold parse?
  rw [chars, read]
  rfl

end CoinLedger.Json
