import CoinLedger.TraceId

/-!
# The spellings of a trace id

A trace id may be spelled in four ways, in letters of either case.  All of them are told by what is
left when the letters are made lower-case (`TraceId.Spells`), and the reader accepts these spellings
and nothing else.  The way in which an id is written is one of them.

## Main definitions

* `TraceId.Spells` — which texts say which id.

## Main results

* `TraceId.ofChars?_eq_some_iff` — the reader accepts exactly the spellings.
-/

namespace CoinLedger.TraceId

open Text

/-- The thirty-two digits of an id, without hyphens. -/
def plainChars (t : TraceId) : List Char := t.digits.map Hex.digit

/-- The name of the number space, which may stand in front of an id. -/
def scheme : List Char := "urn:uuid:".toList

/-- Whether a text says an id: in digits, with hyphens, in braces, or behind the name of the number
space, in letters of either case. -/
def Spells (t : TraceId) (s : List Char) : Prop :=
  s.map Char.toLower = t.plainChars ∨
  s.map Char.toLower = t.chars ∨
  s.map Char.toLower = '\x7b' :: t.chars ++ ['\x7d'] ∨
  s.map Char.toLower = scheme ++ t.chars

theorem length_plainChars (t : TraceId) : t.plainChars.length = 32 := by
  rw [plainChars, List.length_map, t.length_digits]

theorem length_chars (t : TraceId) : t.chars.length = 36 := length_hyphenate t.length_plainChars

/-! ## Characters -/

theorem toLower_of_not_ascii {c : Char} (h : 0x80 ≤ c.toNat) : c.toLower = c := by
  have high : ¬(c.val ≥ 'A'.val ∧ c.val ≤ 'Z'.val) := by
    rintro ⟨-, le⟩
    have code : c.toNat ≤ 'Z'.toNat := UInt32.le_iff_toNat_le.1 le
    have z : 'Z'.toNat = 90 := rfl
    omega
  unfold Char.toLower
  rw [dif_neg high]

/-- What holds of the ASCII characters one by one holds of each of them. -/
theorem ascii_cases {P : Char → Prop} (h : ∀ n < 128, P (Char.ofNat n)) {c : Char}
    (hc : c.toNat < 0x80) : P c := by
  have own := h c.toNat hc
  rwa [Char.ofNat_toNat] at own

/-- Only letters are changed when letters are made lower-case, and letters they stay. -/
theorem eq_of_toLower_eq {c d : Char} (hd : ¬('a' ≤ d ∧ d ≤ 'z')) (h : c.toLower = d) : c = d := by
  by_cases ascii : c.toNat < 0x80
  · have every : ∀ n < 128, (Char.ofNat n).toLower = Char.ofNat n ∨
        'a' ≤ (Char.ofNat n).toLower ∧ (Char.ofNat n).toLower ≤ 'z' := by
      decide +kernel
    rcases ascii_cases (P := fun c => c.toLower = c ∨ 'a' ≤ c.toLower ∧ c.toLower ≤ 'z') every
      ascii with same | letter
    · rw [← same, h]
    · rw [h] at letter
      exact absurd letter hd
  · rw [toLower_of_not_ascii (by omega)] at h
    exact h

/-- A character is a hex digit if it is one once it is lower-case. -/
theorem valueOf?_eq_some_iff {c : Char} {d : Fin 16} :
    Hex.valueOf? c = some d ↔ c.toLower = Hex.digit d := by
  by_cases ascii : c.toNat < 0x80
  · have every : ∀ n < 128, ∀ d, Hex.valueOf? (Char.ofNat n) = some d ↔
        (Char.ofNat n).toLower = Hex.digit d := by
      decide +kernel
    exact ascii_cases (P := fun c => ∀ d, Hex.valueOf? c = some d ↔ c.toLower = Hex.digit d) every
      ascii d
  · have unread : Hex.valueOf? c = none := by
      unfold Hex.valueOf?
      dsimp only
      rw [if_neg (by omega), if_neg (by omega), if_neg (by omega)]
    have low : ∀ d, (Hex.digit d).toNat < 0x80 := by decide
    rw [unread, toLower_of_not_ascii (by omega)]
    constructor
    · intro h
      cases h
    · rintro rfl
      exact absurd (low d) ascii

/-! ## Digits with and without hyphens -/

theorem mapM_valueOf?_eq_some_iff {s : List Char} {ds : List (Fin 16)} :
    s.mapM Hex.valueOf? = some ds ↔ s.map Char.toLower = ds.map Hex.digit := by
  induction s generalizing ds with
  | nil =>
    cases ds with
    | nil => simp
    | cons d ds => simp
  | cons c rest ih =>
    rw [List.mapM_cons]
    cases ds with
    | nil =>
      cases Hex.valueOf? c with
      | none => simp
      | some d => cases rest.mapM Hex.valueOf? <;> simp
    | cons d ds =>
      rw [List.map_cons, List.map_cons, List.cons.injEq, ← valueOf?_eq_some_iff, ← ih]
      cases Hex.valueOf? c with
      | none => simp
      | some d' => cases rest.mapM Hex.valueOf? <;> simp

theorem ofPlain?_eq_some_iff {s : List Char} {t : TraceId} :
    ofPlain? s = some t ↔ s.map Char.toLower = t.plainChars := by
  rw [plainChars, ← mapM_valueOf?_eq_some_iff, ofPlain?, Option.bind_eq_some_iff]
  constructor
  · rintro ⟨ds, read, fits⟩
    unfold ofDigits? at fits
    split at fits
    · cases fits
      exact read
    · cases fits
  · intro read
    refine ⟨t.digits, read, ?_⟩
    rw [ofDigits?, dif_pos t.length_digits]

theorem map_hyphenate {f : Char → Char} (h : f '-' = '-') (ds : List Char) :
    (hyphenate ds).map f = hyphenate (ds.map f) := by
  simp only [hyphenate, List.map_append, List.map_cons, List.map_take, List.map_drop, h]

theorem hyphenate_append {a b c d : List Char} (ha : a.length = 8) (hb : b.length = 4)
    (hc : c.length = 4) (hd : d.length = 4) (e : List Char) :
    hyphenate (a ++ (b ++ (c ++ (d ++ e)))) =
      a ++ '-' :: b ++ '-' :: c ++ '-' :: d ++ '-' :: e := by
  have eight : (a ++ (b ++ (c ++ (d ++ e)))).drop 8 = b ++ (c ++ (d ++ e)) := List.drop_left' ha
  have twelve : (a ++ (b ++ (c ++ (d ++ e)))).drop 12 = c ++ (d ++ e) := by
    rw [← List.append_assoc]
    exact List.drop_left' (by rw [List.length_append]; omega)
  have sixteen : (a ++ (b ++ (c ++ (d ++ e)))).drop 16 = d ++ e := by
    rw [← List.append_assoc, ← List.append_assoc]
    exact List.drop_left' (by rw [List.length_append, List.length_append]; omega)
  have twenty : (a ++ (b ++ (c ++ (d ++ e)))).drop 20 = e := by
    rw [← List.append_assoc, ← List.append_assoc, ← List.append_assoc]
    refine List.drop_left' ?_
    rw [List.length_append, List.length_append, List.length_append]
    omega
  rw [hyphenate, eight, twelve, sixteen, twenty, List.take_left' ha, List.take_left' hb,
    List.take_left' hc, List.take_left' hd]

/-- A text of digits and hyphens is the hyphenated form of its digits. -/
theorem exists_hyphenate {s ds : List Char} (length : ds.length = 32)
    (h : s.map Char.toLower = hyphenate ds) :
    ∃ plain, s = hyphenate plain ∧ plain.map Char.toLower = ds := by
  have hyphen : ∀ {c : Char}, c.toLower = '-' → c = '-' := eq_of_toLower_eq (by decide)
  unfold hyphenate at h
  obtain ⟨abcd, de, rfl, habcd, hde⟩ := List.map_eq_append_iff.1 h
  obtain ⟨h₄, e, rfl, hh₄, he⟩ := List.map_eq_cons_iff.1 hde
  obtain ⟨abc, cd, rfl, habc, hcd⟩ := List.map_eq_append_iff.1 habcd
  obtain ⟨h₃, d, rfl, hh₃, hd⟩ := List.map_eq_cons_iff.1 hcd
  obtain ⟨ab, bc, rfl, hab, hbc⟩ := List.map_eq_append_iff.1 habc
  obtain ⟨h₂, c, rfl, hh₂, hc⟩ := List.map_eq_cons_iff.1 hbc
  obtain ⟨a, b', rfl, ha, hb'⟩ := List.map_eq_append_iff.1 hab
  obtain ⟨h₁, b, rfl, hh₁, hb⟩ := List.map_eq_cons_iff.1 hb'
  have sizes : a.length = 8 ∧ b.length = 4 ∧ c.length = 4 ∧ d.length = 4 := by
    have la := congrArg List.length ha
    have lb := congrArg List.length hb
    have lc := congrArg List.length hc
    have ld := congrArg List.length hd
    simp only [List.length_map, List.length_take, List.length_drop] at la lb lc ld
    omega
  obtain ⟨la, lb, lc, ld⟩ := sizes
  refine ⟨a ++ (b ++ (c ++ (d ++ e))), ?_, ?_⟩
  · rw [hyphenate_append la lb lc ld, hyphen hh₁, hyphen hh₂, hyphen hh₃, hyphen hh₄]
  · have join : ∀ n k, (ds.drop n).take k ++ ds.drop (n + k) = ds.drop n := by
      intro n k
      rw [← List.drop_drop]
      exact List.take_append_drop k _
    simp only [List.map_append, ha, hb, hc, hd, he]
    rw [join 16 4, join 12 4, join 8 4]
    exact List.take_append_drop 8 ds

theorem ofHyphenated?_eq_some_iff {s : List Char} {t : TraceId} :
    ofHyphenated? s = some t ↔ s.map Char.toLower = t.chars := by
  constructor
  · intro h
    unfold ofHyphenated? at h
    dsimp only at h
    split at h
    · next shape =>
      rw [shape, map_hyphenate rfl, ofPlain?_eq_some_iff.1 h]
      rfl
    · cases h
  · intro h
    obtain ⟨plain, rfl, digits⟩ := exists_hyphenate t.length_plainChars h
    have length : plain.length = 32 := by
      rw [← List.length_map Char.toLower, digits, t.length_plainChars]
    unfold ofHyphenated?
    dsimp only
    rw [unhyphenate_hyphenate length, if_pos rfl]
    exact ofPlain?_eq_some_iff.2 digits

/-! ## Braces and the name of the number space -/

theorem inBraces?_eq_some_iff {s inner : List Char} :
    inBraces? s = some inner ↔ s = '\x7b' :: inner ++ ['\x7d'] := by
  constructor
  · intro h
    unfold inBraces? at h
    split at h
    · next rest =>
      split at h
      · next closed =>
        obtain rfl := Option.some.inj h
        obtain ⟨pre, rfl⟩ := List.getLast?_eq_some_iff.1 closed
        rw [List.dropLast_concat]
        rfl
      · cases h
    · cases h
  · rintro rfl
    show (if (inner ++ ['\x7d']).getLast? = some '\x7d' then some (inner ++ ['\x7d']).dropLast
      else none) = some inner
    rw [if_pos List.getLast?_concat, List.dropLast_concat]

theorem afterScheme?_eq_some_iff {s inner : List Char} :
    afterScheme? s = some inner ↔ (s.take 9).map Char.toLower = scheme ∧ s.drop 9 = inner := by
  show (if (s.take 9).map Char.toLower = scheme then some (s.drop 9) else none) = some inner ↔ _
  by_cases named : (s.take 9).map Char.toLower = scheme
  · rw [if_pos named, Option.some.injEq]
    exact ⟨fun h => ⟨named, h⟩, fun h => h.2⟩
  · rw [if_neg named]
    constructor
    · intro h
      cases h
    · intro h
      exact absurd h.1 named

/-! ## All spellings -/

theorem spells_of_ofChars? {s : List Char} {t : TraceId} (h : ofChars? s = some t) :
    t.Spells s := by
  unfold ofChars? at h
  split at h
  · exact .inl (ofPlain?_eq_some_iff.1 h)
  · exact .inr (.inl (ofHyphenated?_eq_some_iff.1 h))
  · obtain ⟨inner, braced, read⟩ := Option.bind_eq_some_iff.1 h
    obtain rfl := inBraces?_eq_some_iff.1 braced
    refine .inr (.inr (.inl ?_))
    rw [List.map_append, List.map_cons, ofHyphenated?_eq_some_iff.1 read]
    rfl
  · obtain ⟨inner, named, read⟩ := Option.bind_eq_some_iff.1 h
    obtain ⟨front, rfl⟩ := afterScheme?_eq_some_iff.1 named
    refine .inr (.inr (.inr ?_))
    rw [← front, ← ofHyphenated?_eq_some_iff.1 read, ← List.map_append, List.take_append_drop]
  · cases h

/-- The length of a text tells which spelling it may be. -/
theorem ofChars?_of_spells {s : List Char} {t : TraceId} (h : t.Spells s) :
    ofChars? s = some t := by
  have lengths : (s.map Char.toLower).length = s.length := List.length_map _
  have plain := t.length_plainChars
  have chars := t.length_chars
  rcases h with h | h | h | h
  · have length : s.length = 32 := by rw [← lengths, h, plain]
    unfold ofChars?
    rw [length]
    exact ofPlain?_eq_some_iff.2 h
  · have length : s.length = 36 := by rw [← lengths, h, chars]
    unfold ofChars?
    rw [length]
    exact ofHyphenated?_eq_some_iff.2 h
  · have length : s.length = 38 := by
      rw [← lengths, h, List.length_append, List.length_cons, chars]
      rfl
    obtain ⟨front, back, rfl, hfront, hback⟩ := List.map_eq_append_iff.1 h
    obtain ⟨opening, inner, rfl, hopening, hinner⟩ := List.map_eq_cons_iff.1 hfront
    obtain ⟨closing, rest, rfl, hclosing, hrest⟩ := List.map_eq_cons_iff.1 hback
    obtain rfl := List.map_eq_nil_iff.1 hrest
    obtain rfl := eq_of_toLower_eq (by decide) hopening
    obtain rfl := eq_of_toLower_eq (by decide) hclosing
    have braced := inBraces?_eq_some_iff.2 (rfl : '\x7b' :: inner ++ ['\x7d'] = _)
    unfold ofChars?
    rw [length, braced]
    exact ofHyphenated?_eq_some_iff.2 hinner
  · have length : s.length = 45 := by
      rw [← lengths, h, List.length_append, chars]
      rfl
    obtain ⟨front, inner, rfl, hfront, hinner⟩ := List.map_eq_append_iff.1 h
    have nine : front.length = 9 := by
      rw [← List.length_map Char.toLower, hfront]
      rfl
    have named : afterScheme? (front ++ inner) = some inner := by
      refine afterScheme?_eq_some_iff.2 ⟨?_, List.drop_left' nine⟩
      rw [List.take_left' nine, hfront]
    unfold ofChars?
    rw [length, named]
    exact ofHyphenated?_eq_some_iff.2 hinner

/-- **The reader accepts exactly the spellings of an id.** -/
theorem ofChars?_eq_some_iff {s : List Char} {t : TraceId} : ofChars? s = some t ↔ t.Spells s :=
  ⟨spells_of_ofChars?, ofChars?_of_spells⟩

/-! ## The written form -/

/-- The written form is in lower case. -/
theorem map_toLower_chars (t : TraceId) : t.chars.map Char.toLower = t.chars := by
  have lower : ∀ d, (Hex.digit d).toLower = Hex.digit d := by decide
  have digits : (t.digits.map Hex.digit).map Char.toLower = t.digits.map Hex.digit := by
    rw [List.map_map]
    exact List.map_congr_left fun d _ => lower d
  rw [chars, map_hyphenate rfl, digits]

theorem spells_chars (t : TraceId) : t.Spells t.chars := .inr (.inl t.map_toLower_chars)

theorem of_mem_hyphenate {c : Char} {ds : List Char} (h : c ∈ hyphenate ds) : c = '-' ∨ c ∈ ds := by
  have front : ∀ {n k}, c ∈ (ds.drop n).take k → c ∈ ds := fun hc =>
    List.mem_of_mem_drop (List.mem_of_mem_take hc)
  simp only [hyphenate, List.mem_append, List.mem_cons] at h
  rcases h with (((h | h | h) | h | h) | h | h) | h | h
  · exact .inr (List.mem_of_mem_take h)
  · exact .inl h
  · exact .inr (front h)
  · exact .inl h
  · exact .inr (front h)
  · exact .inl h
  · exact .inr (front h)
  · exact .inl h
  · exact .inr (List.mem_of_mem_drop h)

/-- The written form consists of visible ASCII characters. -/
theorem visible_of_mem_chars {t : TraceId} {c : Char} (h : c ∈ t.chars) :
    0x20 ≤ c.toNat ∧ c.toNat < 0x7F := by
  have digits : ∀ d, 0x20 ≤ (Hex.digit d).toNat ∧ (Hex.digit d).toNat < 0x7F := by decide
  rcases of_mem_hyphenate h with rfl | hc
  · decide
  · obtain ⟨d, -, rfl⟩ := List.mem_map.1 hc
    exact digits d

end CoinLedger.TraceId
