import CoinLedger.Text.Utf8

/-!
# Text and its bytes

A character is written as one to four bytes, which are computed from its code (`octets`).  From
this form it is read off that the bytes of a text are read back as that text, and that texts stand
in the order of their bytes: the first byte tells how many there are and holds the highest bits of
the code, so of two characters the one with the lower code has the lower byte where they first
differ.

## Main results

* `decode?_encode` — the bytes of a text are read back.
* `encode_lt_encode` — encoding keeps the order of texts.
-/

namespace CoinLedger.Text.Utf8

/-! ## The bytes of a character -/

/-- The bytes of the character with a given code, as numbers. -/
def octets (n : Nat) : List Nat :=
  if n < 0x80 then [n]
  else if n < 0x800 then [0xC0 + n / 0x40, 0x80 + n % 0x40]
  else if n < 0x10000 then [0xE0 + n / 0x1000, 0x80 + n / 0x40 % 0x40, 0x80 + n % 0x40]
  else
    [0xF0 + n / 0x40000, 0x80 + n / 0x1000 % 0x40, 0x80 + n / 0x40 % 0x40, 0x80 + n % 0x40]

theorem toNat_ofNat {n : Nat} (h : n < 256) : (UInt8.ofNat n).toNat = n := by
  rw [UInt8.toNat_ofNat']
  exact Nat.mod_eq_of_lt h

/-- Codes of characters leave out the surrogates. -/
theorem code_valid (c : Char) : c.toNat < 0xD800 ∨ 0xDFFF < c.toNat ∧ c.toNat < 0x110000 :=
  c.valid

theorem utf8EncodeChar_eq (c : Char) :
    String.utf8EncodeChar c = (octets c.toNat).map UInt8.ofNat := by
  have valid := code_valid c
  rw [String.utf8EncodeChar, Char.toNat_val]
  unfold octets
  generalize c.toNat = n at valid
  by_cases one : n < 0x80
  · rw [if_pos (by omega), if_pos one]
    rfl
  · rw [if_neg (by omega), if_neg one]
    by_cases two : n < 0x800
    · have lead : n / 64 % 32 + 192 = 0xC0 + n / 0x40 := by omega
      have last : n % 64 + 128 = 0x80 + n % 0x40 := by omega
      rw [if_pos (by omega), if_pos two, lead, last]
      rfl
    · rw [if_neg (by omega), if_neg two]
      have second : n / 64 % 64 + 128 = 0x80 + n / 0x40 % 0x40 := by omega
      have last : n % 64 + 128 = 0x80 + n % 0x40 := by omega
      by_cases three : n < 0x10000
      · have lead : n / 4096 % 16 + 224 = 0xE0 + n / 0x1000 := by omega
        rw [if_pos (by omega), if_pos three, lead, second, last]
        rfl
      · have lead : n / 262144 % 8 + 240 = 0xF0 + n / 0x40000 := by omega
        have first : n / 4096 % 64 + 128 = 0x80 + n / 0x1000 % 0x40 := by omega
        rw [if_neg (by omega), if_neg three, lead, first, second, last]
        rfl

theorem utf8EncodeChar_ascii {c : Char} (h : c.toNat < 0x80) :
    String.utf8EncodeChar c = [UInt8.ofNat c.toNat] := by
  rw [utf8EncodeChar_eq, octets, if_pos h]
  rfl

/-- A character that is not ASCII has no ASCII bytes. -/
theorem le_of_mem_utf8EncodeChar {c : Char} (h : 0x80 ≤ c.toNat) {b : UInt8}
    (hb : b ∈ String.utf8EncodeChar c) : 0x80 ≤ b.toNat := by
  have valid := code_valid c
  rw [utf8EncodeChar_eq] at hb
  obtain ⟨x, hx, rfl⟩ := List.mem_map.1 hb
  have bounds : 0x80 ≤ x ∧ x < 256 := by
    unfold octets at hx
    rw [if_neg (by omega)] at hx
    split at hx
    · simp only [List.mem_cons, List.not_mem_nil, or_false] at hx
      omega
    · split at hx
      · simp only [List.mem_cons, List.not_mem_nil, or_false] at hx
        omega
      · simp only [List.mem_cons, List.not_mem_nil, or_false] at hx
        omega
  rw [toNat_ofNat bounds.2]
  exact bounds.1

/-! ## Reading back -/

/-- A continuation byte in its range adds its six bits. -/
theorem continuation_cons {bits low high x : Nat} {more : List (Nat × Nat)} {rest : List UInt8}
    (hx : x < 0x40) (hlow : low ≤ 0x80 + x) (hhigh : 0x80 + x ≤ high) :
    continuation bits ((low, high) :: more) (UInt8.ofNat (0x80 + x) :: rest) =
      continuation (bits * 64 + x) more rest := by
  have value : (UInt8.ofNat (0x80 + x)).toNat = 0x80 + x := toNat_ofNat (by omega)
  have bits' : (0x80 + x) % 64 = x := by omega
  rw [continuation, value, if_pos ⟨hlow, hhigh⟩, bits']

/-- The bytes of a character are one piece. -/
theorem pieces_utf8EncodeChar (c : Char) (rest : List UInt8) :
    pieces (String.utf8EncodeChar c ++ rest) = some c :: pieces rest := by
  have valid := code_valid c
  have back : Char.ofNat c.toNat = c := Char.ofNat_toNat c
  rw [utf8EncodeChar_eq, octets]
  generalize c.toNat = n at valid back
  by_cases one : n < 0x80
  · have read : piece (UInt8.ofNat n) rest = (some c, rest) := by
      rw [piece, toNat_ofNat (by omega)]
      rw [if_pos one, back]
    rw [if_pos one]
    show pieces (UInt8.ofNat n :: rest) = _
    rw [pieces_cons, read]
  · rw [if_neg one]
    by_cases two : n < 0x800
    · have code : (0xC0 + n / 0x40) % 32 * 64 + n % 0x40 = n := by omega
      have read : piece (UInt8.ofNat (0xC0 + n / 0x40)) (UInt8.ofNat (0x80 + n % 0x40) :: rest) =
          (some c, rest) := by
        rw [piece, toNat_ofNat (by omega)]
        rw [if_neg (by omega), if_neg (by omega), if_pos (by omega),
          continuation_cons (by omega) (by omega) (by omega), continuation, code, back]
      rw [if_pos two]
      show pieces (UInt8.ofNat _ :: UInt8.ofNat _ :: rest) = _
      rw [pieces_cons, read]
    · rw [if_neg two]
      by_cases three : n < 0x10000
      · have code : ((0xE0 + n / 0x1000) % 16 * 64 + n / 0x40 % 0x40) * 64 + n % 0x40 = n := by
          omega
        have read : piece (UInt8.ofNat (0xE0 + n / 0x1000))
            (UInt8.ofNat (0x80 + n / 0x40 % 0x40) :: UInt8.ofNat (0x80 + n % 0x40) :: rest) =
            (some c, rest) := by
          rw [piece, toNat_ofNat (by omega)]
          rw [if_neg (by omega), if_neg (by omega), if_neg (by omega), if_pos (by omega),
            continuation_cons (by omega) (by split <;> omega) (by split <;> omega),
            continuation_cons (by omega) (by omega) (by omega), continuation, code, back]
        rw [if_pos three]
        show pieces (UInt8.ofNat _ :: UInt8.ofNat _ :: UInt8.ofNat _ :: rest) = _
        rw [pieces_cons, read]
      · have code : (((0xF0 + n / 0x40000) % 8 * 64 + n / 0x1000 % 0x40) * 64 +
            n / 0x40 % 0x40) * 64 + n % 0x40 = n := by
          omega
        have read : piece (UInt8.ofNat (0xF0 + n / 0x40000))
            (UInt8.ofNat (0x80 + n / 0x1000 % 0x40) :: UInt8.ofNat (0x80 + n / 0x40 % 0x40) ::
              UInt8.ofNat (0x80 + n % 0x40) :: rest) = (some c, rest) := by
          rw [piece, toNat_ofNat (by omega)]
          rw [if_neg (by omega), if_neg (by omega), if_neg (by omega), if_neg (by omega),
            if_pos (by omega),
            continuation_cons (by omega) (by split <;> omega) (by split <;> omega),
            continuation_cons (by omega) (by omega) (by omega),
            continuation_cons (by omega) (by omega) (by omega), continuation, code, back]
        rw [if_neg three]
        show pieces (UInt8.ofNat _ :: UInt8.ofNat _ :: UInt8.ofNat _ :: UInt8.ofNat _ :: rest) = _
        rw [pieces_cons, read]

theorem encode_cons (c : Char) (s : List Char) :
    encode (c :: s) = String.utf8EncodeChar c ++ encode s := rfl

theorem encode_append (s t : List Char) : encode (s ++ t) = encode s ++ encode t :=
  List.flatMap_append

/-- A text has at most as many characters as bytes. -/
theorem length_le_encode (s : List Char) : s.length ≤ (encode s).length := by
  induction s with
  | nil => exact Nat.le_refl _
  | cons c rest ih =>
    have size : 0 < (String.utf8EncodeChar c).length := by
      rw [String.length_utf8EncodeChar]
      exact c.utf8Size_pos
    rw [encode_cons, List.length_append, List.length_cons]
    omega

/-- An ASCII text is written in the codes of its characters. -/
theorem encode_ascii {s : List Char} (h : ∀ c ∈ s, c.toNat < 0x80) :
    encode s = s.map fun c => UInt8.ofNat c.toNat := by
  induction s with
  | nil => rfl
  | cons c rest ih =>
    rw [encode_cons, utf8EncodeChar_ascii (h c (List.mem_cons_self ..)),
      ih fun d hd => h d (List.mem_cons_of_mem _ hd)]
    rfl

/-- The codes of an ASCII text are read off its bytes. -/
theorem map_char_map_byte {s : List Char} (h : ∀ c ∈ s, c.toNat < 0x80) :
    (s.map fun c => UInt8.ofNat c.toNat).map (fun b => Char.ofNat b.toNat) = s := by
  rw [List.map_map]
  refine (List.map_congr_left fun c hc => ?_).trans (List.map_id s)
  have ascii : c.toNat < 0x80 := h c hc
  show Char.ofNat (UInt8.ofNat c.toNat).toNat = c
  rw [toNat_ofNat (by omega), Char.ofNat_toNat]

theorem pieces_encode (s : List Char) : pieces (encode s) = s.map some := by
  induction s with
  | nil => exact pieces_nil
  | cons c rest ih => rw [encode_cons, pieces_utf8EncodeChar, ih, List.map_cons]

/-- **The bytes of a text are read back as the text.** -/
@[simp] theorem decode?_encode (s : List Char) : decode? (encode s) = some s := by
  unfold decode?
  rw [pieces_encode, if_pos (by simp), List.filterMap_map]
  exact congrArg some (List.filterMap_some ..)

/-! ## Order -/

/-- Bytes compare as the numbers they are, and then as what follows them. -/
theorem cons_lt_cons {x y : Nat} {s t : List UInt8} (hx : x < 256) (hy : y < 256)
    (h : x < y ∨ x = y ∧ s < t) : UInt8.ofNat x :: s < UInt8.ofNat y :: t := by
  rw [List.cons_lt_cons_iff]
  rcases h with lower | ⟨rfl, later⟩
  · left
    rw [UInt8.lt_iff_toNat_lt, toNat_ofNat hx, toNat_ofNat hy]
    exact lower
  · exact .inr ⟨rfl, later⟩

/-- Of two characters the lower one has the lower bytes, whatever follows them. -/
theorem utf8EncodeChar_append_lt {c d : Char} (h : c < d) (s t : List UInt8) :
    String.utf8EncodeChar c ++ s < String.utf8EncodeChar d ++ t := by
  have lt : c.toNat < d.toNat := h
  have below : d.toNat < 0x110000 := by
    have valid := code_valid d
    omega
  rw [utf8EncodeChar_eq, utf8EncodeChar_eq]
  generalize c.toNat = m at lt
  generalize d.toNat = n at lt below
  unfold octets
  -- Characters of different lengths differ in the first byte, others where their codes do.
  by_cases one : n < 0x80
  · rw [if_pos one, if_pos (by omega : m < 0x80)]
    exact cons_lt_cons (by omega) (by omega) (.inl lt)
  · rw [if_neg one]
    by_cases two : n < 0x800
    · rw [if_pos two]
      by_cases hm : m < 0x80
      · rw [if_pos hm]
        exact cons_lt_cons (by omega) (by omega) (.inl (by omega))
      · rw [if_neg hm, if_pos (by omega : m < 0x800)]
        refine cons_lt_cons (by omega) (by omega) ?_
        by_cases lead : m / 0x40 < n / 0x40
        · exact .inl (by omega)
        · exact .inr ⟨by omega, cons_lt_cons (by omega) (by omega) (.inl (by omega))⟩
    · rw [if_neg two]
      by_cases three : n < 0x10000
      · rw [if_pos three]
        by_cases hm : m < 0x800
        · split
          · exact cons_lt_cons (by omega) (by omega) (.inl (by omega))
          · exact cons_lt_cons (by omega) (by omega) (.inl (by omega))
        · rw [if_neg (by omega : ¬m < 0x80), if_neg hm, if_pos (by omega : m < 0x10000)]
          refine cons_lt_cons (by omega) (by omega) ?_
          by_cases lead : m / 0x1000 < n / 0x1000
          · exact .inl (by omega)
          · refine .inr ⟨by omega, cons_lt_cons (by omega) (by omega) ?_⟩
            by_cases second : m / 0x40 < n / 0x40
            · exact .inl (by omega)
            · exact .inr ⟨by omega, cons_lt_cons (by omega) (by omega) (.inl (by omega))⟩
      · rw [if_neg three]
        by_cases hm : m < 0x10000
        · split
          · exact cons_lt_cons (by omega) (by omega) (.inl (by omega))
          · split
            · exact cons_lt_cons (by omega) (by omega) (.inl (by omega))
            · exact cons_lt_cons (by omega) (by omega) (.inl (by omega))
        · rw [if_neg (by omega : ¬m < 0x80), if_neg (by omega : ¬m < 0x800), if_neg hm]
          refine cons_lt_cons (by omega) (by omega) ?_
          by_cases lead : m / 0x40000 < n / 0x40000
          · exact .inl (by omega)
          · refine .inr ⟨by omega, cons_lt_cons (by omega) (by omega) ?_⟩
            by_cases second : m / 0x1000 < n / 0x1000
            · exact .inl (by omega)
            · refine .inr ⟨by omega, cons_lt_cons (by omega) (by omega) ?_⟩
              by_cases third : m / 0x40 < n / 0x40
              · exact .inl (by omega)
              · exact .inr ⟨by omega, cons_lt_cons (by omega) (by omega) (.inl (by omega))⟩

/-- **Texts stand in the order of their bytes.** -/
theorem encode_lt_encode {s t : List Char} (h : s < t) : encode s < encode t := by
  induction s generalizing t with
  | nil =>
    cases t with
    | nil => exact absurd h (List.lt_irrefl [])
    | cons d rest =>
      have size : 0 < (String.utf8EncodeChar d).length := by
        rw [String.length_utf8EncodeChar]
        exact d.utf8Size_pos
      rw [encode_cons]
      cases hd : String.utf8EncodeChar d with
      | nil =>
        rw [hd] at size
        exact absurd size (Nat.lt_irrefl 0)
      | cons b bs => exact List.nil_lt_cons ..
  | cons c rest ih =>
    cases t with
    | nil => exact absurd h (List.not_lt_nil _)
    | cons d rest' =>
      rw [encode_cons, encode_cons]
      rcases List.cons_lt_cons_iff.1 h with lower | ⟨rfl, later⟩
      · exact utf8EncodeChar_append_lt lower _ _
      · exact List.append_left_lt (ih later)

end CoinLedger.Text.Utf8
