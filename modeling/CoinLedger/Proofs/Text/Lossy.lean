import CoinLedger.Proofs.Text.Utf8
import Mathlib.Data.List.Forall2

/-!
# Text in bytes that are none

Bytes that are not well-formed are read character by character as well.  Where the bytes of no
character stand, a run of bytes is passed over and U+FFFD takes its place: as many bytes as some
character could have begun with, and one byte if none begins like this.  There is one way to read
bytes (`readsAs_iff`).

What may follow a first byte is told by the ranges of the further bytes (`lead?`).  The bytes of a
character are a first byte with one byte from each range, and such bytes are those of a character,
so an ill-formed run ends at the first byte that is out of its range.

## Main definitions

* `IllFormed` — a run of bytes that is passed over.
* `ReadsAs` — bytes, and the text that they are read as.

## Main results

* `encodes_of_inRange`, `inRange_of_encodes` — the bytes of characters by their ranges.
* `pieces_illFormed` — an ill-formed run is one piece.
* `readsAs_iff` — the text of any bytes.
-/

namespace CoinLedger.Text.Utf8

/-- Some bytes, in front of others, that are passed over as a whole. -/
structure IllFormed (run rest : List UInt8) : Prop where
  some : run ≠ []
  /-- No character stands here. -/
  none : ∀ c, ¬String.utf8EncodeChar c <+: run ++ rest
  /-- A character may begin like this, unless it is a single byte. -/
  begins : run.length = 1 ∨ ∃ c, run <+: String.utf8EncodeChar c
  /-- No character begins with more of the bytes. -/
  longest : ∀ more, more ≠ [] → more <+: rest → ∀ c, ¬run ++ more <+: String.utf8EncodeChar c

/-- Bytes, and the text that they are read as. -/
inductive ReadsAs : List UInt8 → List Char → Prop
  | nil : ReadsAs [] []
  | character {rest : List UInt8} {t : List Char} (c : Char) :
      ReadsAs rest t → ReadsAs (String.utf8EncodeChar c ++ rest) (c :: t)
  | illFormed {run rest : List UInt8} {t : List Char} :
      IllFormed run rest → ReadsAs rest t → ReadsAs (run ++ rest) (replacement :: t)

/-! ## Ranges -/

/-- What a first byte stands for: its bits, and the ranges of the bytes that may follow it. -/
def lead? (n : Nat) : Option (Nat × List (Nat × Nat)) :=
  if n < 0x80 then some (n, [])
  else if n < 0xC2 then none
  else if n < 0xE0 then some (n % 32, [(0x80, 0xBF)])
  else if n < 0xF0 then
    some (n % 16,
      [(if n = 0xE0 then 0xA0 else 0x80, if n = 0xED then 0x9F else 0xBF), (0x80, 0xBF)])
  else if n < 0xF5 then
    some (n % 8,
      [(if n = 0xF0 then 0x90 else 0x80, if n = 0xF4 then 0x8F else 0xBF), (0x80, 0xBF),
        (0x80, 0xBF)])
  else none

def InRange (range : Nat × Nat) (b : UInt8) : Prop := range.1 ≤ b.toNat ∧ b.toNat ≤ range.2

/-- The code that the bits of a first byte and further bytes come to. -/
def codeOf (bits : Nat) (tail : List UInt8) : Nat :=
  tail.foldl (fun code b => code * 64 + b.toNat % 64) bits

variable {b : UInt8} {bits : Nat} {range : Nat × Nat} {ranges first later : List (Nat × Nat)}
  {run part rest tail : List UInt8} {c : Char}

theorem piece_eq (b : UInt8) (rest : List UInt8) :
    piece b rest = match lead? b.toNat with
      | some (bits, ranges) => continuation bits ranges rest
      | none => (none, rest) := by
  unfold piece lead?
  dsimp only
  split_ifs <;> rfl

theorem toNat_ofNat_of_valid {n : Nat} (valid : n < 0xD800 ∨ 0xDFFF < n ∧ n < 0x110000) :
    (Char.ofNat n).toNat = n := by
  have valid' : n.isValidChar := valid
  rw [Char.ofNat, dif_pos valid']
  rfl

/-- The bytes of a character from numbers that are its octets. -/
theorem utf8EncodeChar_ofNat {n : Nat} {bytes : List UInt8}
    (valid : n < 0xD800 ∨ 0xDFFF < n ∧ n < 0x110000)
    (same : octets n = bytes.map UInt8.toNat) :
    String.utf8EncodeChar (Char.ofNat n) = bytes := by
  rw [utf8EncodeChar_eq, toNat_ofNat_of_valid valid, same, List.map_map]
  exact (List.map_congr_left fun b _ => UInt8.ofNat_toNat).trans (List.map_id _)

/-- The first bytes of characters, by the number of bytes. -/
theorem lead?_cases {n : Nat} (lead : lead? n = some (bits, ranges)) :
    (n < 0x80 ∧ bits = n ∧ ranges = []) ∨
    (0xC2 ≤ n ∧ n < 0xE0 ∧ bits = n % 32 ∧ ranges = [(0x80, 0xBF)]) ∨
    (∃ low high, 0xE0 ≤ n ∧ n < 0xF0 ∧ bits = n % 16 ∧ ranges = [(low, high), (0x80, 0xBF)] ∧
      0x80 ≤ low ∧ low ≤ high ∧ high ≤ 0xBF ∧ (n = 0xE0 → 0xA0 ≤ low) ∧
        (n = 0xED → high ≤ 0x9F)) ∨
    (∃ low high, 0xF0 ≤ n ∧ n < 0xF5 ∧ bits = n % 8 ∧
      ranges = [(low, high), (0x80, 0xBF), (0x80, 0xBF)] ∧
      0x80 ≤ low ∧ low ≤ high ∧ high ≤ 0xBF ∧ (n = 0xF0 → 0x90 ≤ low) ∧
        (n = 0xF4 → high ≤ 0x8F)) := by
  unfold lead? at lead
  by_cases one : n < 0x80
  · rw [if_pos one] at lead
    obtain ⟨rfl, rfl⟩ := Prod.mk.inj (Option.some.inj lead)
    exact .inl ⟨one, rfl, rfl⟩
  · by_cases two : n < 0xC2
    · rw [if_neg one, if_pos two] at lead
      cases lead
    · by_cases three : n < 0xE0
      · rw [if_neg one, if_neg two, if_pos three] at lead
        obtain ⟨rfl, rfl⟩ := Prod.mk.inj (Option.some.inj lead)
        exact .inr (.inl ⟨by omega, three, rfl, rfl⟩)
      · by_cases four : n < 0xF0
        · rw [if_neg one, if_neg two, if_neg three, if_pos four] at lead
          obtain ⟨rfl, rfl⟩ := Prod.mk.inj (Option.some.inj lead)
          refine .inr (.inr (.inl ⟨_, _, by omega, four, rfl, rfl, ?_⟩))
          split_ifs <;> omega
        · by_cases five : n < 0xF5
          · rw [if_neg one, if_neg two, if_neg three, if_neg four, if_pos five] at lead
            obtain ⟨rfl, rfl⟩ := Prod.mk.inj (Option.some.inj lead)
            refine .inr (.inr (.inr ⟨_, _, by omega, five, rfl, rfl, ?_⟩))
            split_ifs <;> omega
          · rw [if_neg one, if_neg two, if_neg three, if_neg four, if_neg five] at lead
            cases lead

/-- A first byte with one byte from each range encodes a character. -/
theorem encodes_of_inRange (lead : lead? b.toNat = some (bits, ranges))
    (within : List.Forall₂ InRange ranges tail) :
    String.utf8EncodeChar (Char.ofNat (codeOf bits tail)) = b :: tail := by
  rcases lead?_cases lead with ⟨one, rfl, rfl⟩ | ⟨least, most, rfl, rfl⟩ |
    ⟨low, high, least, most, rfl, rfl, bounds⟩ | ⟨low, high, least, most, rfl, rfl, bounds⟩
  · cases within
    have code : codeOf b.toNat [] = b.toNat := rfl
    rw [code]
    refine utf8EncodeChar_ofNat (.inl (by omega)) ?_
    rw [octets, if_pos one]
    rfl
  · rcases within with _ | @⟨_, x, _, _, ⟨hx, hx'⟩, ⟨⟩⟩
    dsimp only at hx hx'
    have code : codeOf (b.toNat % 32) [x] = b.toNat % 32 * 64 + x.toNat % 64 := rfl
    rw [code]
    refine utf8EncodeChar_ofNat (.inl (by omega)) ?_
    rw [octets, if_neg (by omega), if_pos (by omega)]
    simp only [List.map, List.cons.injEq, and_true]
    omega
  · rcases within with _ | @⟨_, x, _, _, ⟨hx, hx'⟩, _ | @⟨_, y, _, _, ⟨hy, hy'⟩, ⟨⟩⟩⟩
    dsimp only at hx hx' hy hy'
    have code : codeOf (b.toNat % 16) [x, y] =
        (b.toNat % 16 * 64 + x.toNat % 64) * 64 + y.toNat % 64 := rfl
    rw [code]
    refine utf8EncodeChar_ofNat (by omega) ?_
    rw [octets, if_neg (by omega), if_neg (by omega), if_pos (by omega)]
    simp only [List.map, List.cons.injEq, and_true]
    omega
  · rcases within with _ | @⟨_, x, _, _, ⟨hx, hx'⟩, _ | @⟨_, y, _, _, ⟨hy, hy'⟩,
      _ | @⟨_, z, _, _, ⟨hz, hz'⟩, ⟨⟩⟩⟩⟩
    dsimp only at hx hx' hy hy' hz hz'
    have code : codeOf (b.toNat % 8) [x, y, z] =
        ((b.toNat % 8 * 64 + x.toNat % 64) * 64 + y.toNat % 64) * 64 + z.toNat % 64 := rfl
    rw [code]
    refine utf8EncodeChar_ofNat (by omega) ?_
    rw [octets, if_neg (by omega), if_neg (by omega), if_neg (by omega)]
    simp only [List.map, List.cons.injEq, and_true]
    omega

/-- The bytes of a character are a first byte with one byte from each range. -/
theorem inRange_of_encodes (c : Char) : ∃ b tail bits ranges, String.utf8EncodeChar c = b :: tail ∧
    lead? b.toNat = some (bits, ranges) ∧ List.Forall₂ InRange ranges tail := by
  have valid := code_valid c
  have within {low high n : Nat} (hlow : low ≤ n) (hhigh : n ≤ high) (small : n < 256) :
      InRange (low, high) (UInt8.ofNat n) := by
    rw [InRange, toNat_ofNat small]
    exact ⟨hlow, hhigh⟩
  rw [utf8EncodeChar_eq, octets]
  generalize c.toNat = n at valid
  by_cases one : n < 0x80
  · rw [if_pos one]
    refine ⟨_, _, n, [], rfl, ?_, .nil⟩
    rw [toNat_ofNat (by omega), lead?, if_pos one]
  · rw [if_neg one]
    by_cases two : n < 0x800
    · rw [if_pos two]
      refine ⟨_, _, (0xC0 + n / 0x40) % 32, [(0x80, 0xBF)], rfl, ?_,
        .cons (within (by omega) (by omega) (by omega)) .nil⟩
      rw [toNat_ofNat (by omega), lead?, if_neg (by omega), if_neg (by omega), if_pos (by omega)]
    · rw [if_neg two]
      by_cases three : n < 0x10000
      · rw [if_pos three]
        refine ⟨_, _, (0xE0 + n / 0x1000) % 16, [(if 0xE0 + n / 0x1000 = 0xE0 then 0xA0 else 0x80,
          if 0xE0 + n / 0x1000 = 0xED then 0x9F else 0xBF), (0x80, 0xBF)], rfl, ?_, ?_⟩
        · rw [toNat_ofNat (by omega), lead?, if_neg (by omega), if_neg (by omega),
            if_neg (by omega), if_pos (by omega)]
        · exact .cons (within (by split <;> omega) (by split <;> omega) (by omega))
            (.cons (within (by omega) (by omega) (by omega)) .nil)
      · rw [if_neg three]
        refine ⟨_, _, (0xF0 + n / 0x40000) % 8, [(if 0xF0 + n / 0x40000 = 0xF0 then 0x90 else 0x80,
          if 0xF0 + n / 0x40000 = 0xF4 then 0x8F else 0xBF), (0x80, 0xBF), (0x80, 0xBF)],
          rfl, ?_, ?_⟩
        · rw [toNat_ofNat (by omega), lead?, if_neg (by omega), if_neg (by omega),
            if_neg (by omega), if_neg (by omega), if_pos (by omega)]
        · exact .cons (within (by split <;> omega) (by split <;> omega) (by omega))
            (.cons (within (by omega) (by omega) (by omega))
              (.cons (within (by omega) (by omega) (by omega)) .nil))

/-- Each range holds a byte. -/
theorem exists_inRange {n : Nat} (lead : lead? n = some (bits, ranges)) :
    ∀ range ∈ ranges, InRange range (UInt8.ofNat range.1) := by
  have within {low high : Nat} (hlow : low ≤ high) (small : low < 256) :
      InRange (low, high) (UInt8.ofNat low) := by
    rw [InRange, toNat_ofNat small]
    exact ⟨Nat.le_refl low, hlow⟩
  have usual : InRange (0x80, 0xBF) (UInt8.ofNat 0x80) := within (by decide) (by decide)
  rcases lead?_cases lead with ⟨-, -, rfl⟩ | ⟨-, -, -, rfl⟩ | ⟨low, high, -, -, -, rfl, bounds⟩ |
    ⟨low, high, -, -, -, rfl, bounds⟩
  · exact fun range among => absurd among List.not_mem_nil
  · simpa using usual
  · have own : InRange (low, high) (UInt8.ofNat low) := within (by omega) (by omega)
    simpa using ⟨own, usual⟩
  · have own : InRange (low, high) (UInt8.ofNat low) := within (by omega) (by omega)
    simpa using ⟨own, usual⟩

/-- The first byte of a character with bytes for the first of its ranges begins a character. -/
theorem exists_encodes_of_part (lead : lead? b.toNat = some (bits, first ++ later))
    (within : List.Forall₂ InRange first part) : ∃ c, b :: part <+: String.utf8EncodeChar c := by
  have rest : List.Forall₂ InRange later (later.map fun range => UInt8.ofNat range.1) := by
    rw [List.forall₂_map_right_iff, List.forall₂_same]
    exact fun range among => exists_inRange lead range (List.mem_append_right _ among)
  have whole := encodes_of_inRange lead (List.rel_append within rest)
  rw [← List.cons_append] at whole
  exact ⟨_, whole ▸ List.prefix_append _ _⟩

/-! ## Pieces -/

/-- Further bytes are taken until the character is complete, or one is out of its range. -/
theorem continuation_cases (bits : Nat) (ranges : List (Nat × Nat)) (s : List UInt8) :
    (∃ tail rest, s = tail ++ rest ∧ List.Forall₂ InRange ranges tail ∧
      continuation bits ranges s = (some (Char.ofNat (codeOf bits tail)), rest)) ∨
    ∃ first range later part rest, ranges = first ++ range :: later ∧ s = part ++ rest ∧
      List.Forall₂ InRange first part ∧ (∀ b ∈ rest.head?, ¬InRange range b) ∧
      continuation bits ranges s = (none, rest) := by
  fun_induction continuation bits ranges s with
  | case1 bits rest => exact .inl ⟨[], rest, rfl, .nil, rfl⟩
  | case2 bits range later =>
    exact .inr ⟨[], range, later, [], [], rfl, rfl, .nil, fun b hb => absurd hb (by simp), rfl⟩
  | case3 bits low high later b rest within ih =>
    rcases ih with ⟨tail, rest', rfl, taken, read⟩ | ⟨first, range, later', part, rest', rfl, rfl,
      taken, stop, read⟩
    · exact .inl ⟨b :: tail, rest', rfl, .cons within taken, read⟩
    · exact .inr ⟨(low, high) :: first, range, later', b :: part, rest', rfl, rfl,
        .cons within taken, stop, read⟩
  | case4 bits low high later b rest out =>
    refine .inr ⟨[], (low, high), later, [], b :: rest, rfl, rfl, .nil, ?_, rfl⟩
    rintro _ ⟨⟩
    exact out

/-- Where the bytes of a character begin with given ones, the next one is in its range. -/
theorem inRange_next {x : UInt8} (lead : lead? b.toNat = some (bits, first ++ range :: later))
    (within : List.Forall₂ InRange first part) (encodes : String.utf8EncodeChar c = b :: tail)
    (next : tail[part.length]? = some x) : InRange range x := by
  obtain ⟨b', tail', bits', ranges', encodes', lead', within'⟩ := inRange_of_encodes c
  obtain ⟨rfl, rfl⟩ := List.cons.inj (encodes.symm.trans encodes')
  obtain ⟨-, rfl⟩ := Prod.mk.inj (Option.some.inj (lead.symm.trans lead'))
  obtain ⟨bound, rfl⟩ := List.getElem?_eq_some_iff.1 next
  have same : part.length = first.length := within.length_eq.symm
  have bound' : part.length < (first ++ range :: later).length := by
    rw [same, List.length_append, List.length_cons]
    omega
  have each := (List.forall₂_iff_get.1 within').2 part.length bound' bound
  simpa [same] using each

/-- A first byte with further bytes that end in front of one out of its range is ill-formed. -/
theorem illFormed_of_stop (lead : lead? b.toNat = some (bits, first ++ range :: later))
    (within : List.Forall₂ InRange first part) (stop : ∀ x ∈ rest.head?, ¬InRange range x) :
    IllFormed (b :: part) rest where
  some := List.cons_ne_nil b part
  none := by
    rintro c ⟨more, same⟩
    obtain ⟨b', tail, bits', ranges', encodes, lead', within'⟩ := inRange_of_encodes c
    rw [encodes, List.cons_append, List.cons_append] at same
    obtain ⟨rfl, behind⟩ := List.cons.inj same
    obtain ⟨-, rfl⟩ := Prod.mk.inj (Option.some.inj (lead.symm.trans lead'))
    have longer : part.length < tail.length := by
      rw [← within'.length_eq, ← within.length_eq, List.length_append, List.length_cons]
      omega
    have next : tail[part.length]? = some tail[part.length] := List.getElem?_eq_getElem longer
    have stands : rest.head? = some tail[part.length] := by
      have at' : (tail ++ more)[part.length]? = some tail[part.length] := by
        rw [List.getElem?_append_left longer, next]
      rw [behind, List.getElem?_append_right (Nat.le_refl _), Nat.sub_self] at at'
      rw [← at', List.head?_eq_getElem?]
    exact stop _ stands (inRange_next lead within encodes next)
  begins := .inr (exists_encodes_of_part lead within)
  longest := by
    rintro more some ⟨behind, rfl⟩ c ⟨rest', same⟩
    obtain ⟨x, more, rfl⟩ := List.exists_cons_of_ne_nil some
    have next : (part ++ (x :: more) ++ rest')[part.length]? = Option.some x := by
      rw [List.append_assoc, List.getElem?_append_right (Nat.le_refl _), Nat.sub_self]
      rfl
    exact stop x rfl (inRange_next lead within same.symm next)

/-- A byte that begins no character is ill-formed. -/
theorem illFormed_of_lead (lead : lead? b.toNat = none) : IllFormed [b] rest where
  some := List.cons_ne_nil b []
  none := by
    rintro c ⟨more, same⟩
    obtain ⟨b', tail, bits', ranges', encodes, lead', -⟩ := inRange_of_encodes c
    rw [encodes] at same
    obtain ⟨rfl, -⟩ := List.cons.inj same
    cases lead.symm.trans lead'
  begins := .inl rfl
  longest := by
    rintro more - - c ⟨rest', same⟩
    obtain ⟨b', tail, bits', ranges', encodes, lead', -⟩ := inRange_of_encodes c
    rw [encodes] at same
    obtain ⟨rfl, -⟩ := List.cons.inj same
    cases lead.symm.trans lead'

/-- The first piece of some bytes is a character or ill-formed. -/
theorem piece_cases (b : UInt8) (s : List UInt8) :
    (∃ c rest, b :: s = String.utf8EncodeChar c ++ rest ∧ piece b s = (some c, rest)) ∨
    ∃ run rest, b :: s = run ++ rest ∧ IllFormed run rest ∧ piece b s = (none, rest) := by
  rw [piece_eq]
  cases lead : lead? b.toNat with
  | none => exact .inr ⟨[b], s, rfl, illFormed_of_lead lead, rfl⟩
  | some read =>
    obtain ⟨bits, ranges⟩ := read
    rcases continuation_cases bits ranges s with ⟨tail, rest, rfl, within, read⟩ |
      ⟨first, range, later, part, rest, rfl, rfl, within, stop, read⟩
    · refine .inl ⟨_, rest, ?_, read⟩
      rw [encodes_of_inRange lead within, List.cons_append]
    · exact .inr ⟨b :: part, rest, rfl, illFormed_of_stop lead within stop, read⟩

/-- Of some bytes only one beginning is ill-formed. -/
theorem IllFormed.length_le {run' rest' : List UInt8} (ill : IllFormed run rest)
    (ill' : IllFormed run' rest') (same : run ++ rest = run' ++ rest') :
    run'.length ≤ run.length := by
  by_contra longer
  -- The longer run is one that the shorter one could have gone on to.
  rcases List.append_eq_append_iff.1 same with ⟨more, rfl, rfl⟩ | ⟨more, rfl, -⟩
  · have some : more ≠ [] := by
      rintro rfl
      simp at longer
    rcases ill'.begins with single | ⟨c, begins⟩
    · have size := List.length_pos_iff.2 ill.some
      have size' := List.length_pos_iff.2 some
      rw [List.length_append] at single
      omega
    · exact ill.longest more some (List.prefix_append _ _) c begins
  · simp at longer

theorem IllFormed.unique {run' rest' : List UInt8} (ill : IllFormed run rest)
    (ill' : IllFormed run' rest') (same : run ++ rest = run' ++ rest') :
    run = run' ∧ rest = rest' :=
  List.append_inj same (Nat.le_antisymm (ill'.length_le ill same.symm) (ill.length_le ill' same))

/-- An ill-formed run is one piece. -/
theorem pieces_illFormed (ill : IllFormed run rest) :
    pieces (run ++ rest) = none :: pieces rest := by
  obtain ⟨b, part, rfl⟩ := List.exists_cons_of_ne_nil ill.some
  rw [List.cons_append, pieces_cons]
  rcases piece_cases b (part ++ rest) with ⟨c, rest', same, -⟩ | ⟨run', rest', same, ill', read⟩
  · exact absurd ⟨rest', same.symm⟩ (ill.none c)
  · obtain ⟨-, rfl⟩ := ill.unique ill' same
    rw [read]

theorem readsAs_decodeLossy (s : List UInt8) : ReadsAs s (decodeLossy s) := by
  -- Induction on the number of bytes, for each piece takes one at least.
  induction h : s.length using Nat.strongRecOn generalizing s with
  | ind n ih =>
    cases s with
    | nil =>
      rw [decodeLossy, pieces_nil]
      exact .nil
    | cons b s =>
      have shorter : (piece b s).2.length < n := by
        have := piece_length_le b s
        rw [← h, List.length_cons]
        omega
      have behind := ih _ shorter _ rfl
      rw [decodeLossy, pieces_cons, List.map_cons]
      rcases piece_cases b s with ⟨c, rest, same, read⟩ | ⟨run, rest, same, ill, read⟩
      · rw [read] at behind
        rw [same, read]
        exact .character c behind
      · rw [read] at behind
        rw [same, read]
        exact .illFormed ill behind

/-- **Bytes are read as one text, whatever they are.** -/
theorem readsAs_iff {s : List UInt8} {t : List Char} : ReadsAs s t ↔ t = decodeLossy s := by
  constructor
  · intro reads
    induction reads with
    | nil => rw [decodeLossy, pieces_nil, List.map_nil]
    | character c _ ih =>
      rw [ih, decodeLossy, decodeLossy, pieces_utf8EncodeChar, List.map_cons]
      rfl
    | illFormed ill _ ih =>
      rw [ih, decodeLossy, decodeLossy, pieces_illFormed ill, List.map_cons]
      rfl
  · rintro rfl
    exact readsAs_decodeLossy s

/-- The bytes of a text are read as the text. -/
@[simp] theorem decodeLossy_encode (s : List Char) : decodeLossy (encode s) = s :=
  decodeLossy_eq_of_decode? (decode?_encode s)

end CoinLedger.Text.Utf8
