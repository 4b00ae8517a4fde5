import CoinLedger.Ascending
/-!
# Maps kept in the order of their keys

A `SortedMap κ ν` is a finite partial function written as its entries in strictly ascending order
of the keys. The form is canonical: two maps that answer every `get?` alike are equal
(`SortedMap.ext_get?`), so "the same rows" is plain equality. Listing a map lists it in order.

## Main results

* `get?_insert`, `get?_empty`, `get?_mapValues` — each operation through the view `get?`.
* `mem_entries_iff` — an entry is listed exactly when `get?` finds it.
* `ext_get?` — the view determines the map.
-/

namespace CoinLedger

/-- Entries in strictly ascending order of their keys. -/
structure SortedMap (κ ν : Type) [LT κ] where
  entries : List (κ × ν) := []
  sorted : entries.Pairwise (fun a b => a.1 < b.1) := by exact List.Pairwise.nil

namespace SortedMap

section
variable {κ ν : Type} [LT κ]

/-- Writes `v` at `k` in an ascending list of entries. -/
def insertEntry [DecidableLT κ] (k : κ) (v : ν) : List (κ × ν) → List (κ × ν)
  | [] => [(k, v)]
  | e :: rest =>
    if k < e.1 then (k, v) :: e :: rest
    else if e.1 < k then e :: insertEntry k v rest
    else (k, v) :: rest

/-- The map without entries. -/
def empty : SortedMap κ ν := {}

instance : EmptyCollection (SortedMap κ ν) := ⟨empty⟩
instance : Inhabited (SortedMap κ ν) := ⟨empty⟩

/-- The value at a key, if there is one. -/
def get? [DecidableEq κ] (m : SortedMap κ ν) (k : κ) : Option ν :=
  (m.entries.find? (fun e => e.1 = k)).map Prod.snd

/-- Whether a key has a value. -/
def contains [DecidableEq κ] (m : SortedMap κ ν) (k : κ) : Bool :=
  (m.get? k).isSome

/-- Changes every value; the keys stay. -/
def mapValues {μ : Type} (f : ν → μ) (m : SortedMap κ ν) : SortedMap κ μ :=
  ⟨m.entries.map fun e => (e.1, f e.2), List.pairwise_map.2 m.sorted⟩

@[simp] theorem get?_mapValues {μ : Type} [DecidableEq κ] (f : ν → μ) (m : SortedMap κ ν)
    (k : κ) : (m.mapValues f).get? k = (m.get? k).map f := by
  simp [get?, mapValues, List.find?_map, Function.comp_def]

/-- The keys, ascending. -/
def keys (m : SortedMap κ ν) : List κ := m.entries.map Prod.fst

/-- The values in the order of their keys. -/
def values (m : SortedMap κ ν) : List ν := m.entries.map Prod.snd

@[ext] theorem ext {m n : SortedMap κ ν} (h : m.entries = n.entries) : m = n := by
  cases m; cases n; simp_all

instance [DecidableEq κ] [DecidableEq ν] : DecidableEq (SortedMap κ ν) := fun m n =>
  decidable_of_iff (m.entries = n.entries) ⟨ext, fun h => h ▸ rfl⟩

@[simp] theorem get?_empty [DecidableEq κ] (k : κ) :
    (empty : SortedMap κ ν).get? k = none := rfl

@[simp] theorem contains_iff [DecidableEq κ] (m : SortedMap κ ν) (k : κ) :
    m.contains k = true ↔ ∃ v, m.get? k = some v := by
  simp [contains, Option.isSome_iff_exists]

theorem fst_mem_insertEntry [DecidableLT κ] {k : κ} {v : ν} {es : List (κ × ν)} {e : κ × ν}
    (h : e ∈ insertEntry k v es) : e = (k, v) ∨ e ∈ es := by
  induction es with
  | nil => simpa [insertEntry] using h
  | cons d rest ih =>
    simp only [insertEntry] at h
    split at h
    · simpa using h
    · split at h
      · rcases List.mem_cons.1 h with rfl | h
        · simp
        · rcases ih h with h | h <;> simp [h]
      · rcases List.mem_cons.1 h with rfl | h <;> simp [*]

section
variable [LE κ] [Std.IsLinearOrder κ] [Std.LawfulOrderLT κ]

theorem eq_of_not_lt {a b : κ} (hab : ¬a < b) (hba : ¬b < a) : a = b := by
  rcases Std.lt_trichotomy a b with h | h | h
  · exact absurd h hab
  · exact h
  · exact absurd h hba

variable [DecidableLT κ]

theorem pairwise_insertEntry (k : κ) (v : ν) {es : List (κ × ν)}
    (h : es.Pairwise (fun a b => a.1 < b.1)) :
    (insertEntry k v es).Pairwise (fun a b => a.1 < b.1) := by
  induction es with
  | nil => simp [insertEntry]
  | cons d rest ih =>
    rw [List.pairwise_cons] at h
    simp only [insertEntry]
    split
    · next hk =>
      refine List.pairwise_cons.2 ⟨fun e he => ?_, List.pairwise_cons.2 h⟩
      rcases List.mem_cons.1 he with rfl | he
      · exact hk
      · exact Std.lt_trans hk (h.1 e he)
    · split
      · next hk =>
        refine List.pairwise_cons.2 ⟨fun e he => ?_, ih h.2⟩
        rcases fst_mem_insertEntry he with rfl | he
        · exact hk
        · exact h.1 e he
      · next hk hk' =>
        refine List.pairwise_cons.2 ⟨fun e he => ?_, h.2⟩
        have := eq_of_not_lt hk hk'
        simpa [this] using h.1 e he

/-- Writes `v` at `k`, in place of what was there. -/
def insert (m : SortedMap κ ν) (k : κ) (v : ν) : SortedMap κ ν :=
  ⟨insertEntry k v m.entries, pairwise_insertEntry k v m.sorted⟩

/-- Reads entries in turn; of two with one key the later one stays. -/
def ofList (es : List (κ × ν)) : SortedMap κ ν :=
  es.foldl (fun m e => m.insert e.1 e.2) empty

variable [DecidableEq κ]

/-- Writes `v` at `k` only if `k` has no value yet. -/
def insertIfAbsent (m : SortedMap κ ν) (k : κ) (v : ν) : SortedMap κ ν :=
  if m.contains k then m else m.insert k v

/-! ## The view `get?` -/

private theorem find?_insertEntry (k j : κ) (v : ν) (es : List (κ × ν)) :
    ((insertEntry k v es).find? (fun e => e.1 = j)).map Prod.snd =
      if k = j then some v else (es.find? (fun e => e.1 = j)).map Prod.snd := by
  induction es with
  | nil => by_cases h : k = j <;> simp [insertEntry, h]
  | cons d rest ih =>
    simp only [insertEntry]
    split
    · by_cases h : k = j <;> simp [h]
    · split
      · next hk =>
        by_cases hd : d.1 = j
        · have : k ≠ j := by
            rintro rfl
            exact absurd (hd ▸ hk) Std.lt_irrefl
          simp [hd, this]
        · simpa [hd] using ih
      · next hk hk' =>
        have := eq_of_not_lt hk hk'
        subst this
        by_cases h : d.1 = j <;> simp [h]

@[simp] theorem get?_insert (m : SortedMap κ ν) (k j : κ) (v : ν) :
    (m.insert k v).get? j = if k = j then some v else m.get? j :=
  find?_insertEntry k j v m.entries

/-- Provisioning through the view: a present value stays, an absent one becomes `v`. -/
@[simp] theorem get?_insertIfAbsent (m : SortedMap κ ν) (k j : κ) (v : ν) :
    (m.insertIfAbsent k v).get? j = if k = j then some ((m.get? k).getD v) else m.get? j := by
  unfold insertIfAbsent contains
  by_cases h : k = j
  · subst h
    cases hk : m.get? k <;> simp [hk]
  · cases hk : m.get? k <;> simp [h]

omit [Std.IsLinearOrder κ] [DecidableLT κ] in
/-- An entry is listed exactly when `get?` finds it. -/
theorem mem_entries_iff (m : SortedMap κ ν) {k : κ} {v : ν} :
    (k, v) ∈ m.entries ↔ m.get? k = some v := by
  obtain ⟨es, hes⟩ := m
  simp only [get?]
  induction es with
  | nil => simp
  | cons d rest ih =>
    rw [List.pairwise_cons] at hes
    have ih := ih hes.2
    by_cases hd : d.1 = k
    · subst hd
      simp only [List.mem_cons, List.find?_cons, decide_true, Option.map_some, Option.some.injEq]
      constructor
      · rintro (h | h)
        · exact (congrArg Prod.snd h).symm
        · exact absurd (hes.1 _ h) Std.lt_irrefl
      · rintro rfl
        exact Or.inl rfl
    · simp only [List.mem_cons, List.find?_cons, hd, decide_false]
      constructor
      · rintro (rfl | h)
        · exact absurd rfl hd
        · exact ih.1 h
      · exact fun h => Or.inr (ih.2 h)

omit [DecidableLT κ] in
/-- The view determines the map. -/
theorem ext_get? {m n : SortedMap κ ν} (h : ∀ k, m.get? k = n.get? k) : m = n := by
  have hm : ∀ e, e ∈ m.entries ↔ e ∈ n.entries := fun e => by
    rw [mem_entries_iff, mem_entries_iff, h]
  ext1
  obtain ⟨es, hes⟩ := m
  obtain ⟨ds, hds⟩ := n
  simp only at hm ⊢
  clear h
  induction es generalizing ds with
  | nil =>
    cases ds with
    | nil => rfl
    | cons d ds => exact absurd ((hm d).2 (by simp)) (by simp)
  | cons e es ih =>
    cases ds with
    | nil => exact absurd ((hm e).1 (by simp)) (by simp)
    | cons d ds =>
      rw [List.pairwise_cons] at hes hds
      have hed : e = d := by
        rcases List.mem_cons.1 ((hm e).1 (by simp)) with h | h
        · exact h
        · rcases List.mem_cons.1 ((hm d).2 (by simp)) with h' | h'
          · exact h'.symm
          · exact absurd (Std.lt_trans (hes.1 d h') (hds.1 e h)) Std.lt_irrefl
      subst hed
      congr 1
      refine ih hes.2 ds hds.2 fun x => ⟨fun hx => ?_, fun hx => ?_⟩
      · rcases List.mem_cons.1 ((hm x).1 (by simp [hx])) with rfl | h
        · exact absurd (hes.1 _ hx) Std.lt_irrefl
        · exact h
      · rcases List.mem_cons.1 ((hm x).2 (by simp [hx])) with rfl | h
        · exact absurd (hds.1 _ hx) Std.lt_irrefl
        · exact h

end

end

end SortedMap

end CoinLedger
