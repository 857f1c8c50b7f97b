import Mathlib.Data.Finset.Card
import Mathlib.Data.List.Nodup
import Mathlib.Data.List.Perm.Basic

/-! # Keyed maps — finite maps with an iteration order

    A hash map or an insertion-ordered map as the list of its entries, with
    the one fact every lookup relies on carried as a field: no key occurs
    twice.  The order of the list is the iteration order.

    The operations are the ones a mutable map offers (`get?`, `insert`,
    `erase`, an in-place update of every value); each comes with the equation
    that says what a lookup sees afterwards, and with its effect on the number
    of entries that satisfy a predicate. -/

namespace KeyedMap

/-- A finite map: its entries in iteration order, no key twice. -/
structure Map (K V : Type) where
  entries : List (K × V)
  nodup : (entries.map Prod.fst).Nodup

variable {K V : Type}

/-- The keys, in iteration order. -/
def Map.keys (m : Map K V) : List K := m.entries.map Prod.fst

/-- The values, in iteration order. -/
def Map.values (m : Map K V) : List V := m.entries.map Prod.snd

/-- The number of entries. -/
def Map.len (m : Map K V) : Nat := m.entries.length

/-- The map without entries. -/
def Map.empty : Map K V := ⟨[], List.nodup_nil⟩

instance [DecidableEq K] [DecidableEq V] : DecidableEq (Map K V) := fun a b =>
  decidable_of_iff (a.entries = b.entries) (by cases a; cases b; simp)

/-- Rewrite every value in place. -/
def Map.mapValues (m : Map K V) (f : K → V → V) : Map K V where
  entries := m.entries.map (fun e => (e.1, f e.1 e.2))
  nodup := by
    have h : (m.entries.map (fun e => (e.1, f e.1 e.2))).map Prod.fst
        = m.entries.map Prod.fst := by
      rw [List.map_map]; rfl
    rw [h]; exact m.nodup

/-- Keep the entries a predicate accepts. -/
def Map.filter (m : Map K V) (p : K × V → Bool) : Map K V where
  entries := m.entries.filter p
  nodup := (List.Sublist.map Prod.fst List.filter_sublist).nodup m.nodup

variable [DecidableEq K]

/-- The first value stored under a key. -/
def lookup (k : K) : List (K × V) → Option V
  | [] => none
  | (k', v) :: rest => if k' = k then some v else lookup k rest

/-- The value stored under a key. -/
def Map.get? (m : Map K V) (k : K) : Option V := lookup k m.entries

/-- Remove a key. -/
def Map.erase (m : Map K V) (k : K) : Map K V := m.filter (fun e => e.1 ≠ k)

/-- Overwrite a present key in place, or append a new one. -/
def put (k : K) (v : V) : List (K × V) → List (K × V)
  | [] => [(k, v)]
  | (k', v') :: rest => if k' = k then (k, v) :: rest else (k', v') :: put k v rest

/-! ## Lookup over raw entry lists -/

theorem lookup_none_iff {k : K} {l : List (K × V)} :
    lookup k l = none ↔ k ∉ l.map Prod.fst := by
  induction l with
  | nil => simp [lookup]
  | cons hd tl ih =>
      obtain ⟨k', v'⟩ := hd
      simp only [lookup, List.map_cons, List.mem_cons, not_or]
      by_cases h : k' = k
      · simp [h]
      · simp [h, ih, Ne.symm h]

theorem lookup_mem {k : K} {v : V} {l : List (K × V)} (h : lookup k l = some v) :
    (k, v) ∈ l := by
  induction l with
  | nil => cases h
  | cons hd tl ih =>
      obtain ⟨k', v'⟩ := hd
      simp only [lookup] at h
      by_cases hk : k' = k
      · rw [if_pos hk] at h
        rw [← Option.some.inj h, hk]
        exact List.mem_cons_self
      · rw [if_neg hk] at h
        exact List.mem_cons_of_mem _ (ih h)

theorem lookup_of_mem {k : K} {v : V} {l : List (K × V)}
    (hn : (l.map Prod.fst).Nodup) (h : (k, v) ∈ l) : lookup k l = some v := by
  induction l with
  | nil => cases h
  | cons hd tl ih =>
      obtain ⟨k', v'⟩ := hd
      obtain ⟨hnot, hn'⟩ := List.nodup_cons.mp hn
      simp only [lookup]
      rcases List.mem_cons.mp h with heq | hmem
      · obtain ⟨rfl, rfl⟩ := Prod.mk.inj heq
        rw [if_pos rfl]
      · have hne : k' ≠ k := by
          rintro rfl
          exact hnot (List.mem_map.mpr ⟨_, hmem, rfl⟩)
        rw [if_neg hne]
        exact ih hn' hmem

theorem put_keys (k : K) (v : V) (l : List (K × V)) :
    (put k v l).map Prod.fst
      = if k ∈ l.map Prod.fst then l.map Prod.fst else l.map Prod.fst ++ [k] := by
  induction l with
  | nil => rfl
  | cons hd tl ih =>
      obtain ⟨k', v'⟩ := hd
      by_cases h : k' = k
      · subst h; simp [put]
      · simp only [put, if_neg h, List.map_cons, ih, List.mem_cons, Ne.symm h, false_or]
        by_cases hm : k ∈ tl.map Prod.fst
        · rw [if_pos hm, if_pos hm]
        · rw [if_neg hm, if_neg hm]; rfl

theorem put_nodup {k : K} {v : V} {l : List (K × V)} (h : (l.map Prod.fst).Nodup) :
    ((put k v l).map Prod.fst).Nodup := by
  rw [put_keys]
  by_cases hm : k ∈ l.map Prod.fst
  · rw [if_pos hm]; exact h
  · rw [if_neg hm]
    exact List.Nodup.append h (List.nodup_singleton k) (by simpa using hm)

/-- Insert a value, replacing the previous one of the same key. -/
def Map.insert (m : Map K V) (k : K) (v : V) : Map K V where
  entries := put k v m.entries
  nodup := put_nodup m.nodup

theorem lookup_put (k j : K) (v : V) (l : List (K × V)) :
    lookup j (put k v l) = if j = k then some v else lookup j l := by
  induction l with
  | nil =>
      by_cases h : j = k
      · subst h; simp [put, lookup]
      · simp [put, lookup, h, Ne.symm h]
  | cons hd tl ih =>
      obtain ⟨k', v'⟩ := hd
      by_cases hk : k' = k
      · subst hk
        by_cases hj : j = k'
        · subst hj; simp [put, lookup]
        · simp [put, lookup, hj, Ne.symm hj]
      · by_cases hj : k' = j
        · subst hj
          simp [put, lookup, hk]
        · simp only [put, if_neg hk, lookup, if_neg hj, ih]

theorem lookup_filter {k : K} {p : K × V → Bool} {l : List (K × V)}
    (hn : (l.map Prod.fst).Nodup) :
    lookup k (l.filter p) = (lookup k l).filter (fun v => p (k, v)) := by
  induction l with
  | nil => rfl
  | cons hd tl ih =>
      obtain ⟨k', v'⟩ := hd
      obtain ⟨hnot, hn'⟩ := List.nodup_cons.mp hn
      by_cases hk : k' = k
      · subst hk
        by_cases hp : p (k', v')
        · simp [lookup, Option.filter, hp]
        · have habs : lookup k' tl = none := lookup_none_iff.mpr hnot
          rw [List.filter_cons_of_neg hp, ih hn', habs]
          simp [lookup, Option.filter, hp]
      · by_cases hp : p (k', v')
        · simp only [List.filter_cons_of_pos hp, lookup, if_neg hk, ih hn']
        · simp only [List.filter_cons_of_neg hp, lookup, if_neg hk, ih hn']

/-! ## What a lookup sees after each operation -/

@[simp] theorem get?_empty (k : K) : (Map.empty : Map K V).get? k = none := rfl

theorem get?_insert (m : Map K V) (k j : K) (v : V) :
    (m.insert k v).get? j = if j = k then some v else m.get? j :=
  lookup_put k j v m.entries

@[simp] theorem get?_insert_self (m : Map K V) (k : K) (v : V) :
    (m.insert k v).get? k = some v := by
  rw [get?_insert, if_pos rfl]

theorem get?_insert_of_ne (m : Map K V) {k j : K} (v : V) (h : j ≠ k) :
    (m.insert k v).get? j = m.get? j := by
  rw [get?_insert, if_neg h]

theorem get?_filter (m : Map K V) (p : K × V → Bool) (k : K) :
    (m.filter p).get? k = (m.get? k).filter (fun v => p (k, v)) :=
  lookup_filter m.nodup

theorem get?_erase (m : Map K V) (k j : K) :
    (m.erase k).get? j = if j = k then none else m.get? j := by
  rw [Map.erase, get?_filter]
  by_cases h : j = k
  · rw [if_pos h]
    cases m.get? j with
    | none => rfl
    | some v => simp [Option.filter, h]
  · rw [if_neg h]
    cases m.get? j with
    | none => rfl
    | some v => simp [Option.filter, h]

@[simp] theorem get?_erase_self (m : Map K V) (k : K) : (m.erase k).get? k = none := by
  rw [get?_erase, if_pos rfl]

theorem get?_erase_of_ne (m : Map K V) {k j : K} (h : j ≠ k) :
    (m.erase k).get? j = m.get? j := by
  rw [get?_erase, if_neg h]

/-- A value found after an insertion is the new one or was there before. -/
theorem get?_of_insert {m : Map K V} {k j : K} {v w : V} (h : (m.insert k v).get? j = some w) :
    (j = k ∧ w = v) ∨ (j ≠ k ∧ m.get? j = some w) := by
  rw [get?_insert] at h
  split at h
  · rename_i heq
    exact Or.inl ⟨heq, (Option.some.inj h).symm⟩
  · rename_i hne
    exact Or.inr ⟨hne, h⟩

/-- A value found after a removal was there before, under another key. -/
theorem get?_of_erase {m : Map K V} {k j : K} {w : V} (h : (m.erase k).get? j = some w) :
    j ≠ k ∧ m.get? j = some w := by
  rw [get?_erase] at h
  split at h
  · cases h
  · rename_i hne
    exact ⟨hne, h⟩

theorem get?_mapValues (m : Map K V) (f : K → V → V) (k : K) :
    (m.mapValues f).get? k = (m.get? k).map (f k) := by
  show lookup k (m.entries.map (fun e => (e.1, f e.1 e.2))) = (lookup k m.entries).map (f k)
  induction m.entries with
  | nil => rfl
  | cons hd tl ih =>
      obtain ⟨k', v'⟩ := hd
      simp only [List.map_cons, lookup]
      by_cases h : k' = k
      · subst h; simp
      · rw [if_neg h, if_neg h, ih]

theorem mem_entries_iff (m : Map K V) (k : K) (v : V) :
    (k, v) ∈ m.entries ↔ m.get? k = some v :=
  ⟨lookup_of_mem m.nodup, lookup_mem⟩

theorem get?_eq_none_iff (m : Map K V) (k : K) : m.get? k = none ↔ k ∉ m.keys :=
  lookup_none_iff

theorem mem_keys_iff (m : Map K V) (k : K) : k ∈ m.keys ↔ ∃ v, m.get? k = some v := by
  rw [← not_iff_not, ← get?_eq_none_iff]
  cases m.get? k <;> simp

/-! ## Counting entries -/

/-- Counting after an append of a fresh key. -/
theorem countP_put_fresh {k : K} {v : V} {l : List (K × V)} (p : K × V → Bool)
    (h : k ∉ l.map Prod.fst) :
    (put k v l).countP p = l.countP p + if p (k, v) then 1 else 0 := by
  induction l with
  | nil => by_cases hp : p (k, v) <;> simp [put, hp]
  | cons hd tl ih =>
      obtain ⟨k', v'⟩ := hd
      simp only [List.map_cons, List.mem_cons, not_or] at h
      have hne : k' ≠ k := fun he => h.1 he.symm
      simp only [put, if_neg hne, List.countP_cons, ih h.2]
      omega

/-- Counting after an overwrite. -/
theorem countP_put_present {k : K} {v w : V} {l : List (K × V)} (p : K × V → Bool)
    (h : lookup k l = some w) :
    (put k v l).countP p + (if p (k, w) then 1 else 0)
      = l.countP p + if p (k, v) then 1 else 0 := by
  induction l with
  | nil => cases h
  | cons hd tl ih =>
      obtain ⟨k', v'⟩ := hd
      by_cases hk : k' = k
      · subst hk
        simp only [lookup, if_pos] at h
        obtain rfl := Option.some.inj h
        simp only [put, if_pos, List.countP_cons]
        omega
      · simp only [lookup, if_neg hk] at h
        have := ih h
        simp only [put, if_neg hk, List.countP_cons]
        omega

/-- The number of entries a predicate accepts. -/
def Map.count (m : Map K V) (p : K × V → Bool) : Nat := m.entries.countP p

theorem count_insert_fresh (m : Map K V) {k : K} {v : V} (p : K × V → Bool)
    (h : m.get? k = none) :
    (m.insert k v).count p = m.count p + if p (k, v) then 1 else 0 :=
  countP_put_fresh p ((get?_eq_none_iff m k).mp h)

theorem count_insert_present (m : Map K V) {k : K} {v w : V} (p : K × V → Bool)
    (h : m.get? k = some w) :
    (m.insert k v).count p + (if p (k, w) then 1 else 0)
      = m.count p + if p (k, v) then 1 else 0 :=
  countP_put_present p h

/-- Counting after an entry is removed. -/
theorem count_erase (m : Map K V) {k : K} {v : V} (p : K × V → Bool) (h : m.get? k = some v) :
    (m.erase k).count p + (if p (k, v) then 1 else 0) = m.count p := by
  have hcount : ∀ l : List (K × V), (l.map Prod.fst).Nodup → lookup k l = some v →
      (l.filter (fun e => e.1 ≠ k)).countP p + (if p (k, v) then 1 else 0) = l.countP p := by
    intro l hl hv
    induction l with
    | nil => cases hv
    | cons hd tl ih =>
        obtain ⟨k', v'⟩ := hd
        rw [List.map_cons, List.nodup_cons] at hl
        by_cases hk : k' = k
        · subst hk
          simp only [lookup, if_pos] at hv
          obtain rfl := Option.some.inj hv
          have hrest : tl.filter (fun e => e.1 ≠ k') = tl := by
            refine List.filter_eq_self.mpr ?_
            intro e he
            refine decide_eq_true ?_
            intro hkey
            exact hl.1 (List.mem_map.mpr ⟨e, he, hkey⟩)
          rw [List.filter_cons_of_neg (by simp), hrest, List.countP_cons]
        · simp only [lookup, if_neg hk] at hv
          have hrest := ih hl.2 hv
          rw [List.filter_cons_of_pos (by simpa using hk), List.countP_cons, List.countP_cons]
          omega
  exact hcount m.entries m.nodup h

omit [DecidableEq K] in
theorem count_filter_le (m : Map K V) (q p : K × V → Bool) :
    (m.filter q).count p ≤ m.count p :=
  List.Sublist.countP_le List.filter_sublist

omit [DecidableEq K] in
theorem len_filter_le (m : Map K V) (p : K × V → Bool) : (m.filter p).len ≤ m.len :=
  List.length_filter_le p m.entries

theorem len_insert_fresh (m : Map K V) {k : K} {v : V} (h : m.get? k = none) :
    (m.insert k v).len = m.len + 1 := by
  have := count_insert_fresh m (v := v) (fun _ => true) h
  simpa [Map.count, Map.len] using this

theorem len_insert_present (m : Map K V) {k : K} {v w : V} (h : m.get? k = some w) :
    (m.insert k v).len = m.len := by
  have := count_insert_present m (v := v) (fun _ => true) h
  simpa [Map.count, Map.len] using this

theorem count_insert_le (m : Map K V) {k : K} {v : V} {p : K × V → Bool}
    (h : p (k, v) = false) : (m.insert k v).count p ≤ m.count p := by
  cases hk : m.get? k with
  | none =>
      have hcount := count_insert_fresh m (v := v) p hk
      rw [h] at hcount
      exact hcount.le
  | some w =>
      have hcount := count_insert_present m (v := v) p hk
      rw [h] at hcount
      exact Nat.le.intro hcount

theorem len_insert_le (m : Map K V) (k : K) (v : V) : (m.insert k v).len ≤ m.len + 1 := by
  cases hk : m.get? k with
  | none => exact (len_insert_fresh m hk).le
  | some w => exact (len_insert_present m hk).le.trans (Nat.le_succ _)

omit [DecidableEq K] in
theorem Map.ext_entries {m n : Map K V} (h : m.entries = n.entries) : m = n := by
  cases m
  cases n
  obtain rfl := h
  rfl

omit [DecidableEq K] in
theorem eq_empty_of_len {m : Map K V} (h : m.len = 0) : m = .empty :=
  Map.ext_entries (List.eq_nil_of_length_eq_zero h)

/-- Removing an absent key changes nothing. -/
theorem erase_eq_self {m : Map K V} {k : K} (h : m.get? k = none) : m.erase k = m := by
  refine Map.ext_entries (List.filter_eq_self.mpr ?_)
  rintro ⟨j, v⟩ he
  have hne : j ≠ k := by
    rintro rfl
    rw [(mem_entries_iff m j v).mp he] at h
    cases h
  exact decide_eq_true hne

/-! ## The set of keys -/

/-- The keys, as a set. -/
def Map.keySet (m : Map K V) : Finset K := m.keys.toFinset

theorem mem_keySet {m : Map K V} {k : K} : k ∈ m.keySet ↔ ∃ v, m.get? k = some v := by
  rw [Map.keySet, List.mem_toFinset, mem_keys_iff]

theorem card_keySet (m : Map K V) : m.keySet.card = m.len := by
  have hnodup : m.keys.Nodup := m.nodup
  rw [Map.keySet, List.toFinset_card_of_nodup hnodup]
  exact List.length_map ..

theorem keySet_insert (m : Map K V) (k : K) (v : V) :
    (m.insert k v).keySet = insert k m.keySet := by
  ext j
  rw [mem_keySet, Finset.mem_insert, mem_keySet, get?_insert]
  by_cases h : j = k
  · simp [h]
  · simp [h]

theorem keySet_erase (m : Map K V) (k : K) : (m.erase k).keySet = m.keySet.erase k := by
  ext j
  rw [mem_keySet, Finset.mem_erase, mem_keySet, get?_erase]
  by_cases h : j = k
  · simp [h]
  · simp [h]

end KeyedMap
