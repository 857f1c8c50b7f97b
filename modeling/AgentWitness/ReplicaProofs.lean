import Mathlib.Data.Finset.Card

/-! # Replicas — a bounded set copied over an ordered channel

    An owner keeps a set and announces every change of it in order; a replica
    applies the announcements as they arrive, and may also drop entries of its
    own accord.  The replica is bounded at every moment if every announcement
    still on its way would keep it bounded, and that condition is inductive: it
    passes to the rest of the channel when the first announcement is applied, to
    a smaller replica, and to what the owner appends, provided that

    * the owner's set is bounded before and after its update, and
    * an update announces its removals before its additions. -/

namespace Replica

/-- One announcement. -/
inductive Change (K : Type) where
  | add (key : K)
  | remove (key : K)
  deriving DecidableEq

/-- The key a change adds. -/
def Change.added {K : Type} : Change K → Option K
  | .add key => some key
  | .remove _ => none

/-- The keys a sequence of changes adds. -/
def added {K : Type} (changes : List (Change K)) : List K := changes.filterMap Change.added

variable {K : Type} [DecidableEq K]

/-- The replica after one change. -/
def Change.act (s : Finset K) : Change K → Finset K
  | .add key => insert key s
  | .remove key => s.erase key

/-- The replica after a sequence of changes. -/
def replay (s : Finset K) (changes : List (Change K)) : Finset K := changes.foldl Change.act s

/-- The replica stays within the bound while the changes are applied one by one. -/
def Fits (bound : Nat) : Finset K → List (Change K) → Prop
  | s, [] => s.card ≤ bound
  | s, change :: rest => s.card ≤ bound ∧ Fits bound (change.act s) rest

/-! ## Replaying -/

omit [DecidableEq K] in
theorem added_append (a b : List (Change K)) : added (a ++ b) = added a ++ added b :=
  List.filterMap_append

theorem replay_append (s : Finset K) (a b : List (Change K)) :
    replay s (a ++ b) = replay (replay s a) b :=
  List.foldl_append

theorem act_mono {s t : Finset K} (h : s ⊆ t) (change : Change K) :
    change.act s ⊆ change.act t := by
  cases change with
  | add key => exact Finset.insert_subset_insert key h
  | remove key => exact Finset.erase_subset_erase key h

theorem replay_mono {s t : Finset K} (h : s ⊆ t) (changes : List (Change K)) :
    replay s changes ⊆ replay t changes := by
  induction changes generalizing s t with
  | nil => exact h
  | cons change rest ih => exact ih (act_mono h change)

/-- What is in the replica afterwards was there or was added. -/
theorem mem_replay {s : Finset K} {changes : List (Change K)} {key : K}
    (h : key ∈ replay s changes) : key ∈ s ∨ key ∈ added changes := by
  induction changes generalizing s with
  | nil => exact Or.inl h
  | cons change rest ih =>
      have hstep := ih h
      cases change with
      | add k =>
          show key ∈ s ∨ key ∈ k :: added rest
          rw [List.mem_cons]
          rcases hstep with hs | hrest
          · rcases Finset.mem_insert.mp hs with heq | hs
            · exact Or.inr (Or.inl heq)
            · exact Or.inl hs
          · exact Or.inr (Or.inr hrest)
      | remove k =>
          rcases hstep with hs | hrest
          · exact Or.inl (Finset.mem_of_mem_erase hs)
          · exact Or.inr hrest

theorem mem_replay_removals {s : Finset K} {removed : List K} {key : K} :
    key ∈ replay s (removed.map .remove) ↔ key ∈ s ∧ key ∉ removed := by
  induction removed generalizing s with
  | nil => simp [replay]
  | cons k rest ih =>
      show key ∈ replay (s.erase k) (rest.map .remove) ↔ _
      rw [ih, Finset.mem_erase, List.mem_cons, not_or]
      constructor
      · rintro ⟨⟨hne, hs⟩, hrest⟩
        exact ⟨hs, hne, hrest⟩
      · rintro ⟨hs, hne, hrest⟩
        exact ⟨⟨hne, hs⟩, hrest⟩

/-! ## Staying within the bound -/

variable {bound : Nat} {s t : Finset K}

theorem Fits.now {changes : List (Change K)} (h : Fits bound s changes) : s.card ≤ bound := by
  cases changes with
  | nil => exact h
  | cons change rest => exact h.1

/-- A smaller replica fits too. -/
theorem Fits.mono {changes : List (Change K)} (h : Fits bound t changes) (hs : s ⊆ t) :
    Fits bound s changes := by
  induction changes generalizing s t with
  | nil =>
      have hle := Finset.card_le_card hs
      exact Nat.le_trans hle h
  | cons change rest ih =>
      obtain ⟨hnow, hrest⟩ := h
      exact ⟨Nat.le_trans (Finset.card_le_card hs) hnow, ih hrest (act_mono hs change)⟩

theorem fits_append {a b : List (Change K)} :
    Fits bound s (a ++ b) ↔ Fits bound s a ∧ Fits bound (replay s a) b := by
  induction a generalizing s with
  | nil =>
      constructor
      · intro h
        exact ⟨h.now, h⟩
      · rintro ⟨_, h⟩
        exact h
  | cons change rest ih =>
      show s.card ≤ bound ∧ Fits bound (change.act s) (rest ++ b) ↔ _
      rw [ih]
      constructor
      · rintro ⟨hnow, hrest, hb⟩
        exact ⟨⟨hnow, hrest⟩, hb⟩
      · rintro ⟨⟨hnow, hrest⟩, hb⟩
        exact ⟨hnow, hrest, hb⟩

theorem Fits.last {changes : List (Change K)} (h : Fits bound s changes) :
    (replay s changes).card ≤ bound := by
  rw [← List.append_nil changes, fits_append] at h
  exact h.2

theorem fits_removals (removed : List K) (h : s.card ≤ bound) :
    Fits bound s (removed.map .remove) := by
  induction removed generalizing s with
  | nil => exact h
  | cons k rest ih =>
      have hless : (s.erase k).card ≤ s.card := Finset.card_le_card (Finset.erase_subset k s)
      exact ⟨h, ih (Nat.le_trans hless h)⟩

/-- Additions that stay within a bounded set. -/
theorem fits_additions {fresh : List K} (hs : s ⊆ t) (hfresh : ∀ key ∈ fresh, key ∈ t)
    (ht : t.card ≤ bound) :
    Fits bound s (fresh.map .add) ∧ replay s (fresh.map .add) ⊆ t := by
  have hnow := Nat.le_trans (Finset.card_le_card hs) ht
  induction fresh generalizing s with
  | nil => exact ⟨hnow, hs⟩
  | cons k rest ih =>
      have hk : insert k s ⊆ t := Finset.insert_subset (hfresh k List.mem_cons_self) hs
      have hrest := ih hk (fun key hkey => hfresh key (List.mem_cons_of_mem _ hkey))
        (Nat.le_trans (Finset.card_le_card hk) ht)
      exact ⟨⟨hnow, hrest.1⟩, hrest.2⟩

omit [DecidableEq K] in
/-- An update adds what it lists as fresh. -/
theorem added_update (removed fresh : List K) :
    added (removed.map .remove ++ fresh.map .add) = fresh := by
  rw [added_append, added, added, List.filterMap_map, List.filterMap_map]
  have hnone : removed.filterMap (Change.added ∘ Change.remove) = [] :=
    List.filterMap_eq_nil_iff.mpr (fun _ _ => rfl)
  rw [hnone]
  exact List.filterMap_some

/-- **The owner's update.**  A replica below the bound stays below it through the
    announcements of an update, removals first, and ends within the owner's new
    set. -/
theorem fits_update {removed fresh : List K} (hs : s.card ≤ bound) (ht : t.card ≤ bound)
    (hkept : ∀ key ∈ s, key ∉ removed → key ∈ t) (hfresh : ∀ key ∈ fresh, key ∈ t) :
    Fits bound s (removed.map .remove ++ fresh.map .add) ∧
      replay s (removed.map .remove ++ fresh.map .add) ⊆ t := by
  have hmid : replay s (removed.map .remove) ⊆ t := by
    intro key hkey
    obtain ⟨hold, hnot⟩ := mem_replay_removals.mp hkey
    exact hkept key hold hnot
  obtain ⟨hfits, hend⟩ := fits_additions hmid hfresh ht
  rw [replay_append]
  exact ⟨fits_append.mpr ⟨fits_removals removed hs, hfits⟩, hend⟩

end Replica
