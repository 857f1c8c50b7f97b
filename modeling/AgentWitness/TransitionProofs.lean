import Mathlib.Data.List.Induction
import Mathlib.Tactic.Tauto

/-! # Labelled runs — what holds along every execution

    A system is a step relation on states, labelled by what an observer sees
    of the step.  `Run step s₀ h s` says that the labels `h`, in order, take
    the initial state `s₀` to `s`.  The last step is the outermost
    constructor, so an induction over a run speaks about the state before the
    newest step and every earlier point of a run is a run of its own.

    A history is a list of labels too.  `Since P Q` is the past-time reading of
    "the last `P`, with only `Q` after it", which grows with the history by one
    local rule.  `Throughout P` says of every entry that it is in order, given
    the entries before it.

    A worklist loop pops items in front and appends the items its body pushes;
    it works in batches, and what the body keeps the loop keeps. -/

namespace Transition

variable {σ α : Type}

/-- A finite execution from `s₀`, with its labels oldest first. -/
inductive Run (step : σ → α → σ → Prop) (s₀ : σ) : List α → σ → Prop where
  | nil : Run step s₀ [] s₀
  | snoc {h : List α} {s s' : σ} {a : α} :
      Run step s₀ h s → step s a s' → Run step s₀ (h ++ [a]) s'

variable {step : σ → α → σ → Prop} {s₀ : σ}

/-- **Invariant rule.** What holds initially and is kept by every step holds at
    the end of every run. -/
theorem Run.invariant {h : List α} {s : σ} (hr : Run step s₀ h s) (Inv : σ → Prop)
    (hinit : Inv s₀) (hstep : ∀ s a s', Inv s → step s a s' → Inv s') : Inv s := by
  induction hr with
  | nil => exact hinit
  | snoc _ hs ih => exact hstep _ _ _ ih hs

/-- **Invariant rule with a history.** The invariant may relate the state to the
    labels seen so far, and the run may be assumed to satisfy a condition
    `Fair` that every earlier point of a run inherits. -/
theorem Run.invariant_of_history {h : List α} {s : σ} (hr : Run step s₀ h s)
    (Fair : List α → Prop) (Inv : List α → σ → Prop)
    (hpre : ∀ h a, Fair (h ++ [a]) → Fair h) (hinit : Inv [] s₀)
    (hstep : ∀ h s a s', Fair (h ++ [a]) → Inv h s → step s a s' → Inv (h ++ [a]) s')
    (hf : Fair h) : Inv h s := by
  induction hr with
  | nil => exact hinit
  | snoc _ hs ih => exact hstep _ _ _ _ hf (ih (hpre _ _ hf)) hs

/-- Runs compose. -/
theorem Run.append {h h' : List α} {s t : σ} (hr : Run step s₀ h s) (hr' : Run step s h' t) :
    Run step s₀ (h ++ h') t := by
  induction hr' with
  | nil => rwa [List.append_nil]
  | snoc _ hs ih =>
      rw [← List.append_assoc]
      exact .snoc ih hs

/-- A run passes through the point before and the point after each of its steps. -/
theorem Run.split {before after : List α} {a : α} {s : σ}
    (hr : Run step s₀ (before ++ a :: after) s) :
    ∃ t u, Run step s₀ before t ∧ step t a u ∧ Run step u after s := by
  generalize hh : before ++ a :: after = h at hr
  induction hr generalizing after with
  | nil => cases (List.append_eq_nil_iff.mp hh).2
  | @snoc h' t s b hrun hs ih =>
      rcases List.eq_nil_or_concat after with rfl | ⟨rest, c, rfl⟩
      · obtain ⟨rfl, hab⟩ := List.append_inj' hh rfl
        obtain rfl := (List.cons.inj hab).1
        exact ⟨t, s, hrun, hs, .nil⟩
      · have hsplit : (before ++ a :: rest) ++ [c] = h' ++ [b] := by
          rw [← hh, List.concat_eq_append, List.append_assoc, List.cons_append]
        obtain ⟨hbefore, hcb⟩ := List.append_inj' hsplit rfl
        obtain rfl := (List.cons.inj hcb).1
        obtain ⟨t', u, hfirst, hstep, hlast⟩ := ih hbefore
        rw [List.concat_eq_append]
        exact ⟨t', u, hfirst, hstep, .snoc hlast hs⟩

/-- The last step of a run. -/
theorem Run.last {h : List α} {a : α} {s : σ} (hr : Run step s₀ (h ++ [a]) s) :
    ∃ t, Run step s₀ h t ∧ step t a s := by
  generalize hh : h ++ [a] = labels at hr
  cases hr with
  | nil => cases (List.append_eq_nil_iff.mp hh).2
  | @snoc before t _ b hrun hs =>
      obtain ⟨rfl, hab⟩ := List.append_inj' hh rfl
      obtain rfl := (List.cons.inj hab).1
      exact ⟨t, hrun, hs⟩

/-- If a history names each thing once, two entries that name the same one are
    the same. -/
theorem eq_of_named_once {β : Type} {name : α → Option β} {h : List α}
    (hn : (h.filterMap name).Nodup) {a b : α} (ha : a ∈ h) (hb : b ∈ h) {x : β}
    (hna : name a = some x) (hnb : name b = some x) : a = b := by
  induction h with
  | nil => cases ha
  | cons c rest ih =>
      have hnot : name c = some x → ∀ d ∈ rest, name d ≠ some x := by
        intro hc d hd hnd
        rw [List.filterMap_cons_some hc] at hn
        exact (List.nodup_cons.mp hn).1 (List.mem_filterMap.mpr ⟨d, hd, hnd⟩)
      rcases List.mem_cons.mp ha with rfl | harest
      · rcases List.mem_cons.mp hb with rfl | hbrest
        · rfl
        · exact absurd hnb (hnot hna b hbrest)
      · rcases List.mem_cons.mp hb with rfl | hbrest
        · exact absurd hna (hnot hnb a harest)
        · refine ih ?_ harest hbrest
          cases hc : name c with
          | none => rwa [List.filterMap_cons_none hc] at hn
          | some y =>
              rw [List.filterMap_cons_some hc] at hn
              exact (List.nodup_cons.mp hn).2

/-! ## Since: what the newest relevant entry of a history says -/

section Since

variable {P Q : α → Prop}

/-- Some entry satisfies `P`, and every entry after it satisfies `Q`. -/
def Since (P Q : α → Prop) (h : List α) : Prop :=
  ∃ before a after, h = before ++ a :: after ∧ P a ∧ ∀ b ∈ after, Q b

theorem not_since_nil : ¬ Since P Q [] := by
  rintro ⟨before, a, after, heq, _⟩
  cases (List.append_eq_nil_iff.mp heq.symm).2

theorem since_snoc {h : List α} {a : α} :
    Since P Q (h ++ [a]) ↔ P a ∨ (Q a ∧ Since P Q h) := by
  constructor
  · rintro ⟨before, b, after, heq, hb, hafter⟩
    rcases List.eq_nil_or_concat after with rfl | ⟨rest, c, rfl⟩
    · obtain ⟨_, hab⟩ := List.append_inj' heq rfl
      exact Or.inl ((List.cons.inj hab).1 ▸ hb)
    · have hsplit : h ++ [a] = (before ++ b :: rest) ++ [c] := by
        rw [heq, List.concat_eq_append, List.append_assoc, List.cons_append]
      obtain ⟨hh, hac⟩ := List.append_inj' hsplit rfl
      obtain rfl := (List.cons.inj hac).1
      refine Or.inr ⟨hafter a (by simp), before, b, rest, hh, hb, ?_⟩
      intro d hd
      exact hafter d (by simp [hd])
  · rintro (ha | ⟨ha, before, b, after, rfl, hb, hafter⟩)
    · exact ⟨h, a, [], rfl, ha, fun b hb => (by cases hb)⟩
    · refine ⟨before, b, after ++ [a], by simp, hb, ?_⟩
      intro d hd
      rcases List.mem_append.mp hd with hd | hd
      · exact hafter d hd
      · exact List.mem_singleton.mp hd ▸ ha

theorem since_append {h l : List α} :
    Since P Q (h ++ l) ↔ Since P Q l ∨ ((∀ a ∈ l, Q a) ∧ Since P Q h) := by
  induction l using List.reverseRecOn with
  | nil => simp [not_since_nil]
  | append_singleton l a ih =>
      rw [← List.append_assoc, since_snoc, since_snoc, ih]
      simp only [List.mem_append, List.mem_singleton, or_imp, forall_and, forall_eq]
      tauto

/-- Entries none of which satisfies `P` can only end the condition. -/
theorem since_append_of_none {h l : List α} (hl : ∀ a ∈ l, ¬ P a) :
    Since P Q (h ++ l) ↔ (∀ a ∈ l, Q a) ∧ Since P Q h := by
  rw [since_append, or_iff_right]
  rintro ⟨before, a, after, rfl, ha, _⟩
  exact hl a (by simp) ha

/-- Entries that all satisfy `Q` do not end the condition. -/
theorem Since.append {h l : List α} (hs : Since P Q h) (hl : ∀ a ∈ l, Q a) : Since P Q (h ++ l) :=
  since_append.mpr (Or.inr ⟨hl, hs⟩)

end Since

/-! ## Throughout: what every entry owes to the ones before it -/

section Throughout

variable {P : List α → α → Prop}

/-- Every entry is in order, given the entries before it. -/
def Throughout (P : List α → α → Prop) (h : List α) : Prop :=
  ∀ before a after, h = before ++ a :: after → P before a

theorem throughout_nil : Throughout P [] := by
  intro before a after heq
  cases (List.append_eq_nil_iff.mp heq.symm).2

theorem throughout_snoc {h : List α} {a : α} :
    Throughout P (h ++ [a]) ↔ Throughout P h ∧ P h a := by
  constructor
  · intro ht
    refine ⟨?_, ht h a [] rfl⟩
    intro before b after heq
    refine ht before b (after ++ [a]) ?_
    rw [heq, List.append_assoc, List.cons_append]
  · rintro ⟨ht, ha⟩ before b after heq
    rcases List.eq_nil_or_concat after with rfl | ⟨rest, c, rfl⟩
    · obtain ⟨rfl, hab⟩ := List.append_inj' heq rfl
      rw [← (List.cons.inj hab).1]
      exact ha
    · have hsplit : h ++ [a] = (before ++ b :: rest) ++ [c] := by
        rw [heq, List.concat_eq_append, List.append_assoc, List.cons_append]
      exact ht before b rest (List.append_inj' hsplit rfl).1

/-- Entries that are in order after anything. -/
theorem Throughout.append {h l : List α} (ht : Throughout P h)
    (hl : ∀ a ∈ l, ∀ before, P before a) : Throughout P (h ++ l) := by
  induction l using List.reverseRecOn with
  | nil => rwa [List.append_nil]
  | append_singleton l a ih =>
      rw [← List.append_assoc]
      refine throughout_snoc.mpr ⟨ih (fun b hb => hl b (List.mem_append_left _ hb)), ?_⟩
      exact hl a (List.mem_append_right _ (List.mem_singleton.mpr rfl)) _

end Throughout

/-! ## Worklists: a loop that appends work while it drains -/

section Worklist

variable {ε : Type} (body : σ → ε → σ × List ε)

/-- Pop the front item, run the body, append what it pushes; give up when the
    fuel is spent with work left. -/
def drain : Nat → σ → List ε → Option σ
  | _, s, [] => some s
  | 0, _, _ :: _ => none
  | n + 1, s, e :: rest => drain n (body s e).1 (rest ++ (body s e).2)

/-- Run the listed items and collect what they push. -/
def batch : σ → List ε → σ × List ε
  | s, [] => (s, [])
  | s, e :: rest =>
      ((batch (body s e).1 rest).1, (body s e).2 ++ (batch (body s e).1 rest).2)

/-- Batches until no round is left: each one runs what the one before pushed. -/
def rounds : Nat → σ → List ε → σ × List ε
  | 0, s, work => (s, work)
  | n + 1, s, work => rounds n (batch body s work).1 (batch body s work).2

/-- A first-in first-out loop works in batches. -/
theorem drain_batch (n : Nat) (s : σ) (work tail : List ε) :
    drain body (work.length + n) s (work ++ tail)
      = drain body n (batch body s work).1 (tail ++ (batch body s work).2) := by
  induction work generalizing s tail with
  | nil => simp [batch]
  | cons e rest ih =>
      show drain body (rest.length + 1 + n) s (e :: (rest ++ tail)) = _
      rw [Nat.add_right_comm, drain, List.append_assoc, ih]
      simp only [batch, List.append_assoc]

theorem drain_rounds (k : Nat) (s : σ) (work : List ε) :
    ∃ fuel, ∀ n, drain body (fuel + n) s work
      = drain body n (rounds body k s work).1 (rounds body k s work).2 := by
  induction k generalizing s work with
  | zero => exact ⟨0, fun n => by rw [Nat.zero_add]; rfl⟩
  | succ k ih =>
      obtain ⟨fuel, hfuel⟩ := ih (batch body s work).1 (batch body s work).2
      refine ⟨work.length + fuel, fun n => ?_⟩
      have h := drain_batch body (fuel + n) s work []
      rw [List.append_nil, List.nil_append] at h
      rw [Nat.add_assoc, h, hfuel]
      rfl

/-- **Worklist rule.** What the body keeps, as a property of the state and of
    all work left, a batch keeps. -/
theorem batch_invariant (Inv : σ → List ε → Prop)
    (hbody : ∀ s e rest, Inv s (e :: rest) → Inv (body s e).1 (rest ++ (body s e).2))
    (s : σ) (work tail : List ε) (h : Inv s (work ++ tail)) :
    Inv (batch body s work).1 (tail ++ (batch body s work).2) := by
  induction work generalizing s tail with
  | nil => simpa [batch] using h
  | cons e rest ih =>
      have hnext := hbody s e (rest ++ tail) h
      rw [List.append_assoc] at hnext
      have := ih (body s e).1 (tail ++ (body s e).2) hnext
      rw [List.append_assoc] at this
      exact this

theorem rounds_invariant (Inv : σ → List ε → Prop)
    (hbody : ∀ s e rest, Inv s (e :: rest) → Inv (body s e).1 (rest ++ (body s e).2))
    (k : Nat) (s : σ) (work : List ε) (h : Inv s work) :
    Inv (rounds body k s work).1 (rounds body k s work).2 := by
  induction k generalizing s work with
  | zero => exact h
  | succ k ih =>
      refine ih _ _ ?_
      have := batch_invariant body Inv hbody s work [] (by rwa [List.append_nil])
      rwa [List.nil_append] at this

end Worklist

/-! ## Executable systems -/

section Executable

variable {β : Type} (next : σ → α → Option (σ × β)) (ok : σ → α → Prop)

/-- The step relation of an executable system, labelled by the action and what
    it outputs, restricted to actions that meet a condition in the state before
    them. -/
def Fires (s : σ) (l : α × β) (s' : σ) : Prop :=
  ok s l.1 ∧ next s l.1 = some (s', l.2)

/-- Run the listed actions, if all of them are enabled and meet the
    condition. -/
def replay [∀ s a, Decidable (ok s a)] (s : σ) : List α → Option (List (α × β) × σ)
  | [] => some ([], s)
  | a :: rest =>
      if ok s a then
        match next s a with
        | none => none
        | some (s', b) => (replay s' rest).map (fun r => ((a, b) :: r.1, r.2))
      else none

theorem run_replay [∀ s a, Decidable (ok s a)] {h : List (α × β)} {s s' : σ}
    (hr : Run (Fires next ok) s₀ h s) {actions : List α} {l : List (α × β)}
    (hp : replay next ok s actions = some (l, s')) :
    Run (Fires next ok) s₀ (h ++ l) s' := by
  induction actions generalizing h s l with
  | nil =>
      obtain ⟨rfl, rfl⟩ := Prod.mk.inj (Option.some.inj hp)
      rwa [List.append_nil]
  | cons a rest ih =>
      rw [replay] at hp
      split at hp
      · rename_i hok
        split at hp
        · cases hp
        · rename_i t b hn
          obtain ⟨r, hrest, heq⟩ := Option.map_eq_some_iff.mp hp
          obtain ⟨rfl, rfl⟩ := Prod.mk.inj heq
          have hnext : Run (Fires next ok) s₀ (h ++ [(a, b)]) t := .snoc hr ⟨hok, hn⟩
          rw [List.append_cons]
          exact ih hnext hrest
      · cases hp

/-- What the listed actions lead to; nothing if one of them is refused. -/
def outcome [∀ s a, Decidable (ok s a)] (s : σ) (actions : List α) : List (α × β) × σ :=
  (replay next ok s actions).getD ([], s)

theorem run_outcome [∀ s a, Decidable (ok s a)] (actions : List α)
    (h : (replay next ok s₀ actions).isSome = true) :
    Run (Fires next ok) s₀ (outcome next ok s₀ actions).1 (outcome next ok s₀ actions).2 := by
  obtain ⟨r, hr⟩ := Option.isSome_iff_exists.mp h
  rw [outcome, hr]
  exact run_replay next ok .nil hr

/-- Some step so far has output `o`. -/
def Observed {γ : Type} (h : List (α × List γ)) (o : γ) : Prop := ∃ l ∈ h, o ∈ l.2

theorem not_observed_nil {γ : Type} {o : γ} : ¬ Observed ([] : List (α × List γ)) o := by
  rintro ⟨_, hl, _⟩
  cases hl

theorem observed_snoc {γ : Type} {h : List (α × List γ)} {l : α × List γ} {o : γ} :
    Observed (h ++ [l]) o ↔ Observed h o ∨ o ∈ l.2 := by
  constructor
  · rintro ⟨l', hl', ho⟩
    rcases List.mem_append.mp hl' with hl' | hl'
    · exact Or.inl ⟨l', hl', ho⟩
    · obtain rfl := List.mem_singleton.mp hl'
      exact Or.inr ho
  · rintro (⟨l', hl', ho⟩ | ho)
    · exact ⟨l', List.mem_append_left _ hl', ho⟩
    · exact ⟨l, List.mem_append_right _ (List.mem_singleton.mpr rfl), ho⟩

instance {γ : Type} [DecidableEq γ] (h : List (α × List γ)) (o : γ) : Decidable (Observed h o) :=
  inferInstanceAs (Decidable (∃ l ∈ h, o ∈ l.2))

end Executable

end Transition
