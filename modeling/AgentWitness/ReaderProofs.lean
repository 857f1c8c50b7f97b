import Mathlib.Data.List.Basic

/-! # Readers — taking values off the front of a list

    A reader returns a value and what it has not read, or an error.  It READS a
    value from what was written if it takes exactly that off the front of
    anything longer, and finds the end of the input in anything shorter.  A
    reader built from others reads the concatenation of what they read, so both
    halves of the law are proved for the building blocks only. -/

namespace Reader

variable {τ ε α β : Type}

/-- `read` takes `written` off the front of any input, as `value`; an input that
    ends within `written` is refused with `eof`. -/
structure Reads (eof : ε) (read : List τ → Except ε (α × List τ)) (written : List τ)
    (value : α) : Prop where
  whole : ∀ rest, read (written ++ rest) = .ok (value, rest)
  cut : ∀ part, part <+: written → part ≠ written → read part = .error eof

variable {eof : ε} {read : List τ → Except ε (α × List τ)} {written more : List τ} {a : α}
  {b : β}

/-- Nothing is written for a value that is known. -/
theorem Reads.known (b : β) : Reads eof (fun unread : List τ => .ok (b, unread)) [] b where
  whole _ := rfl
  cut _ hpart hne := absurd (List.prefix_nil.mp hpart) hne

/-- A cut of two parts lies in the first one, or behind it in the second. -/
theorem cut_append {part : List τ} (hpart : part <+: written ++ more)
    (hne : part ≠ written ++ more) :
    (part <+: written ∧ part ≠ written)
      ∨ ∃ left, part = written ++ left ∧ left <+: more ∧ left ≠ more := by
  obtain ⟨missing, hmissing⟩ := hpart
  obtain ⟨left, hwritten, hmore⟩ | ⟨left, rfl, hmore⟩ := List.append_eq_append_iff.mp hmissing
  · by_cases hall : part = written
    · refine Or.inr ⟨[], ?_, List.nil_prefix, ?_⟩
      · rw [hall, List.append_nil]
      · intro hnil
        rw [← hnil, List.append_nil] at hne
        exact hne hall
    · exact Or.inl ⟨⟨left, hwritten.symm⟩, hall⟩
  · refine Or.inr ⟨left, rfl, ⟨missing, hmore.symm⟩, ?_⟩
    intro heq
    rw [heq] at hne
    exact hne rfl

/-- One reader after another. -/
theorem Reads.bind (h : Reads eof read written a) {next : α × List τ → Except ε (β × List τ)}
    (hnext : Reads eof (fun unread => next (a, unread)) more b) :
    Reads eof (fun unread => read unread >>= next) (written ++ more) b := by
  constructor
  · intro rest
    rw [List.append_assoc, h.whole]
    exact hnext.whole rest
  · intro part hpart hne
    obtain ⟨hfirst, hshort⟩ | ⟨left, rfl, hleft, hshort⟩ := cut_append hpart hne
    · rw [h.cut part hfirst hshort]
      rfl
    · rw [h.whole]
      exact hnext.cut left hleft hshort

/-- A reader that returns a value made of what the last one read. -/
theorem Reads.last (h : Reads eof read written a) {next : α × List τ → Except ε (β × List τ)}
    (hnext : ∀ unread, next (a, unread) = .ok (b, unread)) :
    Reads eof (fun unread => read unread >>= next) written b := by
  have hknown : Reads eof (fun unread => next (a, unread)) [] b := by
    rw [funext hnext]
    exact .known b
  have hbind := h.bind hknown
  rw [List.append_nil] at hbind
  exact hbind

/-- An input determines what is read off its front. -/
theorem Reads.unique {written' rest rest' : List τ} {a' : α} (h : Reads eof read written a)
    (h' : Reads eof read written' a') (heq : written ++ rest = written' ++ rest') :
    a = a' ∧ rest = rest' := by
  have hread := h.whole rest
  rw [heq, h'.whole rest'] at hread
  obtain ⟨ha, hrest⟩ := Prod.mk.inj (Except.ok.inj hread)
  exact ⟨ha.symm, hrest.symm⟩

end Reader
