import Mathlib.Data.List.Basic

/-! # Shell words — how a command line is split into its fields

    A shell reads a command line character by character.  Blanks separate
    fields, a single quote opens and closes a run of literal characters, and a
    backslash takes the next character literally.  Quote removal happens on the
    way: the quoting characters never reach a field.

    A field may be spelled in several pieces that touch.  The one notion the
    proofs need is that a text SPELLS a word: wherever the splitter stands
    outside quotes, reading the text adds exactly the word to the field at hand.
    Spellings compose, and a line of spellings with one blank between them is
    split into the words they spell.

    The splitter expands nothing.  A character that the shell would act on by
    itself (an operator, an expansion, a pattern, a double quote) makes it give
    up, so a line it accepts is one on which expansion has nothing to do. -/

namespace Shell

/-- What a character means outside quotes. -/
inductive Role where
  | blank
  | newline
  | quote
  | escape
  | active
  | plain
  deriving DecidableEq

/-- How the next character is read. -/
inductive Mode where
  | unquoted
  | quoted
  | escaped
  deriving DecidableEq

variable {α : Type} (role : α → Role)

/-- One more character of the field at hand, which starts here if none does. -/
def extend (field : Option (List α)) (c : α) : Option (List α) := some (field.getD [] ++ [c])

/-- The fields of the rest of a line.  `field` is the one at hand; there is none
    between fields.  An open quote, a trailing backslash and a character with a
    meaning of its own are errors. -/
def fieldsFrom : Mode → Option (List α) → List α → Option (List (List α))
  | .unquoted, field, [] => some field.toList
  | .quoted, _, [] => none
  | .escaped, _, [] => none
  | .unquoted, field, c :: rest =>
      match role c with
      | .blank => (fieldsFrom .unquoted none rest).map (field.toList ++ ·)
      | .newline => none
      -- an empty pair of quotes is a field
      | .quote => fieldsFrom .quoted (some (field.getD [])) rest
      | .escape => fieldsFrom .escaped field rest
      | .active => none
      | .plain => fieldsFrom .unquoted (extend field c) rest
  | .quoted, field, c :: rest =>
      if role c = .quote then fieldsFrom .unquoted field rest
      else fieldsFrom .quoted (extend field c) rest
  | .escaped, field, c :: rest =>
      -- an escaped newline continues the line and belongs to no field
      if role c = .newline then fieldsFrom .unquoted field rest
      else fieldsFrom .unquoted (extend field c) rest

/-- The fields of a command line. -/
def split (line : List α) : Option (List (List α)) := fieldsFrom role .unquoted none line

/-- Reading the text outside quotes adds the word to the field at hand. -/
def Spells (text word : List α) : Prop :=
  ∀ (field : Option (List α)) (rest : List α),
    fieldsFrom role .unquoted field (text ++ rest)
      = fieldsFrom role .unquoted (some (field.getD [] ++ word)) rest

variable {role}

/-! ## Reading one character -/

theorem fieldsFrom_blank {c : α} (hc : role c = .blank) (field : Option (List α))
    (rest : List α) :
    fieldsFrom role .unquoted field (c :: rest)
      = (split role rest).map (field.toList ++ ·) := by
  simp only [fieldsFrom, hc]
  rfl

theorem fieldsFrom_open {c : α} (hc : role c = .quote) (field : Option (List α))
    (rest : List α) :
    fieldsFrom role .unquoted field (c :: rest)
      = fieldsFrom role .quoted (some (field.getD [])) rest := by
  simp only [fieldsFrom, hc]

theorem fieldsFrom_escape {c d : α} (hc : role c = .escape) (hd : role d ≠ .newline)
    (field : Option (List α)) (rest : List α) :
    fieldsFrom role .unquoted field (c :: d :: rest)
      = fieldsFrom role .unquoted (extend field d) rest := by
  simp only [fieldsFrom, hc, if_neg hd]

theorem fieldsFrom_plain {c : α} (hc : role c = .plain) (field : Option (List α))
    (rest : List α) :
    fieldsFrom role .unquoted field (c :: rest)
      = fieldsFrom role .unquoted (extend field c) rest := by
  simp only [fieldsFrom, hc]

theorem fieldsFrom_close {c : α} (hc : role c = .quote) (field : Option (List α))
    (rest : List α) :
    fieldsFrom role .quoted field (c :: rest) = fieldsFrom role .unquoted field rest := by
  simp only [fieldsFrom, if_pos hc]

theorem fieldsFrom_literal {c : α} (hc : role c ≠ .quote) (field : Option (List α))
    (rest : List α) :
    fieldsFrom role .quoted field (c :: rest)
      = fieldsFrom role .quoted (extend field c) rest := by
  simp only [fieldsFrom, if_neg hc]

/-! ## Spellings -/

/-- A plain character spells itself. -/
theorem spells_plain {c : α} (hc : role c = .plain) : Spells role [c] [c] := by
  intro field rest
  exact fieldsFrom_plain hc field rest

/-- Two spellings that touch spell the two words as one. -/
theorem Spells.append {text₁ text₂ word₁ word₂ : List α} (h₁ : Spells role text₁ word₁)
    (h₂ : Spells role text₂ word₂) : Spells role (text₁ ++ text₂) (word₁ ++ word₂) := by
  intro field rest
  rw [List.append_assoc, h₁, h₂, Option.getD_some, List.append_assoc]

/-- A non-empty run of plain characters spells itself. -/
theorem spells_run {text : List α} (hne : text ≠ []) (hplain : ∀ c ∈ text, role c = .plain) :
    Spells role text text := by
  induction text with
  | nil => exact absurd rfl hne
  | cons c rest ih =>
      have hc : Spells role [c] [c] := spells_plain (hplain c List.mem_cons_self)
      by_cases hrest : rest = []
      · rw [hrest]
        exact hc
      · have hrun := ih hrest (fun d hd => hplain d (List.mem_cons_of_mem c hd))
        exact hc.append hrun

/-- A blank after a spelling ends the field. -/
theorem split_field {text word : List α} {blank : α} (hblank : role blank = .blank)
    (hspells : Spells role text word) (line : List α) :
    split role (text ++ blank :: line) = (split role line).map (word :: ·) := by
  have hread : split role (text ++ blank :: line)
      = fieldsFrom role .unquoted (some word) (blank :: line) := hspells none (blank :: line)
  rw [hread, fieldsFrom_blank hblank]
  rfl

/-- A spelling alone is a line of one field. -/
theorem split_spelling {text word : List α} (hspells : Spells role text word) :
    split role text = some [word] := by
  have hread : split role (text ++ []) = fieldsFrom role .unquoted (some word) [] :=
    hspells none []
  rw [List.append_nil] at hread
  rw [hread, fieldsFrom]
  rfl

/-- SPLITTING UNDOES JOINING: spellings with one blank between them are split
    into the words they spell. -/
theorem split_join {β : Type} {blank : α} (hblank : role blank = .blank)
    {spell : β → List α} {word : β → List α}
    (hspells : ∀ b, Spells role (spell b) (word b)) (items : List β) :
    split role (List.intercalate [blank] (items.map spell)) = some (items.map word) := by
  induction items with
  | nil => rfl
  | cons b rest ih =>
      cases rest with
      | nil =>
          rw [List.map_singleton, List.intercalate_singleton, List.map_singleton]
          exact split_spelling (hspells b)
      | cons d rest =>
          rw [List.map_cons, List.map_cons, List.intercalate_cons_cons, List.append_assoc,
            List.singleton_append, split_field hblank (hspells b), ← List.map_cons, ih]
          rfl

end Shell
