import AgentWitness.ShellProofs

/-! # The displayed command — what the user is shown is what will be run

    A signing request names the program that asked for it, as an argument
    vector.  `formatCommand` turns the vector into one line of text.  The text
    is what the user decides on, so two different vectors must never look the
    same.

    The argument: each formatted argument SPELLS the argument for a shell.  A
    bare argument has safe characters only, which are plain.  A quoted one stays
    inside quotes except for its own quotes, and there the text closes the
    quotes, escapes one quote and opens them again.

    A text is a list of UTF-16 code units, so that it may hold lone surrogates,
    as the strings of the source may. -/

namespace Command

open Shell

/-- A string of the source: its UTF-16 code units. -/
abbrev Text := List UInt16

def SPACE : UInt16 := 0x20
def QUOTE : UInt16 := 0x27
def BACKSLASH : UInt16 := 0x5C

/-- The punctuation of `SAFE_ARGUMENT`: `_@%+=:,.`, the slash and the hyphen. -/
def SAFE_PUNCTUATION : Text := [0x5F, 0x40, 0x25, 0x2B, 0x3D, 0x3A, 0x2C, 0x2E, 0x2F, 0x2D]

/-- One unit of the character class of `SAFE_ARGUMENT`. -/
def isSafe (unit : UInt16) : Bool :=
  (0x41 ≤ unit && unit ≤ 0x5A) || (0x61 ≤ unit && unit ≤ 0x7A)
    || (0x30 ≤ unit && unit ≤ 0x39) || SAFE_PUNCTUATION.contains unit

/-- `argument.replaceAll("'", "'\\''")`. -/
def escapeQuotes (argument : Text) : Text :=
  argument.flatMap fun unit =>
    if unit = QUOTE then [QUOTE, BACKSLASH, QUOTE, QUOTE] else [unit]

def formatArgument (argument : Text) : Text :=
  if argument.length = 0 then [QUOTE, QUOTE]
  else if argument.all isSafe then argument
  else QUOTE :: escapeQuotes argument ++ [QUOTE]

/-- Format an argv vector as an unambiguous, compact POSIX shell command. -/
def formatCommand (command : List Text) : Text :=
  List.intercalate [SPACE] (command.map formatArgument)

/-- What a shell acts on outside quotes: its operators, the expansions, the
    double quote, the patterns, comments, tildes and braces. -/
def ACTIVE : Text :=
  [0x7C, 0x26, 0x3B, 0x3C, 0x3E, 0x28, 0x29, 0x24, 0x60, 0x22,
    0x2A, 0x3F, 0x5B, 0x5D, 0x23, 0x7E, 0x21, 0x5E, 0x7B, 0x7D]

/-- What a unit means to a POSIX shell outside quotes. -/
def posixRole (unit : UInt16) : Role :=
  if unit = SPACE || unit = 0x09 then .blank
  else if unit = 0x0A then .newline
  else if unit = QUOTE then .quote
  else if unit = BACKSLASH then .escape
  else if ACTIVE.contains unit then .active
  else .plain

/-! ## The units the formatter writes -/

theorem posixRole_space : posixRole SPACE = .blank := rfl

theorem posixRole_quote : posixRole QUOTE = .quote := rfl

theorem posixRole_backslash : posixRole BACKSLASH = .escape := rfl

/-- Only the single quote quotes. -/
theorem posixRole_eq_quote {unit : UInt16} (h : posixRole unit = .quote) : unit = QUOTE := by
  unfold posixRole at h
  split_ifs at h with h₁ h₂ h₃
  exact h₃

/-- A safe unit is none that the shell treats in a special way. -/
theorem isSafe_special {unit : UInt16} (h : unit ∈ [SPACE, 0x09, 0x0A, QUOTE, BACKSLASH] ++ ACTIVE) :
    isSafe unit = false := by
  have hall : ([SPACE, 0x09, 0x0A, QUOTE, BACKSLASH] ++ ACTIVE).all (fun u => !isSafe u) = true := by
    decide
  have hunit := List.all_eq_true.mp hall unit h
  rw [Bool.not_eq_true'] at hunit
  exact hunit

theorem posixRole_safe {unit : UInt16} (h : isSafe unit = true) : posixRole unit = .plain := by
  have hspecial : unit ∉ [SPACE, 0x09, 0x0A, QUOTE, BACKSLASH] ++ ACTIVE := by
    intro hmem
    rw [isSafe_special hmem] at h
    exact Bool.noConfusion h
  simp only [List.mem_append, List.mem_cons, List.not_mem_nil, or_false, not_or] at hspecial
  obtain ⟨⟨hspace, htab, hnewline, hquote, hbackslash⟩, hactive⟩ := hspecial
  have hactive : ACTIVE.contains unit = false := by
    simpa using hactive
  simp only [posixRole, hspace, htab, hnewline, hquote, hbackslash, hactive]
  rfl

/-! ## One argument -/

/-- Inside quotes, an escaped argument and the closing quote add the argument to
    the field at hand. -/
theorem fieldsFrom_escapeQuotes (argument field rest : Text) :
    fieldsFrom posixRole .quoted (some field) (escapeQuotes argument ++ QUOTE :: rest)
      = fieldsFrom posixRole .unquoted (some (field ++ argument)) rest := by
  induction argument generalizing field with
  | nil =>
      rw [List.append_nil]
      exact fieldsFrom_close posixRole_quote (some field) rest
  | cons unit argument ih =>
      have hfield : field ++ unit :: argument = field ++ [unit] ++ argument := by
        rw [List.append_assoc, List.singleton_append]
      rw [hfield, ← ih]
      by_cases hunit : unit = QUOTE
      · -- close the quotes, escape one quote, open them again
        have hescape : escapeQuotes (unit :: argument)
            = QUOTE :: BACKSLASH :: QUOTE :: QUOTE :: escapeQuotes argument := by
          rw [escapeQuotes, List.flatMap_cons, if_pos hunit]
          rfl
        have hliteral : posixRole QUOTE ≠ .newline := by decide
        rw [hescape, List.cons_append, fieldsFrom_close posixRole_quote, List.cons_append,
          List.cons_append, fieldsFrom_escape posixRole_backslash hliteral, List.cons_append,
          fieldsFrom_open posixRole_quote, hunit]
        rfl
      · have hescape : escapeQuotes (unit :: argument) = unit :: escapeQuotes argument := by
          rw [escapeQuotes, List.flatMap_cons, if_neg hunit]
          rfl
        have hliteral : posixRole unit ≠ .quote := by
          intro h
          exact hunit (posixRole_eq_quote h)
        rw [hescape, List.cons_append, fieldsFrom_literal hliteral]
        rfl

/-- A quoted argument spells the argument. -/
theorem spells_quoted (argument : Text) :
    Spells posixRole (QUOTE :: escapeQuotes argument ++ [QUOTE]) argument := by
  intro field rest
  rw [List.cons_append, List.cons_append, fieldsFrom_open posixRole_quote, List.append_assoc,
    List.singleton_append]
  exact fieldsFrom_escapeQuotes argument (field.getD []) rest

/-- Every argument is spelled by its formatted text. -/
theorem spells_formatArgument (argument : Text) :
    Spells posixRole (formatArgument argument) argument := by
  unfold formatArgument
  split_ifs with hempty hsafe
  · rw [List.length_eq_zero_iff] at hempty
    rw [hempty]
    exact spells_quoted []
  · have hne : argument ≠ [] := by
      intro h
      exact hempty (by rw [h]; rfl)
    refine spells_run hne ?_
    intro unit hunit
    exact posixRole_safe (List.all_eq_true.mp hsafe unit hunit)
  · exact spells_quoted argument

/-! ## The command -/

/-- A shell splits the displayed command into the argument vector. -/
theorem split_formatCommand (command : List Text) :
    split posixRole (formatCommand command) = some command := by
  have hsplit := split_join posixRole_space spells_formatArgument command
  rw [List.map_id'] at hsplit
  exact hsplit

/-- **THE DISPLAYED COMMAND IS UNAMBIGUOUS**: a shell reads exactly the argument
    vector back, whatever strings it holds, so no two vectors are displayed
    alike. -/
theorem formatCommand_unambiguous :
    (∀ command, split posixRole (formatCommand command) = some command)
      ∧ Function.Injective formatCommand := by
  refine ⟨split_formatCommand, ?_⟩
  intro command₁ command₂ heq
  have hsplit := split_formatCommand command₁
  rw [heq, split_formatCommand] at hsplit
  exact (Option.some.inj hsplit).symm

-- `ssh`, an empty argument, and one with a blank and a quote in it
example : formatCommand [[0x73, 0x73, 0x68], [], [0x61, SPACE, QUOTE]]
    = [0x73, 0x73, 0x68, SPACE, QUOTE, QUOTE, SPACE,
        QUOTE, 0x61, SPACE, QUOTE, BACKSLASH, QUOTE, QUOTE, QUOTE] := by decide

end Command
