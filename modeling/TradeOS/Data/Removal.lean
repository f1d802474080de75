import Mathlib.Data.List.Infix

/-!
# Removing the occurrences of a word

The occurrences of a word in a text are removed from left to right, without overlaps. The scan
keeps the number of letters that it still has to skip.

A word whose first letter does not come again in it cannot overlap with itself. At the end of a
text it is then removed together with the occurrences before it (`removeFrom_append`). A text that
misses a letter of the word is unchanged (`removeFrom_of_notMem`).
-/

set_option autoImplicit false

namespace TradeOS.Removal

variable {α : Type} [DecidableEq α]

/-- The text without the occurrences of a word, after some letters are skipped. -/
def removeFrom (word : List α) : ℕ → List α → List α
  | _, [] => []
  | skip + 1, _ :: text => removeFrom word skip text
  | 0, letter :: text =>
      if word <+: letter :: text then removeFrom word (word.length - 1) text
      else letter :: removeFrom word 0 text

/-- The text without the occurrences of a word. -/
def removeAll (word text : List α) : List α := removeFrom word 0 text

variable {word : List α}

/-- A text that is skipped to its end. -/
theorem removeFrom_length (text : List α) : removeFrom word text.length text = [] := by
  induction text with
  | nil => rfl
  | cons letter text ih => exact ih

/-- A text without a letter of the word is unchanged. -/
theorem removeAll_of_notMem {letter : α} (inWord : letter ∈ word) {text : List α}
    (absent : letter ∉ text) : removeAll word text = text := by
  unfold removeAll
  induction text with
  | nil => rfl
  | cons first text ih =>
      have apart : ¬ word <+: first :: text := fun occurs => absent (occurs.subset inWord)
      rw [removeFrom, if_neg apart, ih fun member => absent (List.mem_cons_of_mem _ member)]

section Append

variable {first : α} {rest : List α} (once : first ∉ rest)
include once

omit [DecidableEq α] in
/-- A word whose first letter does not come again occurs at no place that reaches into it. -/
theorem prefix_append_iff {text : List α} (nonempty : text ≠ []) :
    (first :: rest) <+: text ++ first :: rest ↔ (first :: rest) <+: text := by
  constructor
  · intro occurs
    by_cases fits : (first :: rest).length ≤ text.length
    · exact (List.prefix_append_right_inj []).mp
        (List.prefix_of_prefix_length_le occurs (List.prefix_append text _) fits)
    · exfalso
      have short : text <+: first :: rest :=
        List.prefix_of_prefix_length_le (List.prefix_append text _) occurs (by omega)
      obtain ⟨tail, split⟩ := short
      obtain ⟨letter, others, rfl⟩ := List.exists_cons_of_ne_nil nonempty
      rw [List.cons_append, List.cons.injEq] at split
      obtain ⟨rfl, split⟩ := split
      -- The letter behind the text is the first letter of the word, and inside it.
      have tailOccurs : tail <+: letter :: rest := by
        refine (List.prefix_append_right_inj (letter :: others)).mp ?_
        rw [List.cons_append, split]
        exact occurs
      cases tail with
      | nil =>
          rw [List.append_nil] at split
          rw [split] at fits
          exact fits le_rfl
      | cons next tail =>
          have same : next = letter := (List.cons_prefix_cons.mp tailOccurs).1
          refine once ?_
          rw [← split, ← same]
          exact List.mem_append_right _ List.mem_cons_self
  · exact fun occurs => occurs.trans (List.prefix_append text _)

theorem removeFrom_append {skip : ℕ} {text : List α} (inside : skip ≤ text.length) :
    removeFrom (first :: rest) skip (text ++ first :: rest) =
      removeFrom (first :: rest) skip text := by
  induction text generalizing skip with
  | nil =>
      obtain rfl : skip = 0 := Nat.le_zero.mp inside
      change removeFrom (first :: rest) 0 (first :: rest) = []
      rw [removeFrom, if_pos (List.prefix_refl _)]
      exact removeFrom_length rest
  | cons letter text ih =>
      cases skip with
      | succ skip => exact ih (Nat.le_of_succ_le_succ inside)
      | zero =>
          have whole := prefix_append_iff once (List.cons_ne_nil letter text)
          rw [List.cons_append] at whole
          rw [List.cons_append, removeFrom, removeFrom]
          by_cases occurs : (first :: rest) <+: letter :: text
          · rw [if_pos occurs, if_pos (whole.mpr occurs)]
            have fits := occurs.length_le
            exact ih (by simpa using fits)
          · rw [if_neg occurs, if_neg fun longer => occurs (whole.mp longer),
              ih (Nat.zero_le _)]

/-- **The word at the end of a text is removed with the others.** -/
theorem removeAll_append (text : List α) :
    removeAll (first :: rest) (text ++ first :: rest) = removeAll (first :: rest) text :=
  removeFrom_append once (Nat.zero_le _)

end Append

end TradeOS.Removal
