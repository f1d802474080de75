import Mathlib.Data.List.Infix

/-!
# Wildcard patterns

A pattern of a file name has four kinds of parts: `*` stands for any text, `?` for any
character, a set in brackets for one of its characters (or for none of them, behind an
exclamation mark), and every other character for itself. A bracket that is not closed
stands for itself too.

A text without `*`, `?` and an opening bracket stands for itself (`parse_plain_append`),
and such a text around one star matches what begins and ends with its two parts
(`matches_around_star`).
-/

set_option autoImplicit false

namespace TradeOS.Wildcards

/-- A part of a pattern. A set has ranges of characters. -/
inductive Token where
  | star
  | any
  | oneOf (negated : Bool) (ranges : List (Char × Char))
  | literal (c : Char)

/-- A part that stands for one character accepts it. A star is no such part. -/
def Token.accepts : Token → Char → Bool
  | .star, _ => false
  | .any, _ => true
  | .oneOf negated ranges, c => (ranges.any fun r => decide (r.1 ≤ c ∧ c ≤ r.2)) != negated
  | .literal own, c => own = c

/-- A pattern matches a text. -/
def matchesText : List Token → List Char → Bool
  | [], cs => cs.isEmpty
  | .star :: tokens, cs => cs.tails.any (matchesText tokens)
  | token :: tokens, cs =>
      match cs with
      | [] => false
      | c :: rest => token.accepts c && matchesText tokens rest

/-! ## Parsing -/

/-- The characters up to a closing bracket, and those behind it. -/
def splitAtClose : List Char → Option (List Char × List Char)
  | [] => none
  | c :: cs =>
      if c = ']' then some ([], cs)
      else (splitAtClose cs).map fun parts => (c :: parts.1, parts.2)

/-- The body of a set: its first character does not close it. -/
def bracketBody : List Char → Option (List Char × List Char)
  | [] => none
  | c :: cs => (splitAtClose cs).map fun parts => (c :: parts.1, parts.2)

/-- The ranges of a body; a character of its own is a range too. -/
def rangesOf : List Char → List (Char × Char)
  | a :: '-' :: b :: rest => (a, b) :: rangesOf rest
  | a :: rest => (a, a) :: rangesOf rest
  | [] => []

/-- The set behind an opening bracket, if it is closed. -/
def bracketSet (cs : List Char) : Option (Token × List Char) :=
  match cs with
  | '!' :: rest => (bracketBody rest).map fun parts => (.oneOf true (rangesOf parts.1), parts.2)
  | _ => (bracketBody cs).map fun parts => (.oneOf false (rangesOf parts.1), parts.2)

/-- The parts of a pattern, with as many turns as it has characters. -/
def parseFrom : ℕ → List Char → List Token
  | 0, _ => []
  | _, [] => []
  | turns + 1, c :: cs =>
      if c = '*' then .star :: parseFrom turns cs
      else if c = '?' then .any :: parseFrom turns cs
      else if c = '[' then
        match bracketSet cs with
        | some (set, rest) => set :: parseFrom turns rest
        | none => .literal '[' :: parseFrom turns cs
      else .literal c :: parseFrom turns cs

/-- The parts of a pattern. -/
def parse (pattern : List Char) : List Token := parseFrom pattern.length pattern

/-! ## Texts that stand for themselves -/

/-- A text without a special character. -/
def Plain (cs : List Char) : Prop := ∀ c ∈ cs, c ≠ '*' ∧ c ≠ '?' ∧ c ≠ '['

instance (cs : List Char) : Decidable (Plain cs) :=
  List.decidableBAll (fun c => c ≠ '*' ∧ c ≠ '?' ∧ c ≠ '[') cs

theorem parse_plain_cons {c : Char} (plain : c ≠ '*' ∧ c ≠ '?' ∧ c ≠ '[') (cs : List Char) :
    parse (c :: cs) = .literal c :: parse cs := by
  rw [parse, List.length_cons, parseFrom, if_neg plain.1, if_neg plain.2.1, if_neg plain.2.2]
  rfl

theorem parse_star_cons (cs : List Char) : parse ('*' :: cs) = .star :: parse cs := by
  rw [parse, List.length_cons, parseFrom, if_pos rfl]
  rfl

theorem parse_plain_append {text : List Char} (plain : Plain text) (cs : List Char) :
    parse (text ++ cs) = text.map .literal ++ parse cs := by
  induction text with
  | nil => rfl
  | cons c text ih =>
      rw [List.cons_append, parse_plain_cons (plain c List.mem_cons_self),
        ih fun other member => plain other (List.mem_cons_of_mem c member)]
      rfl

theorem parse_plain {text : List Char} (plain : Plain text) : parse text = text.map .literal := by
  have whole := parse_plain_append plain []
  rw [List.append_nil] at whole
  rw [whole]
  exact List.append_nil _

/-! ## What matches -/

theorem matchesText_literals_append (text : List Char) (tokens : List Token) (cs : List Char) :
    matchesText (text.map .literal ++ tokens) cs = true ↔
      ∃ rest, cs = text ++ rest ∧ matchesText tokens rest = true := by
  induction text generalizing cs with
  | nil => simp
  | cons c text ih =>
      cases cs with
      | nil => simp [matchesText]
      | cons d cs =>
          simp only [List.map_cons, List.cons_append, matchesText, Token.accepts,
            Bool.and_eq_true, decide_eq_true_eq, ih, List.cons.injEq]
          constructor
          · rintro ⟨rfl, rest, same, found⟩
            exact ⟨rest, ⟨rfl, same⟩, found⟩
          · rintro ⟨rest, ⟨rfl, same⟩, found⟩
            exact ⟨rfl, rest, same, found⟩

theorem matchesText_literals (text cs : List Char) :
    matchesText (text.map .literal) cs = true ↔ cs = text := by
  have whole := matchesText_literals_append text [] cs
  rw [List.append_nil] at whole
  rw [whole]
  simp [matchesText, List.isEmpty_iff]

theorem matchesText_star (tokens : List Token) (cs : List Char) :
    matchesText (.star :: tokens) cs = true ↔
      ∃ skipped rest, cs = skipped ++ rest ∧ matchesText tokens rest = true := by
  rw [matchesText, List.any_eq_true]
  constructor
  · rintro ⟨rest, suffix, found⟩
    obtain ⟨skipped, rfl⟩ := (List.mem_tails _ _).mp suffix
    exact ⟨skipped, rest, rfl, found⟩
  · rintro ⟨skipped, rest, rfl, found⟩
    exact ⟨rest, (List.mem_tails _ _).mpr ⟨skipped, rfl⟩, found⟩

/-- **Two plain texts around a star** match what begins with the first and ends with the
second. -/
theorem matches_around_star {first second : List Char} (plain : Plain first)
    (plain' : Plain second) (cs : List Char) :
    matchesText (parse (first ++ '*' :: second)) cs = true ↔
      ∃ middle, cs = first ++ middle ++ second := by
  rw [parse_plain_append plain, parse_star_cons, parse_plain plain', matchesText_literals_append]
  constructor
  · rintro ⟨rest, rfl, found⟩
    obtain ⟨middle, tail, rfl, ending⟩ := (matchesText_star _ _).mp found
    rw [(matchesText_literals _ _).mp ending]
    exact ⟨middle, (List.append_assoc _ _ _).symm⟩
  · rintro ⟨middle, rfl⟩
    refine ⟨middle ++ second, List.append_assoc _ _ _, (matchesText_star _ _).mpr ?_⟩
    exact ⟨middle, second, rfl, (matchesText_literals _ _).mpr rfl⟩

end TradeOS.Wildcards
