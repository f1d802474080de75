import TradeOS.Technical.LocalExtrema

/-!
# Heads with shoulders

A head with shoulders is defined by prices: of three local highs in a row, the one in the middle
is the highest and the outer ones are level; mirrored for the lows. The detection walks over the
right triples, but it compares the places of the three extrema, which are ascending, where the
definition compares their prices. So it reports nothing, with every tolerance
(`returns_detectHeadShouldersWith`), and it agrees with the definition for the series that have no
such triple, and for no other: `reportsExactly_iff`.
-/

set_option autoImplicit false

namespace TradeOS.Technical

open Programs CheckedArray

/-! ## The definition -/

/-- A price is at least another one at a top, at most at a bottom. -/
def Leads (top : Bool) (price other : ℚ) : Prop := if top then other ≤ price else price ≤ other

instance (top : Bool) (price other : ℚ) : Decidable (Leads top price other) :=
  inferInstanceAs (Decidable (if top then other ≤ price else price ≤ other))

/-- The extrema of a kind: the local highs for a top, the local lows for a bottom. -/
def extremaOf (top : Bool) (prices : List ℚ) (window : ℕ) : List ℕ :=
  localExtrema (if top then above else below) prices window

/-- Three extrema in a row, whose middle one leads and whose outer prices are level. -/
structure HeadAndShoulders (top : Bool) (prices : List ℚ) (window : ℕ) (tolerance : ℚ)
    (left head right : ℕ) : Prop where
  consecutive : [left, head, right] <:+: extremaOf top prices window
  overLeft : Leads top (priceAt prices head) (priceAt prices left)
  overRight : Leads top (priceAt prices head) (priceAt prices right)
  even : level tolerance (priceAt prices left) (priceAt prices right) = true

/-- The name of a reported pattern. -/
def headShouldersName (top : Bool) : String :=
  if top then "head_and_shoulders_top" else "head_and_shoulders_bottom"

/-- The patterns are those of the definition, each from its left to its right shoulder. -/
def ReportsExactly (patterns : List Pattern) (prices : List ℚ) (window : ℕ) (tolerance : ℚ) :
    Prop :=
  ∀ top left right,
    (∃ pattern ∈ patterns, pattern.name = headShouldersName top ∧ pattern.startIdx = left ∧
        pattern.endIdx = right) ↔
      ∃ head, HeadAndShoulders top prices window tolerance left head right

/-- The series has no head with shoulders, at a top or a bottom. -/
def Shoulderless (prices : List ℚ) (window : ℕ) (tolerance : ℚ) : Prop :=
  ∀ top left head right, ¬ HeadAndShoulders top prices window tolerance left head right

/-! ## The detection -/

/-- Reporting nothing is exact for a series without heads and shoulders only. -/
theorem reportsExactly_nil_iff (prices : List ℚ) (window : ℕ) (tolerance : ℚ) :
    ReportsExactly [] prices window tolerance ↔ Shoulderless prices window tolerance := by
  constructor
  · intro reported top left head right found
    obtain ⟨pattern, listed, -⟩ := (reported top left right).mpr ⟨head, found⟩
    exact absurd listed List.not_mem_nil
  · intro shoulderless top left right
    refine iff_of_false ?_ ?_
    · rintro ⟨pattern, listed, -⟩
      exact absurd listed List.not_mem_nil
    · rintro ⟨head, found⟩
      exact shoulderless top left head right found

/-- **The detection reports the heads with shoulders of a series exactly if there are none.** -/
theorem reportsExactly_iff (prices : List ℚ) (window : ℕ) (tolerance : ℚ) :
    (Returns (detectHeadShouldersWith tolerance prices window) fun patterns =>
        ReportsExactly patterns prices window tolerance) ↔
      Shoulderless prices window tolerance := by
  obtain ⟨patterns, made, rfl⟩ := returns_detectHeadShouldersWith tolerance prices window
  rw [made, returns_ok_iff]
  exact reportsExactly_nil_iff prices window tolerance

/-- Three peaks, the middle one the highest. -/
def threePeaks : List ℚ := [1, 5, 1, 6, 1, 5, 1]

theorem threePeaks_found : HeadAndShoulders true threePeaks 1 (3 / 100) 1 3 5 where
  consecutive := by
    have peaks : extremaOf true threePeaks 1 = [1, 3, 5] := by decide +kernel
    rw [peaks]
  overLeft := by decide +kernel
  overRight := by decide +kernel
  even := by decide +kernel

/-- The three peaks are not reported. -/
theorem threePeaks_unreported :
    ¬ ∀ (prices : List ℚ) (window : ℕ) (tolerance : ℚ), (∀ price ∈ prices, 0 < price) →
      1 ≤ window → Returns (detectHeadShouldersWith tolerance prices window) fun patterns =>
        ReportsExactly patterns prices window tolerance := by
  intro always
  obtain ⟨patterns, made, reported⟩ := always threePeaks 1 (3 / 100) (by decide +kernel) le_rfl
  obtain ⟨_, unmade, rfl⟩ := returns_detectHeadShouldersWith (3 / 100) threePeaks 1
  cases made.symm.trans unmade
  exact (reportsExactly_nil_iff _ _ _).mp reported true 1 3 5 threePeaks_found

end TradeOS.Technical
