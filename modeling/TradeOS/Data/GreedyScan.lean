import Mathlib.Data.List.Infix
import Mathlib.Data.List.Chain

/-!
# Greedy scans of a list

A greedy scan goes through a list from the left. Where a block begins it takes the block and
goes on behind it, elsewhere it goes on by one element. The function `hit` says of a list
whether it begins with a block, what is found there, and how many elements the block has
after its first one.

The blocks of a scan are in order and apart, each of them is found at its start, and nothing
is found at a place outside of all blocks (`Covers`). No other list of blocks is of this kind
(`covers_scan_iff`), so that a loop which is a greedy scan is determined by what it finds.
-/

set_option autoImplicit false

namespace TradeOS.GreedyScan

variable {α β : Type}

/-- A block: its first place, the number of elements after the first one, and what was found. -/
structure Block (β : Type) where
  start : ℕ
  further : ℕ
  found : β

/-- The last place of a block. -/
def Block.stop (block : Block β) : ℕ := block.start + block.further

/-- A place is in a block. -/
def Block.Has (block : Block β) (place : ℕ) : Prop := block.start ≤ place ∧ place ≤ block.stop

/-- The scan, at a place of the list, of the elements from there on. The first `skip` of them
are in the block before. -/
def scanFrom (hit : List α → Option (β × ℕ)) (skip place : ℕ) : List α → List (Block β)
  | [] => []
  | x :: rest =>
      match skip with
      | skip + 1 => scanFrom hit skip (place + 1) rest
      | 0 =>
          match hit (x :: rest) with
          | some (found, further) =>
              ⟨place, further, found⟩ :: scanFrom hit further (place + 1) rest
          | none => scanFrom hit 0 (place + 1) rest

/-- The blocks of a list. -/
def scan (hit : List α → Option (β × ℕ)) (xs : List α) : List (Block β) := scanFrom hit 0 0 xs

/-- The blocks cover a list from a place on. -/
structure Covers (hit : List α → Option (β × ℕ)) (xs : List α) (place : ℕ)
    (blocks : List (Block β)) : Prop where
  ordered : blocks.Pairwise fun first second => first.stop < second.start
  within : ∀ block ∈ blocks, place ≤ block.start ∧ block.stop < xs.length
  taken : ∀ block ∈ blocks, hit (xs.drop block.start) = some (block.found, block.further)
  passed : ∀ p, place ≤ p → p < xs.length → (∀ block ∈ blocks, ¬ block.Has p) →
    hit (xs.drop p) = none

/-- A block ends within the list it begins. -/
def Bounded (hit : List α → Option (β × ℕ)) : Prop :=
  ∀ xs found further, hit xs = some (found, further) → further < xs.length

theorem Block.start_le_stop (block : Block β) : block.start ≤ block.stop := Nat.le_add_right _ _

section Equations

variable {hit : List α → Option (β × ℕ)} (place : ℕ) {x : α} {rest : List α}

theorem scanFrom_skip (skip : ℕ) :
    scanFrom hit (skip + 1) place (x :: rest) = scanFrom hit skip (place + 1) rest :=
  rfl

theorem scanFrom_pass (nothing : hit (x :: rest) = none) :
    scanFrom hit 0 place (x :: rest) = scanFrom hit 0 (place + 1) rest := by
  simp only [scanFrom, nothing]

theorem scanFrom_take {found : β} {further : ℕ} (hits : hit (x :: rest) = some (found, further)) :
    scanFrom hit 0 place (x :: rest) =
      ⟨place, further, found⟩ :: scanFrom hit further (place + 1) rest := by
  simp only [scanFrom, hits]

end Equations

section Steps

variable {hit : List α → Option (β × ℕ)} {xs : List α} {place : ℕ} {blocks : List (Block β)}

/-! ## One turn of a scan -/

theorem covers_end (ended : xs.length ≤ place) : Covers hit xs place blocks ↔ blocks = [] := by
  constructor
  · intro covers
    refine List.eq_nil_iff_forall_not_mem.mpr ?_
    intro block member
    obtain ⟨later, inside⟩ := covers.within block member
    have ordered := block.start_le_stop
    omega
  · rintro rfl
    refine ⟨.nil, ?_, ?_, ?_⟩
    · exact fun block member => absurd member List.not_mem_nil
    · exact fun block member => absurd member List.not_mem_nil
    · intro p late inside
      omega

/-- Where nothing is found the scan goes on by one element. -/
theorem covers_pass (nothing : hit (xs.drop place) = none) :
    Covers hit xs place blocks ↔ Covers hit xs (place + 1) blocks := by
  constructor
  · intro covers
    refine ⟨covers.ordered, ?_, covers.taken, fun p late => covers.passed p (by omega)⟩
    intro block member
    obtain ⟨later, inside⟩ := covers.within block member
    refine ⟨lt_of_le_of_ne later ?_, inside⟩
    intro same
    have found := covers.taken block member
    rw [← same, nothing] at found
    cases found
  · intro covers
    refine ⟨covers.ordered, ?_, covers.taken, ?_⟩
    · intro block member
      obtain ⟨later, inside⟩ := covers.within block member
      exact ⟨by omega, inside⟩
    · intro p late inside outside
      rcases Nat.eq_or_lt_of_le late with rfl | later
      · exact nothing
      · exact covers.passed p later inside outside

/-- A block at the place covers the list up to its end, and the others cover what is behind
it. -/
theorem covers_cons_iff {first : Block β} {later : List (Block β)} (start : first.start = place)
    (hits : hit (xs.drop place) = some (first.found, first.further))
    (ends : first.stop < xs.length) :
    Covers hit xs place (first :: later) ↔ Covers hit xs (first.stop + 1) later := by
  have grows := first.start_le_stop
  constructor
  · intro covers
    obtain ⟨apart, ordered⟩ := List.pairwise_cons.mp covers.ordered
    refine ⟨ordered, ?_, ?_, ?_⟩
    · intro next listed
      exact ⟨apart next listed, (covers.within next (List.mem_cons_of_mem first listed)).2⟩
    · exact fun next listed => covers.taken next (List.mem_cons_of_mem first listed)
    · intro p late within outside
      refine covers.passed p (by omega) within ?_
      intro next listed
      rcases List.mem_cons.mp listed with rfl | listed
      · rintro ⟨-, early⟩
        omega
      · exact outside next listed
  · intro covers
    refine ⟨List.pairwise_cons.mpr ⟨?_, covers.ordered⟩, ?_, ?_, ?_⟩
    · intro next listed
      exact (covers.within next listed).1
    · intro block member
      rcases List.mem_cons.mp member with rfl | member
      · exact ⟨start.ge, ends⟩
      · obtain ⟨late, within⟩ := covers.within block member
        exact ⟨by omega, within⟩
    · intro block member
      rcases List.mem_cons.mp member with rfl | member
      · rw [start]
        exact hits
      · exact covers.taken block member
    · intro p late within outside
      refine covers.passed p ?_ within fun block member =>
        outside block (List.mem_cons_of_mem _ member)
      by_contra early
      exact outside _ List.mem_cons_self ⟨by omega, by omega⟩

/-- A place at which something is found is in a block. -/
theorem Covers.exists_has {p : ℕ} {found : β × ℕ} (covers : Covers hit xs place blocks)
    (late : place ≤ p) (inside : p < xs.length) (hits : hit (xs.drop p) = some found) :
    ∃ block ∈ blocks, block.Has p := by
  by_contra outside
  push Not at outside
  have passed := covers.passed p late inside outside
  rw [hits] at passed
  cases passed

/-- The first block begins at the place if something is found there: another block that has
the place would be behind the first one. -/
theorem Covers.start_eq {first : Block β} {later : List (Block β)} {found : β × ℕ}
    (covers : Covers hit xs place (first :: later)) (inside : place < xs.length)
    (hits : hit (xs.drop place) = some found) : first.start = place := by
  obtain ⟨block, member, has⟩ := covers.exists_has (le_refl place) inside hits
  have early := (covers.within first List.mem_cons_self).1
  have before := has.1
  rcases List.mem_cons.mp member with rfl | member
  · omega
  · have behind := (List.pairwise_cons.mp covers.ordered).1 block member
    have grows := first.start_le_stop
    omega

/-- Where a block is found it comes first, and the scan goes on behind it. -/
theorem covers_take (bounded : Bounded hit) (inside : place < xs.length) {found : β}
    {further : ℕ} (hits : hit (xs.drop place) = some (found, further)) :
    Covers hit xs place blocks ↔
      ∃ later, blocks = ⟨place, further, found⟩ :: later ∧
        Covers hit xs (place + further + 1) later := by
  have ends := bounded _ _ _ hits
  rw [List.length_drop] at ends
  have stop : (⟨place, further, found⟩ : Block β).stop < xs.length := by
    show place + further < xs.length
    omega
  constructor
  · intro covers
    cases blocks with
    | nil =>
        obtain ⟨block, member, -⟩ := covers.exists_has (le_refl place) inside hits
        cases member
    | cons first later =>
        have start := covers.start_eq inside hits
        have own := covers.taken first List.mem_cons_self
        rw [start, hits] at own
        obtain ⟨rfl, rfl⟩ : found = first.found ∧ further = first.further := by simpa using own
        subst start
        exact ⟨later, rfl, (covers_cons_iff rfl hits stop).mp covers⟩
  · rintro ⟨later, rfl, covers⟩
    exact (covers_cons_iff rfl hits stop).mpr covers

end Steps

/-! ## The whole scan -/

variable {hit : List α → Option (β × ℕ)} {xs : List α} {blocks : List (Block β)}

/-- The induction is on the elements from the place on; what is skipped of them belongs to the
block before. -/
theorem covers_scanFrom_iff (bounded : Bounded hit) (skip place : ℕ) {rest : List α}
    (suffix : xs.drop place = rest) :
    Covers hit xs (place + skip) blocks ↔ blocks = scanFrom hit skip place rest := by
  induction rest generalizing skip place blocks with
  | nil =>
      have ended : xs.length ≤ place := List.drop_eq_nil_iff.mp suffix
      exact covers_end (by omega)
  | cons x rest ih =>
      have inside : place < xs.length := by
        by_contra ended
        rw [List.drop_eq_nil_of_le (not_lt.mp ended)] at suffix
        cases suffix
      have next : xs.drop (place + 1) = rest := by
        rw [← List.drop_drop, suffix, List.drop_one, List.tail_cons]
      cases skip with
      | succ skip =>
          rw [scanFrom_skip, ← ih skip (place + 1) next, Nat.add_right_comm, Nat.add_assoc]
      | zero =>
          rw [Nat.add_zero]
          cases hits : hit (xs.drop place) with
          | none =>
              rw [covers_pass hits, scanFrom_pass place (suffix ▸ hits), ← ih 0 (place + 1) next,
                Nat.add_zero]
          | some block =>
              obtain ⟨found, further⟩ := block
              rw [covers_take bounded inside hits, scanFrom_take place (suffix ▸ hits)]
              constructor
              · rintro ⟨later, rfl, covers⟩
                rw [Nat.add_right_comm] at covers
                rw [(ih further (place + 1) next).mp covers]
              · rintro rfl
                refine ⟨_, rfl, ?_⟩
                rw [Nat.add_right_comm]
                exact (ih further (place + 1) next).mpr rfl

/-- **The blocks of a scan are the only ones that cover the list.** -/
theorem covers_scan_iff (bounded : Bounded hit) : Covers hit xs 0 blocks ↔ blocks = scan hit xs :=
  covers_scanFrom_iff bounded 0 0 List.drop_zero

theorem covers_scan (bounded : Bounded hit) (xs : List α) : Covers hit xs 0 (scan hit xs) :=
  (covers_scan_iff bounded).mpr rfl

/-- If a block is found at every place, the first one starts behind what is skipped. -/
theorem head_scanFrom (always : ∀ x rest, (hit (x :: rest)).isSome) (skip place : ℕ) :
    ∀ block ∈ (scanFrom hit skip place xs).head?, block.start = place + skip := by
  induction xs generalizing skip place with
  | nil => simp [scanFrom]
  | cons x rest ih =>
      cases skip with
      | succ skip =>
          intro block first
          rw [ih skip (place + 1) block first]
          omega
      | zero =>
          obtain ⟨found, hits⟩ := Option.isSome_iff_exists.mp (always x rest)
          intro block first
          rw [scanFrom_take place hits] at first
          cases first
          rfl

/-- If a block is found at every place, a block starts behind the one before it. -/
theorem isChain_scanFrom (always : ∀ x rest, (hit (x :: rest)).isSome) (skip place : ℕ) :
    (scanFrom hit skip place xs).IsChain fun first second => second.start = first.stop + 1 := by
  induction xs generalizing skip place with
  | nil => exact .nil
  | cons x rest ih =>
      cases skip with
      | succ skip => exact ih skip (place + 1)
      | zero =>
          obtain ⟨found, hits⟩ := Option.isSome_iff_exists.mp (always x rest)
          rw [scanFrom_take place hits]
          refine List.isChain_cons.mpr ⟨?_, ih found.2 (place + 1)⟩
          intro second first
          rw [head_scanFrom always found.2 (place + 1) second first, Block.stop]
          exact Nat.add_right_comm _ _ _

end TradeOS.GreedyScan
