/-!
# Finite double-precision numbers

A finite double is a sign and a *rank*: its place when the magnitudes of all finite doubles are
counted up from zero. Every magnitude is a whole multiple of the smallest positive one, the *unit*
`2 ^ -1074`, so ranks turn into exact integers (`unitsOfRank`), and rounding a quotient to the
nearest double is integer arithmetic (`nearestRank`). There are no infinities and no NaN here;
a result that is too large is an absent one.
-/

namespace Stencil

/-- How many ranks have one binary exponent: `2 ^ 52`. -/
abbrev Double.blockSize : Nat := 4503599627370496

/-- A finite double-precision number. The ranks of the first block are the subnormal magnitudes, and
there are 2046 blocks of normal ones. -/
structure Double where
  negative : Bool
  rank : Nat
  rank_lt : rank < 2047 * Double.blockSize
deriving DecidableEq

namespace Double

/-- How many units `2 ^ -1074` the magnitude with the given rank is. -/
def unitsOfRank (rank : Nat) : Nat :=
  if rank < 2 * blockSize then rank
  else (blockSize + rank % blockSize) * Nat.pow 2 (rank / blockSize - 1)

/-- The rank of the magnitude nearest to `n / d` units. A quotient half way between two magnitudes
goes to the one with even rank. The significand keeps 53 bits, and one step of it is one rank. -/
def nearestRank (n d : Nat) : Nat :=
  let shift := (n / d).log2 + 1 - 53
  let step := Nat.pow 2 shift * d
  let significand := n / step
  let excess := n % step
  let roundsUp := step < 2 * excess || (step == 2 * excess && significand % 2 == 1)
  -- rounding up from the last rank of a block gives the first one of the next block
  shift * blockSize + significand + if roundsUp then 1 else 0

/-- Units in one. -/
def unitsInOne : Nat := Nat.pow 2 1074

/-- The number with the given sign and rank, if the rank is that of a finite magnitude. -/
def ofRank? (negative : Bool) (rank : Nat) : Option Double :=
  if h : rank < 2047 * blockSize then some ⟨negative, rank, h⟩ else none

/-- The number with the given sign and rank, or the largest of that sign if the rank is too
large. -/
def ofRank (negative : Bool) (rank : Nat) : Double :=
  ⟨negative, min rank (2047 * blockSize - 1), Nat.lt_of_le_of_lt (Nat.min_le_right ..) (by decide)⟩

/-- The magnitude in units. -/
def units (x : Double) : Nat :=
  unitsOfRank x.rank

/-- The value in units. -/
def signedUnits (x : Double) : Int :=
  if x.negative then -x.units else x.units

/-- Zero without a sign. -/
def zero : Double := ⟨false, 0, by decide⟩

/-- The number nearest to a whole number of units. -/
def ofUnits (units : Int) : Double :=
  ofRank (units < 0) (nearestRank units.natAbs 1)

/-- The number nearest to an integer. -/
def ofInt (n : Int) : Double :=
  ofRank (n < 0) (nearestRank (n.natAbs * unitsInOne) 1)

theorem ofRank?_eq_some_iff {negative : Bool} {rank : Nat} {x : Double} :
    ofRank? negative rank = some x ↔ x.negative = negative ∧ x.rank = rank := by
  unfold ofRank?
  split
  · constructor
    · rintro h
      cases h
      exact ⟨rfl, rfl⟩
    · rintro ⟨rfl, rfl⟩
      rfl
  · constructor
    · simp
    · rintro ⟨_, rfl⟩
      exact absurd x.rank_lt ‹_›

/-- Small ranks count units. -/
theorem unitsOfRank_of_lt {rank : Nat} (h : rank < 2 * blockSize) : unitsOfRank rank = rank := by
  unfold unitsOfRank
  exact if_pos h

end Double

end Stencil
