import Stencil.Failure
import Stencil.Placeholder.Call
import Stencil.Randomness.Entropy

/-!
# Evaluation

Evaluating a placeholder may draw random numbers and advance cycles, so it takes a `World` and gives
one back, also when it fails. What was drawn before a failure stays drawn.
-/

namespace Stencil

/-- What evaluations change: how often each numbered cycle was drawn from, and the entropy. -/
structure World where
  drawn : List Nat
  entropy : Entropy

namespace World

/-- The world before anything is drawn. -/
def ofSeed (seed : Nat) : World :=
  { drawn := [], entropy := Entropy.ofSeed seed }

/-- How often a cycle was drawn from. -/
def draws (cycle : Nat) (w : World) : Nat :=
  w.drawn[cycle]?.getD 0

/-- Adds one to the count at an index. Counts behind the end of the list are zero. -/
def increment : Nat → List Nat → List Nat
  | 0, [] => [1]
  | 0, n :: rest => (n + 1) :: rest
  | i + 1, [] => 0 :: increment i []
  | i + 1, n :: rest => n :: increment i rest

/-- Counts one more draw from a cycle. -/
def countDraw (cycle : Nat) (w : World) : World :=
  { w with drawn := increment cycle w.drawn }

theorem getD_increment (i j : Nat) (counts : List Nat) :
    (increment i counts)[j]?.getD 0 = counts[j]?.getD 0 + if j = i then 1 else 0 := by
  induction i generalizing j counts with
  | zero => cases counts <;> cases j <;> simp [increment]
  | succ i ih => cases counts <;> cases j <;> simp [increment, ih]

/-- A draw counts for its own cycle only. -/
theorem draws_countDraw (cycle other : Nat) (w : World) :
    (w.countDraw cycle).draws other = w.draws other + if other = cycle then 1 else 0 :=
  getD_increment cycle other w.drawn

/-- Draws from the entropy. -/
def random {α : Type} (draw : Entropy → α × Entropy) (w : World) : α × World :=
  let (result, entropy) := draw w.entropy
  (result, { w with entropy })

end World

/-- Why an evaluation stops: with an error for the caller, or because a date lies in a year that its
format has no text for. Nobody handles the latter. -/
inductive Stop where
  | error (e : ResolveError)
  | unwritableYear (year : Int)
deriving DecidableEq, Repr

/-- An evaluation. -/
abbrev Eval (α : Type) : Type :=
  ExceptT Stop (StateM World) α

namespace Eval

/-- An evaluation that fails. -/
def fail {α : Type} (e : ResolveError) : Eval α :=
  throw (.error e)

/-- A result that needs no world. -/
def ofExcept {α : Type} : Except ResolveError α → Eval α
  | .ok a => pure a
  | .error e => fail e

/-- Gives the error of an evaluation as its result. A year that has no text still stops it. -/
def attempt {α : Type} (e : Eval α) : Eval (Except ResolveError α) :=
  tryCatch (Except.ok <$> e) fun
    | .error fault => pure (.error fault)
    | .unwritableYear year => throw (.unwritableYear year)

/-- Draws from the entropy. -/
def random {α : Type} (draw : Entropy → α × Entropy) : Eval α :=
  modifyGet (World.random draw)

end Eval

end Stencil
