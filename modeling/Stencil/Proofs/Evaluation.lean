import Stencil.Evaluation

/-!
# What an evaluation gives

An evaluation is run in a world and gives an outcome and the world behind it. Of a row of two
evaluations the second one is run in the world that the first one left, and not at all if that one
failed (`runIn_bind`). What an evaluation is built from bounds what it can do: one that is built
from results, failures and draws from the entropy changes nothing else of the world, and stops at no
other years than those that are among its failures (`EntropyOnly`).
-/

namespace Stencil.Eval

variable {α β : Type}

/-- The outcome of an evaluation in a world, and the world behind it. -/
def runIn (e : Eval α) (w : World) : Except Stop α × World :=
  e.run.run w

/-- An evaluation is known from what it gives in each world. -/
theorem ext_runIn {e f : Eval α} (h : ∀ w, e.runIn w = f.runIn w) : e = f :=
  funext h

@[simp] theorem runIn_pure (a : α) (w : World) : (pure a : Eval α).runIn w = (.ok a, w) := rfl

@[simp] theorem runIn_fail (e : ResolveError) (w : World) :
    (fail e : Eval α).runIn w = (.error (.error e), w) := rfl

@[simp] theorem runIn_throw (s : Stop) (w : World) :
    (throw s : Eval α).runIn w = (.error s, w) := rfl

@[simp] theorem runIn_ofExcept_ok (a : α) (w : World) :
    (ofExcept (.ok a)).runIn w = (.ok a, w) := rfl

@[simp] theorem runIn_ofExcept_error (e : ResolveError) (w : World) :
    (ofExcept (.error e) : Eval α).runIn w = (.error (.error e), w) := rfl

@[simp] theorem runIn_modifyGet (f : World → α × World) (w : World) :
    (modifyGet f : Eval α).runIn w = (.ok (f w).1, (f w).2) := rfl

@[simp] theorem ofExcept_ok_bind (a : α) (f : α → Eval β) : (ofExcept (.ok a) >>= f) = f a := rfl

@[simp] theorem ofExcept_error_bind (e : ResolveError) (f : α → Eval β) :
    (ofExcept (.error e) >>= f) = fail e := rfl

/-- The second evaluation of a row goes on where the first one ended, unless that one failed. -/
theorem runIn_bind (e : Eval α) (f : α → Eval β) (w : World) :
    (e >>= f).runIn w =
      match e.runIn w with
      | (.ok a, w') => (f a).runIn w'
      | (.error s, w') => (.error s, w') := by
  have hrun : (e >>= f).runIn w =
      (ExceptT.bindCont f (e.runIn w).1).run (e.runIn w).2 := rfl
  rw [hrun]
  rcases e.runIn w with ⟨outcome, w'⟩
  cases outcome with
  | ok a => rfl
  | error s => rfl

/-- Mapping an outcome leaves its failures and the world behind it alone. -/
theorem runIn_map (f : α → β) (e : Eval α) (w : World) :
    (f <$> e).runIn w = ((e.runIn w).1.map f, (e.runIn w).2) := by
  rw [map_eq_pure_bind, runIn_bind]
  rcases e.runIn w with ⟨outcome, w'⟩
  cases outcome with
  | ok a => rfl
  | error s => rfl

/-- A row of two evaluations succeeds if and only if both do. -/
theorem runIn_bind_ok_iff {e : Eval α} {f : α → Eval β} {b : β} {w w' : World} :
    (e >>= f).runIn w = (.ok b, w') ↔
      ∃ a w₁, e.runIn w = (.ok a, w₁) ∧ (f a).runIn w₁ = (.ok b, w') := by
  rw [runIn_bind]
  rcases e.runIn w with ⟨outcome, w₁⟩
  cases outcome with
  | ok a => simp [and_assoc]
  | error s => simp

/-- A row of two evaluations fails as the first one does, or else as the second one. -/
theorem runIn_bind_error_iff {e : Eval α} {f : α → Eval β} {s : Stop} {w w' : World} :
    (e >>= f).runIn w = (.error s, w') ↔
      e.runIn w = (.error s, w') ∨
        ∃ a w₁, e.runIn w = (.ok a, w₁) ∧ (f a).runIn w₁ = (.error s, w') := by
  rw [runIn_bind]
  rcases e.runIn w with ⟨outcome, w₁⟩
  cases outcome with
  | ok a => simp [and_assoc]
  | error s => simp

theorem runIn_map_ok_iff {f : α → β} {e : Eval α} {b : β} {w w' : World} :
    (f <$> e).runIn w = (.ok b, w') ↔ ∃ a, e.runIn w = (.ok a, w') ∧ b = f a := by
  rw [map_eq_pure_bind, runIn_bind_ok_iff]
  constructor
  · rintro ⟨a, w₁, ha, hb⟩
    rcases Prod.mk.inj hb with ⟨hvalue, rfl⟩
    exact ⟨a, ha, (Except.ok.inj hvalue).symm⟩
  · rintro ⟨a, ha, rfl⟩
    exact ⟨a, w', ha, rfl⟩

theorem runIn_map_error_iff {f : α → β} {e : Eval α} {s : Stop} {w w' : World} :
    (f <$> e).runIn w = (.error s, w') ↔ e.runIn w = (.error s, w') := by
  rw [map_eq_pure_bind, runIn_bind_error_iff]
  simp

/-! ## Results that differ -/

theorem pure_inj {a b : α} : (pure a : Eval α) = pure b ↔ a = b := by
  constructor
  · intro h
    have hrun := congrArg (runIn · (World.ofSeed 0)) h
    simpa using hrun
  · rintro rfl
    rfl

theorem fail_inj {d e : ResolveError} : (fail d : Eval α) = fail e ↔ d = e := by
  constructor
  · intro h
    have hrun := congrArg (runIn · (World.ofSeed 0)) h
    simpa using hrun
  · rintro rfl
    rfl

/-- A value is no failure. -/
theorem pure_ne_fail (a : α) (e : ResolveError) : (pure a : Eval α) ≠ fail e := by
  intro h
  have hrun := congrArg (runIn · (World.ofSeed 0)) h
  simp at hrun

/-! ## Evaluations that use entropy only -/

/-- An evaluation that takes nothing of the world but entropy. It may fail with any error, and stop
at the given years. -/
inductive EntropyOnly (years : Int → Prop) : {α : Type} → Eval α → Prop where
  | pure {α : Type} (a : α) : EntropyOnly years (pure a : Eval α)
  | fail {α : Type} (e : ResolveError) : EntropyOnly years (fail e : Eval α)
  | unwritable {α : Type} {year : Int} (hyear : years year) :
      EntropyOnly years (throw (.unwritableYear year) : Eval α)
  | random {α : Type} (draw : Entropy → α × Entropy) : EntropyOnly years (Eval.random draw)
  | bind {α β : Type} {m : Eval α} {f : α → Eval β} (hm : EntropyOnly years m)
      (hf : ∀ a, EntropyOnly years (f a)) : EntropyOnly years (m >>= f)

theorem EntropyOnly.ofExcept {years : Int → Prop} (result : Except ResolveError α) :
    EntropyOnly years (ofExcept result) := by
  cases result with
  | ok a => exact .pure a
  | error e => exact .fail e

/-- Nothing of the world but its entropy changes. -/
theorem EntropyOnly.drawn_eq {years : Int → Prop} {m : Eval α} (h : EntropyOnly years m)
    (w : World) : (m.runIn w).2.drawn = w.drawn := by
  induction h generalizing w with
  | pure a => rfl
  | fail e => rfl
  | unwritable hyear => rfl
  | random draw => rfl
  | bind hm hf ihm ihf =>
    have hfirst := ihm w
    rw [runIn_bind]
    split
    · rename_i a w₁ hrun
      rw [hrun] at hfirst
      exact (ihf a w₁).trans hfirst
    · rename_i s w₁ hrun
      rw [hrun] at hfirst
      exact hfirst

/-- The year that it stops at is one of the given ones. -/
theorem EntropyOnly.of_unwritableYear {years : Int → Prop} {m : Eval α} (h : EntropyOnly years m)
    {w : World} {year : Int} (hstop : (m.runIn w).1 = .error (.unwritableYear year)) :
    years year := by
  -- the induction is on how the evaluation is built, and a row stops in one of its two parts
  induction h generalizing w with
  | pure a => cases hstop
  | fail e => cases hstop
  | unwritable hyear =>
    cases hstop
    exact hyear
  | random draw => cases hstop
  | bind hm hf ihm ihf =>
    rw [runIn_bind] at hstop
    split at hstop
    · rename_i a w₁ hrun
      exact ihf a hstop
    · rename_i s w₁ hrun
      cases hstop
      apply ihm
      rw [hrun]

/-! ## Evaluations that complete -/

/-- An evaluation that gives a value or an error in every world. -/
def Completes (m : Eval α) : Prop :=
  ∀ w year, (m.runIn w).1 ≠ .error (.unwritableYear year)

/-- An outcome is a value or an error if it is no stop at a year. -/
theorem value_or_error_iff {outcome : Except Stop α} :
    ((∃ a, outcome = .ok a) ∨ ∃ e, outcome = .error (.error e)) ↔
      ∀ year, outcome ≠ .error (.unwritableYear year) := by
  rcases outcome with (e | year) | a
  · simp
  · simp
  · simp

theorem EntropyOnly.completes {m : Eval α} (h : EntropyOnly (fun _ => False) m) : Completes m :=
  fun _ _ hstop => h.of_unwritableYear hstop

theorem Completes.bind {m : Eval α} {f : α → Eval β} (hm : Completes m)
    (hf : ∀ a, Completes (f a)) : Completes (m >>= f) := by
  intro w year
  rw [runIn_bind]
  split
  · rename_i a w₁ hrun
    exact hf a w₁ year
  · rename_i s w₁ hrun
    intro hstop
    cases hstop
    apply hm w year
    rw [hrun]

end Stencil.Eval
