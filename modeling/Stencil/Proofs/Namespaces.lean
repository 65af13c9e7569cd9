import Stencil.Proofs.Evaluation
import Stencil.Template.Resolver

/-!
# What the namespaces use

Calls of the standard namespaces other than `faker` take nothing of the world but entropy. Of these
only a call of `date` can stop at a year: one that writes an instant in the date format, and the
year is the one of that instant.
-/

namespace Stencil

variable {years : Int → Prop}

open Eval

namespace Arithmetic

theorem entropyOnly_randomBetween (call : Call) (min max : Int) :
    EntropyOnly years (randomBetween call min max) := by
  unfold randomBetween
  split
  · exact .random _
  · exact .ofExcept _

theorem entropyOnly_random (call : Call) : EntropyOnly years (random call) := by
  unfold random
  split
  · exact .random _
  · split
    · exact (EntropyOnly.ofExcept _).bind fun min =>
        (EntropyOnly.ofExcept _).bind fun max => entropyOnly_randomBetween call min max
    · exact .ofExcept _

theorem entropyOnly_call (c : Call) : EntropyOnly years (call c) := by
  unfold call
  split
  · exact entropyOnly_random c
  all_goals exact .ofExcept _

end Arithmetic

namespace Randomness

theorem entropyOnly_text (alphabet : String) (call : Call) :
    EntropyOnly years (text alphabet call) := by
  refine (EntropyOnly.ofExcept _).bind fun _ => (EntropyOnly.ofExcept _).bind fun _ => ?_
  split
  · exact .ofExcept _
  · split
    · exact .ofExcept _
    · exact .random _

theorem entropyOnly_pick (call : Call) : EntropyOnly years (pick call) := by
  unfold pick
  split
  · exact .ofExcept _
  · exact .random _

theorem entropyOnly_call (alphabet : String) (c : Call) :
    EntropyOnly years (call alphabet c) := by
  unfold call
  split
  · exact (EntropyOnly.ofExcept _).bind fun _ => .random _
  · exact entropyOnly_text alphabet c
  · exact (EntropyOnly.ofExcept _).bind fun _ => (EntropyOnly.ofExcept _).bind fun min =>
      (EntropyOnly.ofExcept _).bind fun max => Arithmetic.entropyOnly_randomBetween c min max
  · exact (EntropyOnly.ofExcept _).bind fun _ => .random _
  · exact entropyOnly_pick c
  · exact .ofExcept _

end Randomness

theorem Environment.entropyOnly_call (env : Environment) (c : Call) :
    EntropyOnly years (env.call c) := by
  refine (EntropyOnly.ofExcept _).bind fun _ => ?_
  split
  · exact .pure _
  · exact .fail _

/-! ## Dates -/

/-- A format has a text for every instant, apart from one format and the years that do not have four
digits. -/
theorem DateFormat.write?_eq_none_iff {format : DateFormat} {i : Instant} :
    format.write? i = none ↔ format = .rfc2822 ∧ ¬ (0 ≤ i.date.year ∧ i.date.year ≤ 9999) := by
  cases format with
  | iso8601 => simp [write?]
  | timestamp => simp [write?]
  | rfc2822 => simp [write?, Instant.mailText?]

namespace Calendar

variable {format : DateFormat} {now i : Instant} {c : Call}

/-- The instant that a call writes in the date format: the present one, or the one that it is
shifted to. -/
def written? (now : Instant) (call : Call) : Option Instant :=
  match call.member with
  | "now" => if call.arity = 0 then some now else none
  | "add" =>
    match call.expectArity 2, call.integerAt 0, call.textAt 1 with
    | .ok (), .ok amount, .ok unit => (unitSeconds? unit).bind (shiftBy? now amount)
    | _, _, _ => none
  | _ => none

/-- The years that a call can stop at. -/
def UnwritableYears (format : DateFormat) (now : Instant) (call : Call) (year : Int) : Prop :=
  ∃ i, written? now call = some i ∧ format.write? i = none ∧ i.date.year = year

theorem entropyOnly_render (h : written? now c = some i) :
    EntropyOnly (UnwritableYears format now c) (render format i) := by
  unfold render
  split
  · exact .pure _
  · rename_i hnone
    exact .unwritable ⟨i, h, hnone, rfl⟩

theorem entropyOnly_add (hmember : c.member = "add") :
    EntropyOnly (UnwritableYears format now c) (add format now c) := by
  -- what is written depends on the arguments, so these are read first
  cases harity : c.expectArity 2 with
  | error e => simpa [add, harity] using EntropyOnly.fail e
  | ok _ =>
    cases hamount : c.integerAt 0 with
    | error e => simpa [add, harity, hamount] using EntropyOnly.fail e
    | ok amount =>
      cases htext : c.textAt 1 with
      | error e => simpa [add, harity, hamount, htext] using EntropyOnly.fail e
      | ok unit =>
        have hwritten : written? now c = (unitSeconds? unit).bind (shiftBy? now amount) := by
          simp [written?, hmember, harity, hamount, htext]
        simp only [add, harity, hamount, htext, ofExcept_ok_bind]
        split
        · exact .ofExcept _
        · rename_i seconds hseconds
          split
          · exact .ofExcept _
          · rename_i shifted hshifted
            apply entropyOnly_render
            rw [hwritten, hseconds]
            exact hshifted

/-- A call stops at no other years than that of the instant that it writes. -/
theorem entropyOnly_call (format : DateFormat) (now : Instant) (c : Call) :
    EntropyOnly (UnwritableYears format now c) (call format now c) := by
  unfold call
  split
  · rename_i hmember
    by_cases harity : c.arity = 0
    · have hnone : c.expectNoArguments = .ok () := if_pos harity
      rw [hnone, ofExcept_ok_bind]
      apply entropyOnly_render
      simp [written?, hmember, harity]
    · have hrefused : c.expectNoArguments = c.error (.takesNoArguments c.member) := if_neg harity
      rw [hrefused]
      exact .fail _
  · exact (EntropyOnly.ofExcept _).bind fun _ => .pure _
  · exact (EntropyOnly.ofExcept _).bind fun _ => .pure _
  · exact (EntropyOnly.ofExcept _).bind fun _ => (EntropyOnly.ofExcept _).bind fun _ => .pure _
  · rename_i hmember
    exact entropyOnly_add hmember
  · exact .ofExcept _

/-- A call that writes an instant does nothing else. -/
theorem call_of_written (format : DateFormat) (h : written? now c = some i) :
    call format now c = render format i := by
  unfold written? at h
  split at h
  · rename_i hmember
    split at h
    · rename_i harity
      cases h
      have hnone : c.expectNoArguments = .ok () := if_pos harity
      simp [call, hmember, hnone]
    · cases h
  · rename_i hmember
    split at h
    · rename_i amount unit harity hamount htext
      rcases Option.bind_eq_some_iff.1 h with ⟨seconds, hseconds, hshifted⟩
      simp [call, hmember, add, harity, hamount, htext, hseconds, hshifted]
    · cases h
  · cases h

/-- A call stops at the year of the instant that it writes if the format has no text for it, and
completes in all other cases. -/
theorem runIn_call_unwritableYear_iff {w : World} {year : Int} :
    ((call format now c).runIn w).1 = .error (.unwritableYear year) ↔
      UnwritableYears format now c year := by
  constructor
  · intro hstop
    exact (entropyOnly_call format now c).of_unwritableYear hstop
  · rintro ⟨i, hwritten, hnone, rfl⟩
    rw [call_of_written format hwritten, render, hnone]
    rfl

end Calendar

end Stencil
