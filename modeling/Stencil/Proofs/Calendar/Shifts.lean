import Stencil.Proofs.Calendar.Civil
import Stencil.Proofs.Namespaces

/-!
# Shifting dates

An instant is shifted by the exact number of seconds or not at all. It is not shifted where the
shift has more milliseconds than a word with a sign can count, or where the result would lie outside
of the years that instants have (`add_exact_or_rejected`).
-/

namespace Stencil

/-! ## The range of instants -/

/-- A later day lies in the same year or a later one. -/
theorem CivilDate.year_ofDay_le {a b : Int} (h : a ≤ b) : (ofDay a).year ≤ (ofDay b).year := by
  rcases Int.lt_or_eq_of_le h with hlt | rfl
  · rcases before_ofDay hlt with hyear | ⟨hyear, -⟩
    · exact Int.le_of_lt hyear
    · exact Int.le_of_eq hyear
  · exact Int.le_refl _

namespace Instant

/-- A second in one of the years that instants have. -/
def InRange (seconds : Int) : Prop :=
  -262143 ≤ (CivilDate.ofDay (seconds / 86400)).year ∧
    (CivilDate.ofDay (seconds / 86400)).year ≤ 262142

/-- The bounds of the seconds are the first and the last second of these years. -/
theorem inRange_iff {seconds : Int} :
    InRange seconds ↔ -8334601228800 ≤ seconds ∧ seconds ≤ 8210266876799 := by
  -- the days around the two bounds
  have hfirst : (CivilDate.ofDay (-96465292)).year = -262143 := by decide
  have hbefore : (CivilDate.ofDay (-96465293)).year = -262144 := by decide
  have hlast : (CivilDate.ofDay 95026236).year = 262142 := by decide
  have hbehind : (CivilDate.ofDay 95026237).year = 262143 := by decide
  unfold InRange
  constructor
  · rintro ⟨hlow, hhigh⟩
    constructor
    · by_contra hseconds
      have hyear := CivilDate.year_ofDay_le (a := seconds / 86400) (b := -96465293) (by omega)
      omega
    · by_contra hseconds
      have hyear := CivilDate.year_ofDay_le (a := 95026237) (b := seconds / 86400) (by omega)
      omega
  · rintro ⟨hlow, hhigh⟩
    have hyear := CivilDate.year_ofDay_le (a := -96465292) (b := seconds / 86400) (by omega)
    have hyear' := CivilDate.year_ofDay_le (a := seconds / 86400) (b := 95026236) (by omega)
    omega

variable {i shifted : Instant} {delta : Int}

/-- Outside of leap seconds an instant is shifted by its seconds, if the result is an instant. -/
theorem shift?_eq (hleap : i.isLeap = false) (delta : Int) :
    i.shift? delta = ofParts? (i.seconds + delta) i.nanos := by
  unfold shift?
  split
  · rename_i hzero
    subst hzero
    rw [Int.add_zero, ofParts?, dif_pos ⟨⟨i.seconds_ge, i.seconds_le⟩, i.nanos_lt, i.leap⟩]
  · rw [if_neg (by simp [hleap])]

theorem exists_of_shift? (hleap : i.isLeap = false) (h : InRange (i.seconds + delta)) :
    ∃ shifted, i.shift? delta = some shifted ∧ shifted.seconds = i.seconds + delta ∧
      shifted.nanos = i.nanos := by
  have hnanos : ¬ 1000000000 ≤ i.nanos := by simpa [isLeap] using hleap
  rw [shift?_eq hleap, ofParts?,
    dif_pos ⟨inRange_iff.1 h, i.nanos_lt, fun hge => absurd hge hnanos⟩]
  exact ⟨_, rfl, rfl, rfl⟩

theorem shift?_eq_none (hleap : i.isLeap = false) (h : ¬ InRange (i.seconds + delta)) :
    i.shift? delta = none := by
  rw [shift?_eq hleap, ofParts?, dif_neg]
  rintro ⟨hseconds, -⟩
  exact h (inRange_iff.2 hseconds)

end Instant

namespace Calendar

/-! ## Calls -/

/-- The names of the units of time with the seconds that they have. -/
def unitLengths : List (String × Int) :=
  [("days", 86400), ("day", 86400), ("hours", 3600), ("hour", 3600), ("minutes", 60),
    ("minute", 60), ("seconds", 1), ("second", 1)]

/-- The call `$date.add(amount, unit)`. -/
def addCall (source : String) (amount : Int) (unit : String) : Call :=
  { ns := "date", member := "add", args := some [Value.ofInt amount, .string unit], source }

/-- The call `$date.now`. -/
def nowCall (source : String) : Call :=
  { ns := "date", member := "now", args := none, source }

/-- An amount of units that an instant can be shifted by: the shift is counted in milliseconds by a
word with a sign, and the result is in one of the years that instants have. -/
structure Reaches (now : Instant) (amount unit : Int) : Prop where
  limit : (amount * unit * 1000).natAbs ≤ 2 ^ 63 - 1
  inRange : Instant.InRange (now.seconds + amount * unit)

variable {format : DateFormat} {now : Instant} {amount seconds : Int} {unit : String}

theorem unitSeconds?_of_mem (h : (unit, seconds) ∈ unitLengths) :
    unitSeconds? unit = some seconds := by
  have hall : ∀ e ∈ unitLengths, unitSeconds? e.1 = some e.2 := by decide
  exact hall _ h

theorem integerAt_addCall (h : IsSignedWord amount) (source unit : String) :
    (addCall source amount unit).integerAt 0 = .ok amount := by
  have hword : (Number.ofInt amount).toInt64? = some amount := by
    rw [Number.ofInt_of_isWordSized h.isWordSized, Number.toInt64?, if_pos h]
  have hwhole : Call.wholeNumber? (Number.ofInt amount) = some amount := by
    rw [Call.wholeNumber?, hword]
  simp [Call.integerAt, addCall, Call.arguments, Value.ofInt, Value.number?, hwhole]

/-- The call shifts the present instant and writes the result. -/
theorem call_addCall (hunit : (unit, seconds) ∈ unitLengths) (h : IsSignedWord amount)
    (source : String) :
    call format now (addCall source amount unit) =
      (shiftBy? now amount seconds).elim
        (Eval.fail (.invalidFunctionCall source .offsetOutOfRange)) (render format) := by
  have harity : (addCall source amount unit).expectArity 2 = .ok () := rfl
  have htext : (addCall source amount unit).textAt 1 = .ok unit := rfl
  have hadd : call format now (addCall source amount unit) =
      add format now (addCall source amount unit) := rfl
  rw [hadd, add, harity, integerAt_addCall h, htext]
  simp only [Eval.ofExcept_ok_bind, unitSeconds?_of_mem hunit]
  cases shiftBy? now amount seconds with
  | none => rfl
  | some shifted => rfl

theorem call_nowCall (source : String) : call format now (nowCall source) = render format now := by
  have hwritten : written? now (nowCall source) = some now := rfl
  exact call_of_written format hwritten

/-! ## Shifts -/

/-- Where the amount reaches an instant, it is the exact one. -/
theorem Reaches.shiftBy? (h : Reaches now amount seconds) (hleap : now.isLeap = false) :
    ∃ shifted, shiftBy? now amount seconds = some shifted ∧
      shifted.seconds = now.seconds + amount * seconds ∧ shifted.nanos = now.nanos := by
  have hlimit : (amount * seconds * 1000).natAbs ≤ shiftLimit := h.limit
  rw [Calendar.shiftBy?, if_pos hlimit]
  exact Instant.exists_of_shift? hleap h.inRange

theorem shiftBy?_eq_none (h : ¬ Reaches now amount seconds) (hleap : now.isLeap = false) :
    shiftBy? now amount seconds = none := by
  rw [shiftBy?]
  split
  · rename_i hlimit
    exact Instant.shift?_eq_none hleap fun hrange => h ⟨hlimit, hrange⟩
  · rfl

/-! ## Shifts in words -/

/-- The product of two words with a sign, if it is such a word itself. -/
def wordProduct? (a b : Int) : Option Int :=
  if IsSignedWord (a * b) then some (a * b) else none

/-- The seconds of an amount of units, where each step stays inside of the words with a sign. -/
def wordSeconds? (amount unit : Int) : Option Int := do
  let seconds ← wordProduct? amount unit
  let millis ← wordProduct? seconds 1000
  if -(2 ^ 63 - 1) ≤ millis then some seconds else none

theorem wordProduct?_eq_some_iff {a b product : Int} :
    wordProduct? a b = some product ↔ IsSignedWord (a * b) ∧ a * b = product := by
  rw [wordProduct?, Option.ite_none_right_eq_some, Option.some.injEq]

/-- No step in words refuses a shift that the bound of milliseconds allows, and none wraps. -/
theorem wordSeconds?_eq_some_iff {unit : Int} :
    wordSeconds? amount unit = some seconds ↔
      (amount * unit * 1000).natAbs ≤ shiftLimit ∧ amount * unit = seconds := by
  have hlimit : shiftLimit = 9223372036854775807 := rfl
  simp only [wordSeconds?, Option.bind_eq_bind, Option.bind_eq_some_iff, wordProduct?_eq_some_iff,
    Option.ite_none_right_eq_some, Option.some.injEq]
  constructor
  · rintro ⟨_, ⟨-, rfl⟩, _, ⟨hword, rfl⟩, hlow, rfl⟩
    exact ⟨by omega, rfl⟩
  · rintro ⟨hbound, rfl⟩
    exact ⟨_, ⟨by omega, rfl⟩, _, ⟨by omega, rfl⟩, by omega, rfl⟩

/-- Shifting by the exact product is shifting by the one that is computed in words. -/
theorem shiftBy?_eq_bind_wordSeconds? (now : Instant) (amount unit : Int) :
    shiftBy? now amount unit = (wordSeconds? amount unit).bind now.shift? := by
  rw [shiftBy?]
  split
  · rename_i hlimit
    rw [wordSeconds?_eq_some_iff.2 ⟨hlimit, rfl⟩, Option.bind_some]
  · rename_i hlimit
    have hnone : wordSeconds? amount unit = none :=
      Option.eq_none_iff_forall_ne_some.2 fun _ h => hlimit (wordSeconds?_eq_some_iff.1 h).1
    rw [hnone, Option.bind_none]

/-! ## What a call gives -/

theorem shiftBy?_eq_of_mul_eq {amount' seconds' : Int}
    (h : amount * seconds = amount' * seconds') :
    shiftBy? now amount seconds = shiftBy? now amount' seconds' := by
  rw [shiftBy?, shiftBy?, h]

theorem exists_text_of_format (hformat : format ≠ .rfc2822) (i : Instant) :
    ∃ text, format.write? i = some text ∧ render format i = pure (.string text) := by
  cases htext : format.write? i with
  | none => exact absurd (DateFormat.write?_eq_none_iff.1 htext).1 hformat
  | some text => exact ⟨text, rfl, by rw [render, htext]⟩

/-- Outside of leap seconds, and in a format that has a text for every instant, shifting the present
instant by an amount of units writes the instant that is exactly this number of seconds away, if the
amount reaches it; no product of the amount leaves the words with a sign then. In all other cases
the call fails, since the offset is out of range. Shifting in words, with each product checked, is
the same. So amounts that have the same seconds, such as one day and 24 hours, have the same
outcome, and shifting by nothing is writing the present instant. -/
theorem add_exact_or_rejected (hformat : format ≠ .rfc2822) (hleap : now.isLeap = false)
    (source : String) :
    (∀ unit seconds amount, (unit, seconds) ∈ unitLengths → IsSignedWord amount →
      (Reaches now amount seconds →
        wordSeconds? amount seconds = some (amount * seconds) ∧
        ∃ shifted text, shifted.seconds = now.seconds + amount * seconds ∧
          shifted.nanos = now.nanos ∧ format.write? shifted = some text ∧
          call format now (addCall source amount unit) = pure (.string text)) ∧
      (¬ Reaches now amount seconds →
        call format now (addCall source amount unit) =
          Eval.fail (.invalidFunctionCall source .offsetOutOfRange))) ∧
      CallFault.message .offsetOutOfRange = "date offset out of range" ∧
      (∀ amount unit, shiftBy? now amount unit = (wordSeconds? amount unit).bind now.shift?) ∧
      (∀ unit seconds amount unit' seconds' amount',
        (unit, seconds) ∈ unitLengths → IsSignedWord amount →
        (unit', seconds') ∈ unitLengths → IsSignedWord amount' →
        amount * seconds = amount' * seconds' →
        call format now (addCall source amount unit) =
          call format now (addCall source amount' unit')) ∧
      ∀ unit seconds, (unit, seconds) ∈ unitLengths →
        call format now (addCall source 0 unit) = call format now (nowCall source) := by
  refine ⟨?_, rfl, shiftBy?_eq_bind_wordSeconds? now, ?_, ?_⟩
  · intro unit seconds amount hunit hamount
    rw [call_addCall hunit hamount]
    refine ⟨fun hreaches => ?_, fun hreaches => ?_⟩
    · obtain ⟨shifted, hshifted, hseconds, hnanos⟩ := hreaches.shiftBy? hleap
      obtain ⟨text, htext, hrender⟩ := exists_text_of_format hformat shifted
      rw [hshifted]
      exact ⟨wordSeconds?_eq_some_iff.2 ⟨hreaches.limit, rfl⟩, shifted, text, hseconds, hnanos,
        htext, hrender⟩
    · rw [shiftBy?_eq_none hreaches hleap]
      rfl
  · intro unit seconds amount unit' seconds' amount' hunit hamount hunit' hamount' hequal
    rw [call_addCall hunit hamount, call_addCall hunit' hamount', shiftBy?_eq_of_mul_eq hequal]
  · intro unit seconds hunit
    have hnothing : shiftBy? now 0 seconds = some now := by
      simp [shiftBy?, Instant.shift?]
    rw [call_addCall hunit (by decide), hnothing, call_nowCall]
    rfl

/-- One second before the last one that instants have: the next second is written, and a number of
days whose seconds no word holds is refused. Wrapped, these seconds would be a few hours before. -/
theorem add_exact_or_rejected_of_last_second :
    let now : Instant := ⟨8210266876798, 999999999, by decide, by decide, by decide, by decide⟩
    DateFormat.iso8601 ≠ .rfc2822 ∧ now.isLeap = false ∧
      call .iso8601 now (addCall "$date.add(1, 'second')" 1 "second") =
        pure (.string "+262142-12-31T23:59:59.999Z") ∧
      call .iso8601 now (addCall "$date.add(213503982334601, 'day')" 213503982334601 "day") =
        Eval.fail (.invalidFunctionCall "$date.add(213503982334601, 'day')" .offsetOutOfRange) := by
  intro now
  have hleap : now.isLeap = false := by decide
  have hformat : DateFormat.iso8601 ≠ .rfc2822 := by decide
  refine ⟨hformat, hleap, ?_, ?_⟩
  · have hreaches : Reaches now 1 1 := ⟨by decide, Instant.inRange_iff.2 (by decide)⟩
    obtain ⟨-, shifted, text, hseconds, hnanos, htext, hcall⟩ :=
      ((add_exact_or_rejected hformat hleap "$date.add(1, 'second')").1 "second" 1 1 (by decide)
        (by decide)).1 hreaches
    have hshifted : shifted =
        ⟨8210266876799, 999999999, by decide, by decide, by decide, by decide⟩ := by
      obtain ⟨seconds, nanos, _, _, _, _⟩ := shifted
      obtain rfl : seconds = 8210266876799 := hseconds
      obtain rfl : nanos = 999999999 := hnanos
      rfl
    have hwritten : DateFormat.iso8601.write? shifted = some "+262142-12-31T23:59:59.999Z" := by
      rw [hshifted]
      decide +kernel
    rw [hcall, ← Option.some.inj (hwritten.symm.trans htext)]
  · have hreaches : ¬ Reaches now 213503982334601 86400 := by
      rintro ⟨-, hrange⟩
      exact absurd (Instant.inRange_iff.1 hrange) (by decide)
    exact ((add_exact_or_rejected hformat hleap "$date.add(213503982334601, 'day')").1 "day" 86400
      213503982334601 (by decide) (by decide)).2 hreaches

end Calendar

end Stencil
