import Mathlib.Data.String.Basic
import Stencil.Proofs.Calendar.Civil
import Stencil.Proofs.Calendar.Patterns
import Stencil.Proofs.Namespaces

/-!
# Dates as texts that sort by time

The fixed format of `date.now` and the pattern with the same fields give the same text. Numbers of
one width sort as texts as they do as numbers (`paddedDigits_lt`), so rows of such numbers do
(`rowText_lt`), and the fields of an instant, from the year down to the second, sort by time
(`fields_lt`). So do the texts of these fields (`renderings_agree_and_sort`).
-/

namespace Stencil

/-! ## Numbers of one width -/

theorem append_lt_append_of_lt {a b : List Char} (hlength : a.length = b.length) (h : a < b)
    (x y : List Char) : a ++ x < b ++ y := by
  induction a generalizing b with
  | nil =>
    rw [List.length_nil] at hlength
    rw [List.eq_nil_of_length_eq_zero hlength.symm] at h
    exact absurd h (List.not_lt_nil _)
  | cons c a ih =>
    cases b with
    | nil => cases hlength
    | cons d b =>
      rw [List.cons_append, List.cons_append, List.cons_lt_cons_iff]
      rcases List.cons_lt_cons_iff.1 h with hhead | ⟨rfl, htail⟩
      · exact .inl hhead
      · exact .inr ⟨rfl, ih (Nat.succ.inj hlength) htail⟩

theorem digitChar_lt {a b : Nat} (h : a < b) (hb : b < 10) : a.digitChar < b.digitChar := by
  have hvalues : a.digitChar.toNat < b.digitChar.toNat := by
    rw [Nat.toNat_digitChar_of_lt_ten (by omega), Nat.toNat_digitChar_of_lt_ten hb]
    omega
  exact hvalues

variable {width n a b : Nat}

theorem paddedDigits_one (h : n < 10) : paddedDigits 1 n = [n.digitChar] := by
  simp [paddedDigits, Nat.toDigits_of_lt_base h]

/-- The last digit of a wider number is the rest of a division by ten. -/
theorem paddedDigits_succ (hwidth : 0 < width) (n : Nat) :
    paddedDigits (width + 1) n = paddedDigits width (n / 10) ++ [(n % 10).digitChar] := by
  by_cases h : n < 10
  · have hzero : n / 10 = 0 := Nat.div_eq_of_lt h
    obtain ⟨w, rfl⟩ : ∃ w, width = w + 1 := ⟨width - 1, by omega⟩
    rw [hzero, Nat.mod_eq_of_lt h]
    simp [paddedDigits, Nat.toDigits_of_lt_base h, List.replicate_succ']
  · simp [paddedDigits, Nat.toDigits_of_base_le (by decide : 1 < 10) (Nat.le_of_not_lt h)]

theorem div_ten_lt (h : n < 10 ^ (width + 1)) : n / 10 < 10 ^ width :=
  Nat.div_lt_of_lt_mul (by rwa [← Nat.pow_succ'])

theorem length_paddedDigits (hwidth : 0 < width) (h : n < 10 ^ width) :
    (paddedDigits width n).length = width := by
  induction width, hwidth using Nat.le_induction generalizing n with
  | base => rw [paddedDigits_one h, List.length_singleton]
  | succ width hwidth ih =>
    rw [paddedDigits_succ hwidth, List.length_append, ih (div_ten_lt h), List.length_singleton]

/-- The smaller one of two numbers comes first as a text of their width. -/
theorem paddedDigits_lt (hwidth : 0 < width) (h : a < b) (hb : b < 10 ^ width) :
    paddedDigits width a < paddedDigits width b := by
  induction width, hwidth using Nat.le_induction generalizing a b with
  | base =>
    rw [paddedDigits_one (h.trans hb), paddedDigits_one hb, List.cons_lt_cons_iff]
    exact .inl (digitChar_lt h hb)
  | succ width hwidth ih =>
    have hrest := div_ten_lt hb
    rw [paddedDigits_succ hwidth, paddedDigits_succ hwidth]
    have hdiv : a / 10 < b / 10 ∨ a / 10 = b / 10 ∧ a % 10 < b % 10 := by omega
    rcases hdiv with hlt | ⟨heq, hlast⟩
    · have hlengths :
          (paddedDigits width (a / 10)).length = (paddedDigits width (b / 10)).length := by
        rw [length_paddedDigits hwidth (hlt.trans hrest), length_paddedDigits hwidth hrest]
      exact append_lt_append_of_lt hlengths (ih hlt hrest) _ _
    · have hdigits := digitChar_lt hlast (Nat.mod_lt b (by decide))
      rw [heq]
      exact List.append_left_lt (List.cons_lt_cons_iff.2 (.inl hdigits))

/-! ## Rows of fields -/

/-- Numbers of given widths, with a text behind each. -/
def rowText : List (Nat × List Char) → List Nat → List Char
  | (width, gap) :: shape, n :: fields => paddedDigits width n ++ (gap ++ rowText shape fields)
  | _, _ => []

/-- A number that a width is enough for. -/
def FitsWidth (field : Nat × List Char) (n : Nat) : Prop :=
  0 < field.1 ∧ n < 10 ^ field.1

/-- Rows of numbers sort as texts as they do number by number. -/
theorem rowText_lt {shape : List (Nat × List Char)} {as bs : List Nat}
    (ha : List.Forall₂ FitsWidth shape as) (hb : List.Forall₂ FitsWidth shape bs) (h : as < bs) :
    rowText shape as < rowText shape bs := by
  induction ha generalizing bs with
  | nil =>
    cases hb
    exact absurd h (List.not_lt_nil _)
  | cons hfirst _ ih =>
    cases hb with
    | cons hother hrest =>
      rw [rowText, rowText]
      rcases List.cons_lt_cons_iff.1 h with hlt | ⟨rfl, htail⟩
      · have hlengths := (length_paddedDigits hfirst.1 hfirst.2).trans
          (length_paddedDigits hother.1 hother.2).symm
        exact append_lt_append_of_lt hlengths (paddedDigits_lt hother.1 hlt hother.2) _ _
      · exact List.append_left_lt (List.append_left_lt (ih hrest htail))

namespace Instant

/-- An instant outside of leap seconds, in a year of four digits. -/
structure IsPlain (i : Instant) : Prop where
  not_leap : i.isLeap = false
  year_nonneg : 0 ≤ i.date.year
  year_le : i.date.year ≤ 9999

/-- An earlier instant. -/
def Before (s t : Instant) : Prop :=
  s.seconds < t.seconds ∨ s.seconds = t.seconds ∧ s.nanos < t.nanos

/-- Year, month, day, hour, minute and second. -/
def fields (i : Instant) : List Nat :=
  [i.date.year.natAbs, i.date.month, i.date.day, i.hour, i.minute, i.second]

/-- The widths of the fields, with a mark between date and time. -/
def shape (mark : Char) : List (Nat × List Char) :=
  [(4, ['-']), (2, ['-']), (2, [mark]), (2, [':']), (2, [':']), (2, [])]

variable {i s t : Instant}

theorem secondOfDay_lt (i : Instant) : i.secondOfDay < 86400 := by
  unfold secondOfDay
  omega

theorem fits_fields (h : i.IsPlain) (mark : Char) :
    List.Forall₂ FitsWidth (shape mark) i.fields := by
  have hyear := h.year_nonneg
  have hyear' := h.year_le
  have hdate := CivilDate.isDate_ofDay (i.seconds / 86400)
  have hmonth : i.date.month ≤ 12 := hdate.month_le
  have hday : i.date.day ≤ 31 := hdate.day_le.trans (CivilDate.monthLength_bounds _ _).2
  have hclock := i.secondOfDay_lt
  have htwo : 0 < 2 := Nat.succ_pos 1
  refine .cons ⟨Nat.succ_pos 3, ?_⟩ (.cons ⟨htwo, ?_⟩ (.cons ⟨htwo, ?_⟩
    (.cons ⟨htwo, ?_⟩ (.cons ⟨htwo, ?_⟩ (.cons ⟨htwo, ?_⟩ .nil)))))
  · show i.date.year.natAbs < 10000
    omega
  · show i.date.month < 100
    omega
  · show i.date.day < 100
    omega
  · show i.secondOfDay / 3600 < 100
    omega
  · show i.secondOfDay / 60 % 60 < 100
    omega
  · show i.secondOfDay % 60 < 100
    omega

/-- The fields of a later second are later, compared from the year down. -/
theorem fields_lt (hs : 0 ≤ s.date.year) (h : s.seconds < t.seconds) : s.fields < t.fields := by
  unfold fields
  simp only [List.cons_lt_cons_iff]
  rcases Int.lt_or_eq_of_le (Int.ediv_le_ediv (by decide : (0 : Int) < 86400) (Int.le_of_lt h))
    with hday | hday
  · -- on a later day the date is later
    have hbefore : s.date.Before t.date := CivilDate.before_ofDay hday
    unfold CivilDate.Before at hbefore
    omega
  · have hdate : s.date = t.date := congrArg CivilDate.ofDay hday
    have hclock : s.secondOfDay < t.secondOfDay := by
      unfold secondOfDay
      omega
    rw [hdate]
    unfold hour minute second
    omega

end Instant

/-! ## Texts -/

/-- The text by a pattern with all fields, with a mark between date and time. -/
theorem toList_formatTokens_fields {i : Instant} {pattern : String} {mark : Char}
    (hpattern : pattern.toList = "YYYY-MM-DD".toList ++ mark :: "HH:mm:ss".toList)
    (hmark : mark = 'T' ∨ mark = ' ') (hyear : 0 ≤ i.date.year) :
    (formatTokens i pattern).toList = rowText (Instant.shape mark) i.fields := by
  have hsign : paddedInteger 4 i.date.year = paddedDigits 4 i.date.year.natAbs :=
    if_neg (Int.not_lt.2 hyear)
  rw [toList_formatTokens, hpattern]
  rcases hmark with rfl | rfl
  all_goals
    simp [Text.replaceEach, Text.targetAt?, patternTokens, hsign, rowText, Instant.shape,
      Instant.fields]

theorem toList_isoText {i : Instant} (h : i.IsPlain) :
    i.isoText.toList =
      rowText (Instant.shape 'T') i.fields ++ '.' :: paddedDigits 3 i.millis ++ ['Z'] := by
  have hyear : isoYear i.date.year = paddedDigits 4 i.date.year.natAbs :=
    if_pos ⟨h.year_nonneg, h.year_le⟩
  have hsecond : i.secondWithLeap = i.second := by
    simp [Instant.secondWithLeap, h.not_leap]
  rw [Instant.isoText, String.toList_ofList, hyear, Instant.clockText, hsecond]
  simp [rowText, Instant.shape, Instant.fields]

/-- The fixed format is the pattern with the same fields, and milliseconds behind it. -/
theorem isoText_eq_formatTokens {i : Instant} (h : i.IsPlain) :
    i.isoText =
      formatTokens i "YYYY-MM-DDTHH:mm:ss" ++ "." ++ String.ofList (paddedDigits 3 i.millis) ++
        "Z" := by
  have hpattern : (formatTokens i "YYYY-MM-DDTHH:mm:ss").toList =
      rowText (Instant.shape 'T') i.fields :=
    toList_formatTokens_fields rfl (.inl rfl) h.year_nonneg
  rw [← String.toList_inj, toList_isoText h]
  simp [String.toList_append, hpattern]

/-- The text of the fields is earlier for an earlier second. -/
theorem formatTokens_lt {s t : Instant} (hs : s.IsPlain) (ht : t.IsPlain)
    (h : s.seconds < t.seconds) :
    formatTokens s "YYYY-MM-DD HH:mm:ss" < formatTokens t "YYYY-MM-DD HH:mm:ss" := by
  have htext (i : Instant) (hi : i.IsPlain) : (formatTokens i "YYYY-MM-DD HH:mm:ss").toList =
      rowText (Instant.shape ' ') i.fields :=
    toList_formatTokens_fields rfl (.inr rfl) hi.year_nonneg
  rw [String.lt_iff_toList_lt, htext s hs, htext t ht]
  exact rowText_lt (Instant.fits_fields hs ' ') (Instant.fits_fields ht ' ')
    (Instant.fields_lt hs.year_nonneg h)

/-- The text of the fields does not depend on what is below the second. -/
theorem formatTokens_of_same_second {s t : Instant} (h : s.seconds = t.seconds)
    (pattern : String) : formatTokens s pattern = formatTokens t pattern := by
  have hdate : s.date = t.date := by rw [Instant.date, Instant.date, h]
  have hclock : s.secondOfDay = t.secondOfDay := by
    rw [Instant.secondOfDay, Instant.secondOfDay, h]
  have htokens : patternTokens s = patternTokens t := by
    simp only [patternTokens, Instant.hour, Instant.minute, Instant.second, hdate, hclock]
  rw [formatTokens, formatTokens, htokens]

namespace Calendar

/-- Outside of leap seconds and in years of four digits, the present instant in its fixed format is
its text by the pattern with the same fields, with a point, the milliseconds in three digits and
`Z` behind it. The milliseconds since 1970 are a thousand for each second and those of the second
itself, before 1970 too. The texts by the pattern from the year down to the second do not decrease
as time goes on, and only those of the same second are equal. -/
theorem renderings_agree_and_sort {s t : Instant} (hs : s.IsPlain) (ht : t.IsPlain) :
    (∀ now : Call, now.member = "now" → now.arity = 0 →
      call .iso8601 s now = pure (.string
        (formatTokens s "YYYY-MM-DDTHH:mm:ss" ++ "." ++ String.ofList (paddedDigits 3 s.millis) ++
          "Z"))) ∧
      (s.millis = s.nanos / 1000000 ∧ (paddedDigits 3 s.millis).length = 3) ∧
      (∀ format (timestamp timestampMs : Call),
        timestamp.member = "timestamp" → timestamp.arity = 0 →
        timestampMs.member = "timestampMs" → timestampMs.arity = 0 →
        call format s timestamp = pure (Value.ofInt s.seconds) ∧
          call format s timestampMs = pure (Value.ofInt (1000 * s.seconds + s.millis))) ∧
      (s.Before t →
        formatTokens s "YYYY-MM-DD HH:mm:ss" ≤ formatTokens t "YYYY-MM-DD HH:mm:ss" ∧
        (formatTokens s "YYYY-MM-DD HH:mm:ss" = formatTokens t "YYYY-MM-DD HH:mm:ss" ↔
          s.seconds = t.seconds)) := by
  have hnanos : s.nanos < 1000000000 := by
    have hleap := hs.not_leap
    simpa [Instant.isLeap] using hleap
  have hmillis : s.millis = s.nanos / 1000000 := by
    rw [Instant.millis, Nat.mod_eq_of_lt hnanos]
  refine ⟨fun now hmember harity => ?_, ⟨hmillis, ?_⟩, ?_, fun hbefore => ?_⟩
  · have hwritten : written? s now = some s := by simp [written?, hmember, harity]
    rw [call_of_written .iso8601 hwritten, ← isoText_eq_formatTokens hs]
    rfl
  · have hwidth : s.millis < 10 ^ 3 := by
      show s.millis < 1000
      omega
    exact length_paddedDigits (by decide) hwidth
  · intro format timestamp timestampMs hmember harity hmember' harity'
    have hnone : timestamp.expectNoArguments = .ok () := if_pos harity
    have hnone' : timestampMs.expectNoArguments = .ok () := if_pos harity'
    have hwhole : s.timestampMillis = 1000 * s.seconds + s.millis := by
      rw [Instant.timestampMillis, hmillis]
      omega
    constructor
    · simp only [call, hmember, hnone, Eval.ofExcept_ok_bind]
    · simp only [call, hmember', hnone', Eval.ofExcept_ok_bind, hwhole]
  · rcases hbefore with hlt | ⟨heq, -⟩
    · have htexts := formatTokens_lt hs ht hlt
      exact ⟨le_of_lt htexts, fun h => absurd h (ne_of_lt htexts),
        fun h => absurd h (Int.ne_of_lt hlt)⟩
    · have htexts := formatTokens_of_same_second heq "YYYY-MM-DD HH:mm:ss"
      exact ⟨le_of_eq htexts, fun _ => heq, fun _ => htexts⟩

/-- The last second of February in a year that ends a century, and the first one of March. -/
theorem renderings_agree_and_sort_of_short_february :
    let s : Instant := ⟨-2203891201, 500000000, by decide, by decide, by decide, by decide⟩
    let t : Instant := ⟨-2203891200, 0, by decide, by decide, by decide, by decide⟩
    let now : Call := { ns := "date", member := "now", args := none, source := "$date.now" }
    s.IsPlain ∧ t.IsPlain ∧ s.Before t ∧
      call .iso8601 s now = pure (.string "1900-02-28T23:59:59.500Z") ∧
      formatTokens s "YYYY-MM-DD HH:mm:ss" ≤ formatTokens t "YYYY-MM-DD HH:mm:ss" ∧
      formatTokens s "YYYY-MM-DD HH:mm:ss" ≠ formatTokens t "YYYY-MM-DD HH:mm:ss" := by
  intro s t now
  have hs : s.IsPlain := ⟨by decide, by decide, by decide⟩
  have ht : t.IsPlain := ⟨by decide, by decide, by decide⟩
  have hbefore : s.Before t := .inl (by decide)
  obtain ⟨hnow, -, -, hsort⟩ := renderings_agree_and_sort hs ht
  have htext : formatTokens s "YYYY-MM-DDTHH:mm:ss" ++ "." ++
      String.ofList (paddedDigits 3 s.millis) ++ "Z" = "1900-02-28T23:59:59.500Z" := by
    decide +kernel
  refine ⟨hs, ht, hbefore, ?_, (hsort hbefore).1, ?_⟩
  · rw [hnow now rfl rfl, htext]
  · intro heq
    exact absurd ((hsort hbefore).2.1 heq) (by decide)

end Calendar

end Stencil
