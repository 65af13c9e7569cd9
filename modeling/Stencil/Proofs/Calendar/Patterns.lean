import Stencil.Calendar.Format
import Stencil.Proofs.Text.Replacing

/-!
# Writing by a pattern

The tokens of patterns are rows of different letters, and their texts are digits with a minus at
most. So replacing the tokens one after the other, in any order, is one scan of the pattern
(`formatTokens_eq_scan`).
-/

namespace Stencil

/-! ## Numbers with zeros in front -/

theorem paddedDigits_ne_nil (width n : Nat) : paddedDigits width n ≠ [] := by
  simp [paddedDigits, Nat.toDigits_ne_nil]

theorem isDigit_of_mem_paddedDigits {width n : Nat} {c : Char} (h : c ∈ paddedDigits width n) :
    c.isDigit = true := by
  rcases List.mem_append.1 h with hzeros | hdigits
  · rw [List.eq_of_mem_replicate hzeros]
    decide
  · exact Nat.isDigit_of_mem_toDigits (by decide) (by decide) hdigits

theorem paddedInteger_ne_nil (width : Nat) (n : Int) : paddedInteger width n ≠ [] := by
  unfold paddedInteger
  split
  · exact List.cons_ne_nil _ _
  · exact paddedDigits_ne_nil _ _

theorem mem_paddedInteger {width : Nat} {n : Int} {c : Char} (h : c ∈ paddedInteger width n) :
    c = '-' ∨ c.isDigit = true := by
  unfold paddedInteger at h
  split at h
  · rcases List.mem_cons.1 h with hminus | hdigits
    · exact .inl hminus
    · exact .inr (isDigit_of_mem_paddedDigits hdigits)
  · exact .inr (isDigit_of_mem_paddedDigits h)

/-! ## Tokens -/

variable {i : Instant} {e : List Char × List Char}

theorem exists_letter_of_patternTokens (h : e ∈ patternTokens i) :
    ∃ letter, Text.IsRowOf letter e.1 ∧ letter ≠ '-' ∧ letter.isDigit = false := by
  simp only [patternTokens, List.mem_cons, List.not_mem_nil, or_false] at h
  rcases h with rfl | rfl | rfl | rfl | rfl | rfl
  · exact ⟨'Y', ⟨3, rfl⟩, by decide⟩
  · exact ⟨'M', ⟨1, rfl⟩, by decide⟩
  · exact ⟨'D', ⟨1, rfl⟩, by decide⟩
  · exact ⟨'H', ⟨1, rfl⟩, by decide⟩
  · exact ⟨'m', ⟨1, rfl⟩, by decide⟩
  · exact ⟨'s', ⟨1, rfl⟩, by decide⟩

theorem field_of_patternTokens (h : e ∈ patternTokens i) :
    e.2 ≠ [] ∧ ∀ c ∈ e.2, c = '-' ∨ c.isDigit = true := by
  simp only [patternTokens, List.mem_cons, List.not_mem_nil, or_false] at h
  rcases h with rfl | hdigits
  · exact ⟨paddedInteger_ne_nil _ _, fun c hc => mem_paddedInteger hc⟩
  · obtain ⟨n, hn⟩ : ∃ n, e.2 = paddedDigits 2 n := by
      rcases hdigits with rfl | rfl | rfl | rfl | rfl <;> exact ⟨_, rfl⟩
    rw [hn]
    exact ⟨paddedDigits_ne_nil _ _, fun c hc => .inr (isDigit_of_mem_paddedDigits hc)⟩

theorem independent_patternTokens (i : Instant) : Text.Independent (patternTokens i) where
  row e he := by
    obtain ⟨letter, hrow, -⟩ := exists_letter_of_patternTokens he
    exact ⟨letter, hrow⟩
  letters := by
    have hheads : ((patternTokens i).map fun e => e.1.head?).Nodup := by
      have hletters : (patternTokens i).map (fun e => e.1.head?) =
          [some 'Y', some 'M', some 'D', some 'H', some 'm', some 's'] := rfl
      rw [hletters]
      decide
    exact List.pairwise_map.1 hheads
  ne_nil e he := (field_of_patternTokens he).1
  not_mem e he f hf c hc hfield := by
    obtain ⟨letter, ⟨count, hrow⟩, hminus, hdigit⟩ := exists_letter_of_patternTokens he
    rw [hrow] at hc
    obtain rfl := List.eq_of_mem_replicate hc
    rcases (field_of_patternTokens hf).2 c hfield with hc | hc
    · exact hminus hc
    · rw [hdigit] at hc
      cases hc

/-- Writing by a pattern is one scan of the pattern. -/
theorem toList_formatTokens (i : Instant) (pattern : String) :
    (formatTokens i pattern).toList = Text.replaceEach (patternTokens i) pattern.toList := by
  rw [formatTokens, String.toList_ofList]
  exact (independent_patternTokens i).foldl_replaceAll pattern.toList

/-- Writing by a pattern is one scan of it from left to right: where one of the six tokens stands,
its field is written and the scan goes on behind the token, and every other character is copied. The
tokens can be replaced in any order. What the first of these passes have left is what a scan for
their tokens alone gives, so no pass makes or breaks a token for a later one: the text that is
written for a token is copied by every pass, and no token reaches into it from either side. -/
theorem formatTokens_eq_scan (i : Instant) (pattern : String) :
    patternTokens i =
        [("YYYY".toList, paddedInteger 4 i.date.year), ("MM".toList, paddedDigits 2 i.date.month),
          ("DD".toList, paddedDigits 2 i.date.day), ("HH".toList, paddedDigits 2 i.hour),
          ("mm".toList, paddedDigits 2 i.minute), ("ss".toList, paddedDigits 2 i.second)] ∧
      formatTokens i pattern =
        String.ofList (Text.replaceEach (patternTokens i) pattern.toList) ∧
      (∀ order, order.Perm (patternTokens i) →
        order.foldl (fun text e => Text.replaceAll e.1 e.2 text) pattern.toList =
          Text.replaceEach (patternTokens i) pattern.toList ∧
        ∀ passes, passes <+: order →
          passes.foldl (fun text e => Text.replaceAll e.1 e.2 text) pattern.toList =
            Text.replaceEach passes pattern.toList) ∧
      ∀ e ∈ patternTokens i, ∀ f ∈ patternTokens i, ∀ front back,
        Text.replaceAll e.1 e.2 (front ++ f.2 ++ back) =
          Text.replaceAll e.1 e.2 front ++ f.2 ++ Text.replaceAll e.1 e.2 back := by
  have htokens := independent_patternTokens i
  refine ⟨rfl, ?_, fun order horder => ⟨?_, fun passes hpasses => ?_⟩,
    fun e he f hf front back => ?_⟩
  · rw [← toList_formatTokens, String.ofList_toList]
  · rw [(htokens.perm horder).foldl_replaceAll, htokens.replaceEach_eq_of_perm horder]
  · exact ((htokens.perm horder).sublist hpasses.sublist).foldl_replaceAll _
  · exact htokens.replaceAll_replacement he hf front back

/-- Odd rows of letters, and tokens that meet around one that is replaced first. The passes in the
opposite order give the same text. -/
theorem formatTokens_eq_scan_of_odd_rows :
    let i : Instant := ⟨1706702709, 0, by decide, by decide, by decide, by decide⟩
    let pattern := "MMMmYYYYYDDDHH:mm:ss"
    formatTokens i pattern = "01Mm2024Y31D12:05:09" ∧
      (patternTokens i).reverse.foldl (fun text e => Text.replaceAll e.1 e.2 text) pattern.toList =
        "01Mm2024Y31D12:05:09".toList := by
  intro i pattern
  obtain ⟨htokens, hscan, horder, -⟩ := formatTokens_eq_scan i pattern
  have hfields : patternTokens i =
      [("YYYY".toList, "2024".toList), ("MM".toList, "01".toList), ("DD".toList, "31".toList),
        ("HH".toList, "12".toList), ("mm".toList, "05".toList), ("ss".toList, "09".toList)] := by
    rw [htokens]
    decide +kernel
  have htext : Text.replaceEach (patternTokens i) pattern.toList =
      "01Mm2024Y31D12:05:09".toList := by
    rw [hfields]
    decide +kernel
  rw [hscan, (horder _ (List.reverse_perm _)).1, htext]
  exact ⟨String.ofList_toList, rfl⟩

end Stencil
