import Mathlib.Data.List.TakeWhile
import Stencil.Text.Blank
import Stencil.Text.Cut

/-!
# Ends of texts

Blanks that are put around a text are what trimming takes off, and taking a beginning or an end off
undoes putting it on.
-/

namespace Stencil.Text

/-- The visible ASCII characters are not blank. -/
theorem isBlank_of_visible {c : Char} (h : 33 ≤ c.toNat ∧ c.toNat ≤ 126) : isBlank c = false := by
  have hvisible : ¬ isBlank c = true := by
    simp only [isBlank, Bool.or_eq_true, Bool.and_eq_true, decide_eq_true_eq, beq_iff_eq]
    omega
  simpa using hvisible

/-- Trimming stops at the characters at either end that are not blank. -/
theorem trim_of_ends {first last : Char} {cs : List Char} (hfirst : isBlank first = false)
    (hlast : isBlank last = false) : trim (first :: cs ++ [last]) = first :: cs ++ [last] := by
  refine trim_eq_self ?_ ?_
  · simpa using hfirst
  · rw [List.getLast?_concat]
    simpa using hlast

theorem isBlankText_append (front back : List Char) :
    isBlankText (front ++ back) = (isBlankText front && isBlankText back) :=
  List.all_append

theorem trimStart_append_of_isBlankText {before : List Char} (h : isBlankText before = true)
    (cs : List Char) : trimStart (before ++ cs) = trimStart cs :=
  List.dropWhile_append_of_pos (List.all_eq_true.1 h)

theorem trimStart_eq_self {cs : List Char} (h : ∀ c ∈ cs.head?, isBlank c = false) :
    trimStart cs = cs := by
  cases cs with
  | nil => rfl
  | cons c rest => simp [trimStart, h c (by simp)]

/-- Blanks are skipped up to the first other character. -/
theorem trimStart_pad {before cs : List Char} (hbefore : isBlankText before = true)
    (h : ∀ c ∈ cs.head?, isBlank c = false) : trimStart (before ++ cs) = cs := by
  rw [trimStart_append_of_isBlankText hbefore, trimStart_eq_self h]

/-- Only blanks are skipped. -/
theorem exists_append_trimStart (cs : List Char) :
    ∃ blanks, isBlankText blanks = true ∧ cs = blanks ++ trimStart cs :=
  ⟨cs.takeWhile isBlank, List.all_takeWhile, List.takeWhile_append_dropWhile.symm⟩

theorem trimEnd_append_of_isBlankText {after : List Char} (h : isBlankText after = true)
    (cs : List Char) : trimEnd (cs ++ after) = trimEnd cs := by
  have hreverse : isBlankText after.reverse = true := by
    rw [isBlankText, List.all_reverse]
    exact h
  have hstart := trimStart_append_of_isBlankText hreverse cs.reverse
  rw [trimStart, trimStart, ← List.reverse_append] at hstart
  rw [trimEnd, trimEnd, hstart]

theorem trimStart_of_isBlankText {cs : List Char} (h : isBlankText cs = true) :
    trimStart cs = [] := by
  simpa using trimStart_append_of_isBlankText h []

theorem trim_of_isBlankText {cs : List Char} (h : isBlankText cs = true) : trim cs = [] := by
  rw [trim, trimStart_of_isBlankText h, trimEnd_nil]

/-- Blanks around a text are trimmed off. -/
theorem trim_pad {before after : List Char} (hbefore : isBlankText before = true)
    (hafter : isBlankText after = true) (cs : List Char) :
    trim (before ++ cs ++ after) = trim cs := by
  rw [List.append_assoc, trim, trimStart_append_of_isBlankText hbefore, trimStart,
    List.dropWhile_append]
  split
  · -- the text is blank, and so is what follows it
    rename_i hblank
    have hstart : trimStart cs = [] := by simpa [trimStart] using hblank
    rw [trim, hstart]
    exact congrArg trimEnd (trimStart_of_isBlankText hafter)
  · exact trimEnd_append_of_isBlankText hafter (trimStart cs)

/-- Only a blank text is trimmed to nothing. -/
theorem trimEnd_eq_nil_iff {cs : List Char} : trimEnd cs = [] ↔ isBlankText cs = true := by
  rw [trimEnd, List.reverse_eq_nil_iff, List.dropWhile_eq_nil_iff, isBlankText, List.all_eq_true]
  simp

theorem trimEnd_ne_nil {cs : List Char} (h : isBlankText cs = false) : trimEnd cs ≠ [] := by
  rw [Ne, trimEnd_eq_nil_iff, h]
  exact Bool.false_ne_true

/-- The end of a text that is not blank is the end of every text that it closes. -/
theorem trimEnd_append {back : List Char} (h : isBlankText back = false) (front : List Char) :
    trimEnd (front ++ back) = front ++ trimEnd back := by
  have hreverse : ¬ (back.reverse.dropWhile isBlank).isEmpty = true := by
    intro hempty
    rw [List.isEmpty_iff] at hempty
    apply trimEnd_ne_nil h
    rw [trimEnd, hempty, List.reverse_nil]
  rw [trimEnd, trimEnd, List.reverse_append, List.dropWhile_append, if_neg hreverse,
    List.reverse_append, List.reverse_reverse]

/-- Behind a character that is not blank, only the end of a text is trimmed. -/
theorem trim_cons_append {c : Char} {back : List Char} (hc : isBlank c = false)
    (hback : isBlankText back = false) (front : List Char) :
    trim (c :: front ++ back) = c :: front ++ trimEnd back := by
  have hstart : trimStart (c :: front ++ back) = c :: front ++ back := by
    simp [trimStart, hc]
  rw [trim, hstart, trimEnd_append hback]

theorem trim_eq_nil_iff {cs : List Char} : trim cs = [] ↔ isBlankText cs = true := by
  obtain ⟨blanks, hblanks, hcs⟩ := exists_append_trimStart cs
  have hall : isBlankText cs = isBlankText (trimStart cs) := by
    rw [hcs, isBlankText_append, hblanks, Bool.true_and, ← hcs]
  rw [trim, trimEnd_eq_nil_iff, hall]

theorem head_trimStart_not_blank (cs : List Char) :
    ∀ c ∈ (trimStart cs).head?, isBlank c = false := by
  intro c hc
  have hhead := List.head?_dropWhile_not isBlank cs
  rw [trimStart] at hc
  rw [hc] at hhead
  simpa using hhead

theorem last_trimEnd_not_blank (cs : List Char) :
    ∀ c ∈ (trimEnd cs).getLast?, isBlank c = false := by
  intro c hc
  rw [trimEnd, List.getLast?_reverse] at hc
  exact head_trimStart_not_blank cs.reverse c hc

theorem trimEnd_prefix (cs : List Char) : trimEnd cs <+: cs := by
  have hsuffix : cs.reverse.dropWhile isBlank <:+ cs.reverse := List.dropWhile_suffix isBlank
  rw [trimEnd, ← List.reverse_suffix, List.reverse_reverse]
  exact hsuffix

theorem trim_infix (cs : List Char) : trim cs <:+: cs := by
  have hsuffix : trimStart cs <:+ cs := List.dropWhile_suffix isBlank
  have hprefix := trimEnd_prefix (trimStart cs)
  exact hprefix.isInfix.trans hsuffix.isInfix

/-- A trimmed text has no blanks at its ends. -/
theorem trim_trim (cs : List Char) : trim (trim cs) = trim cs := by
  refine trim_eq_self ?_ (last_trimEnd_not_blank (trimStart cs))
  intro c hc
  apply head_trimStart_not_blank cs
  obtain ⟨tail, htail⟩ := List.head?_eq_some_iff.1 hc
  obtain ⟨rest, hrest⟩ := trimEnd_prefix (trimStart cs)
  rw [trim] at htail
  rw [← hrest, htail]
  rfl

theorem dropStart?_append (start cs : List Char) : dropStart? start (start ++ cs) = some cs := by
  simp [dropStart?]

theorem dropEnd?_append (stop cs : List Char) : dropEnd? stop (cs ++ stop) = some cs := by
  simp [dropEnd?]

theorem dropStart?_eq_some {start cs rest : List Char} (h : dropStart? start cs = some rest) :
    cs = start ++ rest := by
  unfold dropStart? at h
  split at h
  · rename_i hstart
    rcases List.isPrefixOf_iff_prefix.1 hstart with ⟨back, rfl⟩
    simpa using h
  · cases h

theorem dropEnd?_eq_some {stop cs rest : List Char} (h : dropEnd? stop cs = some rest) :
    cs = rest ++ stop := by
  unfold dropEnd? at h
  split at h
  · rename_i hstop
    rcases List.isSuffixOf_iff_suffix.1 hstop with ⟨front, rfl⟩
    simpa using h
  · cases h

/-- A text is cut at a mark behind a part without that mark. -/
theorem cutAt_append {mark : Char} {before : List Char} (h : mark ∉ before)
    (behind : List Char) : cutAt mark (before ++ mark :: behind) = some (before, behind) := by
  induction before with
  | nil => simp [cutAt]
  | cons c rest ih =>
    simp only [List.mem_cons, not_or] at h
    rw [List.cons_append, cutAt, if_neg (Ne.symm h.1), ih h.2]
    rfl

theorem cutAt_eq_none_iff {mark : Char} {cs : List Char} : cutAt mark cs = none ↔ mark ∉ cs := by
  induction cs with
  | nil => simp [cutAt]
  | cons c rest ih =>
    by_cases hc : c = mark
    · simp [cutAt, hc]
    · simp [cutAt, hc, ih, Ne.symm hc]

/-- The mark that a text is cut at is the first one. -/
theorem not_mem_of_cutAt {mark : Char} {cs before behind : List Char}
    (h : cutAt mark cs = some (before, behind)) : mark ∉ before := by
  induction cs generalizing before with
  | nil => simp [cutAt] at h
  | cons c rest ih =>
    rw [cutAt] at h
    split at h
    · rcases Prod.mk.inj (Option.some.inj h) with ⟨rfl, -⟩
      simp
    · rename_i hc
      rcases Option.map_eq_some_iff.1 h with ⟨⟨front, back⟩, hfront, heq⟩
      rcases Prod.mk.inj heq with ⟨rfl, rfl⟩
      simpa [Ne.symm hc] using ih hfront

end Stencil.Text
