import Mathlib.Data.List.Infix
import Stencil.Text.Cut

/-!
# Doubled characters

`cutAtPair` finds the first place where a character stands twice in a row, and `cutAtLastPair` the
last one. Places may overlap: in front of the first place the text together with one more mark
holds no pair, and behind the last place the text with one mark before it holds none.
-/

namespace Stencil.Text

variable {mark : Char} {cs before behind : List Char}

/-- A pair stands at the start of a text or further on. -/
theorem pair_infix_cons_cons {c d : Char} {rest : List Char} :
    [mark, mark] <:+: c :: d :: rest ↔
      (c = mark ∧ d = mark) ∨ [mark, mark] <:+: d :: rest := by
  rw [List.infix_cons_iff]
  simp [List.cons_prefix_cons, eq_comm]

@[simp] theorem not_pair_infix_singleton {c : Char} : ¬ [mark, mark] <:+: [c] := by
  intro h
  have hlength := h.length_le
  simp at hlength

theorem pair_infix_cons_mark :
    [mark, mark] <:+: mark :: cs ↔ cs.head? = some mark ∨ [mark, mark] <:+: cs := by
  cases cs with
  | nil => simp
  | cons c rest => simp [pair_infix_cons_cons]

theorem pair_infix_concat_mark :
    [mark, mark] <:+: cs ++ [mark] ↔ cs.getLast? = some mark ∨ [mark, mark] <:+: cs := by
  have hpair (text : List Char) : [mark, mark] <:+: text.reverse ↔ [mark, mark] <:+: text :=
    @List.reverse_infix Char [mark, mark] text
  rw [← hpair, List.reverse_concat, pair_infix_cons_mark, List.head?_reverse, hpair]

/-- A pair does not reach over another character. -/
theorem pair_infix_append_cons {c : Char} (hc : c ≠ mark) {rest : List Char} :
    [mark, mark] <:+: cs ++ c :: rest ↔ [mark, mark] <:+: cs ∨ [mark, mark] <:+: rest := by
  have hskip : [mark, mark] <:+: c :: rest ↔ [mark, mark] <:+: rest := by
    rw [List.infix_cons_iff, List.cons_prefix_cons]
    constructor
    · rintro (⟨rfl, -⟩ | hrest)
      · exact absurd rfl hc
      · exact hrest
    · exact Or.inr
  induction cs with
  | nil => simp [hskip]
  | cons d cs ih =>
    cases cs with
    | nil => simp [pair_infix_cons_cons, hskip, hc]
    | cons e cs =>
      simp only [List.cons_append] at ih ⊢
      rw [pair_infix_cons_cons, pair_infix_cons_cons, or_assoc]
      exact or_congr_right ih

theorem pair_infix_cons_of_ne {c : Char} (hc : c ≠ mark) :
    [mark, mark] <:+: c :: cs ↔ [mark, mark] <:+: cs := by
  simpa using @pair_infix_append_cons mark [] c hc cs

theorem cutAtPair_eq_none_iff : cutAtPair mark cs = none ↔ ¬ [mark, mark] <:+: cs := by
  fun_induction cutAtPair mark cs with
  | case1 => simp
  | case2 => simp
  | case3 c d rest hmark => simp [pair_infix_cons_cons, hmark]
  | case4 c d rest hmark ih => simp [pair_infix_cons_cons, hmark, ih]

/-- The place that is found is the first one. -/
theorem not_pair_infix_of_cutAtPair (h : cutAtPair mark cs = some (before, behind)) :
    ¬ [mark, mark] <:+: before ++ [mark] := by
  fun_induction cutAtPair mark cs generalizing before with
  | case1 => simp at h
  | case2 => simp at h
  | case3 c d rest hmark =>
    obtain ⟨rfl, rfl⟩ := Prod.mk.inj (Option.some.inj h)
    simp
  | case4 c d rest hmark ih =>
    obtain ⟨⟨front, back⟩, hfront, heq⟩ := Option.map_eq_some_iff.1 h
    obtain ⟨rfl, rfl⟩ := Prod.mk.inj heq
    have hrest := cutAtPair_eq_some hfront
    cases front with
    | nil =>
      -- the mark behind `c` is the first one of the pair that was found
      obtain ⟨rfl, -⟩ := List.cons.inj hrest
      simpa [pair_infix_cons_cons] using fun hc => hmark ⟨hc, rfl⟩
    | cons e front =>
      obtain ⟨rfl, -⟩ := List.cons.inj hrest
      simpa [pair_infix_cons_cons, hmark] using ih hfront

/-- A pair that no other one starts before is found. -/
theorem cutAtPair_append (h : ¬ [mark, mark] <:+: before ++ [mark]) (behind : List Char) :
    cutAtPair mark (before ++ mark :: mark :: behind) = some (before, behind) := by
  induction before with
  | nil => simp [cutAtPair]
  | cons c rest ih =>
    cases rest with
    | nil =>
      have hc : c ≠ mark := by simpa [pair_infix_cons_cons] using h
      simp [cutAtPair, hc]
    | cons d rest =>
      simp only [List.cons_append, pair_infix_cons_cons, not_or] at h
      simpa [cutAtPair, h.1] using ih h.2

/-- A text has one first pair. -/
theorem first_pair_unique {front back : List Char} (h : ¬ [mark, mark] <:+: before ++ [mark])
    (hfront : ¬ [mark, mark] <:+: front ++ [mark])
    (heq : before ++ mark :: mark :: behind = front ++ mark :: mark :: back) :
    before = front ∧ behind = back := by
  have hcut := cutAtPair_append h behind
  rw [heq, cutAtPair_append hfront back] at hcut
  rcases Prod.mk.inj (Option.some.inj hcut) with ⟨hbefore, hbehind⟩
  exact ⟨hbefore.symm, hbehind.symm⟩

/-- What follows a text does not move its first pair. -/
theorem cutAtPair_append_back (h : cutAtPair mark cs = some (before, behind))
    (back : List Char) : cutAtPair mark (cs ++ back) = some (before, behind ++ back) := by
  have hfirst := not_pair_infix_of_cutAtPair h
  rw [cutAtPair_eq_some h]
  simpa using cutAtPair_append hfirst (behind ++ back)

/-- A text that makes no pair, not even with a mark behind it, is passed over. -/
theorem cutAtPair_append_front {front : List Char} (h : ¬ [mark, mark] <:+: front ++ [mark])
    (cs : List Char) :
    cutAtPair mark (front ++ cs) =
      (cutAtPair mark cs).map fun (before, behind) => (front ++ before, behind) := by
  induction front with
  | nil => simp
  | cons c front ih =>
    cases front with
    | nil =>
      have hc : c ≠ mark := by simpa [pair_infix_cons_cons] using h
      cases cs with
      | nil => rfl
      | cons d cs => simp [cutAtPair, hc]
    | cons d front =>
      simp only [List.cons_append, pair_infix_cons_cons, not_or] at h
      have hfront := ih h.2
      simp only [List.cons_append] at hfront ⊢
      rw [cutAtPair, if_neg h.1, hfront, Option.map_map]
      rfl

theorem cutAtLastPair_eq_none_iff : cutAtLastPair mark cs = none ↔ ¬ [mark, mark] <:+: cs := by
  fun_induction cutAtLastPair mark cs with
  | case1 => simp
  | case2 => simp
  | case3 c d rest front back hrest ih => simp_all [pair_infix_cons_cons]
  | case4 c d rest hrest hmark => simp [pair_infix_cons_cons, hmark]
  | case5 c d rest hrest hmark ih => simp_all [pair_infix_cons_cons]

/-- The place that is found is the last one. -/
theorem not_pair_infix_of_cutAtLastPair (h : cutAtLastPair mark cs = some (before, behind)) :
    ¬ [mark, mark] <:+: mark :: behind := by
  fun_induction cutAtLastPair mark cs generalizing before with
  | case1 => simp at h
  | case2 => simp at h
  | case3 c d rest front back hrest ih =>
    obtain ⟨rfl, rfl⟩ := Prod.mk.inj (Option.some.inj h)
    exact ih hrest
  | case4 c d rest hrest hmark =>
    obtain ⟨rfl, rfl⟩ := Prod.mk.inj (Option.some.inj h)
    obtain ⟨rfl, rfl⟩ := hmark
    exact cutAtLastPair_eq_none_iff.1 hrest
  | case5 => simp at h

/-- A pair that no other one starts behind is found. -/
theorem cutAtLastPair_append (h : ¬ [mark, mark] <:+: mark :: behind) (before : List Char) :
    cutAtLastPair mark (before ++ mark :: mark :: behind) = some (before, behind) := by
  have hnone : cutAtLastPair mark (mark :: behind) = none := cutAtLastPair_eq_none_iff.2 h
  induction before with
  | nil => simp [cutAtLastPair, hnone]
  | cons c rest ih =>
    cases rest with
    | nil =>
      rw [List.nil_append] at ih
      rw [List.singleton_append, cutAtLastPair, ih]
    | cons d rest =>
      rw [List.cons_append] at ih
      rw [List.cons_append, List.cons_append, cutAtLastPair, ih]

/-- What stands behind any pair of a text stands behind the first one. -/
theorem suffix_of_cutAtPair_append {front rest : List Char}
    (h : cutAtPair mark (front ++ mark :: mark :: rest) = some (before, behind)) :
    rest <:+ behind := by
  have hcut := cutAtPair_eq_some h
  have hlength : rest.length ≤ behind.length := by
    by_contra hshort
    have hlengths := congrArg List.length hcut
    simp only [List.length_append, List.length_cons] at hlengths
    have hfront : front ++ [mark, mark] <+: front ++ mark :: mark :: rest := ⟨rest, by simp⟩
    have hbefore : before ++ [mark] <+: front ++ mark :: mark :: rest :=
      ⟨mark :: behind, by simp [hcut]⟩
    -- the given pair would start before the first one does
    have hin : front ++ [mark, mark] <+: before ++ [mark] :=
      List.prefix_of_prefix_length_le hfront hbefore (by simp; omega)
    exact not_pair_infix_of_cutAtPair h ((List.suffix_append front _).isInfix.trans hin.isInfix)
  have hrest : rest <:+ front ++ mark :: mark :: rest := ⟨front ++ [mark, mark], by simp⟩
  have hbehind : behind <:+ front ++ mark :: mark :: rest :=
    ⟨before ++ [mark, mark], by simp [hcut]⟩
  exact List.suffix_of_suffix_length_le hrest hbehind hlength

end Stencil.Text
