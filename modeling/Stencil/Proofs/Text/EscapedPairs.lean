import Stencil.Proofs.Text.Pairs

/-!
# Backslashes before doubled braces

A text is escaped by writing a backslash in front of each pair of opening braces, found from left to
right without overlap. What stands in front of the first pair stays as it is, and so do all closing
braces. Behind the escaped text, a pair of braces is escaped if and only if an even number of braces
stands right before it.
-/

namespace Stencil.Text

/-- The text with a backslash in front of each pair of opening braces. -/
def escapePairs : List Char → List Char
  | [] => []
  | [c] => [c]
  | c :: d :: rest =>
    if c = '{' ∧ d = '{' then '\\' :: '{' :: '{' :: escapePairs rest
    else c :: escapePairs (d :: rest)

/-- How often a character stands in a row at the end of a text that follows `run` of them. -/
def endRunFrom (mark : Char) (run : Nat) (cs : List Char) : Nat :=
  cs.foldl (fun run c => if c = mark then run + 1 else 0) run

/-- How often a character stands in a row at the end of a text. -/
def endRun (mark : Char) (cs : List Char) : Nat :=
  endRunFrom mark 0 cs

variable {mark : Char} {cs before : List Char}

theorem escapePairs_of_clean (h : ¬ ['{', '{'] <:+: cs) : escapePairs cs = cs := by
  fun_induction escapePairs cs with
  | case1 => rfl
  | case2 => rfl
  | case3 c d rest hpair =>
    rw [pair_infix_cons_cons] at h
    exact absurd (Or.inl hpair) h
  | case4 c d rest hpair ih =>
    rw [pair_infix_cons_cons, not_or] at h
    rw [ih h.2]

/-- The first pair of a text is escaped, and then those behind it. -/
theorem escapePairs_append_pair (h : ¬ ['{', '{'] <:+: before ++ ['{']) (rest : List Char) :
    escapePairs (before ++ '{' :: '{' :: rest) =
      before ++ '\\' :: '{' :: '{' :: escapePairs rest := by
  induction before with
  | nil => simp [escapePairs]
  | cons c before ih =>
    cases before with
    | nil =>
      have hc : c ≠ '{' := by simpa [pair_infix_cons_cons] using h
      simp [escapePairs, hc]
    | cons d before =>
      simp only [List.cons_append, pair_infix_cons_cons, not_or] at h
      have hrest := ih h.2
      simp only [List.cons_append] at hrest ⊢
      rw [escapePairs, if_neg h.1, hrest]

/-- No pair reaches over another character, so a text is escaped on either side of it. -/
theorem escapePairs_append_cons {c : Char} (hc : c ≠ '{') (cs rest : List Char) :
    escapePairs (cs ++ c :: rest) = escapePairs cs ++ c :: escapePairs rest := by
  have hskip (rest : List Char) : escapePairs (c :: rest) = c :: escapePairs rest := by
    cases rest with
    | nil => rfl
    | cons d rest => simp [escapePairs, hc]
  fun_induction escapePairs cs with
  | case1 => exact hskip rest
  | case2 d => simp [escapePairs, hc, hskip]
  | case3 d e cs hpair ih =>
    rw [List.cons_append, List.cons_append, escapePairs, if_pos hpair, ih]
    rfl
  | case4 d e cs hpair ih =>
    rw [List.cons_append, List.cons_append, escapePairs, if_neg hpair, ← List.cons_append, ih]
    rfl

theorem head?_escapePairs (hbrace : mark ≠ '{') (hslash : mark ≠ '\\') :
    (escapePairs cs).head? = some mark ↔ cs.head? = some mark := by
  cases cs with
  | nil => rfl
  | cons c cs =>
    cases cs with
    | nil => rfl
    | cons d rest =>
      rw [escapePairs]
      split
      · rename_i hpair
        simp [hpair.1, hbrace.symm, hslash.symm]
      · rfl

/-- Escaping makes and breaks no pairs of other characters. -/
theorem pair_infix_escapePairs (hbrace : mark ≠ '{') (hslash : mark ≠ '\\') :
    [mark, mark] <:+: escapePairs cs ↔ [mark, mark] <:+: cs := by
  fun_induction escapePairs cs with
  | case1 => rfl
  | case2 => rfl
  | case3 c d rest hpair ih =>
    rcases hpair with ⟨rfl, rfl⟩
    rw [pair_infix_cons_of_ne hslash.symm, pair_infix_cons_of_ne hbrace.symm,
      pair_infix_cons_of_ne hbrace.symm, pair_infix_cons_of_ne hbrace.symm,
      pair_infix_cons_of_ne hbrace.symm, ih]
  | case4 c d rest hpair ih =>
    by_cases hc : c = mark
    · subst hc
      rw [pair_infix_cons_mark, pair_infix_cons_mark, head?_escapePairs hbrace hslash, ih]
    · rw [pair_infix_cons_of_ne hc, pair_infix_cons_of_ne hc, ih]

/-- An escaped text is cut at the same pair of other characters. -/
theorem cutAtPair_escapePairs (hbrace : mark ≠ '{') (hslash : mark ≠ '\\') (cs : List Char) :
    cutAtPair mark (escapePairs cs) =
      (cutAtPair mark cs).map fun (before, behind) => (escapePairs before, escapePairs behind) := by
  cases hcut : cutAtPair mark cs with
  | none =>
    rw [cutAtPair_eq_none_iff] at hcut
    rw [Option.map_none, cutAtPair_eq_none_iff, pair_infix_escapePairs hbrace hslash]
    exact hcut
  | some parts =>
    rcases parts with ⟨before, behind⟩
    have hfirst : ¬ [mark, mark] <:+: escapePairs before ++ [mark] := by
      have hconcat : escapePairs before ++ [mark] = escapePairs (before ++ [mark]) := by
        rw [escapePairs_append_cons hbrace]
        rfl
      rw [hconcat, pair_infix_escapePairs hbrace hslash]
      exact not_pair_infix_of_cutAtPair hcut
    have hmark : escapePairs (mark :: behind) = mark :: escapePairs behind :=
      escapePairs_append_cons hbrace [] behind
    rw [cutAtPair_eq_some hcut, escapePairs_append_cons hbrace, hmark,
      cutAtPair_append hfirst]
    rfl

/-- The first pair of braces of an escaped text is the one of the text, with a backslash before
it. -/
theorem cutAtPair_escapePairs_braces (cs : List Char) :
    cutAtPair '{' (escapePairs cs) =
      (cutAtPair '{' cs).map fun (before, behind) => (before ++ ['\\'], escapePairs behind) := by
  cases hcut : cutAtPair '{' cs with
  | none =>
    have hclean := cutAtPair_eq_none_iff.1 hcut
    rw [escapePairs_of_clean hclean, hcut]
    rfl
  | some parts =>
    rcases parts with ⟨before, behind⟩
    have hbefore : ¬ ['{', '{'] <:+: before ++ ['{'] := not_pair_infix_of_cutAtPair hcut
    have hfirst : ¬ ['{', '{'] <:+: before ++ ['\\'] ++ ['{'] := by
      rw [List.append_assoc, List.singleton_append, pair_infix_append_cons (by decide)]
      simpa using fun hin => hbefore (List.infix_append_of_infix_left hin)
    have htext : escapePairs cs = before ++ ['\\'] ++ '{' :: '{' :: escapePairs behind := by
      rw [cutAtPair_eq_some hcut, escapePairs_append_pair hbefore]
      simp
    rw [htext, cutAtPair_append hfirst]
    rfl

/-! ## The last pair -/

theorem endRunFrom_cons (run : Nat) (c : Char) (cs : List Char) :
    endRunFrom mark run (c :: cs) = endRunFrom mark (if c = mark then run + 1 else 0) cs :=
  rfl

/-- Two more characters in front do not change whether the number is even. -/
theorem endRunFrom_add_two (run : Nat) (cs : List Char) :
    endRunFrom mark (run + 2) cs % 2 = endRunFrom mark run cs % 2 := by
  induction cs generalizing run with
  | nil => exact Nat.add_mod_right run 2
  | cons c cs ih =>
    rw [endRunFrom_cons, endRunFrom_cons]
    split
    · exact ih (run + 1)
    · rfl

/-- In front of a pair at the end of an escaped text stands a backslash if and only if the number of
braces that the pair follows is even. -/
theorem exists_escapePairs_pair (cs : List Char) :
    ∃ front last, escapePairs (cs ++ ['{', '{']) = front ++ last :: ['{', '{'] ∧
      (last = '\\' ↔ endRun '{' cs % 2 = 0) := by
  -- pairs are found from left to right, so the braces before the last one are used up in twos
  fun_induction escapePairs cs with
  | case1 => exact ⟨[], '\\', rfl, by decide⟩
  | case2 c =>
    by_cases hc : c = '{'
    · subst hc
      exact ⟨['\\'], '{', rfl, by decide⟩
    · refine ⟨[c], '\\', by simp [escapePairs, hc], ?_⟩
      simp [endRun, endRunFrom, hc]
  | case3 c d rest hpair ih =>
    rcases ih with ⟨front, last, hfront, hlast⟩
    have hrun : endRun '{' (c :: d :: rest) % 2 = endRun '{' rest % 2 := by
      rw [endRun, endRunFrom_cons, endRunFrom_cons, if_pos hpair.1, if_pos hpair.2]
      exact endRunFrom_add_two 0 rest
    refine ⟨'\\' :: '{' :: '{' :: front, last, ?_, ?_⟩
    · rw [List.cons_append, List.cons_append, escapePairs, if_pos hpair, hfront]
      rfl
    · rw [hlast, hrun]
  | case4 c d rest hpair ih =>
    rcases ih with ⟨front, last, hfront, hlast⟩
    have hrun : endRun '{' (c :: d :: rest) = endRun '{' (d :: rest) := by
      rw [endRun, endRun, endRunFrom_cons, endRunFrom_cons, endRunFrom_cons]
      by_cases hd : d = '{'
      · have hc : c ≠ '{' := fun hc => hpair ⟨hc, hd⟩
        rw [if_neg hc]
      · rw [if_neg hd, if_neg hd]
    refine ⟨c :: front, last, ?_, ?_⟩
    · rw [List.cons_append, List.cons_append, escapePairs, if_neg hpair, ← List.cons_append, hfront]
      rfl
    · rw [hlast, hrun]

end Stencil.Text
