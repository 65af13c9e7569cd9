import Stencil.Proofs.Placeholder.Bars
import Stencil.Proofs.Placeholder.Parentheses
import Stencil.Proofs.Template.Evaluating

/-!
# Defaults

An expression whose bars are escaped and whose quotes are closed may be followed by a bar and a
default. The text with the default is read as the expression alone, with whatever follows the bar
for a default (`parse_append_default`). It evaluates to the same value or failure, unless the
expression is a variable that is absent: then, and only then, it evaluates to the default
(`resolvePlaceholder_append_default`).
-/

namespace Stencil

namespace Placeholder

/-- A text in which each bar is written with a backslash before it. -/
inductive BarsEscaped : List Char → Prop where
  | nil : BarsEscaped []
  | bar {rest : List Char} (hrest : BarsEscaped rest) : BarsEscaped ('\\' :: '|' :: rest)
  | char {c : Char} {rest : List Char} (hc : c ≠ '|') (hrest : BarsEscaped rest) :
      BarsEscaped (c :: rest)

/-- An expression that a default can follow: it is not blank, its bars are escaped and its quotes
closed, and it does not end in a backslash, which would escape the bar of the default. -/
structure TakesDefault (cs : List Char) : Prop where
  not_blank : Text.isBlankText cs = false
  bars_escaped : BarsEscaped cs
  quotes_closed : quoteBehind none cs = none
  last_ne_backslash : cs.getLast? ≠ some '\\'

variable {quote : Option Char} {c : Char} {cs rest : List Char}

/-! ## Escaped bars -/

theorem barsEscaped_escapeBars (cs : List Char) : BarsEscaped (escapeBars cs) := by
  induction cs with
  | nil => exact .nil
  | cons c cs ih =>
    by_cases hc : c = '|'
    · rw [hc, escapeBars_cons_bar]
      exact .bar ih
    · rw [escapeBars_cons_of_ne hc]
      exact .char hc ih

theorem BarsEscaped.ne_bar_cons (h : BarsEscaped cs) (behind : List Char) : cs ≠ '|' :: behind := by
  rintro rfl
  cases h with
  | char hc hrest => exact hc rfl

/-- A character that is no quote opens and closes none. -/
theorem quoteAfter_of_not_quote (h : IsReachable quote) (hc : isQuote c = false) :
    quoteAfter quote c = quote := by
  cases quote with
  | none => simp [quoteAfter, hc]
  | some q =>
    have hopen : isQuote q = true := h q rfl
    have hne : c ≠ q := by
      rintro rfl
      rw [hc] at hopen
      cases hopen
    simp [quoteAfter, hne]

/-- An escaped bar opens and closes no quote. -/
theorem quoteBehind_escape (h : IsReachable quote) (rest : List Char) :
    quoteBehind quote ('\\' :: '|' :: rest) = quoteBehind quote rest := by
  have hslash : quoteAfter quote '\\' = quote := quoteAfter_of_not_quote h (by decide)
  have hbar : quoteAfter quote '|' = quote := quoteAfter_of_not_quote h (by decide)
  rw [quoteBehind, List.foldl_cons, List.foldl_cons, hslash, hbar]
  rfl

theorem getLast?_ne_of_cons {d : Char} (h : (c :: rest).getLast? ≠ some d) :
    rest.getLast? ≠ some d := by
  intro hrest
  apply h
  rw [List.getLast?_cons, hrest]
  rfl

/-! ## Splitting -/

theorem splitDefault_escape (quote : Option Char) (rest : List Char) :
    splitDefault quote ('\\' :: '|' :: rest) =
      ('|' :: (splitDefault quote rest).1, (splitDefault quote rest).2) :=
  splitDefault.eq_2 quote rest

/-- An expression whose bars are escaped has no default. -/
theorem BarsEscaped.splitDefault_snd (h : BarsEscaped cs) (quote : Option Char) :
    (splitDefault quote cs).2 = none := by
  induction h generalizing quote with
  | nil => rfl
  | bar hrest ih =>
    rw [splitDefault_escape]
    exact ih quote
  | char hc hrest ih =>
    rw [splitDefault_cons hc fun _ => hrest.ne_bar_cons]
    exact ih _

/-- What is left of an expression when its bars are read is blank only if it is blank itself. -/
theorem BarsEscaped.isBlankText_splitDefault (h : BarsEscaped cs) (quote : Option Char) :
    Text.isBlankText (splitDefault quote cs).1 = Text.isBlankText cs := by
  induction h generalizing quote with
  | nil => rfl
  | bar hrest ih =>
    rw [splitDefault_escape]
    rfl
  | @char c rest hc hrest ih =>
    rw [splitDefault_cons hc fun _ => hrest.ne_bar_cons]
    exact congrArg (Text.isBlank c && ·) (ih _)

/-- Behind an expression whose bars are escaped and whose quotes are closed, a bar is the first one
that splits the text. -/
theorem BarsEscaped.splitDefault_append_bar (h : BarsEscaped cs) (hquote : IsReachable quote)
    (hclosed : quoteBehind quote cs = none) (hlast : cs.getLast? ≠ some '\\')
    (default : List Char) :
    splitDefault quote (cs ++ '|' :: default) = ((splitDefault quote cs).1, some default) := by
  induction h generalizing quote with
  | nil =>
    obtain rfl : quote = none := hclosed
    rw [List.nil_append, splitDefault.eq_3 _ _ _ (by simp)]
    rfl
  | bar hrest ih =>
    have hbehind := ih hquote (by rwa [quoteBehind_escape hquote] at hclosed)
      (getLast?_ne_of_cons (getLast?_ne_of_cons hlast))
    rw [List.cons_append, List.cons_append, splitDefault_escape, splitDefault_escape, hbehind]
  | @char c rest hc hrest ih =>
    -- a backslash at the end would escape the bar
    have hescape : c = '\\' → ∀ behind, rest ++ '|' :: default ≠ '|' :: behind := by
      rintro rfl behind hbar
      cases rest with
      | nil => exact hlast rfl
      | cons d more =>
        rw [List.cons_append] at hbar
        exact hrest.ne_bar_cons more (by rw [(List.cons.inj hbar).1])
    have hbehind := ih (isReachable_quoteAfter hquote c) hclosed (getLast?_ne_of_cons hlast)
    rw [List.cons_append, splitDefault_cons hc hescape, hbehind,
      splitDefault_cons hc fun _ => hrest.ne_bar_cons]

/-! ## Reading -/

/-- An expression is read alone as without a default, and in front of a bar with whatever follows
the bar for a default. -/
theorem parse_append_default {e : String} (h : TakesDefault e.toList) (d : String) :
    (∀ placeholder, Placeholder.parse e = .ok placeholder → placeholder.default = none) ∧
      Placeholder.parse (e ++ "|" ++ d) =
        (Placeholder.parse e).map fun placeholder =>
          { placeholder with default := some (Literal.parse d) } := by
  have htext : (e ++ "|" ++ d).toList = e.toList ++ '|' :: d.toList := by simp
  have hsplit := h.bars_escaped.splitDefault_append_bar isReachable_none h.quotes_closed
    h.last_ne_backslash d.toList
  have hnone := h.bars_escaped.splitDefault_snd none
  have hexpression : expressionOf (e ++ "|" ++ d) = expressionOf e := by
    rw [expressionOf, htext, hsplit]
    rfl
  have hne : expressionOf e ≠ [] := by
    rw [expressionOf, Ne, Text.trim_eq_nil_iff, h.bars_escaped.isBlankText_splitDefault,
      h.not_blank]
    exact Bool.false_ne_true
  have halone : Placeholder.parse e = (Expression.parse (expressionOf e)).map fun expression =>
      { expression, default := none, source := String.ofList (expressionOf e) } := by
    rw [parse_eq, if_neg hne, hnone]
    rfl
  have hjoined : Placeholder.parse (e ++ "|" ++ d) =
      (Expression.parse (expressionOf e)).map fun expression =>
        { expression, default := some (Literal.parse d)
          source := String.ofList (expressionOf e) } := by
    rw [parse_eq, hexpression, if_neg hne, htext, hsplit]
    rfl
  rw [halone, hjoined]
  cases Expression.parse (expressionOf e) with
  | ok expression =>
    refine ⟨fun placeholder hparse => ?_, rfl⟩
    rcases Except.ok.inj hparse with rfl
    rfl
  | error fault =>
    refine ⟨fun placeholder hparse => ?_, rfl⟩
    cases hparse

end Placeholder

namespace Resolver

/-- An expression that is a variable, and whose variable is absent. -/
def Misses (r : Resolver) (e : String) : Prop :=
  (∃ placeholder segments, Placeholder.parse e = .ok placeholder ∧
    placeholder.expression = .variable segments) ∧
  ∃ source, r.resolvePlaceholder e = Eval.fail (.unresolvedVariable source)

variable {r : Resolver} {e source : String}

/-- An expression without a default misses if and only if it is a variable whose segments lead
nowhere. -/
theorem misses_iff
    (h : ∀ placeholder, Placeholder.parse e = .ok placeholder → placeholder.default = none) :
    r.Misses e ↔ ∃ segments source,
      Placeholder.parse e = .ok { expression := .variable segments, default := none, source } ∧
        r.lookup? segments = none := by
  constructor
  · rintro ⟨⟨⟨expression, default, source⟩, segments, hparse, hvariable⟩, text, hfail⟩
    obtain rfl : default = none := h _ hparse
    obtain rfl : expression = .variable segments := hvariable
    refine ⟨segments, source, hparse, ?_⟩
    rw [resolvePlaceholder_of_variable hparse, Option.or_none] at hfail
    cases hfound : r.lookup? segments with
    | none => rfl
    | some v =>
      rw [hfound] at hfail
      exact absurd hfail (Eval.pure_ne_fail _ _)
  · rintro ⟨segments, source, hparse, hlookup⟩
    refine ⟨⟨_, segments, hparse, rfl⟩, source, ?_⟩
    rw [resolvePlaceholder_of_variable hparse, hlookup]
    rfl

/-- An expression with a default evaluates to the default if the expression is a variable that is
absent. In all other cases, a value that is null, a malformed expression and calls of all kinds
among them, it evaluates as without the default. -/
theorem resolvePlaceholder_append_default (r : Resolver) {e : String}
    (h : Placeholder.TakesDefault e.toList) (d : String) :
    (r.Misses e ↔ ∃ segments source,
      Placeholder.parse e = .ok { expression := .variable segments, default := none, source } ∧
        r.lookup? segments = none) ∧
    (r.Misses e → r.resolvePlaceholder (e ++ "|" ++ d) = pure (Literal.parse d)) ∧
    (¬ r.Misses e → r.resolvePlaceholder (e ++ "|" ++ d) = r.resolvePlaceholder e) := by
  rcases Placeholder.parse_append_default h d with ⟨hnone, hjoined⟩
  have hmisses := misses_iff (r := r) hnone
  refine ⟨hmisses, ?_, ?_⟩
  · intro hmissed
    rcases hmisses.1 hmissed with ⟨segments, source, hparse, hlookup⟩
    rw [hparse] at hjoined
    rw [resolvePlaceholder_of_variable hjoined, hlookup]
    rfl
  · intro hfound
    cases hparse : Placeholder.parse e with
    | error fault =>
      rw [hparse] at hjoined
      rw [resolvePlaceholder_of_error hparse, resolvePlaceholder_of_error hjoined]
    | ok placeholder =>
      rcases placeholder with ⟨segments | call, default, source⟩
      · obtain rfl : default = none := hnone _ hparse
        have hsome : r.lookup? segments ≠ none := fun hlookup =>
          hfound (hmisses.2 ⟨segments, source, hparse, hlookup⟩)
        rcases Option.ne_none_iff_exists'.1 hsome with ⟨v, hv⟩
        rw [hparse] at hjoined
        rw [resolvePlaceholder_of_variable hjoined, resolvePlaceholder_of_variable hparse, hv]
        rfl
      · rw [hparse] at hjoined
        rw [resolvePlaceholder_of_call hjoined, resolvePlaceholder_of_call hparse]

/-- A member that is null and one that is absent, both with a bar in their names, and a call that
fails; the default has bars and quotes of its own. -/
theorem resolvePlaceholder_append_default_of_bars :
    let r : Resolver :=
      { store := ({} : Store).set .globals "x" (.object [("a|b", .null)])
        functions := .ofList []
        settings := {} }
    Placeholder.TakesDefault "x['a\\|b']".toList ∧ Placeholder.TakesDefault "x['a\\|c']".toList ∧
      Placeholder.TakesDefault "$x.y('\\|')".toList ∧
      r.Misses "x['a\\|c']" ∧ ¬ r.Misses "x['a\\|b']" ∧ ¬ r.Misses "$x.y('\\|')" ∧
      r.resolvePlaceholder "x['a\\|c']| 'it|s' " = pure (.string "it|s") ∧
      r.resolvePlaceholder "x['a\\|b']| 'it|s' " = pure .null ∧
      r.resolvePlaceholder "$x.y('\\|')| 'it|s' " =
        Eval.fail (.invalidFunctionCall "$x.y('|')" (.unknownNamespace "x")) := by
  intro r
  have htakes : ∀ plain ∈ ["x['a|b']", "x['a|c']", "$x.y('|')"],
      Placeholder.TakesDefault (Placeholder.escapeBars plain.toList) := by
    intro plain hplain
    refine ⟨?_, Placeholder.barsEscaped_escapeBars _, ?_, ?_⟩
    all_goals
      revert plain
      decide
  have hnull : Placeholder.TakesDefault "x['a\\|b']".toList := htakes "x['a|b']" (by simp)
  have habsent : Placeholder.TakesDefault "x['a\\|c']".toList := htakes "x['a|c']" (by simp)
  have hcall : Placeholder.TakesDefault "$x.y('\\|')".toList := htakes "$x.y('|')" (by simp)
  rcases resolvePlaceholder_append_default r habsent " 'it|s' " with ⟨hmisses, hdefault, -⟩
  rcases resolvePlaceholder_append_default r hnull " 'it|s' " with ⟨hmissesNull, -, hfound⟩
  rcases resolvePlaceholder_append_default r hcall " 'it|s' " with ⟨hmissesCall, -, hfails⟩
  have hmissed : r.Misses "x['a\\|c']" := hmisses.2 ⟨["x", "a|c"], "x['a|c']", rfl, rfl⟩
  have hkept : ¬ r.Misses "x['a\\|b']" := by
    rw [hmissesNull]
    rintro ⟨segments, source, hparse, hlookup⟩
    cases hparse
    cases hlookup
  have hkeptCall : ¬ r.Misses "$x.y('\\|')" := by
    rw [hmissesCall]
    rintro ⟨segments, source, hparse, -⟩
    cases hparse
  exact ⟨hnull, habsent, hcall, hmissed, hkept, hkeptCall, hdefault hmissed, hfound hkept,
    hfails hkeptCall⟩

end Resolver

end Stencil
