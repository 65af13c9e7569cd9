import Stencil.Proofs.Template.Interpolation
import Stencil.Proofs.Text.Ends

/-!
# Placeholders as whole texts and inside texts

A text that is one placeholder is evaluated without being divided. Its division finds the same
placeholder unless the inner text ends in a brace: that brace and the first one behind it are a
closing pair, so the last brace of the text is left over. Behind literal text the placeholder is
found as well unless the braces around its start make another opening pair
(`interpolate_trim_of_whole`).
-/

namespace Stencil.Template

variable {cs lead body front inner rest : List Char}

theorem whole?_eq_some (h : whole? cs = some inner) :
    Text.trim cs = opening ++ inner ++ closing ∧ ¬ opening <:+: inner ∧ ¬ closing <:+: inner := by
  rcases Option.filter_eq_some_iff.1 h with ⟨hbetween, hclean⟩
  rcases Option.bind_eq_some_iff.1 hbetween with ⟨behind, hstart, hend⟩
  have htrim : Text.trim cs = opening ++ inner ++ closing := by
    rw [Text.dropStart?_eq_some hstart, Text.dropEnd?_eq_some hend, List.append_assoc]
  rw [Bool.and_eq_true, Bool.not_eq_true', Bool.not_eq_true', ← Bool.not_eq_true,
    ← Bool.not_eq_true, hasPair_iff, hasPair_iff] at hclean
  exact ⟨htrim, hclean⟩

/-! ## The first placeholder -/

/-- The first placeholder of a text lies between the first opening pair and the first closing pair
behind that. -/
theorem first?_append (hlead : ¬ opening <:+: lead ++ ['{']) (hbody : ¬ closing <:+: body ++ ['}'])
    (rest : List Char) :
    first? (lead ++ opening ++ body ++ closing ++ rest) =
      some (Occurrence.ofBody lead body, rest) := by
  have htext : lead ++ opening ++ body ++ closing ++ rest =
      lead ++ '{' :: '{' :: (body ++ '}' :: '}' :: rest) := by
    simp
  rw [htext, first?, Text.cutAtPair_append hlead]
  simp [Text.cutAtPair_append hbody]

theorem ofBody_of_clean (lead : List Char) (h : ¬ opening <:+: body) :
    Occurrence.ofBody lead body = { before := lead, inner := body } := by
  rw [Occurrence.ofBody, Text.cutAtLastPair_eq_none_iff.2 h]

theorem ofBody_append (lead stray : List Char) (h : ¬ opening <:+: '{' :: inner) :
    Occurrence.ofBody lead (stray ++ opening ++ inner) =
      { before := lead ++ opening ++ stray, inner } := by
  have hbody : stray ++ opening ++ inner = stray ++ '{' :: '{' :: inner := by simp
  rw [hbody, Occurrence.ofBody, Text.cutAtLastPair_append h]
  simp

/-- The literal text of a placeholder ends before the first opening pair, or behind it. -/
theorem length_before_ofBody_ne (lead body : List Char) :
    (Occurrence.ofBody lead body).before.length ≠ lead.length + 1 := by
  unfold Occurrence.ofBody
  split
  · simp
  · simp only [List.length_append, List.length_cons]
    omega

/-- Behind a text without an opening pair and without a brace at its end, a placeholder opens with
its own braces. -/
theorem first?_behind_text (hplain : ¬ opening <:+: front) (hlast : front.getLast? ≠ some '{')
    (hopening : ¬ opening <:+: inner) (hclosing : ¬ closing <:+: inner ++ ['}'])
    (rest : List Char) :
    first? (front ++ (opening ++ inner ++ closing ++ rest)) =
      some ({ before := front, inner }, rest) := by
  have hlead : ¬ opening <:+: front ++ ['{'] := by
    rw [Text.pair_infix_concat_mark]
    exact not_or.2 ⟨hlast, hplain⟩
  rw [← ofBody_of_clean front hopening]
  simpa using first?_append hlead hclosing rest

/-- A brace at the end of a text makes the first pair with the first brace of a placeholder. -/
theorem first?_behind_brace (hplain : ¬ opening <:+: lead ++ ['{'])
    (hclosing : ¬ closing <:+: inner ++ ['}']) (rest : List Char) :
    ∃ o, first? (lead ++ ['{'] ++ (opening ++ inner ++ closing ++ rest)) = some (o, rest) ∧
      o ≠ { before := lead ++ ['{'], inner } := by
  have hbody : ¬ closing <:+: '{' :: inner ++ ['}'] := by
    rw [List.cons_append, ← List.nil_append ('{' :: _), Text.pair_infix_append_cons (by decide)]
    simpa using hclosing
  refine ⟨Occurrence.ofBody lead ('{' :: inner), ?_, ?_⟩
  · simpa using first?_append hplain hbody rest
  · intro ho
    have hlength := length_before_ofBody_ne lead ('{' :: inner)
    rw [ho] at hlength
    simp at hlength

/-- Behind a stray pair, a placeholder opens with the last pair before its end. -/
theorem first?_behind_stray {stray : List Char} (hlead : ¬ opening <:+: lead ++ ['{'])
    (hstray : ¬ closing <:+: stray) (hclosing : ¬ closing <:+: inner ++ ['}'])
    (rest : List Char) :
    first? (lead ++ opening ++ stray ++ (opening ++ inner ++ closing ++ rest)) =
      some (Occurrence.ofBody lead (stray ++ opening ++ inner), rest) := by
  have hbody : ¬ closing <:+: stray ++ opening ++ inner ++ ['}'] := by
    have htext : stray ++ opening ++ inner ++ ['}'] =
        stray ++ '{' :: ([] ++ '{' :: (inner ++ ['}'])) := by
      simp
    rw [htext, Text.pair_infix_append_cons (by decide), Text.pair_infix_append_cons (by decide)]
    simpa using ⟨hstray, hclosing⟩
  simpa using first?_append hlead hbody rest

/-- The last pair before the end of a placeholder is its own one, unless the inner text starts with
a brace, which makes a later pair with the second one. -/
theorem ofBody_behind_stray_iff (lead stray : List Char) (hopening : ¬ opening <:+: inner) :
    Occurrence.ofBody lead (stray ++ opening ++ inner) =
        { before := lead ++ opening ++ stray, inner } ↔
      inner.head? ≠ some '{' := by
  by_cases hhead : inner.head? = some '{'
  · rcases List.head?_eq_some_iff.1 hhead with ⟨core, rfl⟩
    have htext : stray ++ opening ++ '{' :: core = (stray ++ ['{']) ++ opening ++ core := by
      simp
    rw [htext, ofBody_append lead _ hopening]
    constructor
    · intro ho
      have hcore : core = '{' :: core := congrArg Occurrence.inner ho
      have hlength := congrArg List.length hcore
      simp at hlength
    · intro hne
      exact absurd hhead hne
  · have hlater : ¬ opening <:+: '{' :: inner := by
      rw [Text.pair_infix_cons_mark]
      exact not_or.2 ⟨hhead, hopening⟩
    rw [ofBody_append lead stray hlater]
    simp [hhead]

/-- The opening braces of a placeholder are those of its occurrence behind a literal text: behind a
stray pair, the inner text does not start with a brace that would make a later pair with the second
one, and else the text does not end in a brace that would make an earlier pair with the first
one. -/
structure KeepsOpening (front inner : List Char) : Prop where
  behind_stray : opening <:+: front → inner.head? ≠ some '{'
  behind_text : ¬ opening <:+: front → front.getLast? ≠ some '{'

theorem keepsOpening_nil (inner : List Char) : KeepsOpening [] inner where
  behind_stray h := by simp at h
  behind_text _ := by simp

/-- The first placeholder of a literal text and a placeholder. -/
theorem first?_front (hfront : ¬ OpensAndCloses front) (hopening : ¬ opening <:+: inner)
    (hclosing : ¬ closing <:+: inner ++ ['}']) (rest : List Char) :
    ∃ o, first? (front ++ (opening ++ inner ++ closing ++ rest)) = some (o, rest) ∧
      (o = { before := front, inner } ↔ KeepsOpening front inner) := by
  -- a stray pair in the literal text is the first one, and else the braces at its end decide
  cases hcut : Text.cutAtPair '{' front with
  | none =>
    have hplain : ¬ opening <:+: front := Text.cutAtPair_eq_none_iff.1 hcut
    by_cases hlast : front.getLast? = some '{'
    · rcases List.getLast?_eq_some_iff.1 hlast with ⟨lead, rfl⟩
      rcases first?_behind_brace hplain hclosing rest with ⟨o, hfirst, ho⟩
      refine ⟨o, hfirst, ?_⟩
      constructor
      · intro heq
        exact absurd heq ho
      · intro hkeeps
        exact absurd hlast (hkeeps.behind_text hplain)
    · have hkeeps : KeepsOpening front inner :=
        { behind_stray := fun hin => absurd hin hplain, behind_text := fun _ => hlast }
      refine ⟨_, first?_behind_text hplain hlast hopening hclosing rest, ?_⟩
      simp [hkeeps]
  | some parts =>
    rcases parts with ⟨lead, stray⟩
    obtain rfl : front = lead ++ opening ++ stray := by
      simpa using Text.cutAtPair_eq_some hcut
    have hin : opening <:+: lead ++ opening ++ stray := List.infix_append lead opening stray
    have hstray : ¬ closing <:+: stray := by
      rintro ⟨body, back, rfl⟩
      exact hfront ⟨lead, body, back, by simp⟩
    have hlead := Text.not_pair_infix_of_cutAtPair hcut
    refine ⟨_, first?_behind_stray hlead hstray hclosing rest, ?_⟩
    rw [ofBody_behind_stray_iff lead stray hopening]
    constructor
    · intro hhead
      exact { behind_stray := fun _ => hhead, behind_text := fun hplain => absurd hin hplain }
    · intro hkeeps
      exact hkeeps.behind_stray hin

/-! ## Division -/

/-- An inner text without closing pairs holds none together with the first closing brace, unless it
ends in a brace. -/
theorem not_closing_infix_concat (hclosing : ¬ closing <:+: inner)
    (hlast : inner.getLast? ≠ some '}') : ¬ closing <:+: inner ++ ['}'] := by
  rw [Text.pair_infix_concat_mark]
  exact not_or.2 ⟨hlast, hclosing⟩

theorem pieces_brace : pieces ['}'] = { occurrences := [], tail := ['}'] } :=
  pieces_of_first?_none rfl

/-- An inner text that ends in a brace is closed by it: the brace behind is left over. -/
theorem pieces_of_last_brace (hfront : ¬ OpensAndCloses front) (hopening : ¬ opening <:+: inner)
    (hclosing : ¬ closing <:+: inner) (hlast : inner.getLast? = some '}') :
    ∃ o, pieces (front ++ (opening ++ inner ++ closing)) = { occurrences := [o], tail := ['}'] } ∧
      (KeepsOpening front inner.dropLast → o = { before := front, inner := inner.dropLast }) := by
  rcases List.getLast?_eq_some_iff.1 hlast with ⟨core, rfl⟩
  -- the text is also the placeholder of the shorter inner text with a brace behind it
  have hcore : ¬ opening <:+: core := fun h => hopening (List.infix_append_of_infix_left h)
  rcases first?_front hfront hcore hclosing ['}'] with ⟨o, hfirst, ho⟩
  have htext : opening ++ core ++ closing ++ ['}'] = opening ++ (core ++ ['}']) ++ closing := by
    simp
  rw [htext] at hfirst
  refine ⟨o, ?_, ?_⟩
  · rw [pieces_of_first?_some hfirst, pieces_brace]
  · rw [List.dropLast_concat]
    exact ho.2

/-- A literal text and a placeholder are divided into just these if and only if the braces around
both ends of the inner text make no other pairs. -/
theorem pieces_front_iff (hfront : ¬ OpensAndCloses front) (hopening : ¬ opening <:+: inner)
    (hclosing : ¬ closing <:+: inner) :
    pieces (front ++ (opening ++ inner ++ closing)) =
        { occurrences := [{ before := front, inner }], tail := [] } ↔
      inner.getLast? ≠ some '}' ∧ KeepsOpening front inner := by
  by_cases hlast : inner.getLast? = some '}'
  · rcases pieces_of_last_brace hfront hopening hclosing hlast with ⟨o, hpieces, -⟩
    rw [hpieces]
    simp [hlast]
  · have hclose := not_closing_infix_concat hclosing hlast
    rcases first?_front hfront hopening hclose [] with ⟨o, hfirst, ho⟩
    rw [List.append_nil] at hfirst
    rw [pieces_of_first?_some hfirst, pieces_nil, ← ho]
    simp [hlast]

end Stencil.Template

namespace Stencil.Resolver

open Template

/-- A text with one placeholder and nothing behind it becomes its literal text and the text of the
value. -/
theorem interpolate_of_pieces {r : Resolver} {cs : List Char} {o : Occurrence}
    (h : pieces cs = { occurrences := [o], tail := [] }) (hskips : r.skips o = false) :
    r.interpolate cs = (fun v => o.before ++ v.plainText.toList) <$>
      r.resolvePlaceholder (String.ofList o.inner) := by
  simp [interpolate, h, occurrencesText, occurrenceText_of_not_skips hskips]

theorem resolveText_of_whole {r : Resolver} {text : String} {inner : List Char}
    (h : whole? text.toList = some inner) :
    r.resolveText text = Value.plainText <$> r.resolvePlaceholder (String.ofList inner) := by
  simp [resolveText, resolveString, h]

/-- A text that is one placeholder, when it is divided with or without literal text in front. -/
theorem interpolate_trim_of_whole (r : Resolver) {text : String} {inner : List Char}
    (h : whole? text.toList = some inner) :
    (pieces (Text.trim text.toList) =
      if inner.getLast? = some '}' then
        { occurrences := [{ before := [], inner := inner.dropLast }], tail := ['}'] }
      else { occurrences := [{ before := [], inner }], tail := [] }) ∧
    (inner.getLast? ≠ some '}' →
      r.resolveText text = String.ofList <$> r.interpolate (Text.trim text.toList)) ∧
    ∀ front, ¬ OpensAndCloses front →
      (pieces (front ++ Text.trim text.toList) =
          { occurrences := [{ before := front, inner }], tail := [] } ↔
        inner.getLast? ≠ some '}' ∧ KeepsOpening front inner) ∧
      (inner.getLast? ≠ some '}' → KeepsOpening front inner →
        r.skips { before := front, inner } = false →
        r.interpolate (front ++ Text.trim text.toList) =
          (fun v => front ++ v.plainText.toList) <$>
            r.resolvePlaceholder (String.ofList inner)) := by
  rcases whole?_eq_some h with ⟨htrim, hopening, hclosing⟩
  have hnil : ¬ OpensAndCloses [] := not_opensAndCloses_of_not_infix (by simp)
  have hiff {front : List Char} (hfront : ¬ OpensAndCloses front) :
      pieces (front ++ Text.trim text.toList) =
          { occurrences := [{ before := front, inner }], tail := [] } ↔
        inner.getLast? ≠ some '}' ∧ KeepsOpening front inner := by
    rw [htrim]
    exact pieces_front_iff hfront hopening hclosing
  have halone (hlast : inner.getLast? ≠ some '}') : pieces (Text.trim text.toList) =
      { occurrences := [{ before := [], inner }], tail := [] } :=
    (hiff hnil).2 ⟨hlast, keepsOpening_nil inner⟩
  refine ⟨?_, ?_, ?_⟩
  · split
    · rename_i hlast
      rcases pieces_of_last_brace hnil hopening hclosing hlast with ⟨o, hpieces, ho⟩
      rw [List.nil_append] at hpieces
      rw [htrim, hpieces, ho (keepsOpening_nil _)]
    · rename_i hlast
      exact halone hlast
  · intro hlast
    have hskips : r.skips { before := [], inner } = false := by
      simp [skips, Occurrence.isEscaped]
    rw [resolveText_of_whole h, interpolate_of_pieces (halone hlast) hskips]
    simp
  · intro front hfront
    refine ⟨hiff hfront, ?_⟩
    intro hlast hkeeps hskips
    have hpieces := (hiff hfront).2 ⟨hlast, hkeeps⟩
    have hresult := interpolate_of_pieces hpieces hskips
    exact hresult

/-- The variable `a` with blanks around its placeholder, behind a closing pair and a stray opening
pair. -/
theorem interpolate_trim_of_whole_of_stray :
    let r : Resolver :=
      { store := ({} : Store).set .globals "a" (.bool true)
        functions := .ofList []
        settings := {} }
    let text := "\t\x7b\x7ba\x7d\x7d\n"
    let front := "\x7d\x7d \x7b\x7b b".toList
    whole? text.toList = some ['a'] ∧ ¬ OpensAndCloses front ∧
      r.resolveText text = String.ofList <$> r.interpolate (Text.trim text.toList) ∧
      r.interpolate (front ++ Text.trim text.toList) = pure (front ++ "true".toList) := by
  intro r text front
  have hwhole : whole? text.toList = some ['a'] := by decide
  have hfront : ¬ OpensAndCloses front := not_opensAndCloses_of_first? (by decide)
  have hlast : ['a'].getLast? ≠ some '}' := by decide
  have hkeeps : KeepsOpening front ['a'] :=
    { behind_stray := fun _ => by decide, behind_text := fun _ => by decide }
  have hvalue : r.resolvePlaceholder (String.ofList ['a']) = pure (.bool true) := rfl
  rcases interpolate_trim_of_whole r hwhole with ⟨-, halone, hbehind⟩
  rcases hbehind front hfront with ⟨-, htext⟩
  refine ⟨hwhole, hfront, halone hlast, ?_⟩
  rw [htext hlast hkeeps (by decide), hvalue]
  rfl

/-- Three closing braces: the inner text of the whole text ends in the first one, which its division
takes for a part of the closing pair. Three opening braces, of which the first one is literal text:
the division takes it for a part of the opening pair. -/
theorem resolveText_ne_interpolate_trim_of_three_braces :
    let r : Resolver :=
      { store := ({} : Store).set .globals "a" (.bool true)
        functions := .ofList []
        settings := {} }
    let text := "\x7b\x7ba\x7d\x7d\x7d"
    whole? text.toList = some "a\x7d".toList ∧
      pieces (Text.trim text.toList) =
        { occurrences := [{ before := [], inner := ['a'] }], tail := ['}'] } ∧
      r.resolveText text = Eval.fail (.unresolvedVariable "a\x7d") ∧
      String.ofList <$> r.interpolate (Text.trim text.toList) = pure "true\x7d" ∧
      r.resolveText text ≠ String.ofList <$> r.interpolate (Text.trim text.toList) ∧
      whole? "\x7b\x7ba\x7d\x7d".toList = some ['a'] ∧
      pieces ('{' :: Text.trim "\x7b\x7ba\x7d\x7d".toList) =
        { occurrences := [{ before := [], inner := ['{', 'a'] }], tail := [] } := by
  intro r text
  have hvalue : r.resolvePlaceholder (String.ofList ['a']) = pure (.bool true) := rfl
  have hmissing : r.resolvePlaceholder (String.ofList ['a', '}']) =
      Eval.fail (.unresolvedVariable "a\x7d") := rfl
  have hwhole : whole? text.toList = some "a\x7d".toList := by decide
  have hpieces : pieces (Text.trim text.toList) =
      { occurrences := [{ before := [], inner := ['a'] }], tail := ['}'] } := by
    have hfirst : first? (Text.trim text.toList) =
        some ({ before := [], inner := ['a'] }, ['}']) := by decide
    rw [pieces_of_first?_some hfirst, pieces_brace]
  have hearlier : pieces ('{' :: Text.trim "\x7b\x7ba\x7d\x7d".toList) =
      { occurrences := [{ before := [], inner := ['{', 'a'] }], tail := [] } := by
    have hfirst : first? ('{' :: Text.trim "\x7b\x7ba\x7d\x7d".toList) =
        some ({ before := [], inner := ['{', 'a'] }, []) := by decide
    rw [pieces_of_first?_some hfirst, pieces_nil]
  have htyped : r.resolveText text = Eval.fail (.unresolvedVariable "a\x7d") := by
    rw [resolveText_of_whole hwhole]
    rfl
  have htext : String.ofList <$> r.interpolate (Text.trim text.toList) = pure "true\x7d" := by
    rw [interpolate, hpieces]
    rfl
  refine ⟨hwhole, hpieces, htyped, htext, ?_, by decide, hearlier⟩
  rw [htyped, htext]
  exact (Eval.pure_ne_fail _ _).symm

end Stencil.Resolver
