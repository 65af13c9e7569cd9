import Mathlib.Data.List.Forall2
import Stencil.Proofs.Template.LastOpening
import Stencil.Proofs.Template.Order
import Stencil.Proofs.Text.EscapedPairs

/-!
# Escaped texts

A text is quoted by writing a backslash in front of each opening pair of braces. It has the same
placeholders as the text itself (`escaped_pieces`), and those that no stray opening pair precedes
are escaped. So the escaped text becomes the text again if and only if each opening pair of the text
is closed before the next one; a stray pair keeps its backslash, and the placeholder behind it is
evaluated if an odd number of braces stands right before its own pair
(`resolveText_escapePairs_iff`).
-/

namespace Stencil.Template

open Text (escapePairs endRun)

/-- An occurrence of an escaped text, and the occurrence that it comes from. -/
structure Occurrence.Escaped (o p : Occurrence) : Prop where
  before_eq : escapePairs (o.before ++ opening) = p.before ++ opening
  inner_eq : p.inner = o.inner

variable {cs rest : List Char} {o p : Occurrence}

/-- The literal text in front of an occurrence does not end in a brace, unless a pair of braces
stands in it. -/
theorem before_concat_clean_of_first? (h : first? cs = some (o, rest))
    (hclean : ¬ opening <:+: o.before) : ¬ opening <:+: o.before ++ ['{'] := by
  rcases first?_cases h with ⟨lead, body, hlead, -, ⟨rfl, -⟩ | ⟨stray, hbefore, -, -⟩⟩
  · exact hlead
  · refine absurd ?_ hclean
    rw [hbefore]
    exact ⟨lead, stray, by simp⟩

/-- Behind its own pair of braces, an inner text that makes no pair with the second one is left as
it is. -/
theorem escapePairs_append_inner {front inner : List Char} (h : ¬ opening <:+: '{' :: inner) :
    escapePairs (front ++ opening ++ inner) = escapePairs (front ++ opening) ++ inner := by
  have hinner : ¬ opening <:+: inner := fun hin => h (List.infix_cons hin)
  cases inner with
  | nil => simp
  | cons c inner =>
    have hc : c ≠ '{' := by
      rintro rfl
      exact h ⟨[], inner, rfl⟩
    have hrest : ¬ opening <:+: inner := fun hin => hinner (List.infix_cons hin)
    rw [Text.escapePairs_append_cons hc, Text.escapePairs_of_clean hrest]

/-- The first placeholder of an escaped text is found between the same braces as that of the
text. -/
theorem first?_escapePairs (cs : List Char) :
    first? (escapePairs cs) =
      (Text.cutAtPair '{' cs).bind fun (lead, behind) =>
        (Text.cutAtPair '}' behind).map fun (body, rest) =>
          (Occurrence.ofBody (lead ++ ['\\']) (escapePairs body), escapePairs rest) := by
  rw [first?, Text.cutAtPair_escapePairs_braces, Option.bind_map]
  congr 1
  funext front
  rcases front with ⟨lead, behind⟩
  simp [Text.cutAtPair_escapePairs, Function.comp_def]

theorem escaped_ofBody {lead : List Char} (hlead : ¬ opening <:+: lead ++ ['{'])
    (body : List Char) :
    (Occurrence.ofBody lead body).Escaped
      (Occurrence.ofBody (lead ++ ['\\']) (escapePairs body)) := by
  have hescaped (text : List Char) : escapePairs (lead ++ opening ++ text) =
      lead ++ ['\\'] ++ opening ++ escapePairs text := by
    simpa using Text.escapePairs_append_pair hlead text
  cases hcut : Text.cutAtLastPair '{' body with
  | none =>
    have hclean : ¬ opening <:+: body := Text.cutAtLastPair_eq_none_iff.1 hcut
    have hpair := hescaped []
    rw [Text.escapePairs_of_clean hclean, ofBody_of_clean _ hclean, ofBody_of_clean _ hclean]
    exact { before_eq := by simpa [escapePairs] using hpair, inner_eq := rfl }
  | some parts =>
    -- the last pair of the body is the one that the placeholder opens with
    rcases parts with ⟨stray, inner⟩
    have hinner := Text.not_pair_infix_of_cutAtLastPair hcut
    have hbody : body = stray ++ opening ++ inner := by
      simpa using Text.cutAtLastPair_eq_some hcut
    rcases Text.exists_escapePairs_pair stray with ⟨front, last, hfront, -⟩
    have hquoted : escapePairs body = (front ++ [last]) ++ opening ++ inner := by
      rw [hbody, escapePairs_append_inner hinner, hfront]
      simp
    rw [hquoted, hbody, ofBody_append _ _ hinner, ofBody_append _ _ hinner]
    refine { before_eq := ?_, inner_eq := rfl }
    rw [List.append_assoc _ stray, hescaped, hfront]
    simp

/-- The placeholders of an escaped text come from those of the text, and its tail from the tail. -/
theorem escaped_pieces (cs : List Char) :
    List.Forall₂ Occurrence.Escaped (pieces cs).occurrences (pieces (escapePairs cs)).occurrences ∧
      (pieces (escapePairs cs)).tail = escapePairs (pieces cs).tail := by
  induction cs using pieces.induct with
  | case1 cs hnone =>
    have hescaped : first? (escapePairs cs) = none := by
      rw [first?, Option.bind_eq_none_iff] at hnone
      rw [first?_escapePairs, Option.bind_eq_none_iff]
      intro parts hparts
      simpa using hnone parts hparts
    rw [pieces_of_first?_none hnone, pieces_of_first?_none hescaped]
    exact ⟨.nil, rfl⟩
  | case2 cs o rest hfirst ih =>
    rcases ih with ⟨hoccurrences, htail⟩
    rcases Option.bind_eq_some_iff.1 hfirst with ⟨⟨lead, behind⟩, hlead, hrest⟩
    rcases Option.map_eq_some_iff.1 hrest with ⟨⟨body, r⟩, hbody, heq⟩
    rcases Prod.mk.inj heq with ⟨rfl, rfl⟩
    have hescaped := first?_escapePairs cs
    simp only [hlead, hbody, Option.bind_some, Option.map_some] at hescaped
    rw [pieces_of_first?_some hfirst, pieces_of_first?_some hescaped]
    exact ⟨.cons (escaped_ofBody (Text.not_pair_infix_of_cutAtPair hlead) body) hoccurrences, htail⟩

/-! ## What becomes of an occurrence -/

theorem exists_escaped {os ps : List Occurrence} (h : List.Forall₂ Occurrence.Escaped os ps)
    (ho : o ∈ os) : ∃ p ∈ ps, o.Escaped p := by
  induction h with
  | nil => simp at ho
  | @cons q p os ps hescaped hrest ih =>
    rcases List.mem_cons.1 ho with rfl | hmem
    · exact ⟨p, List.mem_cons_self, hescaped⟩
    · rcases ih hmem with ⟨p', hp', hp⟩
      exact ⟨p', List.mem_cons_of_mem p hp', hp⟩

/-- An occurrence of an escaped text is escaped unless an odd number of braces stands before it. -/
theorem Occurrence.Escaped.isEscaped_iff (h : o.Escaped p) :
    p.isEscaped = true ↔ endRun '{' o.before % 2 = 0 := by
  rcases Text.exists_escapePairs_pair o.before with ⟨front, last, hfront, hlast⟩
  have hbefore : p.before = front ++ [last] := by
    have hpair : p.before ++ opening = (front ++ [last]) ++ opening := by
      rw [← h.before_eq, hfront]
      simp
    exact List.append_cancel_right hpair
  rw [← hlast]
  simp [Occurrence.isEscaped, hbefore]

/-- Without a stray pair before it, an occurrence gets one backslash. -/
theorem Occurrence.Escaped.before_of_clean (h : o.Escaped p)
    (hclean : ¬ opening <:+: o.before ++ ['{']) : p.before = o.before ++ ['\\'] := by
  have hpair : p.before ++ opening = (o.before ++ ['\\']) ++ opening := by
    rw [← h.before_eq]
    simpa [escapePairs] using Text.escapePairs_append_pair hclean []
  exact List.append_cancel_right hpair

/-- The backslash before a stray pair stays in the literal text. -/
theorem Occurrence.Escaped.slash_mem (h : o.Escaped p) (hstray : opening <:+: o.before) :
    '\\' ∈ p.before.dropLast := by
  cases hcut : Text.cutAtPair '{' o.before with
  | none => exact absurd hstray (Text.cutAtPair_eq_none_iff.1 hcut)
  | some parts =>
    -- the first stray pair is escaped, and so stands before the pair of the placeholder
    rcases parts with ⟨lead, stray⟩
    rcases Text.exists_escapePairs_pair stray with ⟨front, last, hfront, -⟩
    have hbefore : p.before = lead ++ '\\' :: opening ++ front ++ [last] := by
      have hlead := Text.escapePairs_append_pair (Text.not_pair_infix_of_cutAtPair hcut)
        (stray ++ opening)
      have hpair : p.before ++ opening =
          (lead ++ '\\' :: opening ++ front ++ [last]) ++ opening := by
        rw [← h.before_eq, Text.cutAtPair_eq_some hcut, List.append_assoc, List.cons_append,
          List.cons_append, hlead, hfront]
        simp
      exact List.append_cancel_right hpair
    rw [hbefore, List.dropLast_concat]
    simp

theorem slash_mem_escapePairs (h : opening <:+: cs) : '\\' ∈ escapePairs cs := by
  cases hcut : Text.cutAtPair '{' cs with
  | none => exact absurd h (Text.cutAtPair_eq_none_iff.1 hcut)
  | some parts =>
    rcases parts with ⟨lead, behind⟩
    have hlead : ¬ opening <:+: lead ++ ['{'] := Text.not_pair_infix_of_cutAtPair hcut
    rw [Text.cutAtPair_eq_some hcut, Text.escapePairs_append_pair hlead]
    simp

/-- An escaped text is no placeholder as a whole: a backslash stands before its first pair. -/
theorem whole?_escapePairs (cs : List Char) : whole? (escapePairs cs) = none := by
  cases hwhole : whole? (escapePairs cs) with
  | none => rfl
  | some inner =>
    rcases whole?_eq_some hwhole with ⟨htrim, -, -⟩
    rcases Text.exists_append_trimStart (escapePairs cs) with ⟨blanks, hblanks, hstart⟩
    rcases Text.trimEnd_prefix (Text.trimStart (escapePairs cs)) with ⟨after, hafter⟩
    have hbrace : '{' ∉ blanks := by
      intro hmem
      exact absurd (List.all_eq_true.1 hblanks _ hmem) (by decide)
    have hfirst : ¬ opening <:+: blanks ++ ['{'] := by
      rw [Text.pair_infix_concat_mark]
      rintro (hlast | hin)
      · exact hbrace (List.mem_of_getLast? hlast)
      · exact hbrace (hin.subset (by simp))
    have htext : escapePairs cs = blanks ++ '{' :: '{' :: (inner ++ closing ++ after) := by
      rw [Text.trim] at htrim
      rw [hstart, ← hafter, htrim]
      simp
    -- the backslash of the first pair would have to be one of the blanks
    have hcut := Text.cutAtPair_escapePairs_braces cs
    rw [htext, Text.cutAtPair_append hfirst] at hcut
    rcases Option.map_eq_some_iff.1 hcut.symm with ⟨⟨lead, behind⟩, -, heq⟩
    rcases Prod.mk.inj heq with ⟨hlead, -⟩
    have hslash : '\\' ∈ blanks := by simp [← hlead]
    exact absurd (List.all_eq_true.1 hblanks _ hslash) (by decide)

/-- A placeholder that no stray pair precedes opens with the first brace of a run. -/
theorem before_concat_clean (ho : o ∈ (pieces cs).occurrences) (hclean : ¬ opening <:+: o.before) :
    ¬ opening <:+: o.before ++ ['{'] := by
  rcases List.append_of_mem ho with ⟨front, back, hoccurrences⟩
  rcases exists_first?_of_occurrences hoccurrences with ⟨here, rest, -, hfirst⟩
  exact before_concat_clean_of_first? hfirst hclean

end Stencil.Template

namespace Stencil.Resolver

open Template
open Text (escapePairs endRun)

variable {r : Resolver}

/-- An escaped text is always interpolated. -/
theorem resolveText_escapePairs (r : Resolver) (cs : List Char) :
    r.resolveText (String.ofList (escapePairs cs)) =
      String.ofList <$> r.interpolate (escapePairs cs) := by
  rw [resolveText, resolveString, String.toList_ofList, whole?_escapePairs]
  cases hpair : hasPair '{' (escapePairs cs) with
  | true => simp [Value.plainText]
  | false => simp [interpolate_of_first?_none (first?_of_not_hasPair hpair), Value.plainText]

/-- Occurrences that no stray pair precedes are copied as they were. -/
theorem occurrencesText_of_escaped (hescapes : r.settings.allowEscapes = true)
    {os ps : List Occurrence} (h : List.Forall₂ Occurrence.Escaped os ps)
    (hclean : ∀ o ∈ os, ¬ opening <:+: o.before ++ ['{']) (tail : List Char) :
    r.occurrencesText tail ps = pure ({ occurrences := os, tail } : Pieces).join := by
  induction h with
  | nil => simp [occurrencesText, Pieces.join]
  | @cons o p os ps hescaped hrest ih =>
    rw [List.forall_mem_cons] at hclean
    have hbefore := hescaped.before_of_clean hclean.1
    have hskips : r.skips p = true := by
      simp [skips, hescapes, Occurrence.isEscaped, hbefore]
    rw [occurrencesText, occurrenceText_of_skips hskips, ih hclean.2]
    simp [hbefore, Occurrence.braced, hescaped.inner_eq, Pieces.join]

/-- The literal text of a rendered occurrence is copied, but for a backslash at its end. -/
theorem Renders.mem_of_mem_before {w w' : World} {os : List Occurrence} {text : List Char}
    (h : Renders r w os text w') {o : Occurrence} (ho : o ∈ os) {c : Char}
    (hc : c ∈ o.before.dropLast) : c ∈ text := by
  induction h with
  | nil w => simp at ho
  | copied hskips hbefore hrest ih =>
    rcases List.mem_cons.1 ho with rfl | hmem
    · rw [hbefore, List.dropLast_concat] at hc
      simp [hc]
    · simp [ih hmem]
  | evaluated hskips hvalue hrest ih =>
    rcases List.mem_cons.1 ho with rfl | hmem
    · simp [List.mem_of_mem_dropLast hc]
    · simp [ih hmem]

/-- Nothing of an escaped text is evaluated if all its occurrences are escaped. -/
theorem occurrenceEvents_of_escaped_iff (hescapes : r.settings.allowEscapes = true)
    {os ps : List Occurrence} (h : List.Forall₂ Occurrence.Escaped os ps) :
    r.occurrenceEvents ps = [] ↔ ∀ o ∈ os, endRun '{' o.before % 2 = 0 := by
  induction h with
  | nil => simp [occurrenceEvents]
  | @cons o p os ps hescaped hrest ih =>
    have hfirst : r.occurrenceEvents [p] = [] ↔ endRun '{' o.before % 2 = 0 := by
      rw [← hescaped.isEscaped_iff]
      simp [occurrenceEvents, skips, hescapes]
    rw [occurrenceEvents_cons, List.append_eq_nil_iff, hfirst, ih, List.forall_mem_cons]

/-- A stray pair leaves a backslash in what an escaped text becomes. -/
theorem slash_mem_of_stray {cs out : List Char} {w w' : World}
    (h : (r.interpolate (escapePairs cs)).runIn w = (.ok out, w')) {l : List Char}
    (hl : l ∈ (pieces cs).literals) (hstray : opening <:+: l) : '\\' ∈ out := by
  rcases escaped_pieces cs with ⟨hoccurrences, htail⟩
  rcases occurrencesText_ok_iff.1 h with ⟨text, htext, rfl⟩
  rw [Pieces.literals, List.mem_append, List.mem_map, List.mem_singleton] at hl
  rcases hl with ⟨o, ho, rfl⟩ | rfl
  · rcases exists_escaped hoccurrences ho with ⟨p, hp, hescaped⟩
    have hslash := hescaped.slash_mem hstray
    exact List.mem_append_left _ (htext.mem_of_mem_before hp hslash)
  · rw [htail]
    exact List.mem_append_right _ (slash_mem_escapePairs hstray)

/-- A text without backslashes is what its escaped text becomes if and only if none of its literal
pieces holds a stray opening pair. Whether it does or not, nothing of the escaped text is evaluated
if and only if each placeholder of the text follows an even number of braces. -/
theorem resolveText_escapePairs_iff (r : Resolver) (hescapes : r.settings.allowEscapes = true)
    {text : String} (hplain : '\\' ∉ text.toList) :
    (r.resolveText (String.ofList (escapePairs text.toList)) = pure text ↔
      ∀ l ∈ (pieces text.toList).literals, ¬ opening <:+: l) ∧
    (r.stringEvents (String.ofList (escapePairs text.toList)) = [] ↔
      ∀ o ∈ (pieces text.toList).occurrences, endRun '{' o.before % 2 = 0) := by
  rcases escaped_pieces text.toList with ⟨hoccurrences, htail⟩
  refine ⟨⟨?_, ?_⟩, ?_⟩
  · intro hsame l hl hstray
    -- a backslash would be left in the result, whatever is evaluated
    have hrun : (String.ofList <$> r.interpolate (escapePairs text.toList)).runIn
        (World.ofSeed 0) = (.ok text, World.ofSeed 0) := by
      rw [← resolveText_escapePairs, hsame]
      rfl
    rcases Eval.runIn_map_ok_iff.1 hrun with ⟨out, hout, htext⟩
    apply hplain
    rw [htext, String.toList_ofList]
    exact slash_mem_of_stray hout hl hstray
  · intro hclean
    have hbefore : ∀ o ∈ (pieces text.toList).occurrences, ¬ opening <:+: o.before ++ ['{'] := by
      intro o ho
      have hliteral : o.before ∈ (pieces text.toList).literals :=
        List.mem_append_left _ (List.mem_map_of_mem ho)
      exact before_concat_clean ho (hclean _ hliteral)
    have htailClean : ¬ opening <:+: (pieces text.toList).tail :=
      hclean _ (List.mem_append_right _ (List.mem_singleton_self _))
    rw [resolveText_escapePairs, interpolate, htail, Text.escapePairs_of_clean htailClean,
      occurrencesText_of_escaped hescapes hoccurrences hbefore, join_pieces]
    simp
  · rw [stringEvents, String.toList_ofList, whole?_escapePairs]
    exact occurrenceEvents_of_escaped_iff hescapes hoccurrences

/-- Two placeholders, the first one behind three braces, and single braces at the end. -/
theorem resolveText_escapePairs_iff_of_three_braces :
    let r : Resolver := { store := {}, functions := .ofList [], settings := {} }
    let text := "\x7d\x7d \x7b\x7b\x7ba\x7d\x7d\x7b\x7b|\x7d\x7d\x7d\x7b"
    r.settings.allowEscapes = true ∧ '\\' ∉ text.toList ∧
      r.resolveText "\x7d\x7d \\\x7b\x7b\x7ba\x7d\x7d\\\x7b\x7b|\x7d\x7d\x7d\x7b" = pure text := by
  intro r text
  have hfirst : first? text.toList =
      some ({ before := "\x7d\x7d ".toList, inner := ['{', 'a'] },
        "\x7b\x7b|\x7d\x7d\x7d\x7b".toList) := by decide
  have hsecond : first? "\x7b\x7b|\x7d\x7d\x7d\x7b".toList =
      some ({ before := [], inner := ['|'] }, ['}', '{']) := by decide
  have htail : first? ['}', '{'] = none := by decide
  have hclean : ∀ l ∈ (pieces text.toList).literals, ¬ opening <:+: l := by
    rw [pieces_of_first?_some hfirst, pieces_of_first?_some hsecond, pieces_of_first?_none htail]
    decide
  have hescapes : r.settings.allowEscapes = true := rfl
  have hplain : '\\' ∉ text.toList := by decide
  have hescaped : String.ofList (escapePairs text.toList) =
      "\x7d\x7d \\\x7b\x7b\x7ba\x7d\x7d\\\x7b\x7b|\x7d\x7d\x7d\x7b" := by decide
  rcases resolveText_escapePairs_iff r hescapes hplain with ⟨hsame, -⟩
  rw [hescaped] at hsame
  exact ⟨hescapes, hplain, hsame.2 hclean⟩

/-- A pair that is never closed keeps its backslash. Behind such a pair, of three braces the last
two open a placeholder, which is evaluated. -/
theorem resolveText_escapePairs_of_stray :
    let r : Resolver :=
      { store := ({} : Store).set .globals "a" (.bool true)
        functions := .ofList []
        settings := {} }
    r.settings.allowEscapes = true ∧
      String.ofList (escapePairs "\x7b\x7b".toList) = "\\\x7b\x7b" ∧
      r.resolveText "\\\x7b\x7b" = pure "\\\x7b\x7b" ∧
      r.resolveText "\\\x7b\x7b" ≠ pure "\x7b\x7b" ∧
      String.ofList (escapePairs "\x7b\x7b \x7b\x7b\x7ba\x7d\x7d".toList) =
        "\\\x7b\x7b \\\x7b\x7b\x7ba\x7d\x7d" ∧
      r.resolveText "\\\x7b\x7b \\\x7b\x7b\x7ba\x7d\x7d" = pure "\\\x7b\x7b \\\x7btrue" := by
  intro r
  have hunclosed : r.resolveText "\\\x7b\x7b" = pure "\\\x7b\x7b" := by
    have hfirst : first? ['\\', '{', '{'] = none := by decide
    have hstring := resolveText_escapePairs r ['{', '{']
    rw [interpolate, show escapePairs ['{', '{'] = ['\\', '{', '{'] from rfl,
      pieces_of_first?_none hfirst] at hstring
    exact hstring
  have hevaluated : r.resolveText "\\\x7b\x7b \\\x7b\x7b\x7ba\x7d\x7d" =
      pure "\\\x7b\x7b \\\x7btrue" := by
    let o : Occurrence := { before := "\\\x7b\x7b \\\x7b".toList, inner := ['a'] }
    have hfirst : first? "\\\x7b\x7b \\\x7b\x7b\x7ba\x7d\x7d".toList = some (o, []) := by decide
    have hpieces : pieces "\\\x7b\x7b \\\x7b\x7b\x7ba\x7d\x7d".toList =
        { occurrences := [o], tail := [] } := by
      rw [pieces_of_first?_some hfirst, pieces_nil]
    have hskips : r.skips o = false := by decide
    have hvalue : r.resolvePlaceholder (String.ofList ['a']) = pure (.bool true) := rfl
    have hescaped : escapePairs "\x7b\x7b \x7b\x7b\x7ba\x7d\x7d".toList =
        "\\\x7b\x7b \\\x7b\x7b\x7ba\x7d\x7d".toList := by decide
    have hstring := resolveText_escapePairs r "\x7b\x7b \x7b\x7b\x7ba\x7d\x7d".toList
    rw [hescaped, interpolate_of_pieces hpieces hskips, hvalue] at hstring
    exact hstring
  refine ⟨rfl, by decide, hunclosed, ?_, by decide, hevaluated⟩
  rw [hunclosed]
  exact fun hsame => absurd (Eval.pure_inj.1 hsame) (by decide)

end Stencil.Resolver
