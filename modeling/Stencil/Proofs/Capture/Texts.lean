import Mathlib.Data.List.Basic
import Stencil.Proofs.Capture.Openings
import Stencil.Proofs.Text.Lines

/-!
# Writing captures

Captures are written on lines of their own, with any blanks between their parts, among other lines.
A text of such lines is read back into its captures, in their order, whatever their names are and
whatever stands inside their paths (`ofText_of_joins`).
-/

namespace Stencil.Capture

/-- A written capture: behind the equals sign stands a path with blanks around it. -/
structure WrittenCapture extends Opening where
  lead : List Char
  path : List Char
  trail : List Char
  lead_blank : Text.isBlankText lead = true
  path_ne_nil : path ≠ []
  path_trimmed : Text.trim path = path
  trail_blank : Text.isBlankText trail = true
  one_line : '\n' ∉ toOpening.text ++ '=' :: (lead ++ path ++ trail)

/-- The line of a written capture. -/
def WrittenCapture.line (w : WrittenCapture) : List Char :=
  w.toOpening.text ++ '=' :: (w.lead ++ w.path ++ w.trail)

/-- A line of a text: a written capture, or a line without the word that marks captures. -/
inductive Line where
  | captures (w : WrittenCapture)
  | other (text : List Char) (one_line : '\n' ∉ text)
      (unmarked : ¬ "@capture".toList <:+: text)

namespace Line

/-- The text of a line. -/
def text : Line → List Char
  | .captures w => w.line
  | .other text _ _ => text

/-- The capture that is written on a line. -/
def written? : Line → Option Capture
  | .captures w => some (w.toOpening.capture w.path)
  | .other _ _ _ => none

end Line

/-- Blanks around a path on one line have no part in it. -/
theorem pathText?_pad {lead path trail : List Char} (hlead : Text.isBlankText lead = true)
    (htrail : Text.isBlankText trail = true) (hne : path ≠ []) (htrim : Text.trim path = path)
    (hfeed : '\n' ∉ path) : pathText? (lead ++ path ++ trail) = some path := by
  rw [pathText?, Text.trim_pad hlead htrail, htrim, if_neg hne, if_neg hfeed]

namespace WrittenCapture

variable {w : WrittenCapture}

theorem feed_not_mem_path (w : WrittenCapture) : '\n' ∉ w.path := by
  intro hmem
  apply w.one_line
  simp [hmem]

/-- A written capture is read back, whatever blanks stand at the end of its line. -/
theorem ofChars?_of_trail (w : WrittenCapture) {trail : List Char}
    (htrail : Text.isBlankText trail = true) :
    ofChars? (w.toOpening.text ++ '=' :: (w.lead ++ w.path ++ trail)) =
      some (w.toOpening.capture w.path) := by
  have hpath : pathText? (w.lead ++ w.path ++ trail) = some w.path :=
    pathText?_pad w.lead_blank htrail w.path_ne_nil w.path_trimmed w.feed_not_mem_path
  exact ofChars?_eq_some_iff.2 ⟨w.toOpening, _, w.path, rfl, hpath, rfl⟩

theorem last_path_not_blank (w : WrittenCapture) :
    ∀ c ∈ w.path.getLast?, Text.isBlank c = false := by
  rw [← w.path_trimmed]
  exact Text.last_trimEnd_not_blank _

/-- A carriage return at the end of the line is one of the blanks there. -/
theorem ofChars?_dropReturn (w : WrittenCapture) :
    ofChars? (Text.dropReturn w.line) = some (w.toOpening.capture w.path) := by
  have hline : w.line = (w.toOpening.text ++ '=' :: (w.lead ++ w.path)) ++ w.trail := by
    simp [line]
  have hlast : (w.toOpening.text ++ '=' :: (w.lead ++ w.path)).getLast? ≠ some '\r' := by
    intro hreturn
    have hpath : w.path.getLast? = some '\r' := by
      have hfront : w.toOpening.text ++ '=' :: (w.lead ++ w.path) =
          (w.toOpening.text ++ '=' :: w.lead) ++ w.path := by simp
      rwa [hfront, List.getLast?_append_of_ne_nil _ w.path_ne_nil] at hreturn
    exact absurd (w.last_path_not_blank '\r' hpath) (by decide)
  rcases Text.dropReturn_append w.trail_blank hlast with ⟨trail, htrail, hdrop⟩
  rw [hline, hdrop, ← w.ofChars?_of_trail htrail]
  simp

end WrittenCapture

/-- Every capture has the word that marks it. -/
theorem ofChars?_of_unmarked {cs : List Char} (h : ¬ "@capture".toList <:+: cs) :
    ofChars? cs = none := by
  rw [Option.eq_none_iff_forall_ne_some]
  intro c hc
  rcases ofChars?_eq_some_iff.1 hc with ⟨o, behind, path, rfl, -⟩
  apply h
  refine ⟨o.indent ++ (o.sign.text ++ o.gap), o.space ++ o.target ++ '=' :: behind, ?_⟩
  simp [Opening.text]

namespace Line

theorem ofChars?_text (l : Line) : ofChars? l.text = l.written? := by
  cases l with
  | captures w => exact w.ofChars?_of_trail w.trail_blank
  | other text _ unmarked => exact ofChars?_of_unmarked unmarked

theorem ofChars?_dropReturn (l : Line) :
    ofChars? (Text.dropReturn l.text) = ofChars? l.text := by
  rw [l.ofChars?_text]
  cases l with
  | captures w => exact w.ofChars?_dropReturn
  | other text _ unmarked =>
    apply ofChars?_of_unmarked
    intro hmarked
    exact unmarked (hmarked.trans (Text.dropReturn_prefix text).isInfix)

theorem feed_not_mem_text (l : Line) : '\n' ∉ l.text := by
  cases l with
  | captures w => exact w.one_line
  | other text one_line _ => exact one_line

end Line

/-- A text that is made of lines with captures and other lines holds exactly the captures that are
written in it, in their order. -/
theorem ofText_of_joins {ls : List Line} {text : String}
    (h : Text.Joins (ls.map Line.text) text.toList) : ofText text = ls.filterMap Line.written? := by
  have hlines : (Text.lines text.toList).filterMap ofChars? =
      (ls.map Line.text).filterMap ofChars? := by
    refine Text.filterMap_lines_of_joins h ?_ ?_ rfl
    · intro line hline
      rcases List.mem_map.1 hline with ⟨l, -, rfl⟩
      exact l.feed_not_mem_text
    · intro line hline
      rcases List.mem_map.1 hline with ⟨l, -, rfl⟩
      exact l.ofChars?_dropReturn
  rw [ofText, hlines, List.filterMap_map]
  exact congrArg (ls.filterMap ·) (funext Line.ofChars?_text)

/-- A capture into a variable named like a scope, one into a scope, and a line between them; the
paths hold an equals sign, a hash and a blank. -/
theorem ofText_of_joins_of_scope_names :
    let first : Opening :=
      { indent := [], sign := .hash, gap := [' '], space := [' '], scope := none, name := "global"
        after := [], indent_blank := rfl, gap_blank := by decide, space_blank := by decide
        space_ne_nil := by decide, scope_blank := by simp
        identifier := ⟨⟨'g', rfl, by decide⟩, List.all_eq_true.1 (by decide)⟩, after_blank := rfl }
    let second : Opening :=
      { indent := ['\t'], sign := .slashes, gap := [], space := ['\t'], name := "locals"
        scope := some (.globals, [' ']), after := [' '], indent_blank := by decide
        gap_blank := rfl, space_blank := by decide, space_ne_nil := by decide
        scope_blank := by simp [Text.isBlankText, Text.isBlank]
        identifier := ⟨⟨'l', rfl, by decide⟩, List.all_eq_true.1 (by decide)⟩
        after_blank := by decide }
    let text := "# @capture global==a\r\n# captures: 2\n\t//@capture\tglobal locals = $['# b'] \r\n"
    let ls : List Line :=
      [ .captures
          { toOpening := first, lead := [], path := "=a".toList, trail := [], lead_blank := rfl
            path_ne_nil := by decide, path_trimmed := by decide, trail_blank := rfl
            one_line := by decide },
        .other "# captures: 2".toList (by decide) fun hmarked =>
          absurd (hmarked.subset (by decide : '@' ∈ "@capture".toList)) (by decide),
        .captures
          { toOpening := second, lead := [' '], path := "$['# b']".toList, trail := [' ']
            lead_blank := by decide, path_ne_nil := by decide, path_trimmed := by decide
            trail_blank := by decide, one_line := by decide } ]
    Text.Joins (ls.map Line.text) text.toList ∧
      ofText text =
        [ { name := "global", scope := .locals, path := "=a" },
          { name := "locals", scope := .globals, path := "$['# b']" } ] := by
  intro first second text ls
  let one := "# @capture global==a".toList
  let two := "# captures: 2".toList
  let three := "\t//@capture\tglobal locals = $['# b'] ".toList
  have htext : text.toList =
      one ++ '\r' :: '\n' :: (two ++ '\n' :: (three ++ '\r' :: '\n' :: [])) := by
    decide +kernel
  have hlines : ls.map Line.text = [one, two, three] := by
    decide +kernel
  have hjoins : Text.Joins (ls.map Line.text) text.toList := by
    rw [htext, hlines]
    exact .returnFeed one (.feed two (.returnFeed three .nil))
  refine ⟨hjoins, (ofText_of_joins hjoins).trans ?_⟩
  decide +kernel

end Stencil.Capture
