import Stencil.Proofs.Text.Ends

/-!
# Lines of texts

A text that is put together of lines is divided into these lines again, but for a carriage return at
the end of a line, which is taken for a part of the line end (`filterMap_lines_of_joins`).
-/

namespace Stencil.Text

/-- A text that is made of the given lines. Each line is ended by a line feed, with or without a
carriage return before it; the last one may end with the text. -/
inductive Joins : List (List Char) → List Char → Prop where
  | nil : Joins [] []
  | last (line : List Char) : Joins [line] line
  | feed (line : List Char) {lines : List (List Char)} {rest : List Char}
      (hrest : Joins lines rest) : Joins (line :: lines) (line ++ '\n' :: rest)
  | returnFeed (line : List Char) {lines : List (List Char)} {rest : List Char}
      (hrest : Joins lines rest) : Joins (line :: lines) (line ++ '\r' :: '\n' :: rest)

theorem linePieces_of_not_mem {line : List Char} (h : '\n' ∉ line) :
    linePieces line = ([], line) := by
  induction line with
  | nil => rfl
  | cons c line ih =>
    simp only [List.mem_cons, not_or] at h
    simp [linePieces, ih h.2, Ne.symm h.1]

theorem linePieces_append_feed {line : List Char} (h : '\n' ∉ line) (rest : List Char) :
    linePieces (line ++ '\n' :: rest) = (line :: (linePieces rest).1, (linePieces rest).2) := by
  induction line with
  | nil => simp [linePieces]
  | cons c line ih =>
    simp only [List.mem_cons, not_or] at h
    simp [linePieces, ih h.2, Ne.symm h.1]

theorem lines_append_feed {line : List Char} (h : '\n' ∉ line) (rest : List Char) :
    lines (line ++ '\n' :: rest) = dropReturn line :: lines rest := by
  simp [lines, linePieces_append_feed h]

theorem lines_of_not_mem {line : List Char} (h : '\n' ∉ line) :
    lines line = if line = [] then [] else [line] := by
  simp [lines, linePieces_of_not_mem h]

theorem dropReturn_concat (cs : List Char) : dropReturn (cs ++ ['\r']) = cs := by
  simp [dropReturn, dropEnd?_append]

/-- What is dropped from the end of a text is a carriage return. -/
theorem dropReturn_eq_or (cs : List Char) :
    dropReturn cs = cs ∨ cs = dropReturn cs ++ ['\r'] := by
  cases hdrop : dropEnd? ['\r'] cs with
  | none => exact Or.inl (by simp [dropReturn, hdrop])
  | some front => exact Or.inr (by simpa [dropReturn, hdrop] using dropEnd?_eq_some hdrop)

theorem dropReturn_prefix (cs : List Char) : dropReturn cs <+: cs := by
  rcases dropReturn_eq_or cs with hsame | hdropped
  · simp [hsame]
  · exact ⟨['\r'], hdropped.symm⟩

/-- Behind a text that ends in another character, only blanks are dropped. -/
theorem dropReturn_append {front back : List Char} (hback : isBlankText back = true)
    (hlast : front.getLast? ≠ some '\r') :
    ∃ rest, isBlankText rest = true ∧ dropReturn (front ++ back) = front ++ rest := by
  rcases dropReturn_eq_or (front ++ back) with hsame | hdropped
  · exact ⟨back, hback, hsame⟩
  · rcases List.eq_nil_or_concat back with rfl | ⟨rest, c, rfl⟩
    · rw [List.append_nil] at hdropped
      refine absurd ?_ hlast
      rw [hdropped, List.getLast?_concat]
    · -- the character that is dropped is the last one behind the front
      rw [List.concat_eq_append] at hback hdropped ⊢
      rw [← List.append_assoc] at hdropped ⊢
      obtain ⟨hfront, -⟩ := List.append_inj' hdropped rfl
      refine ⟨rest, ?_, hfront.symm⟩
      rw [isBlankText_append, Bool.and_eq_true] at hback
      exact hback.1

/-- Reading the lines of a text one by one, a reader to which carriage returns at the ends of the
lines and empty lines mean nothing reads the lines that the text was made of. -/
theorem filterMap_lines_of_joins {α : Type} {read : List Char → Option α} {ls : List (List Char)}
    {text : List Char} (h : Joins ls text) (hfeed : ∀ line ∈ ls, '\n' ∉ line)
    (hreturn : ∀ line ∈ ls, read (dropReturn line) = read line) (hempty : read [] = none) :
    (lines text).filterMap read = ls.filterMap read := by
  induction h with
  | nil => rfl
  | last line =>
    rw [lines_of_not_mem (hfeed line (by simp))]
    split
    · rename_i hline
      simp [hline, hempty]
    · rfl
  | feed line hrest ih =>
    rw [List.forall_mem_cons] at hfeed hreturn
    rw [lines_append_feed hfeed.1, List.filterMap_cons, List.filterMap_cons, hreturn.1,
      ih hfeed.2 hreturn.2]
  | @returnFeed line lines rest hrest ih =>
    rw [List.forall_mem_cons] at hfeed hreturn
    have hline : '\n' ∉ line ++ ['\r'] := by simpa using hfeed.1
    have htext : line ++ '\r' :: '\n' :: rest = (line ++ ['\r']) ++ '\n' :: rest := by simp
    rw [htext, lines_append_feed hline, dropReturn_concat, List.filterMap_cons,
      List.filterMap_cons, ih hfeed.2 hreturn.2]

end Stencil.Text
