/-!
# Cutting texts

Splitting a text at a mark, at a doubled mark, at a separator and at line ends, and taking off a
given beginning or end. The parts of a cut, put together again with what was cut out, give back
the text (`cutAtPair_eq_some`, `cutAtLastPair_eq_some`, `splitAt_eq_iff`).
-/

namespace Stencil.Text

/-- The text behind a given beginning. -/
def dropStart? (start cs : List Char) : Option (List Char) :=
  if start.isPrefixOf cs then some (cs.drop start.length) else none

/-- The text before a given end. -/
def dropEnd? (stop cs : List Char) : Option (List Char) :=
  if stop.isSuffixOf cs then some (cs.take (cs.length - stop.length)) else none

/-- The parts before and behind the first place where `mark` stands. -/
def cutAt (mark : Char) : List Char → Option (List Char × List Char)
  | [] => none
  | c :: rest =>
    if c = mark then some ([], rest)
    else (cutAt mark rest).map fun (before, behind) => (c :: before, behind)

/-- The parts before and behind the first place where `mark` stands twice in a row. -/
def cutAtPair (mark : Char) : List Char → Option (List Char × List Char)
  | [] => none
  | [_] => none
  | c :: d :: rest =>
    if c = mark ∧ d = mark then some ([], rest)
    else (cutAtPair mark (d :: rest)).map fun (before, behind) => (c :: before, behind)

/-- The parts before and behind the last place where `mark` stands twice in a row. -/
def cutAtLastPair (mark : Char) : List Char → Option (List Char × List Char)
  | [] => none
  | [_] => none
  | c :: d :: rest =>
    match cutAtLastPair mark (d :: rest) with
    | some (before, behind) => some (c :: before, behind)
    | none => if c = mark ∧ d = mark then some ([], rest) else none

/-- Puts an item in front of the first of some pieces. -/
def extendFirst {α : Type} (a : α) : List (List α) → List (List α)
  | [] => [[a]]
  | piece :: pieces => (a :: piece) :: pieces

/-- The pieces of a text between the places where `separator` stands; there is always one piece
more than there are separators. -/
def splitAt (separator : Char) : List Char → List (List Char)
  | [] => [[]]
  | c :: rest =>
    if c = separator then [] :: splitAt separator rest
    else extendFirst c (splitAt separator rest)

/-- The text without a final carriage return. -/
def dropReturn (cs : List Char) : List Char :=
  (dropEnd? ['\r'] cs).getD cs

/-- The pieces of a text that end in a line feed, and what follows the last one. -/
def linePieces : List Char → List (List Char) × List Char
  | [] => ([], [])
  | c :: rest =>
    let (lines, tail) := linePieces rest
    if c = '\n' then ([] :: lines, tail)
    else match lines with
      | [] => ([], c :: tail)
      | line :: lines => ((c :: line) :: lines, tail)

/-- The lines of a text. A line ends at a line feed, and a carriage return right before that line
feed belongs to the line end; text behind the last line feed is a line if there is any. -/
def lines (cs : List Char) : List (List Char) :=
  let (ended, tail) := linePieces cs
  ended.map dropReturn ++ if tail = [] then [] else [tail]

/-- Reads `pending` more characters of an occurrence that is already replaced, then goes on
replacing. -/
def replaceFrom (target replacement : List Char) : Nat → List Char → List Char
  | _, [] => []
  | pending + 1, _ :: rest => replaceFrom target replacement pending rest
  | 0, c :: rest =>
    if target.isPrefixOf (c :: rest) then
      replacement ++ replaceFrom target replacement (target.length - 1) rest
    else c :: replaceFrom target replacement 0 rest

/-- The text with every occurrence of a non-empty `target` replaced; occurrences are found from
left to right and do not overlap. -/
def replaceAll (target replacement cs : List Char) : List Char :=
  replaceFrom target replacement 0 cs

/-- The text between two equal quotes, if it starts and ends with one of `'` and `"`. -/
def quoted? : List Char → Option (List Char)
  | [] => none
  | [_] => none
  | first :: rest =>
    if (first = '\'' ∨ first = '"') ∧ rest.getLast? = some first then some rest.dropLast else none

/-- The text without a pair of equal quotes around it. -/
def unquote (cs : List Char) : List Char :=
  (quoted? cs).getD cs

theorem cutAt_eq_some {mark : Char} {cs before behind : List Char}
    (h : cutAt mark cs = some (before, behind)) : cs = before ++ mark :: behind := by
  induction cs generalizing before with
  | nil => simp [cutAt] at h
  | cons c rest ih =>
    simp only [cutAt] at h
    split at h
    · simp_all
    · obtain ⟨⟨l, r⟩, hr, heq⟩ := Option.map_eq_some_iff.1 h
      obtain ⟨rfl, rfl⟩ := Prod.mk.inj heq
      simp [ih hr]

theorem cutAtPair_eq_some {mark : Char} {cs before behind : List Char}
    (h : cutAtPair mark cs = some (before, behind)) : cs = before ++ mark :: mark :: behind := by
  fun_induction cutAtPair mark cs generalizing before with
  | case1 => simp at h
  | case2 => simp at h
  | case3 c d rest hmark => simp_all
  | case4 c d rest hmark ih =>
    obtain ⟨⟨l, r⟩, hr, heq⟩ := Option.map_eq_some_iff.1 h
    obtain ⟨rfl, rfl⟩ := Prod.mk.inj heq
    simp [ih hr]

theorem cutAtLastPair_eq_some {mark : Char} {cs before behind : List Char}
    (h : cutAtLastPair mark cs = some (before, behind)) :
    cs = before ++ mark :: mark :: behind := by
  fun_induction cutAtLastPair mark cs generalizing before with
  | case1 => simp at h
  | case2 => simp at h
  | case3 c d rest l r hr ih =>
    obtain ⟨rfl, rfl⟩ := Prod.mk.inj (Option.some.inj h)
    simp [ih hr]
  | case4 c d rest hnone hmark => simp_all
  | case5 => simp at h

/-! ## Pieces between separators -/

variable {separator : Char} {piece cs : List Char} {pieces : List (List Char)}

theorem splitAt_eq_splitOn (separator : Char) (cs : List Char) :
    splitAt separator cs = cs.splitOn separator := by
  induction cs with
  | nil => rfl
  | cons c rest ih =>
    rw [splitAt, List.splitOn_cons_eq_if_modifyHead, ih]
    cases hpieces : rest.splitOn separator with
    | nil => exact absurd hpieces (List.splitOn_ne_nil separator rest)
    | cons piece pieces => simp [extendFirst]

theorem not_mem_of_mem_extendFirst {c : Char} (hc : separator ≠ c)
    (h : ∀ piece ∈ pieces, separator ∉ piece) (hpiece : piece ∈ extendFirst c pieces) :
    separator ∉ piece := by
  cases pieces with
  | nil =>
    obtain rfl := List.mem_singleton.1 hpiece
    simpa using hc
  | cons first rest =>
    obtain ⟨hfirst, hrest⟩ := List.forall_mem_cons.1 h
    rcases List.mem_cons.1 hpiece with rfl | hmem
    · exact List.not_mem_cons_of_ne_of_not_mem hc hfirst
    · exact hrest piece hmem

theorem not_mem_of_mem_splitAt (h : piece ∈ splitAt separator cs) : separator ∉ piece := by
  induction cs generalizing piece with
  | nil =>
    obtain rfl := List.mem_singleton.1 h
    exact List.not_mem_nil
  | cons c rest ih =>
    rw [splitAt] at h
    split at h
    · rcases List.mem_cons.1 h with rfl | hrest
      · exact List.not_mem_nil
      · exact ih hrest
    · rename_i hc
      exact not_mem_of_mem_extendFirst (Ne.symm hc) (fun _ hmem => ih hmem) h

/-- The pieces of a text are the only ones that have no separator and, joined by it, give the
text. -/
theorem splitAt_eq_iff :
    splitAt separator cs = pieces ↔
      pieces ≠ [] ∧ [separator].intercalate pieces = cs ∧ ∀ piece ∈ pieces, separator ∉ piece := by
  constructor
  · rintro rfl
    refine ⟨?_, ?_, fun piece hpiece => not_mem_of_mem_splitAt hpiece⟩
    · rw [splitAt_eq_splitOn]
      exact List.splitOn_ne_nil separator cs
    · rw [splitAt_eq_splitOn, List.intercalate_splitOn]
  · rintro ⟨hne, rfl, hfree⟩
    rw [splitAt_eq_splitOn, List.splitOn_intercalate separator hfree hne]

end Stencil.Text
