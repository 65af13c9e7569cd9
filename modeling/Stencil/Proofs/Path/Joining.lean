import Stencil.Proofs.Path.Rules

/-!
# Joining paths

Where a path may end, the reader keeps nothing of it but its last name, and goes on with what
follows as with a path of its own (`Reads.exists_place`). So a path that can be read, a dot and
another path are read as the segments of the one followed by those of the other, and what is wrong
with the second path is wrong with the whole (`segments_append_dot`). A plain key in brackets is
read as the same key behind a dot, whatever follows it (`segments_append_index`). What the joined
path leads to is found by following its first part and then the rest (`parse_join`).
-/

namespace Stencil.Path

variable {place : Place} {cs rest key tail : List Char} {keys : List String}

/-- Segments are put in front of a result all at once or one part after the other. -/
theorem map_append_append (result : Except Malformation (List String)) (front back : List String) :
    (result.map (back ++ ·)).map (front ++ ·) = result.map (front ++ back ++ ·) := by
  cases result with
  | ok keys => simp [Except.map]
  | error fault => rfl

theorem map_nil_append (result : Except Malformation (List String)) :
    result.map ([] ++ ·) = result := by
  cases result with
  | ok keys => rfl
  | error fault => rfl

/-! ## Where a path may end -/

/-- The segment that is still being read. -/
def Place.pending : Place → List String
  | .name current => [String.ofList current]
  | .index _ | .behindIndex => []

/-- A place where a path may end: behind a character of a name, or behind an index. -/
def Place.IsEnd : Place → Prop
  | .name current => current ≠ []
  | .index _ => False
  | .behindIndex => True

/-- Behind a path that can be read the reader stands where a path may end, and goes on from there as
if it had started there. In front of the first character of a name nothing ends. -/
theorem Reads.exists_place (h : Reads place cs keys)
    (hstarted : place ≠ .name [] ∨ cs ≠ []) :
    ∃ (front : List String) (ended : Place), ended.IsEnd ∧ keys = front ++ ended.pending ∧
      ∀ rest, scan place (cs ++ rest) = (scan ended rest).map (front ++ ·) := by
  -- a rule that reads one character more leaves what follows to the place that it leads to
  induction h with
  | nothing => simp at hstarted
  | lastName hcurrent =>
    exact ⟨[], .name _, hcurrent, rfl, fun rest => (map_nil_append _).symm⟩
  | @dotBehindName current text back hcurrent htext _ ih =>
    rcases ih (Or.inr htext) with ⟨front, ended, hended, rfl, hscan⟩
    refine ⟨String.ofList current :: front, ended, hended, rfl, fun rest => ?_⟩
    have hjoined : text ++ rest ≠ [] := List.append_ne_nil_of_left_ne_nil htext rest
    rw [List.cons_append, scan, if_pos rfl, if_neg hcurrent, if_neg hjoined, hscan]
    exact map_append_append _ [_] front
  | @openBehindName current text back hcurrent _ ih =>
    rcases ih (Or.inl Place.noConfusion) with ⟨front, ended, hended, rfl, hscan⟩
    refine ⟨String.ofList current :: front, ended, hended, rfl, fun rest => ?_⟩
    rw [List.cons_append, scan, if_neg (by decide), if_pos rfl, if_neg hcurrent, hscan]
    exact map_append_append _ [_] front
  | nameChar hdot hopen hclose _ ih =>
    rcases ih (Or.inl (by simp)) with ⟨front, ended, hended, hkeys, hscan⟩
    refine ⟨front, ended, hended, hkeys, fun rest => ?_⟩
    rw [List.cons_append, scan, if_neg hdot, if_neg hopen, if_neg hclose, hscan]
  | closeIndex hsegment _ ih =>
    rcases ih (Or.inl Place.noConfusion) with ⟨front, ended, hended, rfl, hscan⟩
    refine ⟨_ :: front, ended, hended, rfl, fun rest => ?_⟩
    rw [List.cons_append, scan, if_pos rfl]
    simp only [hsegment, if_false]
    rw [hscan]
    exact map_append_append _ [_] front
  | indexChar hclose _ ih =>
    rcases ih (Or.inl Place.noConfusion) with ⟨front, ended, hended, hkeys, hscan⟩
    refine ⟨front, ended, hended, hkeys, fun rest => ?_⟩
    rw [List.cons_append, scan, if_neg hclose, hscan]
  | lastIndex => exact ⟨[], .behindIndex, trivial, rfl, fun rest => (map_nil_append _).symm⟩
  | @dotBehindIndex text keys htext _ ih =>
    rcases ih (Or.inr htext) with ⟨front, ended, hended, hkeys, hscan⟩
    refine ⟨front, ended, hended, hkeys, fun rest => ?_⟩
    have hjoined : text ++ rest ≠ [] := List.append_ne_nil_of_left_ne_nil htext rest
    rw [List.cons_append, scan, if_pos rfl, if_neg hjoined, hscan]
  | openBehindIndex _ ih =>
    rcases ih (Or.inl Place.noConfusion) with ⟨front, ended, hended, hkeys, hscan⟩
    refine ⟨front, ended, hended, hkeys, fun rest => ?_⟩
    rw [List.cons_append, scan, if_neg (by decide), if_pos rfl, hscan]

/-- A dot ends a segment, and a path follows it. -/
theorem scan_dot (h : place.IsEnd) (hrest : rest ≠ []) :
    scan place ('.' :: rest) = (scan (.name []) rest).map (place.pending ++ ·) := by
  cases place with
  | name current =>
    have hcurrent : current ≠ [] := h
    rw [scan, if_pos rfl, if_neg hcurrent, if_neg hrest]
    rfl
  | index inner => exact absurd h id
  | behindIndex =>
    rw [scan, if_pos rfl, if_neg hrest]
    exact (map_nil_append _).symm

/-- No path ends in a dot. -/
theorem scan_dot_nil (h : place.IsEnd) : scan place ['.'] = .error .trailingDot := by
  cases place with
  | name current =>
    have hcurrent : current ≠ [] := h
    rw [scan, if_pos rfl, if_neg hcurrent, if_pos rfl]
  | index inner => exact absurd h id
  | behindIndex => rw [scan, if_pos rfl, if_pos rfl]

/-- A text that ends in a dot is no path. -/
theorem Reads.getLast?_ne_dot (h : Reads place cs keys) : cs.getLast? ≠ some '.' := by
  have hlast {c : Char} {text : List Char} (htext : text.getLast? ≠ some '.')
      (hc : c ≠ '.' ∨ text ≠ []) : (c :: text).getLast? ≠ some '.' := by
    cases text with
    | nil => simpa using hc
    | cons d rest => exact htext
  -- a last dot is refused where it is read, and all other rules leave the end to the rest
  induction h with
  | nothing | lastName | lastIndex => simp
  | dotBehindName _ htext _ ih | dotBehindIndex htext _ ih => exact hlast ih (Or.inr htext)
  | nameChar hdot _ _ _ ih => exact hlast ih (Or.inl hdot)
  | openBehindName _ _ ih | closeIndex _ _ ih | openBehindIndex _ ih =>
    exact hlast ih (Or.inl (by decide))
  | indexChar _ hrest ih =>
    refine hlast ih (Or.inr ?_)
    rintro rfl
    cases hrest

/-- An opening bracket ends a segment, and an index follows it. -/
theorem scan_open (h : place.IsEnd) (rest : List Char) :
    scan place ('[' :: rest) = (scan (.index []) rest).map (place.pending ++ ·) := by
  cases place with
  | name current =>
    have hcurrent : current ≠ [] := h
    rw [scan, if_neg (by decide), if_pos rfl, if_neg hcurrent]
    rfl
  | index inner => exact absurd h id
  | behindIndex =>
    rw [scan, if_neg (by decide), if_pos rfl]
    exact (map_nil_append _).symm

/-! ## Segments -/

/-- A path that can be read goes on where it may end. -/
theorem exists_place_of_segments (h : segments cs = .ok keys) :
    ∃ (front : List String) (ended : Place), ended.IsEnd ∧ keys = front ++ ended.pending ∧
      ∀ rest, segments (cs ++ rest) = (scan ended rest).map (front ++ ·) := by
  have hcs : cs ≠ [] := ne_nil_of_segments h
  rcases (reads_of_segments h).exists_place (Or.inr hcs) with
    ⟨front, ended, hended, hkeys, hscan⟩
  refine ⟨front, ended, hended, hkeys, fun rest => ?_⟩
  have hjoined : cs ++ rest ≠ [] := List.append_ne_nil_of_left_ne_nil hcs rest
  rw [segments_eq_scan hjoined, hscan]

/-- A path, a dot and another path give the segments of both. -/
theorem segments_append_dot (h : segments cs = .ok keys) (hrest : rest ≠ []) :
    segments (cs ++ '.' :: rest) = (segments rest).map (keys ++ ·) := by
  rcases exists_place_of_segments h with ⟨front, ended, hended, rfl, hsegments⟩
  rw [hsegments, scan_dot hended hrest, map_append_append, segments_eq_scan hrest]

theorem segments_append_dot_nil (h : segments cs = .ok keys) :
    segments (cs ++ ['.']) = .error .trailingDot := by
  rcases exists_place_of_segments h with ⟨front, ended, hended, -, hsegments⟩
  rw [hsegments, scan_dot_nil hended]
  rfl

/-- Behind a path that can be read and a dot, what is read is what can be read by itself. -/
theorem segments_append_dot_eq_ok_iff {front : List String} (h : segments cs = .ok front) :
    segments (cs ++ '.' :: rest) = .ok keys ↔
      ∃ back, segments rest = .ok back ∧ keys = front ++ back := by
  by_cases hrest : rest = []
  · have hempty : segments [] = .error .emptyPath := rfl
    rw [hrest, segments_append_dot_nil h, hempty]
    simp
  · rw [segments_append_dot h hrest]
    cases segments rest with
    | ok back => simp [Except.map, eq_comm]
    | error fault => simp [Except.map]

/-! ## Keys in brackets -/

/-- A key that needs neither brackets nor quotes. -/
structure IsPlainKey (key : List Char) : Prop where
  ne_nil : key ≠ []
  plain : ∀ c ∈ key, c ≠ '.' ∧ c ≠ '[' ∧ c ≠ ']'
  trim_eq : Text.trim key = key
  not_quoted : Text.quoted? key = none

/-- What may follow a segment: nothing, or the next one behind a dot or in brackets. -/
def IsTail (tail : List Char) : Prop :=
  ∀ c ∈ tail.head?, c = '.' ∨ c = '['

/-- Behind a name the reader goes on as behind an index, with the name for a segment. -/
theorem scan_name_eq_behindIndex (h : IsPlainKey key) (htail : IsTail tail) :
    scan (.name key) tail = (scan .behindIndex tail).map (String.ofList key :: ·) := by
  have hname : (Place.name key).IsEnd := h.ne_nil
  have hindex : Place.behindIndex.IsEnd := trivial
  cases tail with
  | nil =>
    rw [scan, if_neg h.ne_nil]
    rfl
  | cons c rest =>
    have hc : c = '.' ∨ c = '[' := htail c rfl
    rcases hc with rfl | rfl
    · by_cases hrest : rest = []
      · rw [hrest, scan_dot_nil hname, scan_dot_nil hindex]
        rfl
      · rw [scan_dot hname hrest, scan_dot hindex hrest]
        exact (map_append_append _ [_] []).symm
    · rw [scan_open hname, scan_open hindex]
      exact (map_append_append _ [_] []).symm

theorem scan_index_plain (h : IsPlainKey key) (rest : List Char) :
    scan (.index []) (key ++ ']' :: rest) =
      (scan .behindIndex rest).map (String.ofList key :: ·) := by
  have hclose : ']' ∉ key := fun hmem => (h.plain _ hmem).2.2 rfl
  have hunquoted : Text.unquote (Text.trim key) = key := by
    rw [h.trim_eq, Text.unquote, h.not_quoted]
    rfl
  rw [scan_index_append hclose, List.nil_append, scan, if_pos rfl]
  simp [hunquoted, h.ne_nil]

/-- Behind a path that can be read, a plain key in brackets is the same as behind a dot. -/
theorem segments_append_index (h : segments cs = .ok keys) (hkey : IsPlainKey key)
    (htail : IsTail tail) :
    segments (cs ++ '[' :: key ++ ']' :: tail) = segments (cs ++ '.' :: key ++ tail) := by
  rcases exists_place_of_segments h with ⟨front, ended, hended, -, hsegments⟩
  have hjoined : key ++ tail ≠ [] := List.append_ne_nil_of_left_ne_nil hkey.ne_nil tail
  have hbrackets : segments (cs ++ '[' :: key ++ ']' :: tail) =
      ((scan (.index []) (key ++ ']' :: tail)).map (ended.pending ++ ·)).map (front ++ ·) := by
    rw [List.append_assoc, List.cons_append, hsegments, scan_open hended]
  have hdot : segments (cs ++ '.' :: key ++ tail) =
      ((scan (.name []) (key ++ tail)).map (ended.pending ++ ·)).map (front ++ ·) := by
    rw [List.append_assoc, List.cons_append, hsegments, scan_dot hended hjoined]
  rw [hbrackets, hdot, scan_index_plain hkey, scan_name_append hkey.plain, List.nil_append,
    scan_name_eq_behindIndex hkey htail]

/-! ## Texts -/

/-- A path that can be read, a dot and another path are read if and only if the other path is, as
the segments of both. A plain key behind the path is read in brackets as it is read behind a dot,
and what is wrong with the one text is wrong with the other. What a joined path leads to is what its
second part leads to from where its first part leads. -/
theorem parse_join {path : String} {front : List String} (h : parse path = .ok front) :
    (∀ other keys, parse (path ++ "." ++ other) = .ok keys ↔
      ∃ back, parse other = .ok back ∧ keys = front ++ back) ∧
    (∀ key tail : String, IsPlainKey key.toList → IsTail tail.toList →
      (∀ keys, parse (path ++ "[" ++ key ++ "]" ++ tail) = .ok keys ↔
        parse (path ++ "." ++ key ++ tail) = .ok keys) ∧
      ∀ fault,
        parse (path ++ "[" ++ key ++ "]" ++ tail) =
            .error (.malformedPlaceholder (path ++ "[" ++ key ++ "]" ++ tail) fault) ↔
          parse (path ++ "." ++ key ++ tail) =
            .error (.malformedPlaceholder (path ++ "." ++ key ++ tail) fault)) ∧
    (∀ other keys, parse (path ++ "." ++ other) = .ok keys →
      ∃ back, parse other = .ok back ∧
        ∀ root, navigate keys root = (navigate front root).bind (navigate back)) ∧
    ∀ (key tail : String) (keys : List String), IsPlainKey key.toList → IsTail tail.toList →
      parse (path ++ "[" ++ key ++ "]" ++ tail) = .ok keys →
      ∃ back, parse (key ++ tail) = .ok back ∧
        ∀ root, navigate keys root = (navigate front root).bind (navigate back) := by
  have hfront : segments path.toList = .ok front := parse_eq_ok_iff.1 h
  have hdot : ∀ other keys, parse (path ++ "." ++ other) = .ok keys ↔
      ∃ back, parse other = .ok back ∧ keys = front ++ back := by
    intro other keys
    rw [parse_eq_ok_iff]
    simpa [parse_eq_ok_iff] using segments_append_dot_eq_ok_iff hfront
  have hindex : ∀ key tail : String, IsPlainKey key.toList → IsTail tail.toList →
      segments (path ++ "[" ++ key ++ "]" ++ tail).toList =
        segments (path ++ "." ++ key ++ tail).toList := by
    intro key tail hkey htail
    simpa using segments_append_index hfront hkey htail
  have hfollow : ∀ other keys, parse (path ++ "." ++ other) = .ok keys →
      ∃ back, parse other = .ok back ∧
        ∀ root, navigate keys root = (navigate front root).bind (navigate back) := by
    intro other keys hjoined
    rcases (hdot other keys).1 hjoined with ⟨back, hback, rfl⟩
    exact ⟨back, hback, fun root => navigate_append front back root⟩
  refine ⟨hdot, ?_, hfollow, ?_⟩
  · intro key tail hkey htail
    have hsame := hindex key tail hkey htail
    refine ⟨fun keys => ?_, fun fault => ?_⟩
    · rw [parse_eq_ok_iff, parse_eq_ok_iff, hsame]
    · rw [parse_eq_malformed_iff, parse_eq_malformed_iff, hsame]
  · intro key tail keys hkey htail hjoined
    have hdotted : parse (path ++ "." ++ key ++ tail) = .ok keys := by
      rw [parse_eq_ok_iff, ← hindex key tail hkey htail]
      exact parse_eq_ok_iff.1 hjoined
    rw [String.append_assoc] at hdotted
    exact hfollow (key ++ tail) keys hdotted

/-- A path that ends in a quoted index, a key with quotes of two kinds, and tails of all forms. -/
theorem parse_join_of_index :
    let root : Value := .object [("a", .object [("x.", .object [("'k\"", .array [.null])])])]
    parse "a['x.']" = .ok ["a", "x."] ∧ IsPlainKey "'k\"".toList ∧ IsTail "[0]".toList ∧
      parse "a['x.']['k\"][0]" = .ok ["a", "x.", "'k\"", "0"] ∧
      parse "a['x.'].'k\"." =
        .error (.malformedPlaceholder "a['x.'].'k\"." .trailingDot) ∧
      navigate ["a", "x.", "'k\"", "0"] root =
        (navigate ["a", "x."] root).bind (navigate ["'k\"", "0"]) := by
  intro root
  have hpath : parse "a['x.']" = .ok ["a", "x."] := by decide
  have hkey : IsPlainKey "'k\"".toList :=
    { ne_nil := by decide, plain := by simp, trim_eq := by decide, not_quoted := by decide }
  have htail : IsTail "[0]".toList := by simp [IsTail]
  have hstop : IsTail ".".toList := by simp [IsTail]
  rcases parse_join hpath with ⟨hdot, hindex, -, hfollow⟩
  have hjoined : parse "a['x.']['k\"][0]" = .ok ["a", "x.", "'k\"", "0"] := by
    apply ((hindex "'k\"" "[0]" hkey htail).1 _).2
    exact (hdot "'k\"[0]" _).2 ⟨["'k\"", "0"], by decide, rfl⟩
  have hrefused : parse "a['x.'].'k\"." =
      .error (.malformedPlaceholder "a['x.'].'k\"." .trailingDot) :=
    ((hindex "'k\"" "." hkey hstop).2 .trailingDot).1 (by decide)
  rcases hfollow "'k\"" "[0]" _ hkey htail hjoined with ⟨back, hback, hnavigate⟩
  have hread : parse ("'k\"" ++ "[0]") = .ok ["'k\"", "0"] := by decide
  rw [hread] at hback
  cases hback
  exact ⟨hpath, hkey, htail, hjoined, hrefused, hnavigate root⟩

end Stencil.Path
