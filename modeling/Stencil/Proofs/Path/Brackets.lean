import Stencil.Proofs.Path.Joining

/-!
# Brackets of paths

In a path that is read, each opening bracket of an index is closed by the next closing one, and
there are no closing ones elsewhere. The text of an index is looked at by no rule for brackets: an
opening one in it becomes a part of the segment, with quotes around it or without. So the brackets
outside quoted indexes are balanced and not nested, unless an index without quotes holds an opening
one; every other text whose brackets are misplaced is malformed (`brackets_of_parse`).
-/

namespace Stencil.Path

/-- A part of a text as far as brackets are concerned: a bracket, or the text of an index, which
reaches from an opening bracket to the next closing one. -/
inductive Part where
  | bracket (c : Char)
  | index (text : List Char)
deriving DecidableEq, Repr

/-- Whether a character is a bracket. -/
def isBracket (c : Char) : Bool :=
  c == '[' || c == ']'

theorem isBracket_iff {c : Char} : isBracket c = true ↔ c = '[' ∨ c = ']' := by
  simp [isBracket]

/-- The parts of a text. Behind an opening bracket, `inner` is what was read of its index; if the
bracket is never closed, there is no index. -/
def parts : Option (List Char) → List Char → List Part
  | none, [] => []
  | none, c :: rest =>
    if c = '[' then .bracket c :: parts (some []) rest
    else if c = ']' then .bracket c :: parts none rest
    else parts none rest
  | some inner, [] => (inner.filter isBracket).map .bracket
  | some inner, c :: rest =>
    if c = ']' then .index inner :: .bracket c :: parts none rest
    else parts (some (inner ++ [c])) rest

/-- The text of an index. -/
def Part.index? : Part → Option (List Char)
  | .bracket _ => none
  | .index text => some text

/-- The texts of the indexes of a text. -/
def indexTexts (cs : List Char) : List (List Char) :=
  (parts none cs).filterMap Part.index?

/-- The brackets of a part, apart from those inside a hidden index. -/
def Part.brackets (hidden : List Char → Bool) : Part → List Char
  | .bracket c => [c]
  | .index text => if hidden text then [] else text.filter isBracket

/-- The brackets of a text that stand outside its hidden indexes. -/
def brackets (hidden : List Char → Bool) (cs : List Char) : List Char :=
  (parts none cs).flatMap (Part.brackets hidden)

/-- Whether the text of an index is in quotes, apart from blanks around it. -/
def isQuoted (text : List Char) : Bool :=
  (Text.quoted? (Text.trim text)).isSome

/-- Whether brackets are balanced and not nested: the next one behind each opening bracket is a
closing one, and there are no other closing ones. -/
def arePaired : List Char → Bool
  | [] => true
  | [_] => false
  | c :: d :: rest => c == '[' && d == ']' && arePaired rest

variable {place : Place} {cs : List Char} {keys : List String}

/-! ## The parts of a path -/

/-- An index with its brackets. -/
def indexParts (text : List Char) : List Part :=
  [.bracket '[', .index text, .bracket ']']

/-- What the reader of an index has read of it. -/
def Place.inner? : Place → Option (List Char)
  | .index inner => some inner
  | .name _ | .behindIndex => none

/-- The bracket that the reader of an index has read. -/
def Place.opened : Place → List Part
  | .index _ => [.bracket '[']
  | .name _ | .behindIndex => []

/-- A path that is read is a row of indexes with their brackets, as far as brackets are concerned;
the first bracket may be read already. -/
theorem Reads.exists_parts (h : Reads place cs keys)
    (hinner : ∀ inner ∈ place.inner?, ']' ∉ inner) :
    ∃ texts : List (List Char), (∀ t ∈ texts, ']' ∉ t) ∧
      place.opened ++ parts place.inner? cs = texts.flatMap indexParts := by
  -- one case for each rule of the reader; only the rule that closes an index adds one to the row
  induction h with
  | nothing | lastName | lastIndex => exact ⟨[], by simp, rfl⟩
  | dotBehindName _ _ _ ih | openBehindName _ _ ih | dotBehindIndex _ _ ih | openBehindIndex _ ih =>
    exact ih (by simp [Place.inner?])
  | nameChar _ hopen hclose _ ih =>
    rcases ih (by simp [Place.inner?]) with ⟨texts, htexts, hparts⟩
    refine ⟨texts, htexts, ?_⟩
    rw [← hparts, Place.inner?, Place.inner?, parts, if_neg hopen, if_neg hclose]
    rfl
  | @closeIndex inner rest back _ _ ih =>
    rcases ih (by simp [Place.inner?]) with ⟨texts, htexts, hparts⟩
    have hfirst : ']' ∉ inner := hinner inner rfl
    refine ⟨inner :: texts, List.forall_mem_cons.2 ⟨hfirst, htexts⟩, ?_⟩
    rw [List.flatMap_cons, ← hparts, Place.inner?, parts, if_pos rfl]
    rfl
  | @indexChar c inner rest keys hclose _ ih =>
    have hlonger : ']' ∉ inner ++ [c] := by
      have hfirst : ']' ∉ inner := hinner inner rfl
      simp [hfirst, Ne.symm hclose]
    rcases ih (by simpa [Place.inner?] using hlonger) with ⟨texts, htexts, hparts⟩
    refine ⟨texts, htexts, ?_⟩
    rw [← hparts, Place.inner?, Place.inner?, parts, if_neg hclose]
    rfl

/-- A path that is read is a row of indexes with their brackets, as far as brackets are
concerned. -/
theorem exists_parts_of_segments (h : segments cs = .ok keys) :
    ∃ texts : List (List Char), (∀ t ∈ texts, ']' ∉ t) ∧
      parts none cs = texts.flatMap indexParts :=
  (reads_of_segments h).exists_parts (by simp [Place.inner?])

/-! ## Their brackets -/

section Row

variable {text : List Char} {texts : List (List Char)} {hidden : List Char → Bool}

theorem filterMap_index?_flatMap :
    (texts.flatMap indexParts).filterMap Part.index? = texts := by
  induction texts with
  | nil => rfl
  | cons text rest ih =>
    rw [List.flatMap_cons, List.filterMap_append, ih]
    rfl

/-- The text of an index has opening brackets only. -/
theorem eq_of_mem_brackets_index (h : ']' ∉ text) {c : Char}
    (hc : c ∈ (Part.index text).brackets hidden) : c = '[' := by
  rw [Part.brackets] at hc
  split at hc
  · cases hc
  · rcases List.mem_filter.1 hc with ⟨hmem, hbracket⟩
    rcases isBracket_iff.1 hbracket with rfl | rfl
    · rfl
    · exact absurd hmem h

theorem brackets_index_eq_nil_iff (h : ']' ∉ text) :
    (Part.index text).brackets hidden = [] ↔ ('[' ∈ text → hidden text = true) := by
  rw [Part.brackets]
  split
  · rename_i hhidden
    simp [hhidden]
  · rename_i hhidden
    rw [List.filter_eq_nil_iff]
    constructor
    · intro hnone hopen
      exact absurd rfl (hnone '[' hopen)
    · intro hopen c hc hbracket
      rcases isBracket_iff.1 hbracket with rfl | rfl
      · exact hhidden (hopen hc)
      · exact h hc

/-- The brackets of a row of indexes are paired if and only if the indexes that are not hidden hold
no brackets. -/
theorem arePaired_flatMap_iff (h : ∀ t ∈ texts, ']' ∉ t) :
    arePaired ((texts.flatMap indexParts).flatMap (Part.brackets hidden)) = true ↔
      ∀ t ∈ texts, '[' ∈ t → hidden t = true := by
  induction texts with
  | nil => simp [arePaired]
  | cons text rest ih =>
    rcases List.forall_mem_cons.1 h with ⟨hclose, hrest⟩
    have hrow : ((text :: rest).flatMap indexParts).flatMap (Part.brackets hidden) =
        '[' :: ((Part.index text).brackets hidden ++
          ']' :: (rest.flatMap indexParts).flatMap (Part.brackets hidden)) := by
      simp [indexParts, Part.brackets]
    rw [hrow, List.forall_mem_cons, ← brackets_index_eq_nil_iff hclose, ← ih hrest]
    cases hshown : (Part.index text).brackets hidden with
    | nil => simp [arePaired]
    | cons c more =>
      -- a second opening bracket follows the first one
      have hc : c = '[' := eq_of_mem_brackets_index hclose (hshown ▸ List.mem_cons_self)
      simp [arePaired, hc]

end Row

/-! ## Texts -/

/-- The brackets of a path that is read are paired if and only if the indexes that are not hidden
hold no opening bracket. -/
theorem arePaired_brackets_iff {text : String} (h : parse text = .ok keys)
    (hidden : List Char → Bool) :
    arePaired (brackets hidden text.toList) = true ↔
      ∀ t ∈ indexTexts text.toList, '[' ∈ t → hidden t = true := by
  rcases exists_parts_of_segments (parse_eq_ok_iff.1 h) with ⟨texts, htexts, hparts⟩
  have hindexes : indexTexts text.toList = texts := by
    rw [indexTexts, hparts, filterMap_index?_flatMap]
  rw [hindexes, brackets, hparts]
  exact arePaired_flatMap_iff htexts

/-- The brackets of a path that is read are balanced and not nested outside its indexes; they are so
outside its quoted indexes if and only if no other index holds an opening bracket. A text that is
not read is malformed, and a text whose brackets are misplaced elsewhere is not read. -/
theorem brackets_of_parse (text : String) :
    (∀ keys, parse text = .ok keys →
      arePaired (brackets (fun _ => true) text.toList) = true ∧
      (arePaired (brackets isQuoted text.toList) = true ↔
        ∀ t ∈ indexTexts text.toList, '[' ∈ t → isQuoted t = true)) ∧
    ((∀ keys, parse text ≠ .ok keys) →
      ∃ fault, parse text = .error (.malformedPlaceholder text fault)) ∧
    ((arePaired (brackets (fun _ => true) text.toList) = false ∨
        arePaired (brackets isQuoted text.toList) = false ∧
          ∀ t ∈ indexTexts text.toList, '[' ∈ t → isQuoted t = true) →
      ∃ fault, parse text = .error (.malformedPlaceholder text fault)) := by
  have hmalformed : (∀ keys, parse text ≠ .ok keys) →
      ∃ fault, parse text = .error (.malformedPlaceholder text fault) := by
    intro hrefused
    rcases parse_ok_or_malformed text with ⟨keys, hparse⟩ | hfault
    · exact absurd hparse (hrefused keys)
    · exact hfault
  have houter : ∀ keys, parse text = .ok keys →
      arePaired (brackets (fun _ => true) text.toList) = true := by
    intro keys hparse
    rw [arePaired_brackets_iff hparse]
    intro t _ _
    rfl
  refine ⟨?_, hmalformed, ?_⟩
  · intro keys hparse
    exact ⟨houter keys hparse, arePaired_brackets_iff hparse isQuoted⟩
  · intro hmisplaced
    apply hmalformed
    intro keys hparse
    rcases hmisplaced with hunpaired | ⟨hunpaired, hindexes⟩
    · rw [houter keys hparse] at hunpaired
      cases hunpaired
    · rw [(arePaired_brackets_iff hparse isQuoted).2 hindexes] at hunpaired
      cases hunpaired

/-- Brackets inside quotes, blanks around these, and a quote that is closed in another index; and a
text with a closing bracket too many. -/
theorem brackets_of_parse_of_quotes :
    parse "a[ '[x[' ][0]['b][c']" = .ok ["a", "[x[", "0", "'b", "c'"] ∧
      arePaired (brackets isQuoted "a[ '[x[' ][0]['b][c']".toList) = true ∧
      arePaired (brackets isQuoted "a['[x']]".toList) = false ∧
      ∃ fault, parse "a['[x']]" = .error (.malformedPlaceholder "a['[x']]" fault) := by
  have hparse : parse "a[ '[x[' ][0]['b][c']" = .ok ["a", "[x[", "0", "'b", "c'"] := by decide
  have hindexes : ∀ t ∈ indexTexts "a[ '[x[' ][0]['b][c']".toList, '[' ∈ t → isQuoted t = true := by
    decide
  have hmisplaced : arePaired (brackets (fun _ => true) "a['[x']]".toList) = false := by decide
  rcases brackets_of_parse "a[ '[x[' ][0]['b][c']" with ⟨hread, -⟩
  rcases hread _ hparse with ⟨-, hquoted⟩
  rcases brackets_of_parse "a['[x']]" with ⟨-, -, hmalformed⟩
  exact ⟨hparse, hquoted.2 hindexes, by decide, hmalformed (Or.inl hmisplaced)⟩

/-- An opening bracket inside an index without quotes is read as a part of the segment: of the first
two brackets the second one is no closing one. -/
theorem parse_of_bracket_in_index :
    parse "a[[0]" = .ok ["a", "[0"] ∧
      brackets isQuoted "a[[0]".toList = ['[', '[', ']'] ∧
      arePaired (brackets isQuoted "a[[0]".toList) = false ∧
      parse "a[[0" = .error (.malformedPlaceholder "a[[0" .unclosedIndex) ∧
      parse "a[0]]" = .error (.malformedPlaceholder "a[0]]" .unexpectedIndexEnd) := by
  decide

end Stencil.Path
