import Stencil.Failure
import Stencil.Text.Blank
import Stencil.Text.Cut
import Stencil.Value.Basic

/-!
# Variable paths

A path names a place inside a value: `user.roles[1]`, `headers['x-id']`. It is read into segments,
and segments are followed from a value downwards, by member name in objects and by index in arrays.
A dot and a pair of brackets are two ways to write the same step.
-/

namespace Stencil.Path

/-- Where the reader of a path stands: in a name with the characters read so far, between brackets,
or right behind a closing bracket. -/
inductive Place where
  | name (current : List Char)
  | index (inner : List Char)
  | behindIndex

/-- Reads the rest of a path into its remaining segments. A segment in brackets is trimmed and may
be quoted; between brackets every character but the closing one is part of the segment. -/
def scan : Place → List Char → Except Malformation (List String)
  | .name current, [] => .ok (if current = [] then [] else [String.ofList current])
  | .name current, c :: rest =>
    if c = '.' then
      if current = [] then .error .emptySegment
      else if rest = [] then .error .trailingDot
      else (scan (.name []) rest).map (String.ofList current :: ·)
    else if c = '[' then
      if current = [] then .error .indexWithoutName
      else (scan (.index []) rest).map (String.ofList current :: ·)
    else if c = ']' then .error .unexpectedIndexEnd
    else scan (.name (current ++ [c])) rest
  | .index _, [] => .error .unclosedIndex
  | .index inner, c :: rest =>
    if c = ']' then
      let segment := Text.unquote (Text.trim inner)
      if segment = [] then .error .emptyIndex
      else (scan .behindIndex rest).map (String.ofList segment :: ·)
    else scan (.index (inner ++ [c])) rest
  | .behindIndex, [] => .ok []
  | .behindIndex, c :: rest =>
    if c = '.' then
      if rest = [] then .error .trailingDot else scan (.name []) rest
    else if c = '[' then scan (.index []) rest
    else if c = ']' then .error .unexpectedIndexEnd
    else .error .textAfterIndex

/-- The segments of a path; there is at least one. -/
def segments (cs : List Char) : Except Malformation (List String) :=
  match scan (.name []) cs with
  | .ok [] => .error .emptyPath
  | result => result

theorem segments_ne_ok_nil (cs : List Char) : segments cs ≠ .ok [] := by
  unfold segments
  split
  · simp
  · assumption

/-- Reads a path; a failure quotes the whole text. -/
def parse (text : String) : Except ResolveError (List String) :=
  match segments text.toList with
  | .ok segments => .ok segments
  | .error fault => .error (.malformedPlaceholder text fault)

theorem parse_ne_ok_nil (text : String) : parse text ≠ .ok [] := by
  unfold parse
  split
  · rename_i keys hkeys
    rintro ⟨⟩
    exact segments_ne_ok_nil _ hkeys
  · simp

/-- The index that a segment stands for: digits with an optional plus, which a word holds. -/
def index? (segment : String) : Option Nat :=
  let digits :=
    match segment.toList with
    | '+' :: digits => digits
    | digits => digits
  if digits = [] ∨ ¬ digits.all Numeral.isDigit then none
  else
    let n := Numeral.valueOfDigits digits
    if IsWord n then some n else none

/-- One step down from a value. -/
def child? (segment : String) : Value → Option Value
  | .object members => Entries.get? segment members
  | .array items => (index? segment).bind fun i => items[i]?
  | _ => none

/-- Follows segments down from a value. -/
def navigate : List String → Value → Option Value
  | [], v => some v
  | segment :: rest, v => (child? segment v).bind (navigate rest)

/-- A longer path is followed by its first part and then by the rest. -/
theorem navigate_append (front back : List String) (v : Value) :
    navigate (front ++ back) v = (navigate front v).bind (navigate back) := by
  induction front generalizing v with
  | nil => rfl
  | cons segment rest ih =>
    cases h : child? segment v <;> simp [navigate, h, ih]

end Stencil.Path
