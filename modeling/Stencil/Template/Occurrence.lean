import Stencil.Text.Blank
import Stencil.Text.Cut

/-!
# Placeholders in texts

A placeholder in a text ends at the first closing pair of braces behind an opening pair, and
starts at the last opening pair between these two; opening pairs before that one stay literal. A
text is thus a row of occurrences, each with the literal text before it, and a literal tail
(`pieces`, and `join_pieces`: nothing is lost).
-/

namespace Stencil.Template

/-- A placeholder in a text: the literal text in front of it, and the text between its braces. -/
structure Occurrence where
  before : List Char
  inner : List Char
deriving DecidableEq, Repr

/-- A text divided into placeholders and what follows the last one. -/
structure Pieces where
  occurrences : List Occurrence
  tail : List Char
deriving DecidableEq, Repr

/-- The text of a placeholder with its braces. -/
def Occurrence.braced (o : Occurrence) : List Char :=
  '{' :: '{' :: o.inner ++ ['}', '}']

/-- Whether a backslash stands right before the placeholder. -/
def Occurrence.isEscaped (o : Occurrence) : Bool :=
  o.before.getLast? == some '\\'

/-- The first placeholder of a text that starts with `lead` and an opening pair of braces,
followed by `body` and a closing pair. -/
def Occurrence.ofBody (lead body : List Char) : Occurrence :=
  match Text.cutAtLastPair '{' body with
  | none => { before := lead, inner := body }
  | some (stray, inner) => { before := lead ++ '{' :: '{' :: stray, inner }

/-- The first placeholder of a text, and the text behind it. -/
def first? (cs : List Char) : Option (Occurrence × List Char) :=
  (Text.cutAtPair '{' cs).bind fun (lead, behind) =>
    (Text.cutAtPair '}' behind).map fun (body, rest) => (Occurrence.ofBody lead body, rest)

/-- A placeholder stands where its text was, between its literal text and the rest. -/
theorem eq_of_first? {cs rest : List Char} {o : Occurrence} (h : first? cs = some (o, rest)) :
    cs = o.before ++ o.braced ++ rest := by
  obtain ⟨⟨lead, behind⟩, hlead, h⟩ := Option.bind_eq_some_iff.1 h
  obtain ⟨⟨body, r⟩, hbody, h⟩ := Option.map_eq_some_iff.1 h
  obtain ⟨rfl, rfl⟩ := Prod.mk.inj h
  rw [Text.cutAtPair_eq_some hlead, Text.cutAtPair_eq_some hbody]
  unfold Occurrence.ofBody
  split
  · simp [Occurrence.braced]
  · rename_i stray inner hstray
    simp [Occurrence.braced, Text.cutAtLastPair_eq_some hstray]

theorem length_lt_of_first? {cs rest : List Char} {o : Occurrence}
    (h : first? cs = some (o, rest)) : rest.length < cs.length := by
  rw [eq_of_first? h]
  simp [Occurrence.braced]
  omega

/-- Divides a text into placeholders and a tail. -/
def pieces (cs : List Char) : Pieces :=
  match _h : first? cs with
  | none => { occurrences := [], tail := cs }
  | some (o, rest) =>
    let further := pieces rest
    { further with occurrences := o :: further.occurrences }
termination_by cs.length
decreasing_by exact length_lt_of_first? _h

/-- Puts a divided text together again. -/
def Pieces.join (p : Pieces) : List Char :=
  p.occurrences.flatMap (fun o => o.before ++ o.braced) ++ p.tail

theorem join_pieces (cs : List Char) : (pieces cs).join = cs := by
  fun_induction pieces cs with
  | case1 cs h => simp [Pieces.join]
  | case2 cs o rest h further ih =>
    rw [eq_of_first? h]
    simpa [Pieces.join] using ih

/-- Whether a doubled character stands anywhere in a text. -/
def hasPair (mark : Char) (cs : List Char) : Bool :=
  (Text.cutAtPair mark cs).isSome

/-- The inner text if a text, apart from blanks around it, is one placeholder. -/
def whole? (cs : List Char) : Option (List Char) :=
  ((Text.dropStart? ['{', '{'] (Text.trim cs)).bind (Text.dropEnd? ['}', '}'])).filter fun inner =>
    !hasPair '{' inner && !hasPair '}' inner

end Stencil.Template
