import Stencil.Proofs.Template.Depth
import Stencil.Proofs.Template.Wholeness

/-!
# Values without placeholders

A text has a placeholder if and only if an opening pair of braces stands in it with a closing pair
somewhere behind. A value whose strings and keys are all free of that is resolved to itself, with
stray braces, backslashes and blanks as they are: its containers are entered, and nothing in it is
evaluated (`resolve_eq_pure_of_not_opensAndCloses`).
-/

namespace Stencil

/-! ## Texts -/

namespace Template

theorem OpensAndCloses.of_infix {part cs : List Char} (h : OpensAndCloses part)
    (hin : part <:+: cs) : OpensAndCloses cs := by
  rcases h with ⟨front, body, back, rfl⟩
  rcases hin with ⟨before, behind, rfl⟩
  exact ⟨before ++ front, body, back ++ behind, by simp⟩

/-- A text that is one placeholder but for blanks opens and closes it. -/
theorem whole?_eq_none {cs : List Char} (h : ¬ OpensAndCloses cs) : whole? cs = none := by
  cases hwhole : whole? cs with
  | none => rfl
  | some inner =>
    rcases whole?_eq_some hwhole with ⟨htrim, -⟩
    have hopens : OpensAndCloses (Text.trim cs) := ⟨[], inner, [], by simp [htrim]⟩
    exact absurd (hopens.of_infix (Text.trim_infix cs)) h

end Template

namespace Resolver

open Template

variable {r : Resolver} {text : String}

theorem resolveString_of_not_opensAndCloses (h : ¬ OpensAndCloses text.toList) :
    r.resolveString text = pure (.string text) := by
  rw [resolveString, whole?_eq_none h, interpolate_of_first?_none (first?_eq_none_iff.2 h)]
  cases hasPair '{' text.toList with
  | false => rfl
  | true => simp

theorem resolveText_of_not_opensAndCloses (h : ¬ OpensAndCloses text.toList) :
    r.resolveText text = pure text := by
  rw [resolveText, resolveString_of_not_opensAndCloses h]
  rfl

theorem stringEvents_of_not_opensAndCloses (h : ¬ OpensAndCloses text.toList) :
    r.stringEvents text = [] := by
  rw [stringEvents, whole?_eq_none h, pieces_of_first?_none (first?_eq_none_iff.2 h)]
  rfl

/-! ## Values -/

variable {depth n : Nat}

theorem resolveItems_of_eq_pure {items : List Value}
    (h : ∀ item ∈ items, r.resolveAt depth item = pure item) :
    r.resolveItems depth items = pure items := by
  induction items with
  | nil => rfl
  | cons item rest ih =>
    rw [List.forall_mem_cons] at h
    rw [resolveItems, h.1, ih h.2]
    rfl

/-- Members that stay as they are are written one after the other. -/
theorem resolveMembers_of_eq_pure {members : List (String × Value)}
    (h : ∀ m ∈ members, r.resolveText m.1 = pure m.1 ∧ r.resolveAt depth m.2 = pure m.2)
    (done : Entries Value) :
    r.resolveMembers depth done members = pure (Entries.insertAll members done) := by
  induction members generalizing done with
  | nil => rfl
  | cons m rest ih =>
    obtain ⟨key, item⟩ := m
    rw [List.forall_mem_cons] at h
    rw [resolveMembers, h.1.1, h.1.2, pure_bind, pure_bind, ih h.2]
    rfl

/-- A value without placeholders stays as it is where there is room for its nesting. -/
theorem resolveAt_eq_pure {v : Value} (hroom : depth + n = r.settings.maxDepth)
    (hnesting : v.nesting ≤ n) (hkeys : v.HasDistinctKeys)
    (htexts : ∀ text ∈ v.texts, ¬ OpensAndCloses text.toList) : r.resolveAt depth v = pure v := by
  induction v using Value.induction generalizing depth n with
  | null | bool _ | number _ => rfl
  | string text =>
    rw [resolveAt]
    exact resolveString_of_not_opensAndCloses (htexts text (by simp [Value.texts, Value.parts,
      Value.ownTexts]))
  | array items ih =>
    rw [Value.hasDistinctKeys_array] at hkeys
    rw [Value.forall_texts_array] at htexts
    cases n with
    | zero => exact absurd hnesting (Nat.not_succ_le_zero _)
    | succ n =>
      rw [Value.nesting_array_le_iff] at hnesting
      have hitems : ∀ item ∈ items, r.resolveAt (depth + 1) item = pure item := by
        intro item hitem
        exact ih item hitem (by omega) (hnesting item hitem) (hkeys item hitem)
          (htexts item hitem)
      rw [resolveAt, checkDepth_of_lt (by omega), pure_bind, resolveItems_of_eq_pure hitems]
      rfl
  | object members ih =>
    rw [Value.hasDistinctKeys_object] at hkeys
    rw [Value.forall_texts_object] at htexts
    cases n with
    | zero => exact absurd hnesting (Nat.not_succ_le_zero _)
    | succ n =>
      rw [Value.nesting_object_le_iff] at hnesting
      have hmembers : ∀ m ∈ members, r.resolveText m.1 = pure m.1 ∧
          r.resolveAt (depth + 1) m.2 = pure m.2 := by
        intro m hm
        constructor
        · exact resolveText_of_not_opensAndCloses (htexts m hm).1
        · exact ih m hm (by omega) (hnesting m hm) (hkeys.2 m hm) (htexts m hm).2
      -- distinct keys are written one behind the other, in the order in which they stand
      rw [resolveAt, checkDepth_of_lt (by omega), pure_bind, resolveMembers_of_eq_pure hmembers,
        Entries.insertAll_nil_of_nodup hkeys.1]
      rfl

/-- All that happens in a value without placeholders is that its containers are entered. -/
theorem exists_enter_of_mem_events {v : Value}
    (htexts : ∀ text ∈ v.texts, ¬ OpensAndCloses text.toList) :
    ∀ e ∈ r.events depth v, ∃ d, e = .enter d := by
  induction v using Value.induction generalizing depth with
  | null | bool _ | number _ => simp [events]
  | string text =>
    have htext := htexts text (by simp [Value.texts, Value.parts, Value.ownTexts])
    rw [events, stringEvents_of_not_opensAndCloses htext]
    simp
  | array items ih =>
    rw [Value.forall_texts_array] at htexts
    rw [forall_events_array]
    constructor
    · exact ⟨depth, rfl⟩
    · intro item hitem
      exact ih item hitem (htexts item hitem)
  | object members ih =>
    rw [Value.forall_texts_object] at htexts
    rw [forall_events_object]
    constructor
    · exact ⟨depth, rfl⟩
    · intro m hm
      rw [stringEvents_of_not_opensAndCloses (htexts m hm).1]
      constructor
      · simp
      · exact ih m hm (htexts m hm).2

/-- A value in whose strings and keys no opening pair of braces is followed by a closing pair is
resolved to itself, in every world and with whatever store, functions and settings, if its nesting
is within the limit and no object in it has a key twice. What is performed for it evaluates no
variable and no function. -/
theorem resolve_eq_pure_of_not_opensAndCloses {v : Value}
    (hnesting : v.nesting ≤ r.settings.maxDepth) (hkeys : v.HasDistinctKeys)
    (htexts : ∀ text ∈ v.texts, ¬ OpensAndCloses text.toList) :
    r.resolve v = pure v ∧ Performs r (r.resolve v) (r.events 0 v) ∧
      ∀ inner, .evaluate inner ∉ r.events 0 v := by
  refine ⟨resolveAt_eq_pure (Nat.zero_add _) hnesting hkeys htexts, performs_resolve v, ?_⟩
  intro inner hmem
  rcases exists_enter_of_mem_events htexts _ hmem with ⟨d, hd⟩
  cases hd

/-- Stray, unclosed, reversed and escaped braces stay, and so do blanks and the order of keys. -/
theorem resolve_eq_pure_of_not_opensAndCloses_of_stray :
    let r : Resolver :=
      { store := ({} : Store).set .globals "a" (.bool true), functions := {}
        settings := { maxDepth := 2 } }
    let v : Value := .object
      [ ("\x7d\x7d b \x7b\x7b", .array
          [ .string " \\\x7b\x7ba \x7d", .string "\x7b\x7b\x7b\n",
            .number (.integer (-1) (by decide)) ]),
        ("a", .string "a\x7d\x7d\\") ]
    v.nesting ≤ r.settings.maxDepth ∧ v.HasDistinctKeys ∧
      (∀ text ∈ v.texts, ¬ OpensAndCloses text.toList) ∧
      r.resolve v = pure v ∧ ∀ inner, .evaluate inner ∉ r.events 0 v := by
  intro r v
  have hnesting : v.nesting ≤ r.settings.maxDepth := by decide
  have hkeys : v.HasDistinctKeys := by
    simp [v, Value.HasDistinctKeys, Value.parts, Value.partsOfItems, Value.partsOfMembers,
      Entries.keys]
  have htexts : ∀ text ∈ v.texts, ¬ OpensAndCloses text.toList := by
    intro text htext
    rw [← first?_eq_none_iff]
    revert text
    decide
  have hself := resolve_eq_pure_of_not_opensAndCloses hnesting hkeys htexts
  exact ⟨hnesting, hkeys, htexts, hself.1, hself.2.2⟩

end Resolver

end Stencil
