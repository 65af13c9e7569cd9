import Stencil.Proofs.Path.Writing
import Stencil.Proofs.Placeholder.Bars
import Stencil.Proofs.Template.Division
import Stencil.Proofs.Template.Evaluating

/-!
# Addressing stored values

Every value inside a stored one can be written as a placeholder: the path of its place, with the
bars escaped. The placeholder gives the value as it is, and fails if there is none at that place.
Between braces, unless the text itself holds a pair of them, it is a template with the same result
(`resolvePlaceholder_ofPath`).
-/

namespace Stencil.Template

/-- A text without pairs of braces, between braces, is one placeholder. -/
theorem whole?_braced {cs : List Char} (hopening : ¬ opening <:+: cs)
    (hclosing : ¬ closing <:+: cs) : whole? (opening ++ cs ++ closing) = some cs := by
  have htrim : Text.trim (opening ++ cs ++ closing) = opening ++ cs ++ closing := by
    have hends : Text.trim ('{' :: ('{' :: cs ++ ['}']) ++ ['}']) =
        '{' :: ('{' :: cs ++ ['}']) ++ ['}'] := Text.trim_of_ends (by decide) (by decide)
    simpa using hends
  have hopeningPair : hasPair '{' cs = false := by
    simpa [← hasPair_iff] using hopening
  have hclosingPair : hasPair '}' cs = false := by
    simpa [← hasPair_iff] using hclosing
  rw [whole?, htrim, List.append_assoc, Text.dropStart?_append, Option.bind_some,
    Text.dropEnd?_append]
  simp [hopeningPair, hclosingPair]

end Stencil.Template

namespace Stencil

namespace Path

/-- A written path has no blanks at its ends. -/
theorem trim_write {name : String} {keys : List String} (hname : IsName name) :
    Text.trim (write name keys) = write name keys := by
  refine Text.trim_eq_self ?_ ?_
  · intro c hc
    rw [write, List.head?_append_of_ne_nil _ hname.toList_ne_nil] at hc
    exact hname.head_not_blank c hc
  · intro c hc
    rcases List.eq_nil_or_concat keys with rfl | ⟨front, key, rfl⟩
    · exact hname.last_not_blank c (by simpa [write] using hc)
    · -- the last step ends in a bracket
      have hlast : (write name (front.concat key)).getLast? = some ']' := by
        rw [write, List.concat_eq_append, List.flatMap_append, List.flatMap_singleton, bracketed,
          ← List.append_assoc, ← List.append_assoc, List.getLast?_concat]
      rw [hlast] at hc
      obtain rfl : ']' = c := Option.some.inj hc
      decide

end Path

namespace Placeholder

/-- The placeholder of a place: its path, with the bars escaped. -/
def ofPath (name : String) (keys : List String) : List Char :=
  escapeBars (Path.write name keys)

/-- The placeholder of a place is read as its segments, without a default. -/
theorem parse_ofPath {name : String} {keys : List String} (hname : Path.IsName name)
    (hkeys : ∀ key ∈ keys, Path.IsKey key) :
    Placeholder.parse (String.ofList (ofPath name keys)) =
      .ok { expression := .variable (name :: keys), default := none,
            source := String.ofList (Path.write name keys) } := by
  have hwrite : Path.write name keys ≠ [] := List.append_ne_nil_of_left_ne_nil hname.toList_ne_nil _
  have hdollar : (Path.write name keys).head? ≠ some '$' := by
    rw [Path.write, List.head?_append_of_ne_nil _ hname.toList_ne_nil]
    exact hname.head_ne_dollar
  have hexpression : Expression.parse (Path.write name keys) = .ok (.variable (name :: keys)) := by
    rw [Expression.parse.eq_2 _ fun rest hrest => hdollar (by rw [hrest]; rfl)]
    simp [Path.parse, Path.segments_write hname.ne_empty hname.plain hkeys, Except.map]
  rw [ofPath, parse_escapeBars hwrite (Path.trim_write hname), hexpression]
  rfl

end Placeholder

namespace Resolver

/-- A value that a resolver's store holds: under a name, and inside the value of the name at the end
of some segments. -/
def Holds (r : Resolver) (name : String) (keys : List String) (v : Value) : Prop :=
  ∃ root, r.store.get? name = some root ∧ Path.Leads keys root v

theorem lookup?_eq_some_iff {r : Resolver} {name : String} {keys : List String} {v : Value} :
    r.lookup? (name :: keys) = some v ↔ r.Holds name keys v := by
  simp [lookup?, Option.bind_eq_some_iff, Path.navigate_eq_some_iff, Holds]

/-- The placeholder of a place evaluates to the value that stands there, and to an error that quotes
the path if no value does. Between braces it is a template with the same result. -/
theorem resolvePlaceholder_ofPath (r : Resolver) {name : String} {keys : List String}
    (hname : Path.IsName name) (hkeys : ∀ key ∈ keys, Path.IsKey key) :
    (∀ v, r.Holds name keys v →
      r.resolvePlaceholder (String.ofList (Placeholder.ofPath name keys)) = pure v) ∧
    ((¬ ∃ v, r.Holds name keys v) →
      r.resolvePlaceholder (String.ofList (Placeholder.ofPath name keys)) =
        Eval.fail (.unresolvedVariable (String.ofList (Path.write name keys)))) ∧
    (¬ Template.opening <:+: Placeholder.ofPath name keys →
      ¬ Template.closing <:+: Placeholder.ofPath name keys →
      r.resolve (.string (String.ofList
          (Template.opening ++ Placeholder.ofPath name keys ++ Template.closing))) =
        r.resolvePlaceholder (String.ofList (Placeholder.ofPath name keys))) := by
  have hparse := Placeholder.parse_ofPath hname hkeys
  have hplaceholder := resolvePlaceholder_of_variable (r := r) hparse
  refine ⟨fun v hv => ?_, fun habsent => ?_, fun hopening hclosing => ?_⟩
  · rw [hplaceholder, lookup?_eq_some_iff.2 hv]
    rfl
  · have hlookup : r.lookup? (name :: keys) = none := by
      rw [Option.eq_none_iff_forall_ne_some]
      intro v hv
      exact habsent ⟨v, lookup?_eq_some_iff.1 hv⟩
    rw [hplaceholder, hlookup]
    rfl
  · rw [resolve, resolveAt, resolveString, String.toList_ofList,
      Template.whole?_braced hopening hclosing]

/-- A name that ends in a backslash, a key with a bar behind a backslash, quotes, a dot and blanks,
and an index. -/
theorem resolvePlaceholder_ofPath_of_quotes :
    let r : Resolver :=
      { store := ({} : Store).set .globals "a\\"
          (.object [(" \\|'\". ", .array [.null, .bool true])])
        functions := .ofList []
        settings := {} }
    Path.IsName "a\\" ∧ (∀ key ∈ [" \\|'\". ", "1"], Path.IsKey key) ∧
      r.Holds "a\\" [" \\|'\". ", "1"] (.bool true) ∧
      r.resolve (.string "\x7b\x7ba\\[' \\\\|'\". ']['1']\x7d\x7d") = pure (.bool true) ∧
      r.resolvePlaceholder "a\\[' \\\\|'\". ']['2']" =
        Eval.fail (.unresolvedVariable "a\\[' \\|'\". ']['2']") := by
  intro r
  have hname : Path.IsName "a\\" :=
    { ne_empty := by decide
      plain := by simp
      head_ne_dollar := by decide
      head_not_blank := by simp [Text.isBlank]
      last_not_blank := by simp [Text.isBlank] }
  have hkeys : ∀ last ∈ ["1", "2"], ∀ key ∈ [" \\|'\". ", last], Path.IsKey key := by
    simp only [List.forall_mem_cons, List.not_mem_nil, false_implies, implies_true, and_true]
    refine ⟨⟨?_, ?_⟩, ?_, ?_⟩ <;> constructor <;> decide
  have hholds : r.Holds "a\\" [" \\|'\". ", "1"] (.bool true) :=
    ⟨_, rfl, .member rfl (.item rfl rfl (.here _))⟩
  have habsent : ¬ ∃ v, r.Holds "a\\" [" \\|'\". ", "2"] v := by
    rintro ⟨v, hv⟩
    have hnone : r.lookup? ["a\\", " \\|'\". ", "2"] = none := rfl
    rw [lookup?_eq_some_iff.2 hv] at hnone
    cases hnone
  obtain ⟨hfound, -, hbraced⟩ := resolvePlaceholder_ofPath r hname (hkeys "1" (by simp))
  obtain ⟨-, hmissing, -⟩ := resolvePlaceholder_ofPath r hname (hkeys "2" (by simp))
  refine ⟨hname, hkeys "1" (by simp), hholds, ?_, hmissing habsent⟩
  exact (hbraced (by decide) (by decide)).trans (hfound _ hholds)

end Resolver

end Stencil
