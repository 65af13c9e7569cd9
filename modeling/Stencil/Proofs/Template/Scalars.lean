import Stencil.Proofs.Placeholder.Scalars
import Stencil.Proofs.Template.Addressing
import Stencil.Proofs.Template.Defaults

/-!
# Scalars as defaults

A scalar that is written behind a bar stands in for a variable that is missing. It comes out as the
value that it was, kind of number included, with one exception: a literal has no integers beyond
those with a sign, and the text of such an integer comes out as the double nearest to it
(`parse_plainText_of_scalar`).
-/

namespace Stencil

namespace Resolver

variable {r : Resolver} {e : String}

/-- In the place of a variable that is missing stands the default. -/
theorem resolvePlaceholder_of_misses (h : Placeholder.TakesDefault e.toList) (hmissed : r.Misses e)
    (d : String) : r.resolvePlaceholder (e ++ "|" ++ d) = pure (Literal.parse d) := by
  obtain ⟨hnone, hjoined⟩ := Placeholder.parse_append_default h d
  obtain ⟨segments, source, hparse, hlookup⟩ := (misses_iff hnone).1 hmissed
  rw [hparse] at hjoined
  rw [resolvePlaceholder_of_variable hjoined, hlookup]
  rfl

/-- A text without braces, between pairs of them, is resolved as one placeholder. -/
theorem resolve_braced {text : String} (hopening : '{' ∉ text.toList)
    (hclosing : '}' ∉ text.toList) :
    r.resolve (.string ("\x7b\x7b" ++ text ++ "\x7d\x7d")) = r.resolvePlaceholder text := by
  have hwhole : Template.whole? ("\x7b\x7b" ++ text ++ "\x7d\x7d").toList = some text.toList := by
    have htext : ("\x7b\x7b" ++ text ++ "\x7d\x7d").toList =
        Template.opening ++ text.toList ++ Template.closing := by
      simp [Template.opening, Template.closing]
    rw [htext]
    refine Template.whole?_braced ?_ ?_
    · intro hpair
      exact hopening (hpair.subset (by simp [Template.opening]))
    · intro hpair
      exact hclosing (hpair.subset (by simp [Template.closing]))
  rw [resolve, resolveAt, resolveString, hwhole]
  simp only [String.ofList_toList]

/-- A default without braces, behind an expression without them that misses, is resolved as a
literal. -/
theorem resolve_default_of_misses (h : Placeholder.TakesDefault e.toList) (hmissed : r.Misses e)
    (hplain : ∀ c ∈ e.toList, c ≠ '{' ∧ c ≠ '}') {d : String}
    (hd : ∀ c ∈ d.toList, c ≠ '{' ∧ c ≠ '}') :
    r.resolve (.string ("\x7b\x7b" ++ (e ++ "|" ++ d) ++ "\x7d\x7d")) = pure (Literal.parse d) := by
  have hbraces (c : Char) (hc : c ∈ (e ++ "|" ++ d).toList) : c ≠ '{' ∧ c ≠ '}' := by
    rw [String.toList_append, String.toList_append, List.mem_append, List.mem_append] at hc
    rcases hc with (hexpression | hbar) | hdefault
    · exact hplain c hexpression
    · rw [List.mem_singleton.1 hbar]
      decide
    · exact hd c hdefault
  rw [resolve_braced (fun hmem => (hbraces _ hmem).1 rfl) fun hmem => (hbraces _ hmem).2 rfl]
  exact resolvePlaceholder_of_misses h hmissed d

end Resolver

namespace Literal

/-- Null, the booleans, the integers of 64 bits with a sign and the doubles are read back from their
texts, and no other scalars are. What is left are the integers that fit in 64 bits without a sign
only: their texts are read as the doubles nearest to them. Behind a variable that is missing, the
text of a scalar is resolved as what it is read as. -/
theorem parse_plainText_of_scalar {v : Value} (h : v.IsScalar) :
    (parse v.plainText = v ↔ ∀ k hk, v = .number (.integer k hk) → IsSignedWord k) ∧
    (∀ k hk, v = .number (.integer k hk) → ¬ IsSignedWord k →
      ∃ x : Double, parse v.plainText = .number (.double x) ∧ x.negative = false ∧
        Double.IsNearest k x.rank) ∧
    ∀ (r : Resolver) (e : String), Placeholder.TakesDefault e.toList → r.Misses e →
      (∀ c ∈ e.toList, c ≠ '{' ∧ c ≠ '}') →
      r.resolve (.string ("\x7b\x7b" ++ (e ++ "|" ++ v.plainText) ++ "\x7d\x7d")) =
        pure (parse v.plainText) := by
  have hunsigned : ∀ k hk, v = .number (.integer k hk) → ¬ IsSignedWord k →
      parse v.plainText = .number (.double (Double.ofInt k)) := by
    rintro k hk rfl hsigned
    exact parse_plainText_number (number?_integerText_of_unsigned hk hsigned)
  refine ⟨⟨?_, parse_plainText_eq_self h⟩, ?_, ?_⟩
  · intro hread k hk hv
    by_contra hsigned
    rw [hunsigned k hk hv hsigned, hv] at hread
    cases hread
  · intro k hk hv hsigned
    refine ⟨Double.ofInt k, hunsigned k hk hv hsigned, ?_, ?_⟩
    · exact decide_eq_false (by omega)
    · have hcast : (k.natAbs : ℚ) = k := by
        rw [Nat.cast_natAbs, abs_of_nonneg (by omega)]
      rw [← hcast]
      exact Double.isNearest_ofInt (Double.natCast_lt_overflowBound (by omega))
  · intro r e htakes hmissed hplain
    exact Resolver.resolve_default_of_misses htakes hmissed hplain (ne_brace_of_mem_plainText h)

/-- The smallest negative double with a power of ten, and the largest integer without a sign. -/
theorem parse_plainText_of_scalar_of_borders :
    let smallest : Value := .number (.double ⟨true, 1, by decide⟩)
    let largest : Value := .number (.integer 18446744073709551615 (by decide))
    let r : Resolver := { store := {}, functions := .ofList [], settings := {} }
    smallest.IsScalar ∧ largest.IsScalar ∧ Placeholder.TakesDefault "missing".toList ∧
      r.Misses "missing" ∧ (∀ c ∈ "missing".toList, c ≠ '{' ∧ c ≠ '}') ∧
      parse "-5e-324" = smallest ∧
      r.resolve (.string "\x7b\x7bmissing|-5e-324\x7d\x7d") = pure smallest ∧
      ∃ x : Double, parse "18446744073709551615" = .number (.double x) ∧ x.negative = false ∧
        Double.IsNearest 18446744073709551615 x.rank := by
  intro smallest largest r
  have htakes : Placeholder.TakesDefault "missing".toList :=
    ⟨by decide, Placeholder.barsEscaped_escapeBars "missing".toList, by decide, by decide⟩
  have hmissed : r.Misses "missing" := by
    refine (Resolver.misses_iff ?_).2 ⟨["missing"], "missing", rfl, rfl⟩
    intro placeholder hparse
    cases hparse
    rfl
  have hplain : ∀ c ∈ "missing".toList, c ≠ '{' ∧ c ≠ '}' := by simp
  have hsmallest : smallest.plainText = "-5e-324" := by decide +kernel
  have hlargest : largest.plainText = "18446744073709551615" := by decide +kernel
  obtain ⟨hread, -, hresolved⟩ := parse_plainText_of_scalar (v := smallest) (.number _)
  obtain ⟨-, hunsigned, -⟩ := parse_plainText_of_scalar (v := largest) (.number _)
  have hself : parse smallest.plainText = smallest := by
    refine hread.2 ?_
    intro k hk hv
    simp [smallest] at hv
  have hdefault := hresolved r "missing" htakes hmissed hplain
  rw [hself] at hdefault
  rw [hsmallest] at hself hdefault
  have hrounded := hunsigned 18446744073709551615 (by decide) rfl (by decide)
  rw [hlargest] at hrounded
  exact ⟨.number _, .number _, htakes, hmissed, hplain, hself, hdefault, by exact_mod_cast hrounded⟩

/-- The first integer beyond those with a sign becomes a double. -/
theorem parse_plainText_of_unsigned_word :
    let v : Value := .number (.integer 9223372036854775808 (by decide))
    v.IsScalar ∧ parse v.plainText = .number (.double ⟨false, 4890909195324358656, by decide⟩) ∧
      parse v.plainText ≠ v := by
  intro v
  have hread : parse v.plainText = .number (.double ⟨false, 4890909195324358656, by decide⟩) :=
    parse_plainText_number (by decide +kernel)
  refine ⟨.number _, hread, ?_⟩
  rw [hread]
  simp [v]

end Literal

end Stencil
