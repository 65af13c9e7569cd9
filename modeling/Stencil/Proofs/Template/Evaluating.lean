import Stencil.Proofs.Evaluation
import Stencil.Template.Resolver

/-!
# Evaluating a placeholder

What the text of a placeholder evaluates to, by what it is read as: a text that is malformed fails,
a call goes to its namespace, and a variable path gives the value it leads to, else the default.
-/

namespace Stencil.Resolver

variable {r : Resolver} {text source : String} {default : Option Value}

theorem resolvePlaceholder_of_error {e : ResolveError} (h : Placeholder.parse text = .error e) :
    r.resolvePlaceholder text = Eval.fail e := by
  rw [resolvePlaceholder, h]
  rfl

theorem resolvePlaceholder_of_call {call : Call}
    (h : Placeholder.parse text = .ok { expression := .function call, default, source }) :
    r.resolvePlaceholder text = r.functions.dispatch call := by
  rw [resolvePlaceholder, h]
  rfl

theorem resolvePlaceholder_of_variable {segments : List String}
    (h : Placeholder.parse text = .ok { expression := .variable segments, default, source }) :
    r.resolvePlaceholder text =
      ((r.lookup? segments).or default).elim (Eval.fail (.unresolvedVariable source)) pure := by
  cases segments with
  | nil => exact absurd (Placeholder.path_of_parse h) (Path.parse_ne_ok_nil source)
  | cons name rest =>
    rw [resolvePlaceholder, h, Eval.ofExcept_ok_bind]
    cases hfound : r.lookup? (name :: rest) with
    | some v => simp [hfound]
    | none => cases default <;> simp [hfound]

end Stencil.Resolver
