import Stencil.Capture.Directive
import Stencil.Proofs.Store.Runs
import Stencil.Proofs.Value.Merging

/-!
# Applying captures

Captures are applied in order up to the first one that fails. Those before it are written into the
store scope by scope, a later one over an earlier one of the same name, and stay there; the failure
is the outcome of the whole. Captures can be applied in two batches with the same result, and
captures that all succeed are seen where no local variable hides them (`apply_writes_prefix`).
-/

namespace Stencil.Capture

/-- Whether a capture finds nothing in a body. -/
def fails (body : Value) (capture : Capture) : Bool :=
  !(capture.extract body).isOk

/-- What captures write into a scope, in their order. -/
def writes (body : Value) (scope : Scope) (captures : List Capture) : Entries Value :=
  captures.filterMap fun capture =>
    if capture.scope = scope then
      (capture.extract body).toOption.map fun v => (capture.name, v)
    else none

variable {body : Value} {capture : Capture} {captures : List Capture} {v : Value}

theorem fails_eq_false_iff : fails body capture = false ↔ ∃ v, capture.extract body = .ok v := by
  cases h : capture.extract body with
  | ok v => simp [fails, h, Except.isOk, Except.toBool]
  | error e => simp [fails, h, Except.isOk, Except.toBool]

theorem fails_eq_true_iff : fails body capture = true ↔ ∃ e, capture.extract body = .error e := by
  cases h : capture.extract body with
  | ok v => simp [fails, h, Except.isOk, Except.toBool]
  | error e => simp [fails, h, Except.isOk, Except.toBool]

theorem writes_cons_of_ok (h : capture.extract body = .ok v) (scope : Scope)
    (captures : List Capture) :
    writes body scope (capture :: captures) =
      if capture.scope = scope then (capture.name, v) :: writes body scope captures
      else writes body scope captures := by
  by_cases hscope : capture.scope = scope
  · simp [writes, hscope, h, Except.toOption]
  · simp [writes, hscope]

/-! ## One capture more -/

theorem applyAll_cons_of_ok (h : capture.extract body = .ok v) (captures : List Capture)
    (s : Store) :
    applyAll body (capture :: captures) s =
      applyAll body captures (s.set capture.scope capture.name v) := by
  rw [applyAll, h]

theorem applyAll_cons_of_error {e : CaptureError} (h : capture.extract body = .error e)
    (captures : List Capture) (s : Store) :
    applyAll body (capture :: captures) s = (s, .error e) := by
  rw [applyAll, h]

/-- Captures behind others are applied to what those leave, unless one of those fails. -/
theorem applyAll_append (front back : List Capture) (body : Value) (s : Store) :
    applyAll body (front ++ back) s =
      match applyAll body front s with
      | (t, .ok ()) => applyAll body back t
      | (t, .error e) => (t, .error e) := by
  induction front generalizing s with
  | nil => rfl
  | cons capture rest ih =>
    rw [List.cons_append]
    cases h : capture.extract body with
    | ok v => rw [applyAll_cons_of_ok h, applyAll_cons_of_ok h, ih]
    | error e => rw [applyAll_cons_of_error h, applyAll_cons_of_error h]

/-! ## Up to the first failure -/

theorem findIdx_cons_of_ok (h : capture.extract body = .ok v) (captures : List Capture) :
    (capture :: captures).findIdx (fails body) = captures.findIdx (fails body) + 1 := by
  rw [List.findIdx_cons, fails_eq_false_iff.2 ⟨v, h⟩, cond_false]

theorem findIdx_cons_of_error {e : CaptureError} (h : capture.extract body = .error e)
    (captures : List Capture) : (capture :: captures).findIdx (fails body) = 0 := by
  rw [List.findIdx_cons, fails_eq_true_iff.2 ⟨e, h⟩, cond_true]

/-- The captures before the first failure are written into the store, and nothing else is. -/
theorem table_applyAll (captures : List Capture) (body : Value) (s : Store) (scope : Scope) :
    ((applyAll body captures s).1.table scope) =
      (s.table scope).insertAll
        (writes body scope (captures.take (captures.findIdx (fails body)))) := by
  -- the store is general, as the first capture has written into it when the rest is applied
  induction captures generalizing s with
  | nil => rfl
  | cons capture rest ih =>
    cases h : capture.extract body with
    | error e =>
      -- nothing stands before a failure at the head, so nothing is written
      rw [applyAll_cons_of_error h, findIdx_cons_of_error h, List.take_zero]
      rfl
    | ok v =>
      rw [applyAll_cons_of_ok h, ih, Store.table_set, findIdx_cons_of_ok h, List.take_succ_cons,
        writes_cons_of_ok h]
      split
      · rfl
      · rfl

/-- The first failure is the outcome. -/
theorem applyAll_snd (captures : List Capture) (body : Value) (s : Store) :
    (applyAll body captures s).2 =
      match captures[captures.findIdx (fails body)]? with
      | none => .ok ()
      | some capture => (capture.extract body).map fun _ => () := by
  induction captures generalizing s with
  | nil => rfl
  | cons capture rest ih =>
    cases h : capture.extract body with
    | error e =>
      rw [applyAll_cons_of_error h, findIdx_cons_of_error h, List.getElem?_cons_zero]
      simp only [h]
      rfl
    | ok v =>
      rw [applyAll_cons_of_ok h, ih, findIdx_cons_of_ok h, List.getElem?_cons_succ]

theorem apply_fst (captures : List Capture) (body : Value) (s : Store) :
    (apply captures body s).1 = (applyAll body captures s).1 := rfl

theorem apply_snd (captures : List Capture) (body : Value) (s : Store) :
    (apply captures body s).2 = (applyAll body captures s).2.map fun _ => captures.length := rfl

/-- Without a failure the outcome is the number of captures. -/
theorem apply_snd_of_findIdx_eq (s : Store)
    (h : captures.findIdx (fails body) = captures.length) :
    (apply captures body s).2 = .ok captures.length := by
  rw [apply_snd, applyAll_snd, h, List.getElem?_length]
  rfl

/-- The error of the first capture that fails is the outcome. -/
theorem exists_error_of_findIdx_lt (s : Store)
    (h : captures.findIdx (fails body) < captures.length) :
    ∃ e, captures[captures.findIdx (fails body)].extract body = .error e ∧
      (apply captures body s).2 = .error e := by
  obtain ⟨e, he⟩ := fails_eq_true_iff.1 (List.findIdx_getElem (w := h))
  refine ⟨e, he, ?_⟩
  rw [apply_snd, applyAll_snd, List.getElem?_eq_getElem h]
  simp only [he]
  rfl

theorem apply_snd_eq_error_iff {s : Store} {e : CaptureError} :
    (apply captures body s).2 = .error e ↔ (applyAll body captures s).2 = .error e := by
  rw [apply_snd]
  cases (applyAll body captures s).2 with
  | error d => simp [Except.map]
  | ok u => simp [Except.map]

/-- Two batches of captures are applied like one, up to the first failure in either. -/
theorem apply_append (captures more : List Capture) (body : Value) (s : Store) :
    (∀ e, (apply captures body s).2 = .error e →
      apply (captures ++ more) body s = apply captures body s) ∧
    (∀ n, (apply captures body s).2 = .ok n →
      (apply (captures ++ more) body s).1 = (apply more body (apply captures body s).1).1 ∧
      ∀ e, (apply (captures ++ more) body s).2 = .error e ↔
        (apply more body (apply captures body s).1).2 = .error e) := by
  constructor
  · -- a failure in the first batch: the second one is not reached
    intro e he
    have hfirst := apply_snd_eq_error_iff.1 he
    have hboth : applyAll body (captures ++ more) s = applyAll body captures s := by
      rw [applyAll_append]
      rcases hrun : applyAll body captures s with ⟨t, outcome⟩
      rw [hrun] at hfirst
      cases hfirst
      rfl
    rw [Prod.ext_iff, apply_fst, apply_fst, he, apply_snd_eq_error_iff, hboth]
    exact ⟨rfl, hfirst⟩
  · -- none in it: the second batch starts from the store that it leaves
    intro n hn
    have hboth : applyAll body (captures ++ more) s =
        applyAll body more (applyAll body captures s).1 := by
      rw [applyAll_append]
      rcases hrun : applyAll body captures s with ⟨t, outcome⟩
      rw [apply_snd, hrun] at hn
      cases outcome with
      | error e => cases hn
      | ok u => rfl
    refine ⟨?_, fun e => ?_⟩
    · rw [apply_fst, apply_fst, apply_fst, hboth]
    · rw [apply_snd_eq_error_iff, apply_snd_eq_error_iff, apply_fst, hboth]

/-- Applying captures writes a prefix of them. Those before the first failure are in the store: in
each scope a name gives what the last of them took, or else what it gave before, and new names
follow the others in the order in which they were first captured. The outcome is the failure, or
the number of captures. A name that is captured without a failure gives its local value, captured
or held before, or else its global one. Applying captures in two batches is the same. -/
theorem apply_writes_prefix (captures : List Capture) (body : Value) (s : Store) :
    let k := captures.findIdx (fails body)
    let taken := captures.take k
    let after := apply captures body s
    (k = captures.length → after.2 = .ok captures.length) ∧
    (∀ hk : k < captures.length, ∃ e, captures[k].extract body = .error e ∧ after.2 = .error e) ∧
    (∀ scope name, after.1.getIn? scope name =
      (Entries.last? name (writes body scope taken)).or (s.getIn? scope name)) ∧
    (∀ scope, (after.1.table scope).keys =
      (s.table scope).keys ++ ((Entries.keys (writes body scope taken)).filter
        fun name => name ∉ (s.table scope).keys).eraseDups) ∧
    (k = captures.length → ∀ name, after.1.get? name =
      ((Entries.last? name (writes body .locals captures)).or <| (s.getIn? .locals name).or <|
        (Entries.last? name (writes body .globals captures)).or <| s.getIn? .globals name)) ∧
    ∀ more,
      (∀ e, after.2 = .error e → apply (captures ++ more) body s = after) ∧
      (∀ n, after.2 = .ok n →
        (apply (captures ++ more) body s).1 = (apply more body after.1).1 ∧
        ∀ e, (apply (captures ++ more) body s).2 = .error e ↔
          (apply more body after.1).2 = .error e) := by
  intro k taken after
  have hget (scope : Scope) (name : String) : after.1.getIn? scope name =
      (Entries.last? name (writes body scope taken)).or (s.getIn? scope name) := by
    rw [Store.getIn?, apply_fst, table_applyAll, Table.get?_insertAll]
    rfl
  refine ⟨apply_snd_of_findIdx_eq s, exists_error_of_findIdx_lt s, hget, ?_, ?_, ?_⟩
  · intro scope
    rw [apply_fst, table_applyAll, Table.keys_insertAll]
  · intro hk name
    have hall : taken = captures := List.take_of_length_le (Nat.le_of_eq hk.symm)
    rw [Store.get?, hget, hget, hall, Option.or_assoc]
  · exact fun more => apply_append captures more body s

end Stencil.Capture
