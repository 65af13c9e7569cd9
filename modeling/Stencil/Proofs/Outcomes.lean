import Stencil.Proofs.Evaluation
import Stencil.Proofs.Registry

/-!
# Outcomes of calls

Whether a call of a standard namespace succeeds depends on the call alone: it gives a value in every
world, or it stops in every world for the same cause. What is drawn decides which value that is, but
not whether there is one. The cause is one of the call, and never the nesting of the template that
the call stands in (`isSteady_standard_extend`).
-/

namespace Stencil

variable {α β : Type}

namespace Eval

/-- An evaluation that succeeds in every world, or stops in every world for the same cause, which is
not the nesting of a template. -/
def Steady (m : Eval α) : Prop :=
  (∀ w, ∃ a, (m.runIn w).1 = .ok a) ∨
    ∃ s, (∀ limit, s ≠ .error (.depthExceeded limit)) ∧ ∀ w, (m.runIn w).1 = .error s

namespace Steady

variable {m : Eval α}

theorem pure (a : α) : Steady (pure a : Eval α) :=
  Or.inl fun _ => ⟨a, rfl⟩

theorem random (draw : Entropy → α × Entropy) : Steady (Eval.random draw) :=
  Or.inl fun w => ⟨(draw w.entropy).1, rfl⟩

theorem modifyGet (f : World → α × World) : Steady (modifyGet f : Eval α) :=
  Or.inl fun w => ⟨(f w).1, rfl⟩

theorem fail {e : ResolveError} (h : ∀ limit, e ≠ .depthExceeded limit) :
    Steady (fail e : Eval α) := by
  refine Or.inr ⟨.error e, ?_, fun _ => rfl⟩
  intro limit heq
  exact h limit (Stop.error.inj heq)

theorem unwritable (year : Int) : Steady (throw (.unwritableYear year) : Eval α) := by
  refine Or.inr ⟨.unwritableYear year, ?_, fun _ => rfl⟩
  intro limit heq
  cases heq

/-- A steady evaluation that succeeds in one world succeeds in every world. -/
theorem succeeds (h : Steady m) {w : World} {a : α} (hok : (m.runIn w).1 = .ok a) (w' : World) :
    ∃ b, (m.runIn w').1 = .ok b := by
  rcases h with hall | ⟨s, -, hstop⟩
  · exact hall w'
  · rw [hstop w] at hok
    cases hok

/-- A steady evaluation does not fail for the nesting of a template. -/
theorem not_depthExceeded (h : Steady m) (w : World) (limit : Nat) :
    (m.runIn w).1 ≠ .error (.error (.depthExceeded limit)) := by
  intro hfail
  rcases h with hall | ⟨s, hs, hstop⟩
  · rcases hall w with ⟨a, ha⟩
    rw [ha] at hfail
    cases hfail
  · rw [hstop w] at hfail
    exact hs limit (Except.error.inj hfail)

end Steady

end Eval

open Eval

/-! ## What a call blames -/

namespace Call

/-- A result that fails, if at all, with a fault of the call. -/
def Blames (call : Call) (result : Except ResolveError α) : Prop :=
  ∀ e, result = .error e → ∃ fault, e = .invalidFunctionCall call.source fault

variable {call : Call} {result : Except ResolveError α}

theorem blames_ok (call : Call) (a : α) : call.Blames (.ok a) := by
  intro e he
  cases he

theorem blames_error (call : Call) (fault : CallFault) :
    call.Blames (call.error fault : Except ResolveError α) := by
  intro e he
  exact ⟨fault, (Except.error.inj he).symm⟩

theorem blames_expectArity (call : Call) (expected : Nat) :
    call.Blames (call.expectArity expected) := by
  unfold expectArity
  split
  · exact blames_ok call ()
  · exact blames_error call _

theorem blames_expectNoArguments (call : Call) : call.Blames call.expectNoArguments := by
  unfold expectNoArguments
  split
  · exact blames_ok call ()
  · exact blames_error call _

theorem blames_doubleAt (call : Call) (index : Nat) : call.Blames (call.doubleAt index) := by
  unfold doubleAt
  split
  · exact blames_ok call _
  · exact blames_error call _

theorem blames_integerAt (call : Call) (index : Nat) : call.Blames (call.integerAt index) := by
  unfold integerAt
  split
  · exact blames_ok call _
  · exact blames_error call _

theorem blames_textAt (call : Call) (index : Nat) : call.Blames (call.textAt index) := by
  unfold textAt
  split
  · exact blames_ok call _
  · exact blames_error call _

theorem Blames.map (h : call.Blames result) (f : α → β) : call.Blames (result.map f) := by
  cases result with
  | ok a => exact blames_ok call (f a)
  | error d => exact fun e he => h e (congrArg Except.error (Except.error.inj he))

theorem Blames.steady (h : call.Blames result) : Steady (ofExcept result) := by
  cases result with
  | ok a => exact .pure a
  | error e =>
    rcases h e rfl with ⟨fault, rfl⟩
    exact .fail fun limit heq => ResolveError.noConfusion heq

/-- What follows an argument that is read is steady if it is so for every value of the argument. -/
theorem Blames.steady_bind (h : call.Blames result) {f : α → Eval β} (hf : ∀ a, Steady (f a)) :
    Steady (ofExcept result >>= f) := by
  cases result with
  | ok a => exact hf a
  | error e =>
    rcases h e rfl with ⟨fault, rfl⟩
    exact .fail fun limit heq => ResolveError.noConfusion heq

end Call

/-! ## The namespaces -/

namespace Namespace

/-- A namespace whose calls are steady. -/
def IsSteady (ns : Namespace) : Prop :=
  ∀ call, Steady (ns.call call)

theorem blames_unknownMember (call : Call) :
    call.Blames (unknownMember call : Except ResolveError α) :=
  call.blames_error _

end Namespace

namespace Arithmetic

theorem steady_randomBetween (call : Call) (min max : Int) :
    Steady (randomBetween call min max) := by
  unfold randomBetween
  split
  · exact .random _
  · exact (call.blames_error _).steady

theorem steady_random (call : Call) : Steady (random call) := by
  unfold random
  split
  · exact .random _
  · split
    · exact (call.blames_integerAt 0).steady_bind fun min =>
        (call.blames_integerAt 1).steady_bind fun max => steady_randomBetween call min max
    · exact (call.blames_error _).steady

theorem blames_apply (f : Unary) (call : Call) : call.Blames (f.apply call) := by
  unfold Unary.apply
  split
  · split
    · exact call.blames_ok _
    · exact (call.blames_doubleAt 0).map _
  · exact call.blames_error _

theorem isSteady_functions : functions.IsSteady := by
  intro c
  show Steady (call c)
  unfold call
  split
  · exact steady_random c
  · exact (blames_apply .round c).steady
  · exact (blames_apply .floor c).steady
  · exact (blames_apply .ceil c).steady
  · exact (blames_apply .abs c).steady
  · exact (Namespace.blames_unknownMember c).steady

end Arithmetic

namespace Randomness

theorem steady_text (alphabet : String) (call : Call) : Steady (text alphabet call) := by
  refine (call.blames_expectArity 1).steady_bind fun _ =>
    (call.blames_integerAt 0).steady_bind fun length => ?_
  split
  · exact (call.blames_error _).steady
  · split
    · exact (call.blames_error _).steady
    · exact .random _

theorem steady_pick (call : Call) : Steady (pick call) := by
  unfold pick
  split
  · exact (call.blames_error _).steady
  · exact .random _

theorem isSteady_functions (alphabet : String) : (functions alphabet).IsSteady := by
  intro c
  show Steady (call alphabet c)
  unfold call
  split
  · exact c.blames_expectNoArguments.steady_bind fun _ => .random _
  · exact steady_text alphabet c
  · exact (c.blames_expectArity 2).steady_bind fun _ =>
      (c.blames_integerAt 0).steady_bind fun min =>
        (c.blames_integerAt 1).steady_bind fun max => Arithmetic.steady_randomBetween c min max
  · exact c.blames_expectNoArguments.steady_bind fun _ => .random _
  · exact steady_pick c
  · exact (Namespace.blames_unknownMember c).steady

end Randomness

theorem Environment.isSteady_functions (env : Environment) : env.functions.IsSteady := by
  intro c
  refine c.blames_expectNoArguments.steady_bind fun _ => ?_
  split
  · exact .pure _
  · exact .fail fun limit heq => ResolveError.noConfusion heq

namespace Calendar

theorem steady_render (format : DateFormat) (i : Instant) : Steady (render format i) := by
  unfold render
  split
  · exact .pure _
  · exact .unwritable _

theorem steady_add (format : DateFormat) (now : Instant) (call : Call) :
    Steady (add format now call) := by
  refine (call.blames_expectArity 2).steady_bind fun _ =>
    (call.blames_integerAt 0).steady_bind fun amount =>
      (call.blames_textAt 1).steady_bind fun unit => ?_
  split
  · exact (call.blames_error _).steady
  · split
    · exact (call.blames_error _).steady
    · exact steady_render format _

theorem isSteady_functions (format : DateFormat) (now : Instant) :
    (functions format now).IsSteady := by
  intro c
  show Steady (call format now c)
  unfold call
  split
  · exact c.blames_expectNoArguments.steady_bind fun _ => steady_render format now
  · exact c.blames_expectNoArguments.steady_bind fun _ => .pure _
  · exact c.blames_expectNoArguments.steady_bind fun _ => .pure _
  · exact (c.blames_expectArity 1).steady_bind fun _ =>
      (c.blames_textAt 0).steady_bind fun _ => .pure _
  · exact steady_add format now c
  · exact (Namespace.blames_unknownMember c).steady

end Calendar

/-- What is drawn from a generator depends on the world, but something is always drawn. -/
theorem Catalog.isSteady_functions (catalog : Catalog) : catalog.functions.IsSteady := by
  intro c
  refine c.blames_expectNoArguments.steady_bind fun _ => ?_
  split
  · exact .pure _
  · exact .modifyGet _
  · exact .fail fun limit heq => ResolveError.noConfusion heq

/-! ## The registry -/

namespace Registry

/-- A registry of steady namespaces. -/
def IsSteady (functions : Registry) : Prop :=
  ∀ name ns, functions.get? name = some ns → ns.IsSteady

theorem isSteady_ofList {namespaces : List Namespace} (h : ∀ ns ∈ namespaces, ns.IsSteady) :
    (ofList namespaces).IsSteady := by
  intro name ns hget
  exact h ns (mem_of_get?_ofList hget).1

theorem IsSteady.extend {functions added : Registry} (h : functions.IsSteady)
    (hadded : added.IsSteady) : (functions.extend added).IsSteady := by
  intro name ns hget
  rw [get?_extend] at hget
  rcases Option.or_eq_some_iff.1 hget with hnew | ⟨-, hold⟩
  · exact hadded name ns hnew
  · exact h name ns hold

theorem isSteady_standard (settings : Settings) (sources : Sources) :
    (standard settings sources).IsSteady := by
  apply isSteady_ofList
  intro ns hns
  simp only [List.mem_cons, List.not_mem_nil, or_false] at hns
  rcases hns with rfl | rfl | rfl | rfl | rfl
  · exact sources.catalog.isSteady_functions
  · exact Arithmetic.isSteady_functions
  · exact Calendar.isSteady_functions _ _
  · exact Randomness.isSteady_functions _
  · exact sources.environment.isSteady_functions

/-- The standard namespaces, and steady ones that are added or replace some of them, are steady. -/
theorem isSteady_standard_extend (settings : Settings) (sources : Sources)
    {custom : List Namespace} (h : ∀ ns ∈ custom, ns.IsSteady) :
    ((standard settings sources).extend (.ofList custom)).IsSteady :=
  (isSteady_standard settings sources).extend (isSteady_ofList h)

theorem IsSteady.dispatch {functions : Registry} (h : functions.IsSteady) (call : Call) :
    Steady (functions.dispatch call) := by
  unfold Registry.dispatch
  split
  · rename_i ns hns
    exact h _ ns hns call
  · exact (call.blames_error _).steady

end Registry

end Stencil
