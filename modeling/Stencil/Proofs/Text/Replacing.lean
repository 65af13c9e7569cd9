import Mathlib.Data.List.Infix
import Mathlib.Data.List.Perm.Basic
import Stencil.Text.Cut

/-!
# Replacing several targets

Several targets can be replaced in one scan of a text (`replaceEach`), or one after the other, each
in the text that the one before has left. In general the two differ. They agree, in whatever order
the targets are taken, if every target is a row of one letter, the letters of two targets differ,
and no replacement has one of these letters (`foldl_replaceAll`): then a replacement is a wall that
no occurrence of a target reaches over (`replaceAll_wall`).
-/

namespace Stencil.Text

/-- The first of some targets, with its replacement, that stands at the beginning of a text. -/
def targetAt? (targets : List (List Char × List Char)) (cs : List Char) :
    Option (List Char × List Char) :=
  targets.find? fun e => e.1.isPrefixOf cs

/-- Replaces several targets in one scan from left to right. At an occurrence of a target its
replacement is written and the scan goes on behind the occurrence; any other character is copied. -/
def replaceEach (targets : List (List Char × List Char)) : List Char → List Char
  | [] => []
  | c :: rest =>
    match targetAt? targets (c :: rest) with
    | some (target, replacement) =>
      replacement ++ replaceEach targets (rest.drop (target.length - 1))
    | none => c :: replaceEach targets rest
termination_by cs => cs.length

/-- A target that is a row of one letter. -/
def IsRowOf (letter : Char) (target : List Char) : Prop :=
  ∃ count, target = List.replicate (count + 1) letter

variable {letter c : Char} {target replacement cs front back wall : List Char}
  {targets order : List (List Char × List Char)} {e : List Char × List Char}

namespace IsRowOf

theorem head? (h : IsRowOf letter target) : target.head? = some letter := by
  obtain ⟨count, rfl⟩ := h
  rfl

theorem mem (h : IsRowOf letter target) : letter ∈ target :=
  List.mem_of_mem_head? h.head?

theorem ne_nil (h : IsRowOf letter target) : target ≠ [] :=
  List.ne_nil_of_mem h.mem

/-- A target that stands at a place starts with the character there. -/
theorem eq_of_start (h : IsRowOf letter target) (hstart : target <+: c :: cs) : letter = c := by
  obtain ⟨count, rfl⟩ := h
  exact (List.cons_prefix_cons.1 hstart).1

end IsRowOf

/-! ## Replacing one target -/

@[simp] theorem replaceAll_nil (target replacement : List Char) :
    replaceAll target replacement [] = [] :=
  rfl

theorem replaceFrom_eq (pending : Nat) (cs : List Char) :
    replaceFrom target replacement pending cs =
      replaceAll target replacement (cs.drop pending) := by
  induction pending generalizing cs with
  | zero => rfl
  | succ pending ih =>
    cases cs with
    | nil => rfl
    | cons c rest => exact ih rest

theorem replaceAll_cons (h : ¬ target <+: c :: cs) (replacement : List Char) :
    replaceAll target replacement (c :: cs) = c :: replaceAll target replacement cs := by
  rw [← List.isPrefixOf_iff_prefix] at h
  rw [replaceAll, replaceFrom, if_neg h, replaceFrom_eq, List.drop_zero]

theorem replaceAll_target (hne : target ≠ []) (replacement cs : List Char) :
    replaceAll target replacement (target ++ cs) =
      replacement ++ replaceAll target replacement cs := by
  obtain ⟨first, rest, rfl⟩ := List.exists_cons_of_ne_nil hne
  have hstart : (first :: rest).isPrefixOf (first :: (rest ++ cs)) = true :=
    List.isPrefixOf_iff_prefix.2 (List.prefix_append (first :: rest) cs)
  rw [List.cons_append, replaceAll, replaceFrom, if_pos hstart, replaceFrom_eq]
  simp

/-- A text without the letter of the target is copied. -/
theorem replaceAll_append_of_not_mem (hrow : IsRowOf letter target) (h : letter ∉ front)
    (replacement cs : List Char) :
    replaceAll target replacement (front ++ cs) = front ++ replaceAll target replacement cs := by
  induction front with
  | nil => rfl
  | cons c front ih =>
    simp only [List.mem_cons, not_or] at h
    have hstart : ¬ target <+: c :: (front ++ cs) := fun hstart => h.1 (hrow.eq_of_start hstart)
    rw [List.cons_append, replaceAll_cons hstart, ih h.2, List.cons_append]

/-- A row of a letter does not reach over another character. -/
theorem replicate_prefix_append_cons {count : Nat} (hc : letter ≠ c) :
    List.replicate count letter <+: front ++ c :: back ↔ List.replicate count letter <+: front := by
  induction count generalizing front with
  | zero => simp
  | succ count ih =>
    cases front with
    | nil => simp [List.replicate_succ, List.cons_prefix_cons, hc]
    | cons d front => simp [List.replicate_succ, List.cons_prefix_cons, ih]

/-- A text without the letter of the target is a wall: it is copied, and what stands on its two
sides is replaced on each side alone. -/
theorem replaceAll_wall (hrow : IsRowOf letter target) (hne : wall ≠ []) (h : letter ∉ wall)
    (replacement front back : List Char) :
    replaceAll target replacement (front ++ wall ++ back) =
      replaceAll target replacement front ++ wall ++ replaceAll target replacement back := by
  have hwall (cs : List Char) : target <+: cs ++ wall ++ back ↔ target <+: cs := by
    obtain ⟨brick, bricks, rfl⟩ := List.exists_cons_of_ne_nil hne
    obtain ⟨count, rfl⟩ := hrow
    rw [List.append_assoc, List.cons_append]
    exact replicate_prefix_append_cons fun heq => h (heq ▸ List.mem_cons_self)
  -- the induction is on the length, since an occurrence is left behind as a whole
  induction hlength : front.length using Nat.strong_induction_on generalizing front with
  | _ length ih =>
    cases front with
    | nil =>
      rw [List.nil_append, replaceAll_append_of_not_mem hrow h]
      rfl
    | cons c front =>
      by_cases hstart : target <+: c :: front
      · obtain ⟨rest, hrest⟩ := hstart
        have hshorter : rest.length < length := by
          have hlengths := congrArg List.length hrest
          have hpositive := List.length_pos_iff.2 hrow.ne_nil
          simp only [List.length_append, hlength] at hlengths
          omega
        rw [← hrest, List.append_assoc, List.append_assoc, replaceAll_target hrow.ne_nil,
          ← List.append_assoc, ih _ hshorter rest rfl, replaceAll_target hrow.ne_nil]
        simp only [List.append_assoc]
      · have hshorter : front.length < length := by
          rw [← hlength]
          exact Nat.lt_succ_self _
        have hlater : ¬ target <+: c :: (front ++ wall ++ back) := by
          rwa [← hwall] at hstart
        rw [List.cons_append, List.cons_append, replaceAll_cons hlater, replaceAll_cons hstart,
          ih _ hshorter front rfl]
        rfl

/-! ## The scan for several targets -/

theorem mem_of_targetAt? (h : targetAt? targets cs = some e) : e ∈ targets :=
  List.mem_of_find?_eq_some h

theorem targetAt?_eq_none_iff : targetAt? targets cs = none ↔ ∀ e ∈ targets, ¬ e.1 <+: cs := by
  simp [targetAt?]

theorem start_of_targetAt? (h : targetAt? targets cs = some e) : e.1 <+: cs := by
  unfold targetAt? at h
  exact List.isPrefixOf_iff_prefix.1 (List.find?_some h :)

theorem targetAt?_cons_of_start (h : e.1 <+: cs) : targetAt? (e :: targets) cs = some e :=
  List.find?_cons_of_pos (List.isPrefixOf_iff_prefix.2 h)

theorem targetAt?_cons_of_not_start (h : ¬ e.1 <+: cs) :
    targetAt? (e :: targets) cs = targetAt? targets cs :=
  List.find?_cons_of_neg (mt List.isPrefixOf_iff_prefix.1 h)

theorem replaceEach_of_target (h : targetAt? targets (c :: cs) = some e) :
    replaceEach targets (c :: cs) =
      e.2 ++ replaceEach targets (cs.drop (e.1.length - 1)) := by
  rw [replaceEach, h]

theorem replaceEach_of_none (h : targetAt? targets (c :: cs) = none) :
    replaceEach targets (c :: cs) = c :: replaceEach targets cs := by
  rw [replaceEach, h]

theorem replaceEach_nil_targets (cs : List Char) : replaceEach [] cs = cs := by
  induction cs with
  | nil => rw [replaceEach]
  | cons c rest ih => rw [replaceEach_of_none rfl, ih]

/-! ## One more target -/

/-- Targets that start with other letters, and whose replacements are not empty and do not have the
letter either. -/
structure Spares (letter : Char) (targets : List (List Char × List Char)) : Prop where
  row : ∀ e ∈ targets, ∃ other, other ≠ letter ∧ IsRowOf other e.1
  ne_nil : ∀ e ∈ targets, e.2 ≠ []
  not_mem : ∀ e ∈ targets, letter ∉ e.2

namespace Spares

theorem ne_of_targetAt? (h : Spares letter targets)
    (hfound : targetAt? targets (c :: cs) = some e) : letter ≠ c := by
  obtain ⟨other, hne, hrow⟩ := h.row e (mem_of_targetAt? hfound)
  rw [← hrow.eq_of_start (start_of_targetAt? hfound)]
  exact hne.symm

/-- No target stands where the spared letter does. -/
theorem targetAt?_eq_none (h : Spares letter targets) (cs : List Char) :
    targetAt? targets (letter :: cs) = none := by
  cases hfound : targetAt? targets (letter :: cs) with
  | none => rfl
  | some e => exact absurd rfl (h.ne_of_targetAt? hfound)

/-- A row of the spared letter is copied. -/
theorem replaceEach_replicate (h : Spares letter targets) (count : Nat) (cs : List Char) :
    replaceEach targets (List.replicate count letter ++ cs) =
      List.replicate count letter ++ replaceEach targets cs := by
  induction count with
  | zero => rfl
  | succ count ih =>
    rw [List.replicate_succ, List.cons_append, replaceEach_of_none (h.targetAt?_eq_none _), ih,
      List.cons_append]

/-- The scan neither makes nor breaks a row of the spared letter. -/
theorem replicate_prefix_replaceEach (h : Spares letter targets) {count : Nat} :
    List.replicate count letter <+: replaceEach targets cs ↔
      List.replicate count letter <+: cs := by
  induction count generalizing cs with
  | zero => simp
  | succ count ih =>
    cases cs with
    | nil => rw [replaceEach]
    | cons c rest =>
      rw [List.replicate_succ, List.cons_prefix_cons]
      cases hfound : targetAt? targets (c :: rest) with
      | none => rw [replaceEach_of_none hfound, List.cons_prefix_cons, ih]
      | some e =>
        -- in front stands another letter, before and after
        have hmem := mem_of_targetAt? hfound
        obtain ⟨first, others, hfirst⟩ := List.exists_cons_of_ne_nil (h.ne_nil e hmem)
        have hne : letter ≠ first := by
          rintro rfl
          exact h.not_mem e hmem (hfirst ▸ List.mem_cons_self)
        rw [replaceEach_of_target hfound, hfirst, List.cons_append, List.cons_prefix_cons]
        simp [hne, h.ne_of_targetAt? hfound]

/-- Replacing a target in what the scan for others has left is scanning for it too. -/
theorem replaceAll_replaceEach (h : Spares letter targets) (hrow : IsRowOf letter e.1)
    (cs : List Char) :
    replaceAll e.1 e.2 (replaceEach targets cs) = replaceEach (e :: targets) cs := by
  fun_induction replaceEach (e :: targets) cs with
  | case1 => rw [replaceEach, replaceAll_nil]
  | case2 c rest target replacement hfound ih =>
    by_cases hstart : e.1 <+: c :: rest
    · -- the new target stands here, and the scan for the others has copied it
      rw [targetAt?_cons_of_start hstart] at hfound
      obtain ⟨tail, htail⟩ := hstart
      have hcopied : replaceEach targets (e.1 ++ tail) = e.1 ++ replaceEach targets tail := by
        obtain ⟨count, hcount⟩ := hrow
        rw [hcount]
        exact h.replaceEach_replicate (count + 1) tail
      have hdrop : rest.drop (e.1.length - 1) = tail := by
        obtain ⟨first, others, hfirst⟩ := List.exists_cons_of_ne_nil hrow.ne_nil
        rw [hfirst, List.cons_append] at htail
        rw [hfirst, ← (List.cons.inj htail).2]
        simp
      rw [← htail, hcopied, replaceAll_target hrow.ne_nil]
      obtain rfl := Option.some.inj hfound
      rw [hdrop] at ih ⊢
      rw [ih]
    · rw [targetAt?_cons_of_not_start hstart] at hfound
      rw [replaceEach_of_target hfound,
        replaceAll_append_of_not_mem hrow (h.not_mem _ (mem_of_targetAt? hfound)), ih]
  | case3 c rest hnone ih =>
    rw [targetAt?_eq_none_iff] at hnone
    have hothers : targetAt? targets (c :: rest) = none :=
      targetAt?_eq_none_iff.2 fun f hf => hnone f (List.mem_cons_of_mem _ hf)
    have hscanned := replaceEach_of_none hothers
    have hlater : ¬ e.1 <+: c :: replaceEach targets rest := by
      have hstart := hnone e List.mem_cons_self
      rw [← hscanned]
      obtain ⟨count, hcount⟩ := hrow
      rwa [hcount, h.replicate_prefix_replaceEach, ← hcount]
    rw [hscanned, replaceAll_cons hlater, ih]

end Spares

/-! ## One target after the other -/

/-- Targets that can be replaced one after the other, in any order. -/
structure Independent (targets : List (List Char × List Char)) : Prop where
  row : ∀ e ∈ targets, ∃ letter, IsRowOf letter e.1
  letters : targets.Pairwise fun e f => e.1.head? ≠ f.1.head?
  ne_nil : ∀ e ∈ targets, e.2 ≠ []
  not_mem : ∀ e ∈ targets, ∀ f ∈ targets, ∀ c ∈ e.1, c ∉ f.2

namespace Independent

theorem perm (h : Independent targets) (hperm : order.Perm targets) : Independent order where
  row e he := h.row e (hperm.mem_iff.1 he)
  letters := (hperm.pairwise_iff fun hne => Ne.symm hne).2 h.letters
  ne_nil e he := h.ne_nil e (hperm.mem_iff.1 he)
  not_mem e he f hf := h.not_mem e (hperm.mem_iff.1 he) f (hperm.mem_iff.1 hf)

theorem sublist (h : Independent targets) (hsublist : order.Sublist targets) :
    Independent order where
  row e he := h.row e (hsublist.subset he)
  letters := h.letters.sublist hsublist
  ne_nil e he := h.ne_nil e (hsublist.subset he)
  not_mem e he f hf := h.not_mem e (hsublist.subset he) f (hsublist.subset hf)

/-- The others spare the letter of the first target. -/
theorem spares (h : Independent (e :: targets)) (hrow : IsRowOf letter e.1) :
    Spares letter targets where
  row f hf := by
    obtain ⟨other, hother⟩ := h.row f (List.mem_cons_of_mem _ hf)
    refine ⟨other, ?_, hother⟩
    rintro rfl
    exact (List.pairwise_cons.1 h.letters).1 f hf (hrow.head?.trans hother.head?.symm)
  ne_nil f hf := h.ne_nil f (List.mem_cons_of_mem _ hf)
  not_mem f hf := h.not_mem e List.mem_cons_self f (List.mem_cons_of_mem _ hf) letter hrow.mem

/-- At each place there is at most one target. -/
theorem targetAt?_eq_some_iff (h : Independent targets) :
    targetAt? targets cs = some e ↔ e ∈ targets ∧ e.1 <+: cs := by
  constructor
  · intro hfound
    exact ⟨mem_of_targetAt? hfound, start_of_targetAt? hfound⟩
  · rintro ⟨hmem, hstart⟩
    induction targets with
    | nil => cases hmem
    | cons first targets ih =>
      obtain ⟨letter, hrow⟩ := h.row first List.mem_cons_self
      rcases List.mem_cons.1 hmem with rfl | hrest
      · exact targetAt?_cons_of_start hstart
      · have hfound := ih (h.sublist (List.sublist_cons_self _ _)) hrest
        have hfirst : ¬ first.1 <+: cs := by
          intro hfirst
          cases cs with
          | nil => exact hrow.ne_nil (List.prefix_nil.1 hfirst)
          | cons c cs =>
            exact (h.spares hrow).ne_of_targetAt? hfound (hrow.eq_of_start hfirst)
        rw [targetAt?_cons_of_not_start hfirst, hfound]

/-- The order of the targets has no part in the scan. -/
theorem replaceEach_eq_of_perm (h : Independent targets) (hperm : order.Perm targets)
    (cs : List Char) : replaceEach order cs = replaceEach targets cs := by
  have hfound (cs : List Char) : targetAt? order cs = targetAt? targets cs := by
    apply Option.ext
    intro e
    rw [(h.perm hperm).targetAt?_eq_some_iff, h.targetAt?_eq_some_iff, hperm.mem_iff]
  fun_induction replaceEach targets cs with
  | case1 => rw [replaceEach]
  | case2 c rest target replacement hhere ih =>
    rw [replaceEach_of_target ((hfound _).trans hhere), ih]
  | case3 c rest hnone ih => rw [replaceEach_of_none ((hfound _).trans hnone), ih]

/-- Replacing independent targets one after the other is replacing them in one scan. -/
theorem foldl_replaceAll (h : Independent targets) (cs : List Char) :
    targets.foldl (fun text e => replaceAll e.1 e.2 text) cs = replaceEach targets cs := by
  induction targets using List.reverseRecOn with
  | nil => exact (replaceEach_nil_targets cs).symm
  | append_singleton targets e ih =>
    have hlast := h.perm (List.perm_append_singleton e targets).symm
    obtain ⟨letter, hrow⟩ := hlast.row e List.mem_cons_self
    have hbefore := ih (hlast.sublist (List.sublist_cons_self _ _))
    rw [List.foldl_append, hbefore, List.foldl_cons, List.foldl_nil,
      (hlast.spares hrow).replaceAll_replaceEach hrow,
      h.replaceEach_eq_of_perm (List.perm_append_singleton e targets).symm]

/-- A replacement is a wall for every target. -/
theorem replaceAll_replacement (h : Independent targets) (he : e ∈ targets)
    {f : List Char × List Char} (hf : f ∈ targets) (front back : List Char) :
    replaceAll e.1 e.2 (front ++ f.2 ++ back) =
      replaceAll e.1 e.2 front ++ f.2 ++ replaceAll e.1 e.2 back := by
  obtain ⟨letter, hrow⟩ := h.row e he
  exact replaceAll_wall hrow (h.ne_nil f hf) (h.not_mem e he f hf letter hrow.mem) e.2 front back

end Independent

end Stencil.Text
