import Stencil.Proofs.Namespaces
import Stencil.Proofs.Registry
import Stencil.Proofs.Template.Evaluating
import Stencil.Proofs.Template.Filling

/-!
# What stops a resolution

Resolving a template gives a value or an error, in every world and whatever the store, the settings,
the catalog and the environment are, unless one of its steps writes an instant in a format that has
no text for the year. Only one format is such, and only calls of `date` write instants
(`resolve_stops_iff`). Other ways to go wrong are ruled out where they could arise: a draw takes a
proof that there is something to draw, and items and parts of texts are found by matching.
-/

namespace Stencil

open Eval

/-! ## Calls -/

theorem Catalog.completes_call (catalog : Catalog) (c : Call) : Completes (catalog.call c) := by
  refine (EntropyOnly.ofExcept _).completes.bind fun _ => ?_
  split
  · exact (EntropyOnly.pure _).completes
  · rename_i g _
    intro w year hstop
    rw [runIn_modifyGet] at hstop
    cases hstop
  · exact (EntropyOnly.fail _).completes

/-- A registry whose calls of `date` write instants in a format, and whose other calls write
none. -/
structure Registry.WritesDates (functions : Registry) (format : DateFormat) (now : Instant) :
    Prop where
  date : functions.get? "date" = some (Calendar.functions format now)
  others : ∀ name ns, name ≠ "date" → functions.get? name = some ns →
    ∀ call, Completes (ns.call call)

/-- The standard registry writes dates in the format that is set, at the given instant. -/
theorem Registry.writesDates_standard (settings : Settings) (sources : Sources) :
    ((standard settings sources).extend (.ofList [])).WritesDates settings.dateFormat
      sources.now where
  date := by
    have hempty : (ofList []).get? "date" = none := rfl
    rw [get?_extend, hempty, Option.none_or]
    simp [standard, ofList, get?_adding, Arithmetic.functions, Calendar.functions,
      Randomness.functions, Environment.functions]
  others := by
    intro name ns hname h call
    have hempty : (ofList []).get? name = none := rfl
    rw [get?_extend, hempty, Option.none_or] at h
    -- what the registry holds is one of the five namespaces
    rcases mem_of_get?_ofList h with ⟨hmem, rfl⟩
    simp only [List.mem_cons, List.not_mem_nil, or_false] at hmem
    rcases hmem with rfl | rfl | rfl | rfl | rfl
    · exact sources.catalog.completes_call call
    · exact (Arithmetic.entropyOnly_call call).completes
    · exact absurd rfl hname
    · exact (Randomness.entropyOnly_call _ call).completes
    · exact (sources.environment.entropyOnly_call call).completes

/-- The instant that a call writes in the date format. -/
def Call.written? (now : Instant) (call : Call) : Option Instant :=
  if call.ns = "date" then Calendar.written? now call else none

/-- A call stops at the year of the instant that it writes if the format has no text for it, and
completes in all other cases. -/
theorem Registry.WritesDates.runIn_dispatch_iff {functions : Registry} {format : DateFormat}
    {now : Instant} (h : functions.WritesDates format now) {call : Call} {w : World} {year : Int} :
    ((functions.dispatch call).runIn w).1 = .error (.unwritableYear year) ↔
      ∃ i, call.written? now = some i ∧ format.write? i = none ∧ i.date.year = year := by
  unfold dispatch Call.written?
  by_cases hns : call.ns = "date"
  · rw [hns, h.date, if_pos rfl]
    exact Calendar.runIn_call_unwritableYear_iff
  · rw [if_neg hns]
    constructor
    · intro hstop
      split at hstop
      · rename_i ns hget
        exact absurd hstop (h.others _ ns hns hget call w year)
      · cases hstop
    · rintro ⟨i, hnone, -⟩
      cases hnone

namespace Resolver

/-! ## Steps -/

/-- The instant that an event writes in the date format. -/
def Event.written? (now : Instant) : Event → Option Instant
  | .enter _ => none
  | .evaluate inner =>
    match Placeholder.parse (String.ofList inner) with
    | .ok { expression := .function call, .. } => call.written? now
    | _ => none

variable {r : Resolver} {format : DateFormat} {now : Instant}

theorem completes_checkDepth (depth : Nat) : Completes (r.checkDepth depth) := by
  unfold checkDepth
  split
  · exact (EntropyOnly.fail _).completes
  · exact (EntropyOnly.pure _).completes

/-- An event stops at the year of the instant that it writes if the format has no text for it, and
completes in all other cases. -/
theorem runIn_perform_unwritableYear_iff (h : r.functions.WritesDates format now) {e : Event}
    {w : World} {year : Int} :
    ((r.perform e).runIn w).1 = .error (.unwritableYear year) ↔
      ∃ i, e.written? now = some i ∧ format.write? i = none ∧ i.date.year = year := by
  cases e with
  | enter depth =>
    have hcompletes : Completes (r.perform (.enter depth)) :=
      (completes_checkDepth depth).bind fun _ => (EntropyOnly.pure _).completes
    simp [Event.written?, hcompletes w year]
  | evaluate inner =>
    rw [runIn_perform_evaluate_iff, Event.written?]
    cases hparse : Placeholder.parse (String.ofList inner) with
    | error fault => simp [resolvePlaceholder_of_error hparse]
    | ok placeholder =>
      rcases placeholder with ⟨expression, default, source⟩
      rcases expression with segments | call
      · rw [resolvePlaceholder_of_variable hparse]
        cases (r.lookup? segments).or default with
        | none => simp
        | some v => simp
      · rw [resolvePlaceholder_of_call hparse]
        exact h.runIn_dispatch_iff

/-- A container that is entered stands inside fewer others than the limit allows. -/
theorem lt_maxDepth_of_enter {depth : Nat} {w : World} {v : Option Value}
    (h : ((r.perform (.enter depth)).runIn w).1 = .ok v) : depth < r.settings.maxDepth := by
  by_contra hdeep
  have hlimit : r.settings.maxDepth ≤ depth := by omega
  rw [perform, checkDepth, if_pos hlimit] at h
  cases h

/-- A trace stops at a year if and only if one of its steps writes an instant of that year and the
format has no text for it. -/
theorem Traces.stops_iff {w w' : World} {es : List Event} {steps : List Step}
    (htrace : Traces r w es steps w') (h : r.functions.WritesDates format now) {year : Int} :
    (∃ step ∈ steps, step.outcome = .error (.unwritableYear year)) ↔
      format = .rfc2822 ∧ ¬ (0 ≤ year ∧ year ≤ 9999) ∧
        ∃ step ∈ steps, ∃ i, step.event.written? now = some i ∧ i.date.year = year := by
  have hstep {step : Step} (hmem : step ∈ steps) :
      step.outcome = .error (.unwritableYear year) ↔
        ∃ i, step.event.written? now = some i ∧ format.write? i = none ∧ i.date.year = year := by
    have hrun := congrArg Prod.fst (htrace.runIn_perform hmem)
    rw [← runIn_perform_unwritableYear_iff h, hrun]
  constructor
  · rintro ⟨step, hmem, hout⟩
    rcases (hstep hmem).1 hout with ⟨i, hi, hnone, rfl⟩
    rcases DateFormat.write?_eq_none_iff.1 hnone with ⟨hformat, hyear⟩
    exact ⟨hformat, hyear, step, hmem, i, hi, rfl⟩
  · rintro ⟨hformat, hyear, step, hmem, i, hi, rfl⟩
    have hnone : format.write? i = none := DateFormat.write?_eq_none_iff.2 ⟨hformat, hyear⟩
    exact ⟨step, hmem, (hstep hmem).2 ⟨i, hi, hnone, rfl⟩⟩

/-! ## Templates -/

theorem eq_of_create {store : Store} {settings : Settings} {sources : Sources}
    {custom : List Namespace} (h : Resolver.create store settings sources custom = .ok r) :
    r =
      { store
        functions := (Registry.standard settings sources).extend (.ofList custom)
        settings } := by
  unfold create Settings.validate at h
  split at h
  · cases h
  · cases h
    rfl

/-- Resolving a template stops at a year if and only if one of its steps writes an instant of that
year, the year does not have four digits, and the date format is the one that requires them. In all
other cases there is a value or an error. What it enters on the way stands inside fewer containers
than the limit allows, so their number stays a word. -/
theorem resolve_stops_iff {store : Store} {settings : Settings} {sources : Sources} {r : Resolver}
    (h : Resolver.create store settings sources [] = .ok r) (template : Value) (w : World) :
    ∃ steps w', Traces r w (r.events 0 template) steps w' ∧
      (∀ year, ((r.resolve template).runIn w).1 = .error (.unwritableYear year) ↔
        settings.dateFormat = .rfc2822 ∧ ¬ (0 ≤ year ∧ year ≤ 9999) ∧
          ∃ step ∈ steps, ∃ i, step.event.written? sources.now = some i ∧ i.date.year = year) ∧
      (((∃ v, ((r.resolve template).runIn w).1 = .ok v) ∨
          ∃ e, ((r.resolve template).runIn w).1 = .error (.error e)) ↔
        (settings.dateFormat = .rfc2822 → ∀ step ∈ steps, ∀ i,
          step.event.written? sources.now = some i → 0 ≤ i.date.year ∧ i.date.year ≤ 9999)) ∧
      ∀ step ∈ steps, ∀ depth v, step.event = .enter depth → step.outcome = .ok v →
        depth < settings.maxDepth ∧ IsWord (depth + 1) := by
  have hr := eq_of_create h
  have hdates : r.functions.WritesDates settings.dateFormat sources.now := by
    rw [hr]
    exact Registry.writesDates_standard settings sources
  rcases exists_traces r w (r.events 0 template) with ⟨steps, w', htrace⟩
  rcases (performs_resolve template).runIn_of_traces htrace with ⟨-, herror, -⟩
  have hstops (year : Int) : ((r.resolve template).runIn w).1 = .error (.unwritableYear year) ↔
      settings.dateFormat = .rfc2822 ∧ ¬ (0 ≤ year ∧ year ≤ 9999) ∧
        ∃ step ∈ steps, ∃ i, step.event.written? sources.now = some i ∧ i.date.year = year :=
    (herror _).trans (htrace.stops_iff hdates)
  refine ⟨steps, w', htrace, hstops, ?_, ?_⟩
  · rw [value_or_error_iff]
    constructor
    · intro hcompletes hformat step hstep i hi
      by_contra hyear
      exact hcompletes i.date.year ((hstops _).2 ⟨hformat, hyear, step, hstep, i, hi, rfl⟩)
    · intro hwritable year hstop
      rcases (hstops year).1 hstop with ⟨hformat, hyear, step, hstep, i, hi, rfl⟩
      exact hyear (hwritable hformat step hstep i hi)
  · intro step hstep depth v hevent hout
    have hrun := congrArg Prod.fst (htrace.runIn_perform hstep)
    rw [hevent, hout] at hrun
    have hsettings : r.settings = settings := by rw [hr]
    have hdepth : depth < r.settings.maxDepth := lt_maxDepth_of_enter hrun
    rw [hsettings] at hdepth
    have hword : IsWord settings.maxDepth := settings.isWord_maxDepth
    exact ⟨hdepth, by omega⟩

/-- One second before the year 10000, in the format that has no text for that year: the instant is
written, since the one that the call shifts to is. -/
theorem resolve_stops_iff_of_last_second :
    let settings : Settings := { dateFormat := .rfc2822 }
    let sources : Sources :=
      { catalog := {}
        environment := {}
        now := ⟨253402300800, 0, by decide, by decide, by decide, by decide⟩ }
    let r : Resolver :=
      { store := {}
        functions := (Registry.standard settings sources).extend (.ofList [])
        settings }
    let template : Value := .string "\x7b\x7b$date.add(-1, 'seconds')\x7d\x7d"
    Resolver.create {} settings sources [] = .ok r ∧ sources.now.date.year = 10000 ∧
      ((∃ v, ((r.resolve template).runIn (World.ofSeed 0)).1 = .ok v) ∨
        ∃ e, ((r.resolve template).runIn (World.ofSeed 0)).1 = .error (.error e)) := by
  intro settings sources r template
  have hcreate : Resolver.create {} settings sources [] = .ok r := rfl
  have hevents : r.events 0 template = [.evaluate "$date.add(-1, 'seconds')".toList] := by
    decide +kernel
  refine ⟨hcreate, by decide, ?_⟩
  rcases resolve_stops_iff hcreate template (World.ofSeed 0) with
    ⟨steps, w', htrace, -, hwritten, -⟩
  rw [hwritten]
  intro _ step hstep i hi
  have hevent : step.event ∈ r.events 0 template :=
    htrace.events_prefix.subset (List.mem_map_of_mem hstep)
  rw [hevents, List.mem_singleton] at hevent
  rw [hevent] at hi
  have hyear : (Event.written? sources.now
      (.evaluate "$date.add(-1, 'seconds')".toList)).map (·.date.year) = some 9999 := by
    decide +kernel
  rw [hi] at hyear
  have hlast : i.date.year = 9999 := Option.some.inj hyear
  omega

/-- An ordinary instant that a call shifts by more than eight thousand years, in the format that has
no text for the year that it comes to. -/
theorem resolve_stops_of_distant_year :
    let settings : Settings := { dateFormat := .rfc2822 }
    let sources : Sources :=
      { catalog := {}
        environment := {}
        now := ⟨1706702709, 0, by decide, by decide, by decide, by decide⟩ }
    let r : Resolver :=
      { store := {}
        functions := (Registry.standard settings sources).extend (.ofList [])
        settings }
    let template : Value := .string "\x7b\x7b$date.add(3000000, 'days')\x7d\x7d"
    Resolver.create {} settings sources [] = .ok r ∧
      ((r.resolve template).runIn (World.ofSeed 0)).1 = .error (.unwritableYear 10237) := by
  intro settings sources r template
  have hdates : r.functions.WritesDates settings.dateFormat sources.now :=
    Registry.writesDates_standard settings sources
  have hresolve : r.resolve template =
      r.resolvePlaceholder (String.ofList "$date.add(3000000, 'days')".toList) := by
    have hwhole : Template.whole? "\x7b\x7b$date.add(3000000, 'days')\x7d\x7d".toList =
        some "$date.add(3000000, 'days')".toList := by decide +kernel
    rw [resolve, resolveAt, resolveString, hwhole]
  have hyear : (Event.written? sources.now
      (.evaluate "$date.add(3000000, 'days')".toList)).map (·.date.year) = some 10237 := by
    decide +kernel
  rcases Option.map_eq_some_iff.1 hyear with ⟨i, hi, hdistant⟩
  have hnone : settings.dateFormat.write? i = none :=
    DateFormat.write?_eq_none_iff.2 ⟨rfl, by omega⟩
  refine ⟨rfl, ?_⟩
  rw [hresolve, ← runIn_perform_evaluate_iff]
  exact (runIn_perform_unwritableYear_iff hdates).2 ⟨i, hi, hnone, hdistant⟩

end Resolver

end Stencil
