import Stencil.Proofs.Value.Merging
import Stencil.Proofs.Value.Reading
import Stencil.Template.Builder

/-!
# Reading settings

A section that is an object gives settings if and only if all its members of known names are well
typed (`exists_ofValue?_object_iff`). These are taken, whatever their order and whatever stands
between them, and the members that are absent have their defaults (`assignMembers?_eq_some_iff`).
Settings are read back from the section that describes them, and what is loaded from a document can
be used by every resolver (`load_round_trips_and_validates`).
-/

namespace Stencil

namespace DateFormat

variable {format : DateFormat} {v : Value}

theorem ofName?_eq_some_iff {name : String} : ofName? name = some format ↔ name = format.name := by
  constructor
  · intro h
    unfold ofName? at h
    have hfound := List.find?_some h
    exact (of_decide_eq_true hfound).symm
  · rintro rfl
    cases format
    all_goals rfl

theorem ofValue?_eq_some_iff :
    ofValue? v = some format ↔ v = .string format.name ∨ v = .object [(format.name, .null)] := by
  constructor
  · intro h
    unfold ofValue? at h
    split at h
    · exact .inl (by rw [ofName?_eq_some_iff.1 h])
    · exact .inr (by rw [ofName?_eq_some_iff.1 h])
    · cases h
  · rintro (rfl | rfl)
    · exact ofName?_eq_some_iff.2 rfl
    · exact ofName?_eq_some_iff.2 rfl

end DateFormat

namespace Settings

variable {s t : Settings} {member : Member} {v : Value} {entries : Entries Value}

/-! ## One member -/

/-- The value gives what the settings have for a member. A format has two ways to be written. -/
def Holds (s : Settings) : Member → Value → Prop
  | .maxDepth, v => ∃ h, v = .number (.integer s.maxDepth h)
  | .dateFormat, v => v = .string s.dateFormat.name ∨ v = .object [(s.dateFormat.name, .null)]
  | .allowEscapes, v => v = .bool s.allowEscapes
  | .charset, v => v = .string s.charset

/-- Two settings have the same for a member. -/
def AgreesAt (s t : Settings) : Member → Prop
  | .maxDepth => s.maxDepth = t.maxDepth
  | .dateFormat => s.dateFormat = t.dateFormat
  | .allowEscapes => s.allowEscapes = t.allowEscapes
  | .charset => s.charset = t.charset

theorem AgreesAt.refl (s : Settings) (member : Member) : s.AgreesAt s member := by
  cases member
  all_goals rfl

theorem AgreesAt.symm (h : s.AgreesAt t member) : t.AgreesAt s member := by
  cases member
  all_goals exact Eq.symm h

theorem AgreesAt.trans {u : Settings} (h : s.AgreesAt t member) (hu : t.AgreesAt u member) :
    s.AgreesAt u member := by
  cases member
  all_goals exact Eq.trans h hu

/-- A value gives something for a member. -/
def IsWellTyped (member : Member) (v : Value) : Prop :=
  ∃ s : Settings, s.Holds member v

theorem ext_of_agreesAt (h : ∀ member, s.AgreesAt t member) : s = t := by
  obtain ⟨sDepth, sFormat, sEscapes, sCharset, _⟩ := s
  obtain ⟨tDepth, tFormat, tEscapes, tCharset, _⟩ := t
  obtain rfl : sDepth = tDepth := h .maxDepth
  obtain rfl : sFormat = tFormat := h .dateFormat
  obtain rfl : sEscapes = tEscapes := h .allowEscapes
  obtain rfl : sCharset = tCharset := h .charset
  rfl

/-- Whether a value gives what settings have for a member depends on this member alone, and a value
gives one thing only. -/
theorem Holds.iff_agreesAt (h : s.Holds member v) : t.Holds member v ↔ t.AgreesAt s member := by
  constructor
  · intro ht
    cases member with
    | maxDepth =>
      obtain ⟨_, hs⟩ := h
      obtain ⟨_, ht⟩ := ht
      have hsame := Value.number.inj (ht.symm.trans hs)
      exact Int.ofNat_inj.1 (Number.integer.inj hsame)
    | dateFormat =>
      have hsame := DateFormat.ofValue?_eq_some_iff.2 ht
      rw [DateFormat.ofValue?_eq_some_iff.2 h] at hsame
      exact (Option.some.inj hsame).symm
    | allowEscapes => exact Value.bool.inj (ht.symm.trans h)
    | charset => exact Value.string.inj (ht.symm.trans h)
  · intro hsame
    cases member
    all_goals
      simp only [AgreesAt] at hsame
      simpa only [Holds, hsame] using h

/-- What is set is what the value gives, and the other members keep what they have. -/
theorem holds_of_assign? (h : assign? member v s = some t) :
    t.Holds member v ∧ ∀ other, other ≠ member → t.AgreesAt s other := by
  unfold assign? at h
  split at h
  · split at h
    · rename_i n hword hn
      cases h
      have hdepth : (n.toNat : Int) = n := Int.toNat_of_nonneg hn
      refine ⟨⟨by rwa [hdepth], ?_⟩, ?_⟩
      · simp only [hdepth]
      · intro other hother
        cases other with
        | maxDepth => exact absurd rfl hother
        | dateFormat | allowEscapes | charset => rfl
    · cases h
  · obtain ⟨format, hformat, rfl⟩ := Option.map_eq_some_iff.1 h
    refine ⟨DateFormat.ofValue?_eq_some_iff.1 hformat, ?_⟩
    intro other hother
    cases other with
    | dateFormat => exact absurd rfl hother
    | maxDepth | allowEscapes | charset => rfl
  · cases h
    refine ⟨rfl, ?_⟩
    intro other hother
    cases other with
    | allowEscapes => exact absurd rfl hother
    | maxDepth | dateFormat | charset => rfl
  · cases h
    refine ⟨rfl, ?_⟩
    intro other hother
    cases other with
    | charset => exact absurd rfl hother
    | maxDepth | dateFormat | allowEscapes => rfl
  · cases h

/-- A well-typed value can be set, whatever the settings. -/
theorem exists_assign? (h : IsWellTyped member v) (s : Settings) :
    ∃ t, assign? member v s = some t := by
  obtain ⟨given, hgiven⟩ := h
  cases member with
  | maxDepth =>
    obtain ⟨_, rfl⟩ := hgiven
    rw [assign?, dif_pos (Int.natCast_nonneg _)]
    exact ⟨_, rfl⟩
  | dateFormat =>
    refine ⟨{ s with dateFormat := given.dateFormat }, ?_⟩
    rw [assign?, DateFormat.ofValue?_eq_some_iff.2 hgiven, Option.map_some]
  | allowEscapes =>
    obtain rfl : v = .bool given.allowEscapes := hgiven
    exact ⟨_, rfl⟩
  | charset =>
    obtain rfl : v = .string given.charset := hgiven
    exact ⟨_, rfl⟩

/-- A member is set if and only if the value gives what it is set to, and nothing else changes. -/
theorem assign?_eq_some_iff : assign? member v s = some t ↔
    t.Holds member v ∧ ∀ other, other ≠ member → t.AgreesAt s other := by
  refine ⟨holds_of_assign?, ?_⟩
  rintro ⟨hv, hothers⟩
  obtain ⟨u, hu⟩ := exists_assign? ⟨t, hv⟩ s
  obtain ⟨huv, huothers⟩ := holds_of_assign? hu
  have hsame : u = t := by
    refine ext_of_agreesAt fun other => ?_
    by_cases hother : other = member
    · subst hother
      exact hv.iff_agreesAt.1 huv
    · exact AgreesAt.trans (huothers other hother) (AgreesAt.symm (hothers other hother))
  rw [hu, hsame]

/-! ## All members -/

theorem find?_members_eq_some_iff {name : String} :
    (members.find? fun member => member.name = name) = some member ↔ member.name = name := by
  constructor
  · intro h
    have hfound := List.find?_some h
    exact of_decide_eq_true hfound
  · rintro rfl
    cases member
    all_goals rfl

theorem name_inj {other : Member} : member.name = other.name ↔ member = other := by
  rw [← find?_members_eq_some_iff, find?_members_eq_some_iff.2 rfl, Option.some.injEq, eq_comm]

/-- For a member settings have what entries give, or the same as other settings if it is absent. -/
def TakesAt (t : Settings) (entries : Entries Value) (s : Settings) (member : Member) : Prop :=
  match Entries.get? member.name entries with
  | some v => t.Holds member v
  | none => t.AgreesAt s member

theorem takesAt_cons_of_ne {name : String} (h : name ≠ member.name) :
    t.TakesAt ((name, v) :: entries) s member ↔ t.TakesAt entries s member := by
  rw [TakesAt, TakesAt, Entries.get?, if_neg h]

theorem takesAt_cons_self :
    t.TakesAt ((member.name, v) :: entries) s member ↔ t.Holds member v := by
  rw [TakesAt, Entries.get?, if_pos rfl]

theorem takesAt_of_not_mem (h : member.name ∉ Entries.keys entries) :
    t.TakesAt entries s member ↔ t.AgreesAt s member := by
  rw [TakesAt, Entries.get?_eq_none_iff.2 h]

theorem TakesAt.congr {u : Settings} (h : t.TakesAt entries s member)
    (hsame : s.AgreesAt u member) : t.TakesAt entries u member := by
  unfold TakesAt at h ⊢
  split at h
  · exact h
  · exact h.trans hsame

/-- Setting a member and then the rest is setting all, if the member is not set again. -/
theorem takes_cons_iff {u : Settings} (hrest : member.name ∉ Entries.keys entries)
    (hu : assign? member v s = some u) :
    (∀ other, t.TakesAt entries u other) ↔
      ∀ other, t.TakesAt ((member.name, v) :: entries) s other := by
  obtain ⟨hv, hothers⟩ := assign?_eq_some_iff.1 hu
  refine forall_congr' fun other => ?_
  by_cases hother : other = member
  · -- the rest does not set it again, so it stays what the value gave
    subst hother
    rw [takesAt_of_not_mem hrest, takesAt_cons_self]
    exact hv.iff_agreesAt.symm
  · have hname : member.name ≠ other.name := fun hname => hother (name_inj.1 hname).symm
    rw [takesAt_cons_of_ne hname]
    exact ⟨fun h => h.congr (hothers other hother), fun h => h.congr (hothers other hother).symm⟩

/-- Setting the members of an object, one after the other, gives the settings that take its
entries. -/
theorem assignMembers?_eq_some_iff (hkeys : (Entries.keys entries).Nodup) :
    assignMembers? entries s = some t ↔ ∀ member, t.TakesAt entries s member := by
  induction entries generalizing s with
  | nil =>
    constructor
    · intro h member
      cases h
      exact AgreesAt.refl _ member
    · intro htakes
      have hsame : t = s := ext_of_agreesAt htakes
      rw [hsame]
      rfl
  | cons entry rest ih =>
    obtain ⟨name, v⟩ := entry
    obtain ⟨hname, hrest⟩ := List.nodup_cons.1 hkeys
    rw [assignMembers?]
    cases hfound : members.find? fun member => member.name = name with
    | none =>
      -- members of other names are passed over
      have hother : ∀ member : Member, name ≠ member.name := by
        rintro member rfl
        rw [find?_members_eq_some_iff.2 rfl] at hfound
        cases hfound
      refine (ih hrest).trans (forall_congr' fun member => ?_)
      exact (takesAt_cons_of_ne (hother member)).symm
    | some member =>
      obtain rfl := find?_members_eq_some_iff.1 hfound
      rw [Option.bind_eq_some_iff]
      constructor
      · rintro ⟨u, hu, hall⟩
        exact (takes_cons_iff hname hu).1 ((ih hrest).1 hall)
      · intro htakes
        have hv : t.Holds member v := takesAt_cons_self.1 (htakes member)
        obtain ⟨u, hu⟩ := exists_assign? ⟨t, hv⟩ s
        exact ⟨u, hu, (ih hrest).2 ((takes_cons_iff hname hu).2 htakes)⟩

theorem exists_assignMembers? (h : ∀ member v, (member.name, v) ∈ entries → IsWellTyped member v)
    (s : Settings) : ∃ t, assignMembers? entries s = some t := by
  induction entries generalizing s with
  | nil => exact ⟨s, rfl⟩
  | cons entry rest ih =>
    obtain ⟨name, v⟩ := entry
    have hrest := ih fun member u hmem => h member u (List.mem_cons_of_mem _ hmem)
    rw [assignMembers?]
    cases hfound : members.find? fun member => member.name = name with
    | none => exact hrest s
    | some member =>
      obtain rfl := find?_members_eq_some_iff.1 hfound
      obtain ⟨u, hu⟩ := exists_assign? (h member v List.mem_cons_self) s
      obtain ⟨t, ht⟩ := hrest u
      exact ⟨t, Option.bind_eq_some_iff.2 ⟨u, hu, ht⟩⟩

/-- An object gives settings if and only if its members of known names are well typed. -/
theorem exists_ofValue?_object_iff (hkeys : (Entries.keys entries).Nodup) :
    (∃ t, ofValue? (.object entries) = some t) ↔
      ∀ member v, (member.name, v) ∈ entries → IsWellTyped member v := by
  constructor
  · rintro ⟨t, ht⟩ member v hmem
    have htakes := (assignMembers?_eq_some_iff hkeys).1 ht member
    rw [TakesAt, (Entries.get?_eq_some_iff_mem hkeys).2 hmem] at htakes
    exact ⟨t, htakes⟩
  · intro htyped
    exact exists_assignMembers? htyped {}

/-! ## Sections -/

/-- Settings are read back from the section that describes them. -/
theorem ofValue?_toValue (s : Settings) : ofValue? s.toValue = some s := by
  refine (assignMembers?_eq_some_iff (by simp [Entries.keys, Member.name])).2 ?_
  intro member
  cases member with
  | maxDepth => exact ⟨_, rfl⟩
  | dateFormat => exact Or.inl rfl
  | allowEscapes | charset => rfl

/-- The section is read back from its text. -/
theorem ofJson_toPrettyJson_toValue (s : Settings) :
    Value.ofJson s.toValue.toPrettyJson = .ok s.toValue := by
  rw [Value.ofJson_toPrettyJson_eq_self_iff]
  refine ⟨?_, ?_, ?_⟩
  · -- one object, with scalars for members
    have hnesting : s.toValue.nesting = 1 := by
      simp [toValue, Value.nesting, Value.nestingOfMembers]
    rw [hnesting]
    decide
  · rw [toValue, Value.hasDistinctKeys_object]
    simp [Entries.keys, Member.name, Value.HasDistinctKeys, Value.parts]
  · rw [toValue, Value.doublesReadBack_object]
    simp [Value.DoublesReadBack, Value.parts, Value.ofDouble]

/-! ## Documents -/

theorem validate_of_valid (h : s.fault? = none) : s.validate = .ok s := by
  rw [validate, h]

theorem fault?_default : ({} : Settings).fault? = none :=
  rfl

/-- Settings that every way of making a resolver takes. -/
structure IsAccepted (s : Settings) : Prop where
  withSettings : ∀ b : Resolver.Builder, b.withSettings s = .ok { b with settings := s }
  ofRegistry : ∀ store functions,
    Resolver.ofRegistry store functions s = .ok { store, functions, settings := s }
  create : ∀ store sources custom, ∃ r,
    Resolver.create store s sources custom = .ok r ∧ r.settings = s

theorem isAccepted_of_valid (h : s.fault? = none) : s.IsAccepted where
  withSettings := by
    intro b
    rw [Resolver.Builder.withSettings, validate_of_valid h]
    rfl
  ofRegistry := by
    intro store functions
    rw [Resolver.ofRegistry, validate_of_valid h]
    rfl
  create := by
    intro store sources custom
    rw [Resolver.create, validate_of_valid h]
    exact ⟨_, rfl, rfl⟩

theorem load_of_section {document part : Value} (h : document.member? sectionName = some part) :
    load (some document) = validate ((ofValue? part).getD {}) := by
  rw [load, Option.bind_some, h, Option.bind_some]

/-- The defaults can be used, so a fault is one of settings that a section gives. -/
theorem load_cases (document : Option Value) :
    (∃ s, load document = .ok s ∧ s.fault? = none) ∨
      ∃ part c fault, document.bind (Value.member? sectionName) = some part ∧
        ofValue? part = some c ∧ c.fault? = some fault ∧ load document = .error fault := by
  rw [load]
  cases hread : (document.bind (Value.member? sectionName)).bind ofValue? with
  | none => exact .inl ⟨{}, validate_of_valid fault?_default, fault?_default⟩
  | some c =>
    obtain ⟨part, hpart, hc⟩ := Option.bind_eq_some_iff.1 hread
    cases hfault : c.fault? with
    | none => exact .inl ⟨c, validate_of_valid hfault, hfault⟩
    | some fault =>
      refine .inr ⟨part, c, fault, hpart, hc, hfault, ?_⟩
      rw [Option.getD_some, validate, hfault]

/-- Settings are read back from the section that describes them, also through its text, and a
document with that section gives them, or their fault. A section that is an object with distinct
keys gives settings that take its members of known names, with the defaults for those that are
absent, unless one of these is ill typed, which leaves the defaults for all. Every document gives
settings that can be used, or the fault of settings that its section gives. -/
theorem load_round_trips_and_validates :
    (∀ c : Settings, ofValue? c.toValue = some c ∧
      Value.ofJson c.toValue.toPrettyJson = .ok c.toValue ∧
      ∀ document : Value, document.member? sectionName = some c.toValue →
        load (some document) = match c.fault? with
          | none => .ok c
          | some fault => .error fault) ∧
    (∀ (document : Value) (entries : Entries Value),
      document.member? sectionName = some (.object entries) → (Entries.keys entries).Nodup →
      ((∀ member v, (Member.name member, v) ∈ entries → IsWellTyped member v) →
        ∃ s, ofValue? (.object entries) = some s ∧ (∀ member, s.TakesAt entries {} member) ∧
          load (some document) = s.validate) ∧
      (∀ member v, (Member.name member, v) ∈ entries → ¬ IsWellTyped member v →
        ofValue? (.object entries) = none ∧ load (some document) = .ok {})) ∧
    ∀ document : Option Value,
      (∃ s, load document = .ok s ∧ s.fault? = none ∧ s.IsAccepted) ∨
        ∃ part c fault, document.bind (Value.member? sectionName) = some part ∧
          ofValue? part = some c ∧ c.fault? = some fault ∧ load document = .error fault := by
  refine ⟨?_, ?_, ?_⟩
  · intro c
    refine ⟨ofValue?_toValue c, ofJson_toPrettyJson_toValue c, ?_⟩
    intro document hpart
    rw [load_of_section hpart, ofValue?_toValue, Option.getD_some, validate]
    cases c.fault? with
    | none => rfl
    | some fault => rfl
  · intro document entries hpart hkeys
    have hload := load_of_section hpart
    constructor
    · intro htyped
      obtain ⟨s, hs⟩ := (exists_ofValue?_object_iff hkeys).2 htyped
      rw [hs, Option.getD_some] at hload
      exact ⟨s, hs, (assignMembers?_eq_some_iff hkeys).1 hs, hload⟩
    · intro member v hmem hill
      have hnone : ofValue? (.object entries) = none := by
        rw [Option.eq_none_iff_forall_not_mem]
        intro s hs
        exact hill ((exists_ofValue?_object_iff hkeys).1 ⟨s, hs⟩ member v hmem)
      rw [hnone, Option.getD_none, validate_of_valid fault?_default] at hload
      exact ⟨hnone, hload⟩
  · intro document
    rcases load_cases document with ⟨s, hload, hvalid⟩ | hfault
    · exact .inl ⟨s, hload, hvalid, isAccepted_of_valid hvalid⟩
    · exact .inr hfault

/-- The largest limit with no characters to draw from, a section with a format written as an object
between members of other names, and a section with one ill-typed member. -/
theorem load_round_trips_and_validates_of_sections :
    let c : Settings :=
      { maxDepth := 18446744073709551615, dateFormat := .rfc2822, allowEscapes := false
        charset := "" }
    let entries : Entries Value :=
      [("x", .null), ("dateFormat", .object [("timestamp", .null)]), ("charset", .bool true),
        ("maxDepth", .number (.integer 2 (by decide)))]
    let illTyped : Entries Value := [("allowEscapes", .bool false), ("maxDepth", .string "deep")]
    let document (part : Value) : Value := .object [("other", .null), (sectionName, part)]
    load (some (document c.toValue)) = .error .emptyCharset ∧
      (∃ s : Settings, load (some (document (.object entries))) = .ok s ∧ s.maxDepth = 2 ∧
        s.dateFormat = .timestamp ∧ s.charset = ({} : Settings).charset) ∧
      load (some (document (.object illTyped))) = .ok {} := by
  intro c entries illTyped document
  have hpart (part : Value) : (document part).member? sectionName = some part := rfl
  obtain ⟨hround, hsections, -⟩ := load_round_trips_and_validates
  obtain ⟨-, -, hload⟩ := hround c
  obtain ⟨htyped, -⟩ := hsections (document (.object entries)) entries (hpart _) (by decide)
  obtain ⟨-, hill⟩ := hsections (document (.object illTyped)) illTyped (hpart _) (by decide)
  refine ⟨hload (document c.toValue) (hpart _), ?_, ?_⟩
  · have hknown : ∀ member v, (Member.name member, v) ∈ entries → IsWellTyped member v := by
      intro member v hmem
      cases member with
      | maxDepth =>
        obtain rfl : v = .number (.integer 2 (by decide)) := by
          simpa [entries, Member.name] using hmem
        exact ⟨{ maxDepth := 2 }, _, rfl⟩
      | dateFormat =>
        obtain rfl : v = .object [("timestamp", .null)] := by
          simpa [entries, Member.name] using hmem
        exact ⟨{ dateFormat := .timestamp }, .inr rfl⟩
      | allowEscapes | charset => simp [entries, Member.name] at hmem
    obtain ⟨s, -, htakes, hvalidate⟩ := htyped hknown
    obtain ⟨_, hdepth⟩ : s.Holds .maxDepth (.number (.integer 2 (by decide))) := htakes .maxDepth
    have htwo : (2 : Int) = s.maxDepth := Number.integer.inj (Value.number.inj hdepth)
    have hformat : s.Holds .dateFormat (.object [("timestamp", .null)]) := htakes .dateFormat
    have htimestamp := DateFormat.ofValue?_eq_some_iff.2 hformat
    have hcharset : s.charset = ({} : Settings).charset := htakes .charset
    have hvalid : s.fault? = none := by
      rw [fault?, if_neg (by omega), hcharset]
      rfl
    rw [validate_of_valid hvalid] at hvalidate
    exact ⟨s, hvalidate, by omega, (Option.some.inj htimestamp).symm, hcharset⟩
  · have hstring : ¬ IsWellTyped .maxDepth (.string "deep") := by
      rintro ⟨s, _, hdepth⟩
      cases hdepth
    exact (hill .maxDepth (.string "deep") (by simp [illTyped, Member.name]) hstring).2

end Settings

end Stencil
