import Stencil.Store.Snapshot
import Stencil.Proofs.Value.DistinctKeys
import Stencil.Proofs.Value.Reading

/-!
# Snapshots as texts

The text of a snapshot is that of a value, but it is read as a record, whose two members must be
objects. Both ways to read it agree: what is lost is lost inside the values of the variables, and
nothing is lost if these are nested at most 125 deep, two less than the reader allows.
-/

namespace Stencil

namespace Reader

variable {r : Reader}

/-- A member of a record is read into the record. -/
theorem feed_recordMember {fields : List String} {given : Entries Value} {name : String}
    (hname : name ∈ fields) (hnew : Entries.contains name given = false) (last : String)
    (mayClose : Bool) (level : Nat) (members : List (String × Value)) (after : List Char) :
    ((r.push (.record fields given last)).inMode (.key mayClose)).feed
        (quoteText name ++ ':' :: ' ' :: ((Value.object members).prettyAt level ++ after)) =
      ((Value.object members).readBack? (r.room - 1)).elim (.error .malformed) fun u =>
        ((r.push (.record fields (Entries.insert name u given) name)).inMode .next).feed after := by
  have htake : (r.push (.record fields given last)).takeName name =
      .ok ((r.push (.record fields given name)).inMode .colon) := by
    simp [takeName, push, hnew, inMode]
  have hshape : (Frame.record fields given name).shape = .object := if_pos hname
  have hplace (u : Value) : (r.push (.record fields given name)).place u =
      (r.push (.record fields (Entries.insert name u given) name)).inMode .next := by
    simp [place, push, hname, inMode]
  rw [feed_member rfl htake (by rw [hshape]; trivial) (feedsBack _) _ _ (.inl rfl)]
  simp only [hplace]

end Reader

namespace Snapshot

/-- The values of all variables. -/
def values (s : Snapshot) : List Value :=
  (s.globals.entries ++ s.locals.entries).map Prod.snd

theorem hasDistinctKeys_scopeOf {scope : Scope} {v : Value} (hv : v.HasDistinctKeys) :
    ∀ m ∈ (scopeOf scope v).entries, m.2.HasDistinctKeys := by
  intro m hm
  unfold scopeOf at hm
  split at hm
  · rename_i members hmember
    cases v with
    | object fields =>
      have hfield := Entries.mem_of_get? hmember
      have hmembers := (Value.hasDistinctKeys_object.1 hv).2 _ hfield
      rcases Entries.mem_insertAll hm with ⟨a, ha, heq⟩ | hnil
      · rw [← heq]
        exact (Value.hasDistinctKeys_object.1 hmembers).2 a ha
      · cases hnil
    | _ => cases hmember
  · cases hm

/-- Whatever snapshot is read, no object in it has a key twice. -/
theorem hasDistinctKeys_of_ofJson {text : String} {s : Snapshot} (h : ofJson text = .ok s) :
    ∀ v ∈ s.values, v.HasDistinctKeys := by
  have hfields : (Reader.Shape.record fields).HasDistinctFields := by
    change fields.Nodup
    decide
  unfold ofJson at h
  cases hread : Reader.read (.record fields) text.toList with
  | error fault =>
    rw [hread] at h
    cases h
  | ok u =>
    rw [hread] at h
    cases h
    have hu := Reader.hasDistinctKeys_of_read hfields hread
    rw [values, List.forall_mem_map, List.forall_mem_append]
    exact ⟨hasDistinctKeys_scopeOf hu, hasDistinctKeys_scopeOf hu⟩

/-- How many containers the value of a variable may nest: two are taken by the snapshot. -/
def room : Nat :=
  Reader.depthLimit - 2

/-- The variables that are read from the text of some variables. -/
def readBackTable? (t : Table Value) : Option (Table Value) :=
  (Value.readBackMembers? room t.entries).map .ofEntries

/-- The snapshot that is read from the text of a snapshot. -/
def readBack? (s : Snapshot) : Option Snapshot :=
  (readBackTable? s.globals).bind fun globals =>
    (readBackTable? s.locals).map fun locals => { globals, locals }

/-- The text of some variables is that of an object. -/
theorem readBack?_object (t : Table Value) :
    (Value.object t.entries).readBack? (room + 1) =
      (readBackTable? t).map fun read => .object read.entries := by
  rw [Value.readBack?, readBackTable?, Option.map_map]
  rfl

theorem readBack?_toValue (s : Snapshot) :
    s.toValue.readBack? Reader.depthLimit = s.readBack?.map toValue := by
  have hdepth : Reader.depthLimit = room + 1 + 1 := rfl
  rw [hdepth, toValue, Value.readBack?]
  simp only [Value.readBackMembers?, readBack?_object, readBack?]
  cases readBackTable? s.globals with
  | none => rfl
  | some globals =>
    cases readBackTable? s.locals with
    | none => rfl
    | some locals => rfl

/-- Read as a plain value, the text of a snapshot gives the snapshot that is read back. -/
theorem valueOfJson_toJson (s : Snapshot) :
    Value.ofJson s.toJson = s.readBack?.elim (.error .malformed) fun read => .ok read.toValue := by
  rw [toJson, Value.ofJson_toPrettyJson, readBack?_toValue]
  cases s.readBack? <;> rfl

theorem prettyAt_toValue (s : Snapshot) :
    s.toValue.prettyAt 0 =
      '\x7b' :: (Value.newLine 1 ++ (quoteText Scope.globals.name ++ ':' :: ' ' ::
        ((Value.object s.globals.entries).prettyAt 1 ++ ',' :: (Value.newLine 1 ++
          (quoteText Scope.locals.name ++ ':' :: ' ' ::
            ((Value.object s.locals.entries).prettyAt 1 ++ (Value.newLine 0 ++ ['\x7d']))))))) := by
  simp [toValue, Value.prettyAt, Value.prettyMembers]

/-- Read as a record, the text of a snapshot gives the snapshot that is read back. -/
theorem ofJson_toJson_eq (s : Snapshot) :
    ofJson s.toJson = s.readBack?.elim (.error .malformed) .ok := by
  have hopen : (Reader.start (.record fields)).step '\x7b' =
      .ok (((Reader.start (.record fields)).push (.record fields [] "")).inMode (.key true)) := rfl
  have hcomma (given : Entries Value) (last : String) :
      (((Reader.start (.record fields)).push (.record fields given last)).inMode .next).step ',' =
        .ok (((Reader.start (.record fields)).push (.record fields given last)).inMode
          (.key false)) := rfl
  have hroom : (Reader.start (.record fields)).room - 1 = room + 1 := rfl
  rw [ofJson, toJson, Value.toPrettyJson, String.toList_ofList, Reader.read, prettyAt_toValue,
    Reader.feed_cons_of_ok hopen, Reader.feed_newLine rfl,
    Reader.feed_recordMember (by decide) (by decide), hroom, readBack?_object]
  cases hglobals : readBackTable? s.globals with
  | none => simp [readBack?, hglobals, Except.map]
  | some globals =>
    rw [Option.map_some, Option.elim_some, Reader.feed_cons_of_ok (hcomma ..),
      Reader.feed_newLine rfl, Reader.feed_recordMember (by decide) rfl, hroom, readBack?_object]
    cases hlocals : readBackTable? s.locals with
    | none => simp [readBack?, hglobals, hlocals, Except.map]
    | some locals =>
      rw [Option.map_some, Option.elim_some, Reader.feed_newLine rfl]
      simp only [readBack?, hglobals, hlocals, Option.bind_some, Option.map_some, Option.elim_some]
      -- the closing brace leaves the snapshot as a value, in the order of its two members
      exact congrArg Except.ok (ofValue_toValue { globals, locals })

theorem readBackTable?_eq_self_iff {t : Table Value} :
    readBackTable? t = some t ↔ ∀ m ∈ t.entries, m.2.readBack? room = some m.2 := by
  rw [← Value.readBackMembers?_eq_self_iff, readBackTable?, Option.map_eq_some_iff]
  constructor
  · rintro ⟨read, hread, htable⟩
    have hnodup : (Entries.keys read).Nodup := Value.keys_of_readBackMembers? hread ▸ t.nodup
    have hentries : read = t.entries := by
      rw [← htable]
      exact (Entries.insertAll_nil_of_nodup hnodup).symm
    rw [hread, hentries]
  · intro hread
    exact ⟨t.entries, hread, t.ofEntries_entries⟩

theorem readBack?_eq_self_iff {s : Snapshot} :
    s.readBack? = some s ↔ ∀ v ∈ s.values, v.readBack? room = some v := by
  have hvalues : (∀ v ∈ s.values, v.readBack? room = some v) ↔
      (∀ m ∈ s.globals.entries, m.2.readBack? room = some m.2) ∧
        ∀ m ∈ s.locals.entries, m.2.readBack? room = some m.2 := by
    rw [values, List.forall_mem_map, List.forall_mem_append]
  rw [hvalues, ← readBackTable?_eq_self_iff, ← readBackTable?_eq_self_iff, readBack?]
  simp [Option.bind_eq_some_iff, Snapshot.ext_iff]

/-- A snapshot with too deep a value is not read back as any snapshot. -/
theorem readBack?_eq_none {s : Snapshot} {v : Value} (hmem : v ∈ s.values)
    (h : room < v.nesting) : s.readBack? = none := by
  have htable {t : Table Value} {m : String × Value} (hm : m ∈ t.entries)
      (hdeep : room < m.2.nesting) : readBackTable? t = none := by
    rw [readBackTable?, Value.readBackMembers?_eq_none hm (Value.readBack?_eq_none hdeep),
      Option.map_none]
  obtain ⟨m, hm, rfl⟩ := List.mem_map.1 hmem
  rcases List.mem_append.1 hm with hglobal | hlocal
  · simp [readBack?, htable hglobal h]
  · simp [readBack?, htable hlocal h]

/-- A snapshot is read back from its text, as a record and as a plain value, if and only if the
values of its variables are nested at most 125 deep, have no key twice in one object, which no value
that is read has, and hold only doubles that are read back from their texts. With a value that is
nested deeper its text is refused, and never read as another snapshot. -/
theorem ofJson_toJson (s : Snapshot) :
    (ofJson s.toJson = .ok s ↔
      ∀ v ∈ s.values, v.nesting ≤ 125 ∧ v.HasDistinctKeys ∧ v.DoublesReadBack) ∧
    (Value.ofJson s.toJson = .ok s.toValue ↔
      ∀ v ∈ s.values, v.nesting ≤ 125 ∧ v.HasDistinctKeys ∧ v.DoublesReadBack) ∧
    ((∃ v ∈ s.values, 125 < v.nesting) → ofJson s.toJson = .error .malformed) := by
  have hiff : s.readBack? = some s ↔
      ∀ v ∈ s.values, v.nesting ≤ 125 ∧ v.HasDistinctKeys ∧ v.DoublesReadBack := by
    rw [readBack?_eq_self_iff]
    exact forall₂_congr fun v _ => Value.readBack?_eq_self_iff
  have hinj {read : Snapshot} : read.toValue = s.toValue ↔ read = s := by
    constructor
    · intro h
      rw [← ofValue_toValue read, h, ofValue_toValue]
    · rintro rfl
      rfl
  -- both readings give what is read back, or nothing
  rw [ofJson_toJson_eq, valueOfJson_toJson, ← hiff]
  refine ⟨?_, ?_, ?_⟩
  · cases s.readBack? <;> simp
  · cases s.readBack? <;> simp [hinj]
  · rintro ⟨v, hmem, hdeep⟩
    rw [readBack?_eq_none hmem hdeep, Option.elim_none]

/-- A variable that nests 125 containers is the last one to be read back. -/
theorem ofJson_toJson_of_nested_arrays :
    let number : Value := .ofDouble ⟨true, 4504762867522569078, by decide⟩
    let v : Value := .object
      [ ("\"\\\n\x01", number), ("n", .number (.integer 18446744073709551615 (by decide))),
        ("", .array []), ("e", .object []) ]
    let s (n : Nat) : Snapshot :=
      { globals := ⟨[("v", v.inArrays n)], by simp [Entries.keys]⟩
        locals := ⟨[("v", .bool true), ("u", .string "\t")], by decide⟩ }
    (ofJson (s 123).toJson = .ok (s 123) ∧ Value.ofJson (s 123).toJson = .ok (s 123).toValue) ∧
      ofJson (s 124).toJson = .error .malformed := by
  intro number v s
  have hnumber : Double.ReadsBack ⟨true, 4504762867522569078, by decide⟩ := by
    rw [Double.readsBack_iff]
    decide +kernel
  have hv : v.HasDistinctKeys ∧ v.DoublesReadBack := by
    rw [Value.hasDistinctKeys_object, Value.doublesReadBack_object]
    simp [number, Value.HasDistinctKeys, Value.DoublesReadBack, Value.parts, Value.partsOfItems,
      Value.partsOfMembers, Value.ofDouble, Entries.keys, hnumber]
  have hvalues : ∀ u ∈ (s 123).values,
      u.nesting ≤ 125 ∧ u.HasDistinctKeys ∧ u.DoublesReadBack := by
    intro u hu
    simp only [values, s, List.cons_append, List.nil_append, List.map_cons, List.map_nil,
      List.mem_cons, List.not_mem_nil, or_false] at hu
    rcases hu with rfl | rfl | rfl
    · rw [Value.nesting_inArrays, Value.hasDistinctKeys_inArrays, Value.doublesReadBack_inArrays]
      exact ⟨by decide, hv⟩
    · exact ⟨by decide, Value.hasDistinctKeys_of_nesting rfl,
        Value.doublesReadBack_of_nesting rfl rfl⟩
    · exact ⟨by decide, Value.hasDistinctKeys_of_nesting rfl,
        Value.doublesReadBack_of_nesting rfl rfl⟩
  refine ⟨⟨(ofJson_toJson (s 123)).1.2 hvalues, (ofJson_toJson (s 123)).2.1.2 hvalues⟩, ?_⟩
  exact (ofJson_toJson (s 124)).2.2 ⟨v.inArrays 124, by simp [values, s], by
    rw [Value.nesting_inArrays]
    decide⟩

end Snapshot

end Stencil
