import Stencil.Proofs.Value.Insides
import Stencil.Proofs.Value.Tokens

/-!
# Distinct keys of values that are read

In no object that is read does a key stand twice: the second member of a key takes the place of the
first. What the reader holds has this property at all times, in the containers that are still open
as in the values that are complete; one step keeps it, and so does the reading of a text.
-/

namespace Stencil

namespace Reader

/-- A place whose fields, if it is that of a record, are distinct. -/
def Shape.HasDistinctFields : Shape → Prop
  | .record fields => fields.Nodup
  | .any | .object | .ignored => True

/-- An open container that holds no key twice, nor does any value in it. -/
def Frame.HasDistinctKeys : Frame → Prop
  | .array items => ∀ item ∈ items, item.HasDistinctKeys
  | .object members _ => (Value.object members).HasDistinctKeys
  | .record fields given _ => fields.Nodup ∧ ∀ m ∈ given, m.2.HasDistinctKeys
  | .sequence fields given => fields.Nodup ∧ ∀ m ∈ given, m.2.HasDistinctKeys
  | .ignoredArray | .ignoredObject => True

/-- The value that a mode holds. -/
def Mode.value? : Mode → Option Value
  | .word _ v | .finished v => some v
  | _ => none

/-- A reader that holds no key twice. -/
structure HasDistinctKeys (r : Reader) : Prop where
  root : r.root.HasDistinctFields
  stack : ∀ frame ∈ r.stack, frame.HasDistinctKeys
  mode : ∀ v, r.mode.value? = some v → v.HasDistinctKeys

variable {r r' : Reader}

theorem HasDistinctKeys.inMode (h : r.HasDistinctKeys) {mode : Mode}
    (hmode : ∀ v, mode.value? = some v → v.HasDistinctKeys) : (r.inMode mode).HasDistinctKeys :=
  ⟨h.root, h.stack, hmode⟩

theorem hasDistinctKeys_recordValue {fields : List String} {given : Entries Value}
    (hfields : fields.Nodup) (hgiven : ∀ m ∈ given, m.2.HasDistinctKeys) :
    (recordValue fields given).HasDistinctKeys := by
  have hget {name : String} {v : Value} (hv : Entries.get? name given = some v) :
      v.HasDistinctKeys :=
    hgiven (name, v) (Entries.mem_of_get? hv)
  have hempty : (Value.object []).HasDistinctKeys := by
    simp [Value.hasDistinctKeys_object, Entries.keys]
  rw [recordValue, Value.hasDistinctKeys_object]
  constructor
  · have hkeys : Entries.keys (fields.map fun field =>
        (field, (Entries.get? field given).getD (.object []))) = fields := by
      rw [Entries.keys, List.map_map]
      exact List.map_id fields
    rwa [hkeys]
  · intro m hm
    obtain ⟨field, -, rfl⟩ := List.mem_map.1 hm
    cases hv : Entries.get? field given with
    | none => exact hempty
    | some v => exact hget hv

/-- Values in their places, and places behind them. -/
theorem HasDistinctKeys.place (h : r.HasDistinctKeys) {v : Value} (hv : v.HasDistinctKeys) :
    (r.place v).HasDistinctKeys := by
  obtain ⟨root, stack, mode⟩ := r
  obtain ⟨hroot, hstack, -⟩ := h
  -- the value goes into the innermost container, and the others stay as they are
  have htop {frame : Frame} {rest : List Frame} (hrest : ∀ f ∈ rest, f.HasDistinctKeys)
      (hframe : frame.HasDistinctKeys) :
      HasDistinctKeys { root, stack := frame :: rest, mode := .next } :=
    ⟨hroot, List.forall_mem_cons.2 ⟨hframe, hrest⟩, by simp [Mode.value?]⟩
  cases stack with
  | nil => exact ⟨hroot, hstack, by simpa [Reader.place, Mode.value?] using hv⟩
  | cons frame rest =>
    obtain ⟨hframe, hrest⟩ := List.forall_mem_cons.1 hstack
    have hinsert {name : String} {members : Entries Value}
        (hmembers : ∀ m ∈ members, m.2.HasDistinctKeys) :
        ∀ m ∈ Entries.insert name v members, m.2.HasDistinctKeys := by
      intro m hm
      rcases Entries.mem_insert hm with hvalue | hold
      · rwa [hvalue]
      · exact hmembers m hold
    cases frame with
    | array items => exact htop hrest (List.forall_mem_cons.2 ⟨hv, hframe⟩)
    | object members name =>
      obtain ⟨hkeys, hmembers⟩ := Value.hasDistinctKeys_object.1 hframe
      exact htop hrest
        (Value.hasDistinctKeys_object.2 ⟨Entries.nodup_keys_insert hkeys, hinsert hmembers⟩)
    | record fields given name =>
      refine htop hrest ⟨hframe.1, ?_⟩
      split
      · exact hinsert hframe.2
      · exact hframe.2
    | sequence fields given =>
      refine htop hrest ⟨hframe.1, ?_⟩
      rw [List.forall_mem_append]
      exact ⟨hframe.2, by simpa using hv⟩
    | ignoredArray => exact htop hrest trivial
    | ignoredObject => exact htop hrest trivial

theorem HasDistinctKeys.takeScalar (h : r.HasDistinctKeys) {v : Value} (hv : v.HasDistinctKeys)
    (htake : r.takeScalar v = .ok r') : r'.HasDistinctKeys := by
  unfold Reader.takeScalar at htake
  split at htake
  · cases htake
    exact h.place hv
  · cases htake
    exact h.place hv
  · cases htake
  · cases htake

theorem HasDistinctKeys.openFrame (h : r.HasDistinctKeys) {frame : Frame} {mode : Mode}
    (hframe : frame.HasDistinctKeys) (hmode : mode.value? = none)
    (hopen : r.openFrame frame mode = .ok r') : r'.HasDistinctKeys := by
  have hinside : HasDistinctKeys { r with stack := frame :: r.stack, mode } :=
    ⟨h.root, List.forall_mem_cons.2 ⟨hframe, h.stack⟩, by simp [hmode]⟩
  unfold Reader.openFrame at hopen
  split at hopen
  · cases hopen
    exact hinside
  · split at hopen
    · cases hopen
      exact hinside
    · cases hopen

/-- Only the root of a text is read as a record. -/
theorem nodup_of_shape_record (h : r.HasDistinctKeys) {fields : List String}
    (hshape : r.shape = .record fields) : fields.Nodup := by
  obtain ⟨root, stack, mode⟩ := r
  cases stack with
  | nil =>
    have hroot := h.root
    change root = .record fields at hshape
    rwa [hshape] at hroot
  | cons frame rest =>
    change frame.shape = .record fields at hshape
    cases frame with
    | record fields given name =>
      rw [Frame.shape] at hshape
      split at hshape
      · cases hshape
      · cases hshape
    | _ => cases hshape

theorem HasDistinctKeys.openArray (h : r.HasDistinctKeys) (hopen : r.openArray = .ok r') :
    r'.HasDistinctKeys := by
  unfold Reader.openArray at hopen
  split at hopen
  · refine h.openFrame ?_ rfl hopen
    simp [Frame.HasDistinctKeys]
  · cases hopen
  · rename_i fields hshape
    refine h.openFrame ?_ rfl hopen
    exact ⟨nodup_of_shape_record h hshape, by simp⟩
  · refine h.openFrame ?_ rfl hopen
    trivial

theorem HasDistinctKeys.openObject (h : r.HasDistinctKeys) (hopen : r.openObject = .ok r') :
    r'.HasDistinctKeys := by
  have hempty : (Frame.object [] "").HasDistinctKeys := by
    simp [Frame.HasDistinctKeys, Value.hasDistinctKeys_object, Entries.keys]
  unfold Reader.openObject at hopen
  split at hopen
  · exact h.openFrame hempty rfl hopen
  · exact h.openFrame hempty rfl hopen
  · rename_i fields hshape
    refine h.openFrame ?_ rfl hopen
    exact ⟨nodup_of_shape_record h hshape, by simp⟩
  · refine h.openFrame ?_ rfl hopen
    trivial

/-- What an open container makes of itself when it closes. -/
theorem HasDistinctKeys.close {frame : Frame} {rest : List Frame} (h : r.HasDistinctKeys)
    (hstack : r.stack = frame :: rest) :
    frame.HasDistinctKeys ∧ HasDistinctKeys { r with stack := rest } := by
  have hall := h.stack
  rw [hstack, List.forall_mem_cons] at hall
  exact ⟨hall.1, h.root, hall.2, h.mode⟩

theorem HasDistinctKeys.closeArray (h : r.HasDistinctKeys) (hclose : r.closeArray = .ok r') :
    r'.HasDistinctKeys := by
  unfold Reader.closeArray at hclose
  split at hclose
  · rename_i items rest hstack
    obtain ⟨hitems, houter⟩ := h.close hstack
    cases hclose
    exact houter.place (Value.hasDistinctKeys_array.2 fun item hitem =>
      hitems item (List.mem_reverse.1 hitem))
  · rename_i fields given rest hstack
    obtain ⟨⟨hfields, hgiven⟩, houter⟩ := h.close hstack
    cases hclose
    exact houter.place (hasDistinctKeys_recordValue hfields hgiven)
  · rename_i rest hstack
    cases hclose
    exact (h.close hstack).2.place (Value.hasDistinctKeys_of_nesting rfl)
  · cases hclose

theorem HasDistinctKeys.closeObject (h : r.HasDistinctKeys) (hclose : r.closeObject = .ok r') :
    r'.HasDistinctKeys := by
  unfold Reader.closeObject at hclose
  split at hclose
  · rename_i members name rest hstack
    obtain ⟨hmembers, houter⟩ := h.close hstack
    cases hclose
    exact houter.place hmembers
  · rename_i fields given name rest hstack
    obtain ⟨⟨hfields, hgiven⟩, houter⟩ := h.close hstack
    cases hclose
    exact houter.place (hasDistinctKeys_recordValue hfields hgiven)
  · rename_i rest hstack
    cases hclose
    exact (h.close hstack).2.place (Value.hasDistinctKeys_of_nesting rfl)
  · cases hclose

theorem HasDistinctKeys.takeComma (h : r.HasDistinctKeys) (htake : r.takeComma = .ok r') :
    r'.HasDistinctKeys := by
  have hvalue : (r.inMode (.value false)).HasDistinctKeys := h.inMode (by simp [Mode.value?])
  have hkey : (r.inMode (.key false)).HasDistinctKeys := h.inMode (by simp [Mode.value?])
  unfold Reader.takeComma at htake
  split at htake
  · cases htake
    exact hvalue
  · cases htake
    exact hvalue
  · split at htake
    · cases htake
      exact hvalue
    · cases htake
  · cases htake
    exact hkey
  · cases htake
    exact hkey
  · cases htake
    exact hkey
  · cases htake

theorem HasDistinctKeys.takeName (h : r.HasDistinctKeys) {name : String}
    (htake : r.takeName name = .ok r') : r'.HasDistinctKeys := by
  have hcolon {frame : Frame} {rest : List Frame} (hframe : frame.HasDistinctKeys)
      (houter : HasDistinctKeys { r with stack := rest }) :
      HasDistinctKeys { r with stack := frame :: rest, mode := .colon } :=
    ⟨h.root, List.forall_mem_cons.2 ⟨hframe, houter.stack⟩, by simp [Mode.value?]⟩
  unfold Reader.takeName at htake
  split at htake
  · rename_i members last rest hstack
    obtain ⟨hmembers, houter⟩ := h.close hstack
    cases htake
    exact hcolon hmembers houter
  · rename_i fields given last rest hstack
    obtain ⟨hgiven, houter⟩ := h.close hstack
    split at htake
    · cases htake
    · cases htake
      exact hcolon hgiven houter
  · cases htake
    exact h.inMode (by simp [Mode.value?])

theorem HasDistinctKeys.takeNumber (h : r.HasDistinctKeys) {text : List Char}
    (htake : r.takeNumber text = .ok r') : r'.HasDistinctKeys := by
  unfold Reader.takeNumber at htake
  split at htake
  · cases htake
    exact h.place (Value.hasDistinctKeys_of_nesting rfl)
  · split at htake
    · exact h.takeScalar (Value.hasDistinctKeys_of_nesting rfl) htake
    · cases htake

theorem HasDistinctKeys.valueStep (h : r.HasDistinctKeys) {mayClose : Bool} {c : Char}
    (hstep : r.valueStep mayClose c = .ok r') : r'.HasDistinctKeys := by
  have hmode {mode : Mode} (hnone : mode.value? = none) : (r.inMode mode).HasDistinctKeys :=
    h.inMode (by simp [hnone])
  have hword {word : List Char} {v : Value} (hv : v.HasDistinctKeys) :
      (r.inMode (.word word v)).HasDistinctKeys :=
    h.inMode (by simpa [Mode.value?] using hv)
  unfold Reader.valueStep at hstep
  split at hstep
  · cases hstep
    exact h
  split at hstep
  · exact h.closeArray hstep
  split at hstep
  · exact h.openArray hstep
  split at hstep
  · exact h.openObject hstep
  split at hstep
  · cases hstep
    exact hmode rfl
  split at hstep
  · cases hstep
    exact hword (Value.hasDistinctKeys_of_nesting rfl)
  split at hstep
  · cases hstep
    exact hword (Value.hasDistinctKeys_of_nesting rfl)
  split at hstep
  · cases hstep
    exact hword (Value.hasDistinctKeys_of_nesting rfl)
  split at hstep
  · cases hstep
    exact hmode rfl
  split at hstep
  · cases hstep
    exact hmode rfl
  · cases hstep

theorem HasDistinctKeys.stepOther (h : r.HasDistinctKeys) {c : Char}
    (hstep : r.stepOther c = .ok r') : r'.HasDistinctKeys := by
  have hmode {mode : Mode} (hnone : mode.value? = none) : (r.inMode mode).HasDistinctKeys :=
    h.inMode (by simp [hnone])
  unfold Reader.stepOther at hstep
  split at hstep
  · exact h.valueStep hstep
  · -- in front of a key
    split at hstep
    · cases hstep
      exact h
    split at hstep
    · cases hstep
      exact hmode rfl
    split at hstep
    · exact h.closeObject hstep
    · cases hstep
  · -- in front of a colon
    split at hstep
    · cases hstep
      exact h
    split at hstep
    · cases hstep
      exact hmode rfl
    · cases hstep
  · -- behind a value
    split at hstep
    · cases hstep
      exact h
    split at hstep
    · exact h.takeComma hstep
    split at hstep
    · exact h.closeArray hstep
    split at hstep
    · exact h.closeObject hstep
    · cases hstep
  · -- inside a word
    rename_i word v hword
    have hv : v.HasDistinctKeys := h.mode v (by rw [hword]; rfl)
    split at hstep
    · cases hstep
    split at hstep
    · cases hstep
    split at hstep
    · exact h.takeScalar hv hstep
    · cases hstep
      exact h.inMode (by simpa [Mode.value?] using hv)
  · cases hstep
  · -- inside a string
    split at hstep
    · split at hstep
      · exact h.takeName hstep
      · exact h.takeScalar (Value.hasDistinctKeys_of_nesting rfl) hstep
    · split at hstep
      · cases hstep
        exact hmode rfl
      · cases hstep
  · -- behind the whole value
    split at hstep
    · cases hstep
      exact h
    · cases hstep

/-- No step brings a key into an object twice. -/
theorem HasDistinctKeys.step (h : r.HasDistinctKeys) {c : Char} (hstep : r.step c = .ok r') :
    r'.HasDistinctKeys := by
  unfold Reader.step at hstep
  split at hstep
  · split at hstep
    · cases hstep
      exact h.inMode (by simp [Mode.value?])
    split at hstep
    · split at hstep
      · rename_i htake
        exact (h.takeNumber htake).stepOther hstep
      · cases hstep
    · cases hstep
  · exact h.stepOther hstep

theorem HasDistinctKeys.feed (h : r.HasDistinctKeys) {cs : List Char} (hfeed : r.feed cs = .ok r') :
    r'.HasDistinctKeys := by
  induction cs generalizing r with
  | nil =>
    cases hfeed
    exact h
  | cons c rest ih =>
    rw [Reader.feed] at hfeed
    split at hfeed
    · rename_i hstep
      exact ih (h.step hstep) hfeed
    · cases hfeed

theorem HasDistinctKeys.finish (h : r.HasDistinctKeys) {v : Value} (hfinish : r.finish = .ok v) :
    v.HasDistinctKeys := by
  unfold Reader.finish at hfinish
  split at hfinish
  · rename_i hmode
    cases hfinish
    exact h.mode v (by rw [hmode]; rfl)
  · split at hfinish
    · split at hfinish
      · rename_i htake
        cases hfinish
        exact (h.takeNumber htake).mode v rfl
      · cases hfinish
      · cases hfinish
    · split at hfinish
      · cases hfinish
      · cases hfinish
  · cases hfinish

/-- A text is never read as a value with a key that stands twice in one object. -/
theorem hasDistinctKeys_of_read {root : Shape} (hroot : root.HasDistinctFields) {text : List Char}
    {v : Value} (h : read root text = .ok v) : v.HasDistinctKeys := by
  have hstart : (start root).HasDistinctKeys :=
    ⟨hroot, by simp [start], by simp [start, Mode.value?]⟩
  unfold read at h
  split at h
  · rename_i hfeed
    exact (hstart.feed hfeed).finish h
  · cases h

end Reader

theorem Value.hasDistinctKeys_of_ofJson {text : String} {v : Value} (h : ofJson text = .ok v) :
    v.HasDistinctKeys := by
  have hroot : Reader.Shape.any.HasDistinctFields := trivial
  exact Reader.hasDistinctKeys_of_read hroot h

end Stencil
