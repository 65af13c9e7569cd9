import Stencil.Proofs.Value.ReadBack

/-!
# Reading written values

The reader meets the text of a value in the middle of a text: inside the containers that are still
open, with more text behind it. What happens there depends on the value alone, on the room that the
open containers leave, and on the text behind only in that it must end a number. This is carried
through a value by induction, and from the parts of a container to the container.
-/

namespace Stencil

namespace Reader

variable {r : Reader}

/-- How many containers may still be opened. -/
def room (r : Reader) : Nat :=
  depthLimit - r.stack.length

/-- The reader inside one more container. -/
def push (r : Reader) (frame : Frame) : Reader :=
  { r with stack := frame :: r.stack }

theorem room_push (frame : Frame) : (r.push frame).room = r.room - 1 := by
  simp only [room, push, List.length_cons]
  omega

theorem place_push_array (read : List Value) (v : Value) :
    (r.push (.array read)).place v = (r.push (.array (v :: read))).inMode .next := rfl

theorem place_push_object (read : Entries Value) (name : String) (v : Value) :
    (r.push (.object read name)).place v =
      (r.push (.object (Entries.insert name v read) name)).inMode .next := rfl

/-- Whether a value may stand at a place of the given shape. -/
def Shape.Admits : Shape → Value → Prop
  | .any, _ => True
  | .object, .object _ => True
  | _, _ => False

/-- Only where every value may stand does one stand that is no object. -/
theorem Shape.Admits.eq_any {shape : Shape} {v : Value} (h : shape.Admits v)
    (hv : ∀ members, v ≠ .object members) : shape = .any := by
  cases shape with
  | any => rfl
  | object =>
    cases v with
    | object members => exact absurd rfl (hv members)
    | _ => cases h
  | record fields => cases h
  | ignored => cases h

/-- A text that may stand behind a value: behind a number it starts with a character that ends the
number. -/
def Follows (v : Value) (after : List Char) : Prop :=
  v.number? = none ∨ ∃ c rest, after = c :: rest ∧ EndsNumber c

/-- The reader makes of the text of a value what `Value.readBack?` says, at every place. -/
def FeedsBack (v : Value) : Prop :=
  ∀ (r : Reader) (level : Nat) (mayClose : Bool) (after : List Char),
    r.shape.Admits v → Follows v after →
      (r.inMode (.value mayClose)).feed (v.prettyAt level ++ after) =
        (v.readBack? r.room).elim (.error .malformed) fun u => (r.place u).feed after

/-! ## Opening and closing -/

theorem openFrame_inMode (h : r.shape ≠ .ignored) (mode : Mode) (frame : Frame) (inside : Mode) :
    (r.inMode mode).openFrame frame inside =
      if r.room = 0 then .error .malformed else .ok ((r.push frame).inMode inside) := by
  have hroom : r.stack.length < depthLimit ↔ r.room ≠ 0 := by
    rw [room]
    omega
  unfold openFrame
  split
  · exact absurd ‹_› h
  · simp only [stack_inMode, hroom, ne_eq, ite_not]
    rfl

theorem step_openArray (h : r.shape = .any) (mayClose : Bool) :
    (r.inMode (.value mayClose)).step '[' =
      if r.room = 0 then .error .malformed
      else .ok ((r.push (.array [])).inMode (.value true)) := by
  have hstep : (r.inMode (.value mayClose)).step '[' = (r.inMode (.value mayClose)).openArray := by
    simp [step, stepOther, valueStep, isGap]
  rw [hstep, openArray, shape_inMode, h]
  exact openFrame_inMode (by simp [h]) ..

theorem step_openObject (h : r.shape = .any ∨ r.shape = .object) (mayClose : Bool) :
    (r.inMode (.value mayClose)).step '\x7b' =
      if r.room = 0 then .error .malformed
      else .ok ((r.push (.object [] "")).inMode (.key true)) := by
  have hstep :
      (r.inMode (.value mayClose)).step '\x7b' = (r.inMode (.value mayClose)).openObject := by
    simp [step, stepOther, valueStep, isGap]
  rw [hstep, openObject, shape_inMode]
  rcases h with h | h
  · rw [h]
    exact openFrame_inMode (by simp [h]) ..
  · rw [h]
    exact openFrame_inMode (by simp [h]) ..

theorem step_closeArray (read : List Value) {mode : Mode} (h : mode = .next ∨ mode = .value true) :
    ((r.push (.array read)).inMode mode).step ']' = .ok (r.place (.array read.reverse)) := by
  rw [← place_inMode mode]
  rcases h with rfl | rfl
  · rfl
  · rfl

theorem step_closeObject (read : Entries Value) (name : String) {mode : Mode}
    (h : mode = .next ∨ mode = .key true) :
    ((r.push (.object read name)).inMode mode).step '\x7d' = .ok (r.place (.object read)) := by
  rw [← place_inMode mode]
  rcases h with rfl | rfl
  · rfl
  · rfl

/-! ## Arrays -/

theorem follows_prettyItems (item : Value) (level : Nat) (items : List Value) (after : List Char) :
    Follows item (Value.prettyItems level items ++ after) := by
  cases items with
  | nil => exact .inr ⟨_, _, rfl, endsNumber_of_not_mem (.inr rfl)⟩
  | cons next rest => exact .inr ⟨_, _, rfl, endsNumber_of_not_mem (.inl rfl)⟩

/-- Further items and the closing bracket complete an array that has been read in part. -/
theorem feed_prettyItems {items : List Value} (hitems : ∀ item ∈ items, FeedsBack item)
    (read : List Value) (level : Nat) (after : List Char) :
    ((r.push (.array read)).inMode .next).feed (Value.prettyItems level items ++ after) =
      (Value.readBackItems? (r.room - 1) items).elim (.error .malformed) fun us =>
        (r.place (.array (read.reverse ++ us))).feed after := by
  -- what has been read is kept latest first, so it grows at its head with each item
  induction items generalizing read with
  | nil =>
    rw [Value.prettyItems, List.append_assoc, feed_newLine rfl, List.singleton_append,
      feed_cons_of_ok (step_closeArray read (.inl rfl))]
    simp [Value.readBackItems?]
  | cons item rest ih =>
    obtain ⟨hitem, hrest⟩ := List.forall_mem_cons.1 hitems
    have hcomma : ((r.push (.array read)).inMode .next).step ',' =
        .ok ((r.push (.array read)).inMode (.value false)) := rfl
    simp only [Value.prettyItems, List.cons_append, List.append_assoc]
    rw [feed_cons_of_ok hcomma, feed_newLine rfl,
      hitem (r.push (.array read)) _ _ _ trivial (follows_prettyItems item level rest after),
      room_push, Value.elim_readBackItems?_cons]
    congr 1
    funext u
    rw [place_push_array, ih hrest, List.reverse_cons]
    simp only [List.append_assoc, List.singleton_append]

/-- Behind the opening bracket an array is read whatever the room in front of it was. -/
theorem exists_arrayBody {items : List Value} (hitems : ∀ item ∈ items, FeedsBack item)
    (r : Reader) (level : Nat) (after : List Char) :
    ∃ body, (Value.array items).prettyAt level = '[' :: body ∧
      ((r.push (.array [])).inMode (.value true)).feed (body ++ after) =
        (Value.readBackItems? (r.room - 1) items).elim (.error .malformed) fun us =>
          (r.place (.array us)).feed after := by
  cases items with
  | nil => exact ⟨[']'], rfl, feed_cons_of_ok (step_closeArray [] (.inr rfl)) after⟩
  | cons item rest =>
    obtain ⟨hitem, hrest⟩ := List.forall_mem_cons.1 hitems
    refine ⟨Value.newLine (level + 1) ++ item.prettyAt (level + 1) ++ Value.prettyItems level rest,
      by simp [Value.prettyAt], ?_⟩
    rw [List.append_assoc, List.append_assoc, feed_newLine rfl,
      hitem (r.push (.array [])) _ _ _ trivial (follows_prettyItems item level rest after),
      room_push, Value.elim_readBackItems?_cons]
    congr 1
    funext u
    exact feed_prettyItems hrest [u] level after

theorem feedsBack_array {items : List Value} (hitems : ∀ item ∈ items, FeedsBack item) :
    FeedsBack (.array items) := by
  intro r level mayClose after hshape _
  have hany : r.shape = .any := Shape.Admits.eq_any hshape (by simp)
  obtain ⟨body, htext, hbody⟩ := exists_arrayBody hitems r level after
  have hopen := step_openArray hany mayClose
  rw [htext, List.cons_append]
  cases hroom : r.room with
  | zero =>
    -- the opening bracket alone decides the fault, whatever stands behind it
    rw [if_pos hroom] at hopen
    exact feed_cons_of_error hopen _
  | succ room =>
    rw [if_neg (by omega)] at hopen
    rw [feed_cons_of_ok hopen, hbody, hroom, Nat.add_sub_cancel, Value.readBack?]
    cases Value.readBackItems? room items <;> rfl

/-! ## Objects -/

/-- A member is read in every container that takes its name and admits its value. -/
theorem feed_member {frame named : Frame} {name : String} {item : Value}
    (hignored : (r.push frame).isIgnored true = false)
    (hname : (r.push frame).takeName name = .ok ((r.push named).inMode .colon))
    (hshape : named.shape.Admits item) (hitem : FeedsBack item) (mayClose : Bool) (level : Nat)
    {after : List Char} (hafter : Follows item after) :
    ((r.push frame).inMode (.key mayClose)).feed
        (quoteText name ++ ':' :: ' ' :: (item.prettyAt level ++ after)) =
      (item.readBack? (r.room - 1)).elim (.error .malformed) fun u =>
        ((r.push named).place u).feed after := by
  have hcolon : ((r.push named).inMode .colon).step ':' =
      .ok ((r.push named).inMode (.value false)) := rfl
  have hblank : ((r.push named).inMode (.value false)).step ' ' =
      .ok ((r.push named).inMode (.value false)) := rfl
  rw [feed_stringName hignored hname, feed_cons_of_ok hcolon, feed_cons_of_ok hblank,
    hitem (r.push named) _ _ _ hshape hafter, room_push]

theorem takeName_push_object (read : Entries Value) (last name : String) :
    (r.push (.object read last)).takeName name =
      .ok ((r.push (.object read name)).inMode .colon) := rfl

theorem follows_prettyMembers (item : Value) (level : Nat) (members : List (String × Value))
    (after : List Char) : Follows item (Value.prettyMembers level members ++ after) := by
  cases members with
  | nil => exact .inr ⟨_, _, rfl, endsNumber_of_not_mem (.inr rfl)⟩
  | cons next rest => exact .inr ⟨_, _, rfl, endsNumber_of_not_mem (.inl rfl)⟩

/-- Further members and the closing brace complete an object that has been read in part. -/
theorem feed_prettyMembers {members : List (String × Value)}
    (hmembers : ∀ m ∈ members, FeedsBack m.2) (read : Entries Value) (last : String) (level : Nat)
    (after : List Char) :
    ((r.push (.object read last)).inMode .next).feed (Value.prettyMembers level members ++ after) =
      (Value.readBackMembers? (r.room - 1) members).elim (.error .malformed) fun us =>
        (r.place (.object (Entries.insertAll us read))).feed after := by
  induction members generalizing read last with
  | nil =>
    rw [Value.prettyMembers, List.append_assoc, feed_newLine rfl, List.singleton_append,
      feed_cons_of_ok (step_closeObject read last (.inl rfl))]
    simp [Value.readBackMembers?, Entries.insertAll]
  | cons m rest ih =>
    obtain ⟨name, item⟩ := m
    obtain ⟨hitem, hrest⟩ := List.forall_mem_cons.1 hmembers
    have hcomma : ((r.push (.object read last)).inMode .next).step ',' =
        .ok ((r.push (.object read last)).inMode (.key false)) := rfl
    simp only [Value.prettyMembers, List.cons_append, List.append_assoc]
    rw [feed_cons_of_ok hcomma, feed_newLine rfl,
      feed_member rfl (takeName_push_object ..) trivial hitem _ _
        (follows_prettyMembers item level rest after), Value.elim_readBackMembers?_cons]
    congr 1
    funext u
    rw [place_push_object, ih hrest]
    rfl

/-- Behind the opening brace an object is read whatever the room in front of it was. -/
theorem exists_objectBody {members : List (String × Value)}
    (hmembers : ∀ m ∈ members, FeedsBack m.2) (r : Reader) (level : Nat) (after : List Char) :
    ∃ body, (Value.object members).prettyAt level = '\x7b' :: body ∧
      ((r.push (.object [] "")).inMode (.key true)).feed (body ++ after) =
        (Value.readBackMembers? (r.room - 1) members).elim (.error .malformed) fun us =>
          (r.place (.object (Entries.insertAll us []))).feed after := by
  cases members with
  | nil => exact ⟨['\x7d'], rfl, feed_cons_of_ok (step_closeObject [] "" (.inr rfl)) after⟩
  | cons m rest =>
    obtain ⟨name, item⟩ := m
    obtain ⟨hitem, hrest⟩ := List.forall_mem_cons.1 hmembers
    refine ⟨Value.newLine (level + 1) ++ quoteText name ++ ':' :: ' ' ::
      item.prettyAt (level + 1) ++ Value.prettyMembers level rest, by simp [Value.prettyAt], ?_⟩
    simp only [List.cons_append, List.append_assoc]
    rw [feed_newLine rfl, feed_member rfl (takeName_push_object ..) trivial hitem _ _
      (follows_prettyMembers item level rest after), Value.elim_readBackMembers?_cons]
    congr 1
    funext u
    exact feed_prettyMembers hrest [(name, u)] name level after

theorem feedsBack_object {members : List (String × Value)}
    (hmembers : ∀ m ∈ members, FeedsBack m.2) : FeedsBack (.object members) := by
  intro r level mayClose after hshape _
  have hopenable : r.shape = .any ∨ r.shape = .object := by
    cases hr : r.shape <;> simp_all [Shape.Admits]
  obtain ⟨body, htext, hbody⟩ := exists_objectBody hmembers r level after
  have hopen := step_openObject hopenable mayClose
  rw [htext, List.cons_append]
  cases hroom : r.room with
  | zero =>
    rw [if_pos hroom] at hopen
    exact feed_cons_of_error hopen _
  | succ room =>
    rw [if_neg (by omega)] at hopen
    rw [feed_cons_of_ok hopen, hbody, hroom, Nat.add_sub_cancel, Value.readBack?]
    cases Value.readBackMembers? room members <;> rfl

/-! ## Values -/

theorem feedsBack_number (n : Number) : FeedsBack (.number n) := by
  intro r level mayClose after hshape hafter
  have hany : r.shape = .any := Shape.Admits.eq_any hshape (by simp)
  rcases hafter with hnone | ⟨c, rest, rfl, hc⟩
  · cases hnone
  · rw [Value.prettyAt, feed_number hany mayClose n hc, Value.readBack?]
    cases numberOf? n.text <;> rfl

/-- Every written value is read as `Value.readBack?` says. -/
theorem feedsBack (v : Value) : FeedsBack v := by
  induction v using Value.induction with
  | null =>
    intro r level mayClose after hshape _
    exact feed_null (Shape.Admits.eq_any hshape (by simp)) mayClose after
  | bool b =>
    intro r level mayClose after hshape _
    exact feed_boolText (Shape.Admits.eq_any hshape (by simp)) mayClose b after
  | number n => exact feedsBack_number n
  | string text =>
    intro r level mayClose after hshape _
    exact feed_stringValue (Shape.Admits.eq_any hshape (by simp)) mayClose text after
  | array items ih => exact feedsBack_array ih
  | object members ih => exact feedsBack_object ih

end Reader

/-- Reading the text of a value gives what `Value.readBack?` says. -/
theorem Value.ofJson_toPrettyJson (v : Value) :
    ofJson v.toPrettyJson = (v.readBack? Reader.depthLimit).elim (.error .malformed) .ok := by
  rw [ofJson, toPrettyJson, String.toList_ofList]
  by_cases hnumber : v.number? = none
  · have hfeed := Reader.feedsBack v (Reader.start .any) 0 false [] trivial (.inl hnumber)
    have hstart : (Reader.start .any).inMode (.value false) = Reader.start .any := rfl
    have hroom : (Reader.start .any).room = Reader.depthLimit := rfl
    rw [List.append_nil, hstart, hroom] at hfeed
    rw [Reader.read, hfeed]
    cases v.readBack? Reader.depthLimit with
    | none => rfl
    | some u => rfl
  · obtain ⟨n, hn⟩ := Option.ne_none_iff_exists'.1 hnumber
    have hv : v = .number n := by
      cases v <;> simp_all [number?]
    rw [hv, prettyAt, Reader.read_numberText (Reader.isNumberText_text n), readBack?]
    cases Reader.numberOf? n.text with
    | none => rfl
    | some m => rfl

/-- A value is read back from its text if and only if its containers are nested at most 127 deep, no
object has a key twice, and its doubles are read back from their texts. -/
theorem Value.ofJson_toPrettyJson_eq_self_iff (v : Value) :
    ofJson v.toPrettyJson = .ok v ↔
      v.nesting ≤ Reader.depthLimit ∧ v.HasDistinctKeys ∧ v.DoublesReadBack := by
  rw [ofJson_toPrettyJson, ← readBack?_eq_self_iff]
  cases v.readBack? Reader.depthLimit with
  | none => simp
  | some u => simp

end Stencil
