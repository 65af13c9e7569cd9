import Stencil.Proofs.Value.Insides
import Stencil.Proofs.Value.Tokens

/-!
# What is left of a value that is written and read

Reading the text of a value may change it in three ways: the quick reading of a double can give its
neighbour, of two members with one key only the second counts, and too many nested containers are
refused. `Value.readBack?` is the value that is read, and it is the value that was written exactly
when none of the three happens.
-/

namespace Stencil

/-- A double that is read back from its text. Most are, and some are not, such as `1e-23`. -/
def Double.ReadsBack (x : Double) : Prop :=
  Value.ofJson (String.ofList x.text) = .ok (.ofDouble x)

theorem Double.readsBack_iff {x : Double} :
    x.ReadsBack ↔ Reader.numberOf? x.text = some (.double x) := by
  rw [ReadsBack, Value.ofJson, String.toList_ofList,
    Reader.read_numberText (Reader.isNumberText_doubleText x)]
  cases Reader.numberOf? x.text with
  | none => simp
  | some n => simp [Value.ofDouble]

example : ¬ Double.ReadsBack ⟨false, 4262707295203537489, by decide⟩ := by
  rw [Double.readsBack_iff]
  decide +kernel

/-- An integer of 64 bits is read back from its text. -/
theorem Reader.numberOf?_integerText {k : Int} (h : IsWordSized k) :
    numberOf? (integerText k) = some (.integer k h) := by
  have hnumeral := Numeral.ofText?_of_takeSign (Numeral.takeSign_integerText k)
    Nat.toDigits_ne_nil fun c hc => Numeral.isDigit_of_mem_toDigits hc
  have hint := Numeral.toInt?_integerText k
  rw [hnumeral, Option.bind_some] at hint
  rw [numberOf?, hnumeral, Option.bind_some, hint]
  have hzero : ¬ (k = 0 ∧ decide (k < 0) = true) := by
    simp only [decide_eq_true_eq]
    omega
  exact dif_pos ⟨h, hzero⟩

namespace Value

mutual

/-- The value that is read from the text of a value where so many containers may still be opened. -/
def readBack? (room : Nat) : Value → Option Value
  | .null => some .null
  | .bool b => some (.bool b)
  | .number n => (Reader.numberOf? n.text).map .number
  | .string text => some (.string text)
  | .array items =>
    match room with
    | 0 => none
    | room + 1 => (readBackItems? room items).map .array
  | .object members =>
    match room with
    | 0 => none
    | room + 1 =>
      (readBackMembers? room members).map fun read => .object (Entries.insertAll read [])

/-- The items that are read from the texts of some items. -/
def readBackItems? (room : Nat) : List Value → Option (List Value)
  | [] => some []
  | item :: rest =>
    (readBack? room item).bind fun u => (readBackItems? room rest).map (u :: ·)

/-- The members that are read from the texts of some members. -/
def readBackMembers? (room : Nat) : List (String × Value) → Option (List (String × Value))
  | [] => some []
  | (name, item) :: rest =>
    (readBack? room item).bind fun u => (readBackMembers? room rest).map ((name, u) :: ·)

end

variable {room : Nat}

/-- Items are read one after the other. -/
theorem elim_readBackItems?_cons {β : Type} (item : Value) (rest : List Value) (failed : β)
    (go : List Value → β) :
    (readBackItems? room (item :: rest)).elim failed go =
      (item.readBack? room).elim failed fun u =>
        (readBackItems? room rest).elim failed fun us => go (u :: us) := by
  rw [readBackItems?]
  cases item.readBack? room with
  | none => rfl
  | some u => cases readBackItems? room rest <;> rfl

/-- Members are read one after the other. -/
theorem elim_readBackMembers?_cons {β : Type} (name : String) (item : Value)
    (rest : List (String × Value)) (failed : β) (go : List (String × Value) → β) :
    (readBackMembers? room ((name, item) :: rest)).elim failed go =
      (item.readBack? room).elim failed fun u =>
        (readBackMembers? room rest).elim failed fun us => go ((name, u) :: us) := by
  rw [readBackMembers?]
  cases item.readBack? room with
  | none => rfl
  | some u => cases readBackMembers? room rest <;> rfl

theorem readBackItems?_eq_self_iff {items : List Value} :
    readBackItems? room items = some items ↔ ∀ item ∈ items, item.readBack? room = some item := by
  induction items with
  | nil => simp [readBackItems?]
  | cons item rest ih => simp [readBackItems?, Option.bind_eq_some_iff, ih]

theorem readBackMembers?_eq_self_iff {members : List (String × Value)} :
    readBackMembers? room members = some members ↔
      ∀ m ∈ members, m.2.readBack? room = some m.2 := by
  induction members with
  | nil => simp [readBackMembers?]
  | cons m rest ih =>
    obtain ⟨name, item⟩ := m
    simp [readBackMembers?, Option.bind_eq_some_iff, ih]

/-- Members are read back under their keys. -/
theorem keys_of_readBackMembers? {members read : List (String × Value)}
    (h : readBackMembers? room members = some read) : Entries.keys read = Entries.keys members := by
  induction members generalizing read with
  | nil =>
    cases h
    rfl
  | cons m rest ih =>
    rw [readBackMembers?, Option.bind_eq_some_iff] at h
    obtain ⟨u, -, hrest⟩ := h
    rw [Option.map_eq_some_iff] at hrest
    obtain ⟨read, hread, rfl⟩ := hrest
    exact congrArg (m.1 :: ·) (ih hread)

/-- An object is read back if and only if its keys are distinct and its members are. -/
theorem readBack?_object_eq_self_iff {members : List (String × Value)} :
    (object members).readBack? (room + 1) = some (.object members) ↔
      (Entries.keys members).Nodup ∧ readBackMembers? room members = some members := by
  rw [readBack?, Option.map_eq_some_iff]
  constructor
  · -- writing the members one by one leaves no key twice, so there was none
    rintro ⟨read, hread, hobject⟩
    have hall : Entries.insertAll read [] = members := by simpa using hobject
    have hnodup : (Entries.keys members).Nodup := hall ▸ Entries.nodup_keys_insertAll List.nodup_nil
    have hsame : read = members := by
      rw [← hall, Entries.insertAll_nil_of_nodup (keys_of_readBackMembers? hread ▸ hnodup)]
    exact ⟨hnodup, hsame ▸ hread⟩
  · rintro ⟨hnodup, hread⟩
    exact ⟨members, hread, by rw [Entries.insertAll_nil_of_nodup hnodup]⟩

/-- A value whose doubles are all read back from their texts. -/
def DoublesReadBack (v : Value) : Prop :=
  ∀ u ∈ v.parts, ∀ x, u = ofDouble x → x.ReadsBack

theorem doublesReadBack_of_nesting {v : Value} (h : v.nesting = 0) (hnumber : v.number? = none) :
    v.DoublesReadBack := by
  cases v with
  | array items => cases h
  | object members => cases h
  | number n => cases hnumber
  | _ => simp [DoublesReadBack, parts, ofDouble]

theorem doublesReadBack_number {n : Number} :
    (number n).DoublesReadBack ↔ ∀ x, n = .double x → x.ReadsBack := by
  simp [DoublesReadBack, parts, ofDouble]

theorem doublesReadBack_array {items : List Value} :
    (array items).DoublesReadBack ↔ ∀ item ∈ items, item.DoublesReadBack := by
  rw [DoublesReadBack, forall_parts_array]
  simp [DoublesReadBack, ofDouble]

theorem doublesReadBack_object {members : List (String × Value)} :
    (object members).DoublesReadBack ↔ ∀ m ∈ members, m.2.DoublesReadBack := by
  rw [DoublesReadBack, forall_parts_object]
  simp [DoublesReadBack, ofDouble]

theorem doublesReadBack_inArrays {v : Value} {n : Nat} :
    (v.inArrays n).DoublesReadBack ↔ v.DoublesReadBack := by
  induction n with
  | zero => rfl
  | succ n ih => simp [inArrays, doublesReadBack_array, ih]

/-- A value is read back if and only if there is room for its containers, no object has a key twice,
and its doubles are read back. -/
theorem readBack?_eq_self_iff {v : Value} :
    v.readBack? room = some v ↔ v.nesting ≤ room ∧ v.HasDistinctKeys ∧ v.DoublesReadBack := by
  induction v using Value.induction generalizing room with
  | null =>
    exact iff_of_true rfl
      ⟨Nat.zero_le _, hasDistinctKeys_of_nesting rfl, doublesReadBack_of_nesting rfl rfl⟩
  | bool b =>
    exact iff_of_true rfl
      ⟨Nat.zero_le _, hasDistinctKeys_of_nesting rfl, doublesReadBack_of_nesting rfl rfl⟩
  | string text =>
    exact iff_of_true rfl
      ⟨Nat.zero_le _, hasDistinctKeys_of_nesting rfl, doublesReadBack_of_nesting rfl rfl⟩
  | number n =>
    have hkeys : (number n).HasDistinctKeys := hasDistinctKeys_of_nesting rfl
    cases n with
    | integer k h =>
      simp [readBack?, Number.text, Reader.numberOf?_integerText h, nesting, hkeys,
        doublesReadBack_number]
    | double x =>
      simp [readBack?, Number.text, Double.readsBack_iff, nesting, hkeys, doublesReadBack_number]
  | array items ih =>
    cases room with
    | zero => simp [readBack?, nesting]
    | succ room =>
      have hitems : (array items).readBack? (room + 1) = some (.array items) ↔
          readBackItems? room items = some items := by
        simp [readBack?]
      rw [hitems, readBackItems?_eq_self_iff, nesting_array_le_iff, hasDistinctKeys_array,
        doublesReadBack_array, forall₂_congr fun item hitem => ih item hitem, forall₂_and,
        forall₂_and]
  | object members ih =>
    cases room with
    | zero => simp [readBack?, nesting]
    | succ room =>
      rw [readBack?_object_eq_self_iff, readBackMembers?_eq_self_iff, nesting_object_le_iff,
        hasDistinctKeys_object, doublesReadBack_object, forall₂_congr fun m hm => ih m hm,
        forall₂_and, forall₂_and, and_assoc]
      exact and_left_comm

theorem readBackItems?_eq_none {items : List Value} {item : Value} (hmem : item ∈ items)
    (h : item.readBack? room = none) : readBackItems? room items = none := by
  induction items with
  | nil => cases hmem
  | cons first rest ih =>
    rcases List.mem_cons.1 hmem with rfl | hrest
    · simp [readBackItems?, h]
    · simp [readBackItems?, ih hrest]

theorem readBackMembers?_eq_none {members : List (String × Value)} {m : String × Value}
    (hmem : m ∈ members) (h : m.2.readBack? room = none) :
    readBackMembers? room members = none := by
  induction members with
  | nil => cases hmem
  | cons first rest ih =>
    rcases List.mem_cons.1 hmem with rfl | hrest
    · simp [readBackMembers?, h]
    · simp [readBackMembers?, ih hrest]

/-- A value with more nested containers than there is room for is not read back as any value. -/
theorem readBack?_eq_none {v : Value} (h : room < v.nesting) : v.readBack? room = none := by
  induction v using Value.induction generalizing room with
  | null => cases h
  | bool b => cases h
  | number n => cases h
  | string text => cases h
  | array items ih =>
    cases room with
    | zero => rfl
    | succ room =>
      -- one of the items is nested too deep for the room that the array leaves
      have hdeep := nesting_array_le_iff.not.1 (Nat.not_le.2 h)
      push Not at hdeep
      obtain ⟨item, hmem, hitem⟩ := hdeep
      rw [readBack?, readBackItems?_eq_none hmem (ih item hmem hitem), Option.map_none]
  | object members ih =>
    cases room with
    | zero => rfl
    | succ room =>
      have hdeep := nesting_object_le_iff.not.1 (Nat.not_le.2 h)
      push Not at hdeep
      obtain ⟨m, hmem, hitem⟩ := hdeep
      rw [readBack?, readBackMembers?_eq_none hmem (ih m hmem hitem), Option.map_none]

end Value

end Stencil
