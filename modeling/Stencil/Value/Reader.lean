import Stencil.Value.Basic

/-!
# Reading JSON

The reader is a pushdown machine that takes the text one character at a time: `Reader.step` moves it
and `Reader.finish` says what the end of the text means. Its stack holds the containers that are
still open, at most 127 of them. What is allowed at a place is the *shape* of that place: any value,
an object, a record with known members, or a value that is passed over. The first character that
cannot be right decides the fault.
-/

namespace Stencil

/-- Why a JSON text is refused: it is not JSON or holds something out of range, it ends too early,
or it is JSON of the wrong shape. -/
inductive JsonFault where
  | malformed
  | truncated
  | mismatched
deriving DecidableEq, Repr

namespace Reader

/-- What may stand at a place. A record has the given members, each of them an object; other members
are passed over, and absent ones are empty. It may also be written as the array of its members. -/
inductive Shape where
  | any
  | object
  | record (fields : List String)
  | ignored

/-- A container that is still open, with what it holds so far. The items of an array are latest
first. An object and a record keep the name of the member that is being read. -/
inductive Frame where
  | array (items : List Value)
  | object (members : Entries Value) (name : String)
  | record (fields : List String) (given : Entries Value) (name : String)
  | sequence (fields : List String) (given : Entries Value)
  | ignoredArray
  | ignoredObject

/-- The places inside a number. -/
inductive Phase where
  | sign
  | zero
  | whole
  | point
  | fraction
  | mark
  | markSign
  | power
deriving DecidableEq

/-- The places inside a string: among its characters, behind a backslash, among the four digits of a
code unit, and between the two code units of a character above U+FFFF, whose first is kept in
`high`. The digits are counted in bytes of the text. -/
inductive Escape where
  | plain
  | backslash
  | digits (seen code : Nat) (allHex : Bool) (high : Option Nat)
  | lowBackslash (high : Nat)
  | lowMark (high : Nat)

/-- What the reader expects next. Texts of tokens are latest character first. -/
inductive Mode where
  | value (mayClose : Bool)
  | key (mayClose : Bool)
  | colon
  | next
  | word (rest : List Char) (value : Value)
  | number (text : List Char) (phase : Phase)
  | string (isKey : Bool) (text : List Char) (escape : Escape)
  | finished (value : Value)

end Reader

/-- A reader of JSON text, stopped between two characters. -/
structure Reader where
  root : Reader.Shape
  stack : List Reader.Frame
  mode : Reader.Mode

namespace Reader

/-- The reader before the first character. -/
def start (root : Shape) : Reader :=
  { root, stack := [], mode := .value false }

/-- The blanks of JSON. -/
def isGap (c : Char) : Bool :=
  c == ' ' || c == '\t' || c == '\n' || c == '\r'

/-- The value of a hexadecimal digit. -/
def hexValue? (c : Char) : Option Nat :=
  if '0' ≤ c ∧ c ≤ '9' then some (c.toNat - '0'.toNat)
  else if 'a' ≤ c ∧ c ≤ 'f' then some (c.toNat - 'a'.toNat + 10)
  else if 'A' ≤ c ∧ c ≤ 'F' then some (c.toNat - 'A'.toNat + 10)
  else none

/-- How many containers may be open at once. -/
def depthLimit : Nat := 127

/-- What may stand inside a container at its present place. -/
def Frame.shape : Frame → Shape
  | .array _ | .object _ _ => .any
  | .sequence _ _ => .object
  | .record fields _ name => if name ∈ fields then .object else .ignored
  | .ignoredArray | .ignoredObject => .ignored

/-- What may stand at the present place. -/
def shape (r : Reader) : Shape :=
  match r.stack with
  | [] => r.root
  | frame :: _ => frame.shape

/-- The record with the given members, in the order of its fields. -/
def recordValue (fields : List String) (given : Entries Value) : Value :=
  .object (fields.map fun field => (field, (Entries.get? field given).getD (.object [])))

/-- Puts a value that has been read into the container it stands in. -/
def place (r : Reader) (v : Value) : Reader :=
  match r.stack with
  | [] => { r with mode := .finished v }
  | .array items :: rest => { r with stack := .array (v :: items) :: rest, mode := .next }
  | .object members name :: rest =>
    { r with stack := .object (Entries.insert name v members) name :: rest, mode := .next }
  | .record fields given name :: rest =>
    let given := if name ∈ fields then Entries.insert name v given else given
    { r with stack := .record fields given name :: rest, mode := .next }
  | .sequence fields given :: rest =>
    let name := fields[given.length]?.getD ""
    { r with stack := .sequence fields (given ++ [(name, v)]) :: rest, mode := .next }
  | frame :: rest => { r with stack := frame :: rest, mode := .next }

/-- Takes a value that is no container. -/
def takeScalar (r : Reader) (v : Value) : Except JsonFault Reader :=
  match r.shape with
  | .any | .ignored => .ok (r.place v)
  | .object | .record _ => .error .mismatched

/-- Opens a container. One that is passed over may be nested at any depth. -/
def openFrame (r : Reader) (frame : Frame) (mode : Mode) : Except JsonFault Reader :=
  match r.shape with
  | .ignored => .ok { r with stack := frame :: r.stack, mode }
  | _ =>
    if r.stack.length < depthLimit then .ok { r with stack := frame :: r.stack, mode }
    else .error .malformed

/-- Reads an opening bracket. -/
def openArray (r : Reader) : Except JsonFault Reader :=
  match r.shape with
  | .any => r.openFrame (.array []) (.value true)
  | .object => .error .mismatched
  | .record fields => r.openFrame (.sequence fields []) (.value true)
  | .ignored => r.openFrame .ignoredArray (.value true)

/-- Reads an opening brace. -/
def openObject (r : Reader) : Except JsonFault Reader :=
  match r.shape with
  | .any | .object => r.openFrame (.object [] "") (.key true)
  | .record fields => r.openFrame (.record fields [] "") (.key true)
  | .ignored => r.openFrame .ignoredObject (.key true)

/-- Reads a closing bracket where one may stand. -/
def closeArray (r : Reader) : Except JsonFault Reader :=
  match r.stack with
  | .array items :: rest => .ok ({ r with stack := rest }.place (.array items.reverse))
  | .sequence fields given :: rest =>
    .ok ({ r with stack := rest }.place (recordValue fields given))
  | .ignoredArray :: rest => .ok ({ r with stack := rest }.place .null)
  | _ => .error .malformed

/-- Reads a closing brace where one may stand. -/
def closeObject (r : Reader) : Except JsonFault Reader :=
  match r.stack with
  | .object members _ :: rest => .ok ({ r with stack := rest }.place (.object members))
  | .record fields given _ :: rest =>
    .ok ({ r with stack := rest }.place (recordValue fields given))
  | .ignoredObject :: rest => .ok ({ r with stack := rest }.place .null)
  | _ => .error .malformed

/-- Reads a comma behind a value. A record written as an array has no more items than fields. -/
def takeComma (r : Reader) : Except JsonFault Reader :=
  match r.stack with
  | .array _ :: _ | .ignoredArray :: _ => .ok { r with mode := .value false }
  | .sequence fields given :: _ =>
    if given.length < fields.length then .ok { r with mode := .value false } else .error .malformed
  | .object _ _ :: _ | .record _ _ _ :: _ | .ignoredObject :: _ => .ok { r with mode := .key false }
  | [] => .error .malformed

/-- Takes the name of a member. A record has each of its members once. -/
def takeName (r : Reader) (name : String) : Except JsonFault Reader :=
  match r.stack with
  | .object members _ :: rest =>
    .ok { r with stack := .object members name :: rest, mode := .colon }
  | .record fields given _ :: rest =>
    if Entries.contains name given then .error .mismatched
    else .ok { r with stack := .record fields given name :: rest, mode := .colon }
  | _ => .ok { r with mode := .colon }

/-- The number that a token stands for: an integer if it is one of 64 bits, else a double. The token
`-0` is a double, because no integer has that sign. -/
def numberOf? (token : List Char) : Option Number :=
  (Numeral.ofText? token).bind fun n =>
    match n.toInt? with
    | some k =>
      if h : IsWordSized k ∧ ¬ (k = 0 ∧ n.negative = true) then
        some (.integer k h.1)
      else n.toDoubleQuick?.map .double
    | none => n.toDoubleQuick?.map .double

/-- Takes the text of a number, latest character first. -/
def takeNumber (r : Reader) (text : List Char) : Except JsonFault Reader :=
  match r.shape with
  | .ignored => .ok (r.place .null)
  | _ =>
    match numberOf? text.reverse with
    | some n => r.takeScalar (.number n)
    | none => .error .malformed

/-- Whether a number may end here. -/
def Phase.isComplete : Phase → Bool
  | .zero | .whole | .fraction | .power => true
  | .sign | .point | .mark | .markSign => false

/-- The place behind a further character of a number. -/
def Phase.next? (phase : Phase) (c : Char) : Option Phase :=
  let isMark := c == 'e' || c == 'E'
  match phase with
  | .sign => if c = '0' then some .zero else if Numeral.isDigit c then some .whole else none
  | .zero => if c = '.' then some .point else if isMark then some .mark else none
  | .whole =>
    if Numeral.isDigit c then some .whole
    else if c = '.' then some .point
    else if isMark then some .mark
    else none
  | .point => if Numeral.isDigit c then some .fraction else none
  | .fraction =>
    if Numeral.isDigit c then some .fraction else if isMark then some .mark else none
  | .mark =>
    if Numeral.isDigit c then some .power
    else if c = '+' ∨ c = '-' then some .markSign
    else none
  | .markSign => if Numeral.isDigit c then some .power else none
  | .power => if Numeral.isDigit c then some .power else none

/-- The character that a backslash and a letter stand for. -/
def escapedChar? (c : Char) : Option Char :=
  if c = '"' ∨ c = '\\' ∨ c = '/' then some c
  else if c = 'b' then some (Char.ofNat 0x08)
  else if c = 'f' then some (Char.ofNat 0x0C)
  else if c = 'n' then some '\n'
  else if c = 'r' then some '\r'
  else if c = 't' then some '\t'
  else none

/-- Whether a code unit is the first of two. -/
def isHighUnit (code : Nat) : Bool :=
  0xD800 ≤ code && code < 0xDC00

/-- Whether a code unit is the second of two. -/
def isLowUnit (code : Nat) : Bool :=
  0xDC00 ≤ code && code < 0xE000

/-- Takes a code unit of a string: the characters after it, and the place behind it. A unit of a
pair must not stand alone. -/
def takeUnit (text : List Char) (code : Nat) : Option Nat → Option (List Char × Escape)
  | none =>
    if isLowUnit code then none
    else if isHighUnit code then some (text, .lowBackslash code)
    else some (Char.ofNat code :: text, .plain)
  | some high =>
    if isLowUnit code then
      some (Char.ofNat (0x10000 + (high - 0xD800) * 0x400 + (code - 0xDC00)) :: text, .plain)
    else none

/-- Reads a character inside a string that does not end there. In a string that is passed over a
unit of a pair may stand alone. -/
def stringStep (ignored : Bool) (text : List Char) (escape : Escape) (c : Char) :
    Option (List Char × Escape) :=
  match escape with
  | .plain =>
    if c = '\\' then some (text, .backslash)
    else if c.toNat < 0x20 then none
    else some (c :: text, .plain)
  | .backslash =>
    if c = 'u' then some (text, .digits 0 0 true none)
    else (escapedChar? c).map fun d => (d :: text, .plain)
  | .digits seen code allHex high =>
    let seen := seen + c.utf8Size
    let code := 16 * code + (hexValue? c).getD 0
    let allHex := allHex && (hexValue? c).isSome
    if seen < 4 then some (text, .digits seen code allHex high)
    else if allHex then if ignored then some (text, .plain) else takeUnit text code high
    else none
  | .lowBackslash high => if c = '\\' then some (text, .lowMark high) else none
  | .lowMark high => if c = 'u' then some (text, .digits 0 0 true (some high)) else none

/-- Whether what is being read is passed over. -/
def isIgnored (r : Reader) (isKey : Bool) : Bool :=
  if isKey then
    match r.stack with
    | .ignoredObject :: _ => true
    | _ => false
  else
    match r.shape with
    | .ignored => true
    | _ => false

/-- Reads the first character of a value. -/
def valueStep (r : Reader) (mayClose : Bool) (c : Char) : Except JsonFault Reader :=
  if isGap c then .ok r
  else if c = ']' ∧ mayClose then r.closeArray
  else if c = '[' then r.openArray
  else if c = '{' then r.openObject
  else if c = '"' then .ok { r with mode := .string false [] .plain }
  else if c = 'n' then .ok { r with mode := .word ['u', 'l', 'l'] .null }
  else if c = 't' then .ok { r with mode := .word ['r', 'u', 'e'] (.bool true) }
  else if c = 'f' then .ok { r with mode := .word ['a', 'l', 's', 'e'] (.bool false) }
  else if c = '-' then .ok { r with mode := .number [c] .sign }
  else
    match Phase.next? .sign c with
    | some phase => .ok { r with mode := .number [c] phase }
    | none => .error .malformed

/-- Reads a character outside of numbers. -/
def stepOther (r : Reader) (c : Char) : Except JsonFault Reader :=
  match r.mode with
  | .value mayClose => r.valueStep mayClose c
  | .key mayClose =>
    if isGap c then .ok r
    else if c = '"' then .ok { r with mode := .string true [] .plain }
    else if c = '}' ∧ mayClose then r.closeObject
    else .error .malformed
  | .colon =>
    if isGap c then .ok r
    else if c = ':' then .ok { r with mode := .value false }
    else .error .malformed
  | .next =>
    if isGap c then .ok r
    else if c = ',' then r.takeComma
    else if c = ']' then r.closeArray
    else if c = '}' then r.closeObject
    else .error .malformed
  | .word rest v =>
    match rest with
    | [] => .error .malformed
    | d :: rest =>
      if c ≠ d then .error .malformed
      else if rest = [] then r.takeScalar v
      else .ok { r with mode := .word rest v }
  | .number _ _ => .error .malformed
  | .string isKey text escape =>
    match escape, c with
    | .plain, '"' =>
      let content := String.ofList text.reverse
      if isKey then r.takeName content else r.takeScalar (.string content)
    | _, _ =>
      match stringStep (r.isIgnored isKey) text escape c with
      | some (text, escape) => .ok { r with mode := .string isKey text escape }
      | none => .error .malformed
  | .finished _ => if isGap c then .ok r else .error .malformed

/-- Reads one character. A number ends before the first character that cannot be part of it; a digit
behind a leading zero is neither. -/
def step (r : Reader) (c : Char) : Except JsonFault Reader :=
  match r.mode with
  | .number text phase =>
    match phase.next? c with
    | some phase => .ok { r with mode := .number (c :: text) phase }
    | none =>
      if phase.isComplete ∧ ¬ (phase = .zero ∧ Numeral.isDigit c) then
        match r.takeNumber text with
        | .ok r => r.stepOther c
        | .error fault => .error fault
      else .error .malformed
  | _ => r.stepOther c

/-- What was read when the text ends here. A number may end with the text; one that is passed over
must not end before it is complete. -/
def finish (r : Reader) : Except JsonFault Value :=
  match r.mode with
  | .finished v => .ok v
  | .number text phase =>
    if phase.isComplete then
      match r.takeNumber text with
      | .ok { mode := .finished v, .. } => .ok v
      | .ok _ => .error .truncated
      | .error fault => .error fault
    else if r.isIgnored false then .error .malformed
    else .error .truncated
  | _ => .error .truncated

/-- Reads all characters of a text. -/
def feed (r : Reader) : List Char → Except JsonFault Reader
  | [] => .ok r
  | c :: rest =>
    match r.step c with
    | .ok r => r.feed rest
    | .error fault => .error fault

/-- Reads a text as a value of the given shape. -/
def read (root : Shape) (text : List Char) : Except JsonFault Value :=
  match (start root).feed text with
  | .ok r => r.finish
  | .error fault => .error fault

end Reader

/-- Reads a JSON text. -/
def Value.ofJson (text : String) : Except JsonFault Value :=
  Reader.read .any text.toList

end Stencil
