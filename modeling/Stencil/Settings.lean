import Stencil.Value.Basic

/-!
# Settings

Settings limit the nesting of templates, choose the format of dates, switch escapes and give the
characters of random texts. They are read from the section `template-resolver` of a document:
members that are absent take their defaults, and a section with an ill-typed member counts as
absent.
-/

namespace Stencil

/-- How instants are written. -/
inductive DateFormat where
  | iso8601
  | rfc2822
  | timestamp
deriving DecidableEq, Repr

namespace DateFormat

/-- The name of a format. -/
def name : DateFormat → String
  | .iso8601 => "iso8601"
  | .rfc2822 => "rfc2822"
  | .timestamp => "timestamp"

/-- The format with the given name. -/
def ofName? (name : String) : Option DateFormat :=
  [.iso8601, .rfc2822, .timestamp].find? fun format => format.name = name

/-- A format is written as its name, or as an object whose only member has that name and is null. -/
def ofValue? : Value → Option DateFormat
  | .string name => ofName? name
  | .object [(name, .null)] => ofName? name
  | _ => none

end DateFormat

/-- What can be set. The nesting limit is a 64-bit number. -/
structure Settings where
  maxDepth : Nat := 64
  dateFormat : DateFormat := .iso8601
  allowEscapes : Bool := true
  charset : String := "ABCDEFGHIJKLMNOPQRSTUVWXYZabcdefghijklmnopqrstuvwxyz0123456789"
  isWord_maxDepth : IsWord maxDepth := by decide

/-- Why settings cannot be used. -/
inductive SettingsFault where
  | zeroDepth
  | emptyCharset
deriving DecidableEq, Repr

namespace SettingsFault

/-- The wording of what is wrong. -/
def problem : SettingsFault → String
  | .zeroDepth => "maxDepth must be greater than 0"
  | .emptyCharset => "randomStringCharset must not be empty"

/-- The wording of the failure. -/
def message (fault : SettingsFault) : String :=
  "Invalid configuration: " ++ fault.problem

end SettingsFault

namespace Settings

/-- What is wrong with settings: the first fault in the order of the members. -/
def fault? (settings : Settings) : Option SettingsFault :=
  if settings.maxDepth = 0 then some .zeroDepth
  else if settings.charset = "" then some .emptyCharset
  else none

/-- Settings that can be used. -/
def validate (settings : Settings) : Except SettingsFault Settings :=
  match settings.fault? with
  | some fault => .error fault
  | none => .ok settings

/-- The members of a settings section, in the order in which they are written. -/
inductive Member where
  | maxDepth
  | dateFormat
  | allowEscapes
  | charset
deriving DecidableEq, Repr

/-- The members in order. -/
def members : List Member :=
  [.maxDepth, .dateFormat, .allowEscapes, .charset]

/-- The name of a member. -/
def Member.name : Member → String
  | .maxDepth => "maxDepth"
  | .dateFormat => "dateFormat"
  | .allowEscapes => "allowEscapes"
  | .charset => "randomStringCharset"

/-- Sets one member, unless the value is of the wrong type. -/
def assign? (member : Member) (v : Value) (settings : Settings) : Option Settings :=
  match member, v with
  | .maxDepth, .number (.integer n h) =>
    if hn : 0 ≤ n then some { settings with maxDepth := n.toNat, isWord_maxDepth := by omega }
    else none
  | .dateFormat, v =>
    (DateFormat.ofValue? v).map fun format => { settings with dateFormat := format }
  | .allowEscapes, .bool b => some { settings with allowEscapes := b }
  | .charset, .string text => some { settings with charset := text }
  | _, _ => none

/-- Sets the members of an object; members of other names are passed over. -/
def assignMembers? : List (String × Value) → Settings → Option Settings
  | [], settings => some settings
  | (name, v) :: rest, settings =>
    match members.find? fun member => member.name = name with
    | some member => (assign? member v settings).bind (assignMembers? rest)
    | none => assignMembers? rest settings

/-- Sets the first members from the items of an array, which are not more than there are members. -/
def assignItems? : List Member → List Value → Settings → Option Settings
  | _, [], settings => some settings
  | [], _ :: _, _ => none
  | member :: rest, v :: items, settings =>
    (assign? member v settings).bind (assignItems? rest items)

/-- The settings that a section describes, if it is well typed. A section is an object, or an array
of its members in order. -/
def ofValue? : Value → Option Settings
  | .object entries => assignMembers? entries {}
  | .array items => assignItems? members items {}
  | _ => none

/-- The section that describes settings. -/
def toValue (settings : Settings) : Value :=
  .object
    [ (Member.maxDepth.name,
        .number (.integer settings.maxDepth (by have := settings.isWord_maxDepth; omega))),
      (Member.dateFormat.name, .string settings.dateFormat.name),
      (Member.allowEscapes.name, .bool settings.allowEscapes),
      (Member.charset.name, .string settings.charset) ]

/-- The member of a document that holds the section. -/
def sectionName : String := "template-resolver"

/-- The settings of a document. A section that is absent or ill typed leaves the defaults; settings
that are well typed and cannot be used are a fault. -/
def load (document : Option Value) : Except SettingsFault Settings :=
  validate (((document.bind (Value.member? sectionName)).bind ofValue?).getD {})

end Settings

end Stencil
