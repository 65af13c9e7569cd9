import Stencil.Catalog.Basic
import Stencil.Randomness.Functions

/-!
# English fake data

Names, addresses, companies, texts and data types, drawn from word lists.
-/

namespace Stencil.English

/-- A random result that uses up entropy. -/
abbrev Draw (α : Type) : Type :=
  StateM Entropy α

/-- One of some words. -/
def oneOf (first : String) (rest : List String) : Draw String :=
  Entropy.choose first rest

/-- A number below `n`. -/
def numberBelow (n : Nat) (h : 0 < n) : Draw Nat :=
  fun e =>
    let (k, e) := e.below n h
    (k, e)

/-- Some random digits. -/
def digits (count : Nat) : Draw String :=
  Entropy.text "0123456789" (by decide) count

/-- The results of repeating a draw. -/
def repeated {α : Type} (draw : Draw α) : Nat → Draw (List α)
  | 0 => pure []
  | count + 1 => do
    let first ← draw
    let rest ← repeated draw count
    return first :: rest

/-- A given name. -/
def firstName : Draw String :=
  oneOf "Alice"
    ["Benjamin", "Charlotte", "Daniel", "Eleanor", "Frederick", "Grace", "Henry", "Isabel", "James",
      "Katherine", "Liam", "Margaret", "Nathan", "Olivia", "Patrick", "Rachel", "Samuel", "Theresa",
      "Victor", "Wendy", "Zoe"]

/-- A family name. -/
def lastName : Draw String :=
  oneOf "Adams"
    ["Baker", "Carter", "Dixon", "Evans", "Foster", "Green", "Harris", "Irving", "Johnson",
      "Keller", "Lewis", "Mitchell", "Norris", "Owens", "Parker", "Reed", "Stewart", "Turner",
      "Walker", "Young"]

/-- A given name and a family name. -/
def fullName : Draw String := do
  let first ← firstName
  let last ← lastName
  return first ++ " " ++ last

/-- A name for an account. -/
def userName : Draw String := do
  let first ← firstName
  let number ← digits 3
  return String.ofList (first.toList.map Char.toLower) ++ number

/-- The last part of a host name. -/
def domainSuffix : Draw String :=
  oneOf "com" ["net", "org", "info", "biz"]

/-- An address at one of the domains that are reserved for examples. -/
def email : Draw String := do
  let user ← userName
  let suffix ← oneOf "com" ["net", "org"]
  return user ++ "@example." ++ suffix

/-- A telephone number. -/
def phoneNumber : Draw String := do
  let area ← digits 3
  let exchange ← digits 3
  let line ← digits 4
  return area ++ "-" ++ exchange ++ "-" ++ line

/-- A city. -/
def city : Draw String :=
  oneOf "Ashford"
    ["Brookfield", "Clearwater", "Dunmore", "Eastport", "Fairview", "Glenwood", "Harborview",
      "Kingston", "Lakewood", "Millbrook", "Northgate", "Oakdale", "Riverside", "Springfield"]

/-- A country. -/
def country : Draw String :=
  oneOf "Argentina"
    ["Belgium", "Canada", "Denmark", "Egypt", "Finland", "Greece", "Hungary", "Iceland", "Japan",
      "Kenya", "Latvia", "Mexico", "Norway", "Portugal", "Spain", "Thailand", "Uruguay"]

/-- A street. -/
def streetName : Draw String := do
  let name ← lastName
  let kind ← oneOf "Street" ["Avenue", "Lane", "Road", "Drive", "Court"]
  return name ++ " " ++ kind

/-- A postal code. -/
def zipCode : Draw String :=
  digits 5

/-- A company. -/
def companyName : Draw String := do
  let name ← lastName
  let kind ← oneOf "Inc" ["Ltd", "Group", "LLC", "and Sons"]
  return name ++ " " ++ kind

/-- A word of filler text. -/
def word : Draw String :=
  oneOf "lorem"
    ["ipsum", "dolor", "sit", "amet", "consectetur", "adipiscing", "elit", "sed", "do", "eiusmod",
      "tempor", "incididunt", "ut", "labore", "et", "dolore", "magna", "aliqua"]

/-- A text with a capital first letter. -/
def capitalized (text : String) : String :=
  match text.toList with
  | [] => ""
  | c :: rest => String.ofList (c.toUpper :: rest)

/-- A sentence of three to seven words. -/
def sentence : Draw String := do
  let extra ← numberBelow 5 (Nat.succ_pos 4)
  let words ← repeated word (3 + extra)
  return capitalized (String.intercalate " " words) ++ "."

/-- A paragraph of two or three sentences. -/
def paragraph : Draw String := do
  let extra ← numberBelow 2 Nat.two_pos
  let sentences ← repeated sentence (2 + extra)
  return String.intercalate " " sentences

/-- A generator of texts. -/
def ofText (draw : Draw String) : Node :=
  .generator <| .random fun e =>
    let (text, e) := draw.run e
    (.string text, e)

/-- A number from 0 to 99999. -/
def number (e : Entropy) : Value × Entropy :=
  let (n, e) := e.below 100000 (Nat.succ_pos 99999)
  (Value.ofInt n, e)

/-- The paths of the catalog with their nodes. -/
def entries : List (String × Node) :=
  [ ("name.firstName", ofText firstName),
    ("name.lastName", ofText lastName),
    ("name.fullName", ofText fullName),
    ("internet.email", ofText email),
    ("internet.userName", ofText userName),
    ("internet.domainSuffix", ofText domainSuffix),
    ("phone.number", ofText phoneNumber),
    ("address.city", ofText city),
    ("address.country", ofText country),
    ("address.streetName", ofText streetName),
    ("address.zipCode", ofText zipCode),
    ("company.name", ofText companyName),
    ("lorem.word", ofText word),
    ("lorem.sentence", ofText sentence),
    ("lorem.paragraph", ofText paragraph),
    ("datatype.uuid", .generator (.random Randomness.identifierValue)),
    ("datatype.boolean", .generator (.random Randomness.booleanValue)),
    ("datatype.number", .generator (.random number)) ]

/-- The English catalog. -/
def catalog : Catalog :=
  entries.foldl (fun catalog (path, node) => catalog.insert path node) {}

end Stencil.English
