import Stencil.Environment.Basic
import Stencil.Text.Alphanumeric
import Stencil.Text.Blank
import Stencil.Text.Cut

/-!
# Variables from `.env` files

A file assigns variables line by line: `export NAME = value # comment`. An entry goes on over
further lines as long as a quote, a backslash or a blank stands open at the line end
(`readEntries`). Values may be quoted, and `$NAME` and `${NAME}` stand for variables of the
process or of earlier entries (`readValue`). A fault quotes the text that is at fault and a
position in it.
-/

namespace Stencil

/-- Why a file gives no variables: a bad line with the position of its fault, a text that is not
UTF-8, or no file at all. -/
inductive DotenvFault where
  | badLine (text : String) (position : Nat)
  | undecodable
  | missing
deriving DecidableEq, Repr

/-- The wording of a bad line; the other faults have none. -/
def DotenvFault.message? : DotenvFault → Option String
  | .badLine text position =>
    some ("Failed to load .env file: Error parsing line: '" ++ text ++ "', error at line index: " ++
      position.repr)
  | .undecodable => none
  | .missing => none

namespace Dotenv

/-- The bytes that a text takes in UTF-8. -/
def byteLength (cs : List Char) : Nat :=
  (String.ofList cs).utf8ByteSize

/-! ## The extent of entries -/

/-- What stands open behind a part of an entry. -/
inductive Extent where
  | complete
  | blank
  | escape
  | weak
  | weakEscape
  | strong
  | strongEscape
deriving DecidableEq, Repr

namespace Extent

/-- What stands open behind a backslash, a quote or another character outside of quotes. -/
def opening (c : Char) : Extent :=
  if c = '\\' then .escape
  else if c = '"' then .weak
  else if c = '\'' then .strong
  else .complete

/-- What stands open behind a further character. -/
def next (extent : Extent) (c : Char) : Extent :=
  match extent with
  | .complete =>
    if Text.isBlank c ∧ c ≠ '\n' ∧ c ≠ '\r' then .blank else opening c
  | .blank => opening c
  | .escape => .complete
  | .weak => if c = '\\' then .weakEscape else if c = '"' then .complete else .weak
  | .weakEscape => .weak
  | .strong => if c = '\\' then .strongEscape else if c = '\'' then .complete else .strong
  | .strongEscape => .strong

/-- Follows a line. A number sign behind a blank starts a comment, which ends the entry: then only
what stands before it is given back. -/
def follow (extent : Extent) : List Char → List Char × Option Extent
  | [] => ([], some extent)
  | c :: rest =>
    if extent = .blank ∧ c = '#' then ([], none)
    else
      let (kept, outcome) := follow (extent.next c) rest
      (c :: kept, outcome)

end Extent

/-! ## Values -/

/-- Where the reader of a value stands: outside of strong quotes, inside them, behind a backslash,
in a name behind a dollar sign, in a name between braces, or in the blanks behind the value. Weak
quotes may be open in four of these places. -/
inductive Place where
  | text (weak : Bool)
  | strong
  | escape (weak : Bool)
  | name (weak : Bool) (cs : List Char)
  | braced (weak : Bool) (cs : List Char)
  | blanks

/-- Reads one character of a value: the text that it adds, and the place behind it. Fails if the
character cannot stand there. -/
def Place.next (lookup : String → String) (place : Place) (c : Char) :
    Option (List Char × Place) :=
  match place with
  | .blanks => if c = ' ' ∨ c = '\t' then some ([], .blanks) else none
  | .escape weak =>
    if c = '\\' ∨ c = '\'' ∨ c = '"' ∨ c = '$' ∨ c = ' ' then some ([c], .text weak)
    else if c = 'n' then some (['\n'], .text weak)
    else none
  | .strong => if c = '\'' then some ([], .text false) else some ([c], .strong)
  | .name weak cs =>
    if Text.isAlphanumeric c then some ([], .name weak (cs ++ [c]))
    else if c = '{' ∧ cs = [] then some ([], .braced weak [])
    else
      let expansion := (lookup (String.ofList cs)).toList
      if c = '$' then some (expansion, .name weak [])
      else some (expansion ++ [c], .text weak)
  | .braced weak cs =>
    if c = '}' then some ((lookup (String.ofList cs)).toList, .text weak)
    else some ([], .braced weak (cs ++ [c]))
  | .text weak =>
    if c = '$' then some ([], .name weak [])
    else if c = '\\' then some ([], .escape weak)
    else if weak then if c = '"' then some ([], .text false) else some ([c], .text true)
    else if c = '\'' then some ([], .strong)
    else if c = '"' then some ([], .text true)
    else if c = ' ' ∨ c = '\t' then some ([], .blanks)
    else some ([c], .text false)

/-- The text that the end of a value adds. Quotes and braces must not be open there; a backslash
vanishes. -/
def Place.finish (lookup : String → String) : Place → Option (List Char)
  | .text false | .escape false | .blanks => some []
  | .name false cs => some (lookup (String.ofList cs)).toList
  | .text true | .escape true | .name true _ | .strong | .braced _ _ => none

/-- Reads the rest of a value behind `index` characters. A fault is a position: a character that
cannot stand there, or the last byte of the value if something is left open. -/
def readValue (lookup : String → String) (length : Nat) :
    Place → Nat → List Char → Except Nat (List Char)
  | place, _, [] =>
    match place.finish lookup with
    | some added => .ok added
    | none => .error (length - 1)
  | place, index, c :: rest =>
    match place, c with
    | .blanks, '#' => .ok []
    | place, c =>
      match place.next lookup c with
      | none => .error index
      | some (added, place) => (readValue lookup length place (index + 1) rest).map (added ++ ·)

/-- The value that a text describes; a fault quotes the text. -/
def value (lookup : String → String) (cs : List Char) : Except DotenvFault String :=
  match readValue lookup (byteLength cs) (.text false) 0 cs with
  | .ok text => .ok (String.ofList text)
  | .error position => .error (.badLine (String.ofList cs) position)

/-! ## Entries -/

/-- The characters that a name may start with. -/
def isNameStart (c : Char) : Bool :=
  c.isAlpha || c == '_'

/-- The characters of a name. -/
def isNameChar (c : Char) : Bool :=
  c.isAlphanum || c == '_' || c == '.'

/-- Splits a name and the blanks behind it off. -/
def takeName? (cs : List Char) : Option (String × List Char) :=
  match cs with
  | [] => none
  | c :: _ =>
    if isNameStart c then
      some (String.ofList (cs.takeWhile isNameChar), Text.trimStart (cs.dropWhile isNameChar))
    else none

/-- Reads the name that an entry assigns to, and what follows the equals sign. The word `export` in
front of a name is passed over, unless it is itself the name. A fault is what remains of the entry
where it is found. -/
def assignment (cs : List Char) : Except (List Char) (String × List Char) :=
  match takeName? cs with
  | none => .error cs
  | some (name, '=' :: rest) => .ok (name, rest)
  | some (name, rest) =>
    if name ≠ "export" then .error rest
    else
      match takeName? rest with
      | none => .error rest
      | some (name, '=' :: rest) => .ok (name, rest)
      | some (_, rest) => .error rest

/-- Whether nothing but a comment follows. -/
def isVoid (cs : List Char) : Bool :=
  cs.head?.all (· == '#')

/-- The variable that an entry assigns, if it assigns one. -/
def assigned? (lookup : String → String) (entry : List Char) :
    Except DotenvFault (Option (String × String)) :=
  let body := Text.trimEnd entry
  let text := Text.trimStart body
  if isVoid text then .ok none
  else
    match assignment text with
    | .error rest => .error (.badLine (String.ofList entry) (byteLength body - byteLength rest))
    | .ok (name, rest) =>
      let text := Text.trimStart rest
      if isVoid text then .ok (some (name, ""))
      else (value lookup text).map fun value => some (name, value)

/-- The value of a name for expansion: that of the process, else of an earlier entry, else empty. -/
def expand (process : Entries String) (known : Entries String) (name : String) : String :=
  ((EnvLayer.get? name (.process process)).or (Entries.get? name known)).getD ""

/-- Adds the variable of an entry to those of earlier entries. -/
def addEntry (process known : Entries String) (entry : List Char) :
    Except DotenvFault (Entries String) :=
  (assigned? (expand process known) entry).map fun
    | some (name, value) => Entries.insert name value known
    | none => known

/-- An entry without its line end. -/
def dropLineEnd (cs : List Char) : List Char :=
  match Text.dropEnd? ['\n'] cs with
  | some line => Text.dropReturn line
  | none => cs

/-- Reads lines, each with its line end or undecodable, into the variables that they assign. `entry`
is the part of an entry that was read so far, and `extent` what stands open behind it. -/
def readEntries (process : Entries String) (entry : List Char) (extent : Extent)
    (known : Entries String) : List (Option (List Char)) → Except DotenvFault (Entries String)
  | [] =>
    if extent = .complete then .ok known
    else .error (.badLine (String.ofList entry) (byteLength entry))
  | none :: _ => .error .undecodable
  | some line :: rest =>
    -- a comment line has no entry, and quotes in it do not count
    if (Text.trimStart (entry ++ line)).head? = some '#' then
      readEntries process [] .complete known rest
    else
      match extent.follow line with
      | (kept, none) =>
        match addEntry process known (entry ++ kept) with
        | .ok known => readEntries process [] .complete known rest
        | .error fault => .error fault
      | (_, some .complete) =>
        match addEntry process known (dropLineEnd (entry ++ line)) with
        | .ok known => readEntries process [] .complete known rest
        | .error fault => .error fault
      | (_, some extent) => readEntries process (entry ++ line) extent known rest

/-- The lines of a text with their line feeds. -/
def textLines (cs : List Char) : List (Option (List Char)) :=
  let (ended, tail) := Text.linePieces cs
  ended.map (fun line => some (line ++ ['\n'])) ++ if tail = [] then [] else [some tail]

/-- The variables that a text assigns. -/
def parse (process : Entries String) (content : String) : Except DotenvFault (Entries String) :=
  readEntries process [] .complete [] (textLines content.toList)

/-- Splits bytes behind each line feed. -/
def byteLines : List UInt8 → List (List UInt8)
  | [] => []
  | b :: rest =>
    if b = 10 then [b] :: byteLines rest else Text.extendFirst b (byteLines rest)

/-- The variables that the bytes of a file assign, if there is a file. -/
def load (process : Entries String) (file : Option (List UInt8)) :
    Except DotenvFault (Entries String) :=
  match file with
  | none => .error .missing
  | some bytes =>
    readEntries process [] .complete [] <|
      (byteLines bytes).map fun line => (String.fromUTF8? ⟨line.toArray⟩).map String.toList

end Dotenv

end Stencil
