import Stencil.Capture.Directive

/-!
# Capture lines

A capture is written as a comment: `# @capture global token = $.token`. The scope may be left out,
and the comment may start with `//`. Lines that are not of this form are no captures.
-/

namespace Stencil.Capture

/-- The characters that a variable name may start with. -/
def isNameStart (c : Char) : Bool :=
  c.isAlpha || c == '_'

/-- The characters of a variable name. -/
def isNameChar (c : Char) : Bool :=
  c.isAlphanum || c == '_'

/-- Splits a variable name off. -/
def takeName? (cs : List Char) : Option (List Char × List Char) :=
  match cs with
  | [] => none
  | c :: _ =>
    if isNameStart c then some (cs.takeWhile isNameChar, cs.dropWhile isNameChar) else none

/-- Skips blanks, of which there is at least one. -/
def skipBlanks? (cs : List Char) : Option (List Char) :=
  match cs with
  | [] => none
  | c :: rest => if Text.isBlank c then some (Text.trimStart rest) else none

/-- The path behind the equals sign: the text without the blanks around it, which is on one line. If
there are only blanks, the last one that is no line feed is the path. -/
def pathText? (cs : List Char) : Option (List Char) :=
  let trimmed := Text.trim cs
  -- a path has at least one character, and a blank is one if there is no other
  if trimmed = [] then (cs.filter (· ≠ '\n')).getLast?.map fun c => [c]
  else if '\n' ∈ trimmed then none
  else some trimmed

/-- Reads a name, an equals sign and a path. -/
def assignment? (scope : Scope) (cs : List Char) : Option Capture :=
  (takeName? cs).bind fun (name, rest) =>
    match Text.trimStart rest with
    | '=' :: rest =>
      (pathText? rest).map fun path =>
        { name := String.ofList name, scope, path := String.ofList path }
    | _ => none

/-- Reads an assignment behind the name of a scope. -/
def scopedAssignment? (scope : Scope) (cs : List Char) : Option Capture :=
  ((Text.dropStart? scope.name.toList cs).bind skipBlanks?).bind (assignment? scope)

/-- Reads what follows `@capture`. A word that could be a scope but is followed by an equals sign is
the name of a local variable. -/
def declaration? (cs : List Char) : Option Capture :=
  ((scopedAssignment? .globals cs).or (scopedAssignment? .locals cs)).or (assignment? .locals cs)

/-- Reads one line as characters. -/
def ofChars? (line : List Char) : Option Capture :=
  let text := Text.trimStart line
  ((Text.dropStart? ['#'] text).or (Text.dropStart? ['/', '/'] text)).bind fun comment =>
    ((Text.dropStart? "@capture".toList (Text.trimStart comment)).bind skipBlanks?).bind
      declaration?

/-- The capture that a line holds, if it holds one. -/
def ofLine? (line : String) : Option Capture :=
  ofChars? line.toList

/-- The captures of a text, line by line. -/
def ofText (text : String) : List Capture :=
  (Text.lines text.toList).filterMap ofChars?

end Stencil.Capture
