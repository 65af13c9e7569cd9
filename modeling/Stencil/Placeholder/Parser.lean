import Stencil.Path
import Stencil.Placeholder.Call
import Stencil.Placeholder.Literal

/-!
# Placeholders

The text between the braces of a placeholder is a variable path or a function call, optionally
followed by a bar and a default. A bar counts if it is neither inside quotes nor behind a backslash;
`\|` stands for a bar that belongs to the expression. Arguments are literals, separated by commas
outside quotes.
-/

namespace Stencil

/-- What a placeholder evaluates. -/
inductive Expression where
  | variable (segments : List String)
  | function (call : Call)

/-- A placeholder: its expression, the default for an absent variable, and the expression as
written. -/
structure Placeholder where
  expression : Expression
  default : Option Value
  source : String

namespace Placeholder

/-- Whether a character opens a quoted text. -/
def isQuote (c : Char) : Bool :=
  c == '\'' || c == '"'

/-- The quote that is open behind a character. -/
def quoteAfter (quote : Option Char) (c : Char) : Option Char :=
  match quote with
  | none => if isQuote c then some c else none
  | some q => if c = q then none else some q

/-- Splits a placeholder at the first bar outside quotes that has no backslash before it. In the
expression each `\|` becomes a bar. -/
def splitDefault (quote : Option Char) : List Char → List Char × Option (List Char)
  | [] => ([], none)
  | '\\' :: '|' :: rest =>
    -- the backslash counts inside quotes too
    let (expression, default) := splitDefault quote rest
    ('|' :: expression, default)
  | c :: rest =>
    if c = '|' ∧ quote = none then ([], some rest)
    else
      let (expression, default) := splitDefault (quoteAfter quote c) rest
      (c :: expression, default)

/-- Splits an argument list at the commas outside quotes. Parentheses outside quotes are refused,
and so is a quote that stays open. -/
def splitArguments (quote : Option Char) : List Char → Except Malformation (List (List Char))
  | [] => if quote = none then .ok [[]] else .error .unterminatedString
  | c :: rest =>
    if quote = none ∧ c = ',' then (splitArguments none rest).map ([] :: ·)
    else if quote = none ∧ (c = '(' ∨ c = ')') then .error .nestedParentheses
    else (splitArguments (quoteAfter quote c) rest).map (Text.extendFirst c)

/-- Reads arguments that are already split; none of them is blank. -/
def readArguments : List (List Char) → Except Malformation (List Value)
  | [] => .ok []
  | text :: rest =>
    if Text.isBlankText text then .error .emptyArgument
    else (readArguments rest).map (Literal.ofChars text :: ·)

/-- Reads the text between the parentheses of a call. -/
def arguments (cs : List Char) : Except Malformation (List Value) :=
  if Text.isBlankText cs then .ok []
  else
    match splitArguments none cs with
    | .ok texts => readArguments texts
    | .error fault => .error fault

/-- Splits a call into what stands before the parentheses and the arguments between them. The
closing parenthesis is the last character. -/
def splitCall (cs : List Char) : Except Malformation (List Char × Option (List Value)) :=
  match Text.cutAt '(' cs with
  | some (head, behind) =>
    match Text.dropEnd? [')'] behind with
    | some inner => (arguments inner).map fun args => (head, some args)
    | none => .error .missingParenthesis
  | none => if ')' ∈ cs then .error .unexpectedParenthesis else .ok (cs, none)

/-- The characters of namespace names. -/
def isNamespaceChar (c : Char) : Bool :=
  c.isAlphanum || c == '_'

/-- Reads a call from the text behind its dollar sign. -/
def call (source : String) (cs : List Char) : Except Malformation Call :=
  match splitCall cs with
  | .error fault => .error fault
  | .ok (head, args) =>
    match Text.cutAt '.' head with
    | none => .error .missingMemberDot
    | some (ns, member) =>
      -- blanks may stand around the dot, but not inside the name
      let ns := Text.trim ns
      let member := Text.trim member
      if ns = [] ∨ ¬ ns.all isNamespaceChar then .error .invalidNamespace
      else if member = [] then .error .missingMember
      else .ok { ns := String.ofList ns, member := String.ofList member, args, source }

end Placeholder

/-- Reads an expression without blanks around it; a failure quotes it. -/
def Expression.parse (cs : List Char) : Except ResolveError Expression :=
  let source := String.ofList cs
  match cs with
  | '$' :: rest =>
    match Placeholder.call source rest with
    | .ok call => .ok (.function call)
    | .error fault => .error (.malformedPlaceholder source fault)
  | _ => (Path.parse source).map .variable

/-- Reads the text between the braces of a placeholder. -/
def Placeholder.parse (text : String) : Except ResolveError Placeholder :=
  let (front, default) := splitDefault none text.toList
  let trimmed := Text.trim front
  if trimmed = [] then .error (.malformedPlaceholder text .emptyExpression)
  else
    (Expression.parse trimmed).map fun expression =>
      { expression, default := default.map Literal.ofChars, source := String.ofList trimmed }

theorem Expression.path_of_parse {cs : List Char} {segments : List String}
    (h : Expression.parse cs = .ok (.variable segments)) :
    Path.parse (String.ofList cs) = .ok segments := by
  unfold Expression.parse at h
  simp only at h
  split at h
  · split at h <;> cases h
  · rcases exists_of_map_eq_ok h with ⟨keys, hkeys, heq⟩
    cases heq
    exact hkeys

/-- The segments of a variable are those of its expression as written. -/
theorem Placeholder.path_of_parse {text source : String} {default : Option Value}
    {segments : List String}
    (h : Placeholder.parse text = .ok { expression := .variable segments, default, source }) :
    Path.parse source = .ok segments := by
  unfold Placeholder.parse at h
  simp only at h
  split at h
  · cases h
  · rcases exists_of_map_eq_ok h with ⟨expression, hexpression, heq⟩
    cases heq
    exact Expression.path_of_parse hexpression

end Stencil
