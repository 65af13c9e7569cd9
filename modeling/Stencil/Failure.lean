/-!
# Why a template cannot be resolved

Each failure is a cause with what it is about. The wording is in the `message` functions, one per
kind of cause.
-/

namespace Stencil

/-- Why the text of a placeholder is neither a variable path nor a function call. -/
inductive Malformation where
  | emptyExpression
  | emptyPath
  | emptySegment
  | trailingDot
  | indexWithoutName
  | unclosedIndex
  | emptyIndex
  | unexpectedIndexEnd
  | textAfterIndex
  | missingParenthesis
  | unexpectedParenthesis
  | nestedParentheses
  | unterminatedString
  | emptyArgument
  | missingMemberDot
  | invalidNamespace
  | missingMember
deriving DecidableEq, Repr

/-- Why a function cannot be called as written. Argument positions count from one. -/
inductive CallFault where
  | unknownNamespace (ns : String)
  | unknownMember (member ns : String)
  | takesNoArguments (member : String)
  | wrongArity (expected given : Nat)
  | wrongRangeArity (given : Nat)
  | notANumber (position : Nat)
  | notAnInteger (position : Nat)
  | notAString (position : Nat)
  | emptyRange (min max : Int)
  | lengthOutOfRange (limit : Nat) (length : Int)
  | emptyCharset
  | nothingToPick
  | unknownUnit (unit : String)
  | offsetOutOfRange
  | refused (reason : String)
deriving DecidableEq, Repr

/-- Why a path into the fake data names nothing. -/
inductive CatalogFault where
  | unknownMember (segment : String)
  | notFoundInValue (rest : String)
  | behindGenerator (segment : String)
  | namesGroup
deriving DecidableEq, Repr

/-- Why a template cannot be resolved. -/
inductive ResolveError where
  | unresolvedVariable (source : String)
  | invalidFunctionPath (path : String) (fault : CatalogFault)
  | invalidFunctionCall (call : String) (fault : CallFault)
  | undefinedEnvironmentVariable (name : String)
  | malformedPlaceholder (placeholder : String) (fault : Malformation)
  | depthExceeded (limit : Nat)
deriving DecidableEq, Repr

/-- The wording of a malformation. -/
def Malformation.message : Malformation → String
  | .emptyExpression => "empty expression"
  | .emptyPath => "empty variable path"
  | .emptySegment => "empty path segment"
  | .trailingDot => "path ends with '.'"
  | .indexWithoutName => "index without a preceding name"
  | .unclosedIndex => "unclosed '['"
  | .emptyIndex => "empty index"
  | .unexpectedIndexEnd => "unexpected ']'"
  | .textAfterIndex => "expected '.' or '[' after index"
  | .missingParenthesis => "missing closing ')'"
  | .unexpectedParenthesis => "unexpected ')'"
  | .nestedParentheses => "nested parentheses are not allowed in arguments"
  | .unterminatedString => "unterminated string argument"
  | .emptyArgument => "empty argument"
  | .missingMemberDot => "expected '$namespace.member'"
  | .invalidNamespace => "invalid function namespace"
  | .missingMember => "missing function name"

/-- The wording of a call's fault. -/
def CallFault.message : CallFault → String
  | .unknownNamespace ns => "unknown function namespace '" ++ ns ++ "'"
  | .unknownMember member ns => "unknown function '" ++ member ++ "' in namespace '" ++ ns ++ "'"
  | .takesNoArguments member => "'" ++ member ++ "' takes no arguments"
  | .wrongArity expected given =>
    "expected " ++ expected.repr ++ " argument" ++ (if expected = 1 then "" else "s") ++ ", got " ++
      given.repr
  | .wrongRangeArity given => "expected 0 or 2 arguments, got " ++ given.repr
  | .notANumber position => "argument " ++ position.repr ++ " must be a number"
  | .notAnInteger position => "argument " ++ position.repr ++ " must be an integer"
  | .notAString position => "argument " ++ position.repr ++ " must be a string"
  | .emptyRange min max =>
    "min (" ++ min.repr ++ ") cannot be greater than max (" ++ max.repr ++ ")"
  | .lengthOutOfRange limit length =>
    "length must be between 0 and " ++ limit.repr ++ ", got " ++ length.repr
  | .emptyCharset => "character set is empty"
  | .nothingToPick => "pick requires at least one argument"
  | .unknownUnit unit =>
    "invalid unit '" ++ unit ++ "'. Use 'days', 'hours', 'minutes', or 'seconds'"
  | .offsetOutOfRange => "date offset out of range"
  | .refused reason => reason

/-- The wording of a fault in a path into the fake data. -/
def CatalogFault.message : CatalogFault → String
  | .unknownMember segment => "unknown member '" ++ segment ++ "'"
  | .notFoundInValue rest => "'" ++ rest ++ "' not found in value"
  | .behindGenerator segment => "cannot access '" ++ segment ++ "' on a generator"
  | .namesGroup => "path names a group, not a member"

/-- The wording of a failure. -/
def ResolveError.message : ResolveError → String
  | .unresolvedVariable source => "Unresolved variable: " ++ source
  | .invalidFunctionPath path fault =>
    "Invalid function path '" ++ path ++ "': " ++ fault.message
  | .invalidFunctionCall call fault =>
    "Invalid function call '" ++ call ++ "': " ++ fault.message
  | .undefinedEnvironmentVariable name => "Environment variable not found: " ++ name
  | .malformedPlaceholder placeholder fault =>
    "Malformed placeholder '" ++ placeholder ++ "': " ++ fault.message
  | .depthExceeded limit => "Template nesting exceeds maximum depth of " ++ limit.repr

/-! ## Mapped results -/

section Mapped

variable {ε α β : Type} {result : Except ε α} {f : α → β}

theorem exists_of_map_eq_ok {b : β} (h : result.map f = .ok b) :
    ∃ a, result = .ok a ∧ f a = b := by
  cases result with
  | error fault => cases h
  | ok a => exact ⟨a, rfl, Except.ok.inj h⟩

theorem map_eq_error_iff {fault : ε} : result.map f = .error fault ↔ result = .error fault := by
  cases result with
  | error other => simp [Except.map]
  | ok a => simp [Except.map]

end Mapped

end Stencil
