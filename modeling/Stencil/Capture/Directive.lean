import Stencil.Path
import Stencil.Store.Basic

/-!
# Captures

A capture takes a value out of a response body and stores it as a variable. Its path is a variable
path, optionally behind `$.` or `$`; `$` alone is the whole body.
-/

namespace Stencil

/-- An instruction to store what a path finds in a body under a name. -/
structure Capture where
  name : String
  scope : Scope
  path : String
deriving DecidableEq, Repr

/-- Why a capture yields nothing. -/
inductive CaptureError where
  | invalidPath (path : String) (cause : ResolveError)
  | pathNotFound (name path : String)
deriving DecidableEq, Repr

/-- The wording of a failed capture. -/
def CaptureError.message : CaptureError → String
  | .invalidPath path cause => "Invalid capture path '" ++ path ++ "': " ++ cause.message
  | .pathNotFound name path =>
    "Capture path '" ++ path ++ "' not found for variable '" ++ name ++ "'"

namespace Capture

/-- A path without the dollar sign of the root in front of it. -/
def relativePath (path : List Char) : List Char :=
  match path with
  | '$' :: '.' :: rest => rest
  | '$' :: rest => rest
  | _ => path

/-- The segments of the path; the root has none. -/
def segments (capture : Capture) : Except CaptureError (List String) :=
  let relative := relativePath (Text.trim capture.path.toList)
  if relative = [] then .ok []
  else
    match Path.parse (String.ofList relative) with
    | .ok segments => .ok segments
    | .error cause => .error (.invalidPath capture.path cause)

/-- The value that the path finds in a body. -/
def extract (capture : Capture) (body : Value) : Except CaptureError Value :=
  match capture.segments with
  | .error fault => .error fault
  | .ok segments =>
    match Path.navigate segments body with
    | some v => .ok v
    | none => .error (.pathNotFound capture.name capture.path)

/-- Extracts and stores in order until a capture fails. The store keeps what was stored before. -/
def applyAll (body : Value) : List Capture → Store → Store × Except CaptureError Unit
  | [], s => (s, .ok ())
  | capture :: rest, s =>
    match capture.extract body with
    | .ok v => applyAll body rest (s.set capture.scope capture.name v)
    | .error fault => (s, .error fault)

/-- Applies captures to a store; a success says how many there were. -/
def apply (captures : List Capture) (body : Value) (s : Store) : Store × Except CaptureError Nat :=
  let (s, outcome) := applyAll body captures s
  (s, outcome.map fun _ => captures.length)

end Capture

end Stencil
