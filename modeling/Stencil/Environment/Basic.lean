import Stencil.Registry

/-!
# Environments

An environment is a list of layers; the first one that defines a name gives its value. A layer is a
table of names, or the variables of the process, where some names cannot occur.
-/

namespace Stencil

/-- A source of environment variables. -/
inductive EnvLayer where
  | table (entries : Entries String)
  | process (entries : Entries String)

namespace EnvLayer

/-- Whether a process can have a variable of that name. -/
def isProcessName (name : String) : Bool :=
  name ≠ "" && !(name.toList.any fun c => c == '=' || c.toNat == 0)

/-- The value of a name. -/
def get? (name : String) : EnvLayer → Option String
  | .table entries => Entries.get? name entries
  | .process entries => if isProcessName name then Entries.get? name entries else none

end EnvLayer

/-- Layers of environment variables, the most important first. -/
structure Environment where
  layers : List EnvLayer := []

namespace Environment

/-- The value of a name in the first layer that has it. -/
def get? (name : String) (env : Environment) : Option String :=
  env.layers.findSome? (EnvLayer.get? name)

/-- The environment with one more layer behind the others. -/
def push (layer : EnvLayer) (env : Environment) : Environment :=
  { layers := env.layers ++ [layer] }

/-- How many layers there are. -/
def size (env : Environment) : Nat :=
  env.layers.length

/-- The environment as it is shown for inspection. -/
def inspect (env : Environment) : String :=
  "LayeredEnvironment \x7b layers: " ++ env.size.repr ++ " \x7d"

/-- Evaluates a call of `env`: the member is the name of a variable. -/
def call (env : Environment) (call : Call) : Eval Value := do
  Eval.ofExcept call.expectNoArguments
  match env.get? call.member with
  | some text => return .string text
  | none => Eval.fail (.undefinedEnvironmentVariable call.member)

/-- The namespace `env`. -/
def functions (env : Environment) : Namespace :=
  { name := "env", call := env.call }

end Environment

end Stencil
