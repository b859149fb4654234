import Dogmos.Core.Graph
import Dogmos.Core.Record
import Dogmos.Lib.Exec

/-!
# The reference diffusion step

`diffusion_step` of the numerics spreads the gases of a validated graph.  It goes through the nodes
and writes the row of each: the own share of the node first, then the share of each neighbour in
the order of its row.
-/

namespace Dogmos

variable {F : Type} [FloatFormat F]

/-- `DiffusionError`. -/
inductive DiffusionError
  | cancelled
  | unsupportedDegree (degree : Nat)
  | stateLength (expected actual : Nat)
  | outputLength (expected actual : Nat)
  | invalidStateValue (index : Nat)
  | stateSpaceExceeded
deriving DecidableEq

/-- The message of a diffusion error. -/
def DiffusionError.display : DiffusionError → String
  | .cancelled => "diffusion was cancelled"
  | .unsupportedDegree degree =>
    "diffusion degree " ++ toString degree ++ " exceeds the supported maximum 6"
  | .stateLength expected actual =>
    "diffusion state has " ++ toString actual ++ " values; expected " ++ toString expected
  | .outputLength expected actual =>
    "diffusion output has " ++ toString actual ++ " values; expected " ++ toString expected
  | .invalidStateValue index =>
    "diffusion state value " ++ toString index ++ " is negative or non-finite"
  | .stateSpaceExceeded => "diffusion state length overflowed usize"

/-- `diffusion_self_weight`. -/
def selfWeight (degree : Nat) : Except DiffusionError F :=
  if maxCardinalNeighbors < degree then throw (.unsupportedDegree degree)
  else pure (1.0 - FloatFormat.ofNat degree * gasDiffusionConstant)

/-- Whether a value of the state is refused. -/
def invalidStateValue (value : F) : Bool := !FloatFormat.isFinite value || value < 0.0

/-- The values of a node. -/
def stateRow (gasCount : Nat) (state : List F) (node : Nat) : List F :=
  (state.drop (node * gasCount)).take gasCount

/-- The values a node gets. -/
def outputRow (gasCount : Nat) (state : List F) (node : Nat) (adjacent : List Nat) (weight : F) :
    List F :=
  adjacent.foldl
    (fun output neighbor =>
      output.zipWith (fun sum value => sum + value * gasDiffusionConstant)
        (stateRow gasCount state neighbor))
    ((stateRow gasCount state node).map fun value => value * weight)

/-- A computation on the output values. -/
abbrev DiffusionM (F α : Type) := Exec DiffusionError (List F) α

/-- One node of `diffusion_step_into_cancellable`; `shouldCancel` gives the answer to each check. -/
def diffuseNode (graph : DiffusionGraph) (gasCount : Nat) (state : List F)
    (shouldCancel : Nat → Bool) (node : Nat) : DiffusionM F Unit := do
  if node % 64 = 0 && shouldCancel (node / 64) then
    throw .cancelled
  let adjacent := graph.neighborIndices node
  let weight ← Exec.check fun _ => selfWeight adjacent.length
  modify fun result =>
    result.take (node * gasCount) ++ outputRow gasCount state node adjacent weight ++
      result.drop ((node + 1) * gasCount)

/-- `diffusion_step_into_cancellable`. -/
def diffusionStepIntoCancellable (usizeBits : Nat) (graph : DiffusionGraph) (gasCount : UInt32)
    (state : List F) (shouldCancel : Nat → Bool) : DiffusionM F Unit := do
  let expected := graph.nodeCount * gasCount.toNat
  if 2 ^ usizeBits ≤ expected then
    throw .stateSpaceExceeded
  if state.length ≠ expected then
    throw (.stateLength expected state.length)
  let result ← get
  if result.length ≠ expected then
    throw (.outputLength expected result.length)
  match state.findIdx? invalidStateValue with
  | some index => throw (.invalidStateValue index)
  | none => pure ()
  (List.range graph.nodeCount).forM (diffuseNode graph gasCount.toNat state shouldCancel)

/-- `diffusion_step_into`. -/
def diffusionStepInto (usizeBits : Nat) (graph : DiffusionGraph) (gasCount : UInt32)
    (state : List F) : DiffusionM F Unit :=
  diffusionStepIntoCancellable usizeBits graph gasCount state fun _ => false

/-- `diffusion_step`. -/
def diffusionStep (usizeBits : Nat) (graph : DiffusionGraph) (gasCount : UInt32) (state : List F) :
    Except DiffusionError (List F) :=
  let expected := graph.nodeCount * gasCount.toNat
  if 2 ^ usizeBits ≤ expected then throw .stateSpaceExceeded
  else
    match Exec.run (diffusionStepInto usizeBits graph gasCount state)
      (List.replicate expected 0.0) with
    | (.ok _, result) => pure result
    | (.error error, _) => throw error

end Dogmos
