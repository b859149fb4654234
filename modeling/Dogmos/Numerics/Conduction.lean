import Dogmos.Core.Record
import Dogmos.Core.Metadata
import Dogmos.Lib.Exec

/-!
# The reference conduction step

`conduction_step` of the numerics: it validates the values, brings the edges into canonical order,
chooses a number of substeps from the largest row sum, and conducts along every edge in each
substep.  The temperatures are updated in place, so they are the state of the computation.
-/

namespace Dogmos

variable {F : Type} [FloatFormat F]

/-- `ConductionStats`. -/
structure ConductionStats where
  substeps : UInt32
  edgesApplied : UInt64

/-- `ConductionError`. -/
inductive ConductionError
  | cancelled
  | lengthMismatch
  | invalidElapsedTime
  | invalidTemperature (index : Nat)
  | invalidConductivity (index : Nat)
  | invalidCapacity (index : Nat)
  | unknownNode (handle : UInt32)
  | selfEdge (handle : UInt32)
  | duplicateEdge (first second : UInt32)
  | tooManySubsteps
deriving DecidableEq

/-- The message of a conduction error. -/
def ConductionError.display : ConductionError → String
  | .cancelled => "conduction was cancelled"
  | .lengthMismatch =>
    "temperature, conductivity, and heat-capacity slices must have equal lengths"
  | .invalidElapsedTime => "elapsed heat time must be finite and non-negative"
  | .invalidTemperature index => "temperature " ++ toString index ++ " is non-finite"
  | .invalidConductivity index =>
    "thermal conductivity " ++ toString index ++ " is negative or non-finite"
  | .invalidCapacity index => "heat capacity " ++ toString index ++ " is not finite and positive"
  | .unknownNode handle => "heat edge references node " ++ toString handle.toNat
  | .selfEdge handle => "heat node " ++ toString handle.toNat ++ " has a self-edge"
  | .duplicateEdge first second =>
    "duplicate heat edge " ++ toString first.toNat ++ " -- " ++ toString second.toNat
  | .tooManySubsteps =>
    "heat step requires more than " ++ toString maxConductionSubsteps ++ " substeps"

/-! ## Validation -/

/-- Whether a conductivity is refused. -/
def invalidConductivity (value : F) : Bool := !FloatFormat.isFinite value || value < 0.0

/-- Whether a heat capacity is refused. -/
def invalidCapacity (value : F) : Bool := !FloatFormat.isFinite value || value ≤ 0.0

/-- Fails at the first value that is refused. -/
def requireAll (values : List F) (invalid : F → Bool) (error : Nat → ConductionError) :
    Except ConductionError Unit :=
  match values.findIdx? invalid with
  | some index => throw (error index)
  | none => pure ()

/-- `validate_values`. -/
def validateValues (temperatures conductivities heatCapacities : List F) (secondsPerTick : F) :
    Except ConductionError Unit := do
  if temperatures.length ≠ conductivities.length ∨ temperatures.length ≠ heatCapacities.length then
    throw .lengthMismatch
  if !FloatFormat.isFinite secondsPerTick || secondsPerTick < 0.0 then
    throw .invalidElapsedTime
  requireAll temperatures (fun value => !FloatFormat.isFinite value) .invalidTemperature
  requireAll conductivities invalidConductivity .invalidConductivity
  requireAll heatCapacities invalidCapacity .invalidCapacity

/-! ## Edges -/

/-- An edge with its smaller end first. -/
def undirected (edge : UInt32 × UInt32) : UInt32 × UInt32 :=
  if edge.1 < edge.2 then edge else (edge.2, edge.1)

/-- The order of edges: by the first end, then by the second. -/
def edgeLe (a b : UInt32 × UInt32) : Bool := a.1 < b.1 || (a.1 = b.1 && a.2 ≤ b.2)

/-- The check of one edge of `canonical_edges`. -/
def canonicalEdge (nodeCount : Nat) (edge : UInt32 × UInt32) :
    Except ConductionError (UInt32 × UInt32) :=
  if nodeCount ≤ edge.1.toNat then throw (.unknownNode edge.1)
  else if nodeCount ≤ edge.2.toNat then throw (.unknownNode edge.2)
  else if edge.1 = edge.2 then throw (.selfEdge edge.1)
  else pure (undirected edge)

/-- `canonical_edges`. -/
def canonicalEdges (edges : List (UInt32 × UInt32)) (nodeCount : Nat) :
    Except ConductionError (List (UInt32 × UInt32)) := do
  let canonical ← edges.mapM (canonicalEdge nodeCount)
  let canonical := canonical.insertionSort fun a b => edgeLe a b
  match firstRepeated id canonical with
  | some (first, second) => throw (.duplicateEdge first second)
  | none => pure canonical

/-! ## Weights -/

/-- `heat_row_weight`. -/
def conductionRowWeight (firstConductivity secondConductivity firstCapacity secondCapacity : F) :
    Except ConductionError F :=
  if invalidConductivity firstConductivity then throw (.invalidConductivity 0)
  else if invalidConductivity secondConductivity then throw (.invalidConductivity 1)
  else if invalidCapacity firstCapacity then throw (.invalidCapacity 0)
  else if invalidCapacity secondCapacity then throw (.invalidCapacity 1)
  else if byondInfinityThreshold ≤ firstCapacity then pure 0.0
  else
    pure (fmin firstConductivity secondConductivity *
      harmonicCapacity firstCapacity secondCapacity / firstCapacity)

/-- The weights of the world's stage are those of the reference, with the error as its message. -/
theorem heatRowWeight_eq (k l a b : F) :
    heatRowWeight k l a b = (conductionRowWeight k l a b).mapError ConductionError.display := by
  unfold heatRowWeight conductionRowWeight invalidConductivity invalidCapacity
  simp only [apply_ite (Except.mapError ConductionError.display)]
  rfl

/-- The value at an index of a slice. -/
def entry (values : List F) (index : UInt32) : F := (values[index.toNat]?).getD 0.0

/-- The weights of both ends of an edge. -/
def endWeights (conductivities heatCapacities : List F) (edge : UInt32 × UInt32) :
    Except ConductionError (F × F) := do
  let weight := fun first second : UInt32 =>
    conductionRowWeight (entry conductivities first) (entry conductivities second)
      (entry heatCapacities first) (entry heatCapacities second)
  let firstWeight ← weight edge.1 edge.2
  let secondWeight ← weight edge.2 edge.1
  pure (firstWeight, secondWeight)

/-- The row sums with the weights of an edge. -/
def addRowWeights (rowSums : List F) (edge : UInt32 × UInt32) (weights : F × F) : List F :=
  let rowSums := rowSums.set edge.1.toNat (entry rowSums edge.1 + weights.1)
  rowSums.set edge.2.toNat (entry rowSums edge.2 + weights.2)

/-- `row_weights`. -/
def rowWeights (conductivities heatCapacities : List F) (edges : List (UInt32 × UInt32)) :
    Except ConductionError (List F) :=
  edges.foldlM (fun rowSums edge => do
    let weights ← endWeights conductivities heatCapacities edge
    pure (addRowWeights rowSums edge weights)) (List.replicate conductivities.length 0.0)

/-- `required_substeps_from_edges`. -/
def requiredSubstepsFromEdges (conductivities heatCapacities : List F)
    (edges : List (UInt32 × UInt32)) (secondsPerTick : F) : Except ConductionError UInt32 := do
  let elapsedScale := secondsPerTick / baseHeatStepSeconds
  let rowSums ← rowWeights conductivities heatCapacities edges
  let maximumScaledSum := rowSums.foldl fmax 0.0 * elapsedScale
  if !FloatFormat.isFinite maximumScaledSum ||
      decide (FloatFormat.ofNat maxConductionSubsteps < maximumScaledSum) then
    throw .tooManySubsteps
  pure (max (FloatFormat.toU32 (FloatFormat.ceil maximumScaledSum)) 1)

/-! ## Conduction -/

/-- A computation on the temperatures. -/
abbrev ConductionM (F α : Type) := Exec ConductionError (List F) α

/-- The temperatures after one edge conducted. -/
def conductPair (temperatures : List F) (edge : UInt32 × UInt32) (weights : F × F) : List F :=
  let difference := entry temperatures edge.2 - entry temperatures edge.1
  let temperatures := temperatures.set edge.1.toNat
    (entry temperatures edge.1 + difference * weights.1)
  temperatures.set edge.2.toNat (entry temperatures edge.2 - difference * weights.2)

/-- One edge of `apply_conduction_substep`. -/
def applyConductionEdge (conductivities heatCapacities : List F) (normalizedScale : F)
    (edge : UInt32 × UInt32) : ConductionM F Unit := do
  let (firstWeight, secondWeight) ← Exec.check fun _ => endWeights conductivities heatCapacities edge
  modify fun temperatures =>
    conductPair temperatures edge (firstWeight * normalizedScale, secondWeight * normalizedScale)

/-- `apply_conduction_substep`. -/
def applyConductionSubstep (conductivities heatCapacities : List F) (edges : List (UInt32 × UInt32))
    (normalizedScale : F) : ConductionM F Unit :=
  edges.forM (applyConductionEdge conductivities heatCapacities normalizedScale)

/-- The loop over the substeps; `shouldCancel` gives the answer to each check. -/
def conductionSubsteps (substep : ConductionM F Unit) (shouldCancel : Nat → Bool) :
    Nat → Nat → ConductionM F Unit
  | 0, _ => pure ()
  | remaining + 1, checks => do
    if shouldCancel checks then
      throw .cancelled
    substep
    conductionSubsteps substep shouldCancel remaining (checks + 1)

/-- `conduction_step_cancellable`. -/
def conductionStepCancellable (conductivities heatCapacities : List F)
    (edges : List (UInt32 × UInt32)) (secondsPerTick : F) (shouldCancel : Nat → Bool) :
    ConductionM F ConductionStats := do
  Exec.check fun temperatures =>
    validateValues temperatures conductivities heatCapacities secondsPerTick
  let canonical ← Exec.check fun temperatures => canonicalEdges edges temperatures.length
  let substeps ← Exec.check fun _ =>
    requiredSubstepsFromEdges conductivities heatCapacities canonical secondsPerTick
  let normalizedScale :=
    secondsPerTick / baseHeatStepSeconds / FloatFormat.ofNat substeps.toNat
  conductionSubsteps
    (applyConductionSubstep conductivities heatCapacities canonical normalizedScale) shouldCancel
    substeps.toNat 0
  return { substeps, edgesApplied := UInt64.ofNat canonical.length * substeps.toUInt64 }

/-- `conduction_step`. -/
def conductionStep (conductivities heatCapacities : List F) (edges : List (UInt32 × UInt32))
    (secondsPerTick : F) : ConductionM F ConductionStats :=
  conductionStepCancellable conductivities heatCapacities edges secondsPerTick fun _ => false

end Dogmos
