import Dogmos.Legacy.Mixture

/-!
# Legacy reactions

The reaction table of the in-process backend, ordered by priority, and which reactions of it a
mixture can run.  Reading the conditions may fill the mixture's heat capacity cache, which changes
no later reading.
-/

namespace Dogmos

namespace Legacy

variable {F : Type} [FloatFormat F]

/-- `Reaction`. -/
structure Reaction (F : Type) where
  id : UInt64
  priority : F
  minTempReq : Option F
  maxTempReq : Option F
  minEnerReq : Option F
  minFireReq : Option F
  minGasReqs : List (Nat × F)

/-- One gas of `get_burnability`. -/
def addBurnability (temperature : F) (acc : F × F) (entry : F × GasType F) : F × F :=
  let (amt, thisGasInfo) := entry
  if gasMinMoles < amt then
    match thisGasInfo.fireInfo with
    | .oxidation oxidationTemperature power =>
      if oxidationTemperature < temperature then
        let amount := amt * fmax (1.0 - oxidationTemperature / temperature) 0.0
        (acc.1 + amount * power, acc.2)
      else acc
    | .fuel fireTemperature burnRate =>
      if fireTemperature < temperature then
        let amount := amt * fmax (1.0 - fireTemperature / temperature) 0.0
        (acc.1, acc.2 + amount / burnRate)
      else acc
    | .none => acc
  else acc

/-- `get_burnability`: the oxidation power and the fuel amount of a mixture. -/
def Mixture.getBurnability (m : Mixture F) (table : GasTable F) : F × F :=
  (m.moles.zip table).foldl (addBurnability m.temperature) (0.0, 0.0)

/-- `Reaction::check_conditions`. -/
def Reaction.checkConditions (reaction : Reaction F) (mix : Mixture F) (table : GasTable F) :
    Bool :=
  reaction.minTempReq.all (fun tempReq => decide (tempReq ≤ mix.temperature)) &&
    reaction.maxTempReq.all (fun tempReq => decide (mix.temperature ≤ tempReq)) &&
    reaction.minGasReqs.all (fun (k, v) => decide (v ≤ mix.getMoles k)) &&
    reaction.minEnerReq.all (fun enerReq => decide (enerReq ≤ mix.thermalEnergy table)) &&
    reaction.minFireReq.all fun fireReq =>
      let (oxi, fuel) := mix.getBurnability table
      decide (fireReq ≤ fmin oxi fuel)

/-- `BTreeMap<ReactionPriority, Reaction>`. -/
abbrev ReactionInfo (F : Type) [FloatFormat F] :=
  Std.TreeMap F (Reaction F) FloatFormat.totalCmp

/-- `get_reaction_info` on the reactions it reads: the second one of a priority is ignored. -/
def getReactionInfo (reactions : List (Reaction F)) : ReactionInfo F :=
  reactions.foldl
    (fun reactionCache reaction =>
      if reactionCache.contains reaction.priority then reactionCache
      else reactionCache.insert reaction.priority reaction)
    ∅

/-- The values of the reaction table, the greatest priority first. -/
def ReactionInfo.downwards (reactions : ReactionInfo F) : List (Reaction F) :=
  (reactions.toList.map Prod.snd).reverse

/-- `all_reactable_with_slice`. -/
def Mixture.allReactableWithSlice (m : Mixture F) (table : GasTable F)
    (reactions : ReactionInfo F) : List UInt64 :=
  (reactions.downwards.filter fun thin => thin.checkConditions m table).map Reaction.id

end Legacy

end Dogmos
