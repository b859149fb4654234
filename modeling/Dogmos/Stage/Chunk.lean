import Dogmos.Core.State

/-!
# Chunks

A stage is run in chunks.  A chunk is a computation over `Chunk`: the world, the
work done so far, and the number of times the request was asked whether it is
cancelled.  `phase` is the shape every part of a stage has: a loop over units of
work that the work limit may interrupt, and what follows when it was not.
-/

namespace Dogmos

variable {F : Type}

/-- What a chunk works on. -/
structure Chunk (F : Type) where
  world : DogmosWorld F
  workItems : Nat
  checks : Nat

/-- A part of a chunk. -/
abbrev ChunkM (F α : Type) := Exec WorldError (Chunk F) α

namespace Chunk

/-- An operation of the world inside a chunk. -/
def onWorld {α : Type} (m : WorldM F α) : ChunkM F α := do
  let chunk ← get
  set { chunk with world := m.final chunk.world }
  Exec.check fun _ => m.result chunk.world

/-- Fails when the request is cancelled; `shouldCancel` gives the answer to each check. -/
def checkCancelled (shouldCancel : Nat → Bool) : ChunkM F Unit := do
  let chunk ← get
  set { chunk with checks := chunk.checks + 1 }
  if shouldCancel chunk.checks then
    throw .cancelled

/-- Counts one unit of work. -/
def countWork : ChunkM F Unit :=
  modify fun chunk => { chunk with workItems := chunk.workItems + 1 }

/-- A loop that does units of work until there is none left or the budget is used up. -/
def workLoop (unit : ChunkM F Bool) : Nat → ChunkM F Unit
  | 0 => pure ()
  | budget + 1 => do
    let worked ← unit
    if worked then do
      countWork
      workLoop unit budget

/-- `while work_items < work_limit && ..`. -/
def workWhile (workLimit : Nat) (unit : ChunkM F Bool) : ChunkM F Unit := do
  let chunk ← get
  workLoop unit (workLimit - chunk.workItems)

/-- A unit of work that checks for cancellation before it starts. -/
def checkedBefore (shouldCancel : Nat → Bool) (available : DogmosWorld F → Bool)
    (m : WorldM F Unit) : ChunkM F Bool := do
  let chunk ← get
  if available chunk.world then do
    checkCancelled shouldCancel
    onWorld m
    return true
  else return false

/-- A unit of work that checks for cancellation after it is done. -/
def checkedAfter (shouldCancel : Nat → Bool) (m : WorldM F Bool) : ChunkM F Bool := do
  let worked ← onWorld m
  if worked then do
    checkCancelled shouldCancel
    return true
  else return false

/-- The result of a chunk that leaves work behind. -/
def pendingResult (chunk : Chunk F) (remaining : Nat) : StageChunkResult :=
  { workItems := UInt32.ofNat chunk.workItems
    pending := true
    remainingEstimate := UInt32.ofNatClamp remaining }

/-- The result of a chunk that completes its stage. -/
def finishedResult (chunk : Chunk F) : StageChunkResult :=
  { workItems := UInt32.ofNat chunk.workItems }

/-- A phase of a stage: its units of work, up to the limit, and what follows once none remains. -/
def phase (workLimit : Nat) (unit : ChunkM F Bool) (remaining : DogmosWorld F → Nat)
    (next : ChunkM F StageChunkResult) : ChunkM F StageChunkResult := do
  workWhile workLimit unit
  let chunk ← get
  if remaining chunk.world ≠ 0 then return pendingResult chunk (remaining chunk.world)
  else next

end Chunk


end Dogmos
