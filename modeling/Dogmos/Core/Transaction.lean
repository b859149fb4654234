import Dogmos.Core.SlotIndex

/-!
# Indexed transactions

An `IndexedTransaction` collects candidate records for mixtures.  The entries
are dense; a table from slot to entry index and a bit set of touched slots find
the entry of a handle.  Retiring an entry clears both but leaves the entry where
it is, so that the indexes of the others do not move.
-/

namespace Dogmos

/-- `TransactionError`. -/
inductive TransactionError
  | capacityExceeded
  | handleConflict (requested current : MixtureHandle)
  | unknownHandle (handle : MixtureHandle)
  | sameHandle (handle : MixtureHandle)
deriving DecidableEq

/-- `UNUSED_INDEX`: `u32::MAX`. -/
def unusedIndex : Nat := 4294967295

/-- `BITS_PER_WORD`. -/
def bitsPerWord : Nat := 64

/-- `TransactionEntry`. -/
structure TransactionEntry (T : Type) where
  handle : MixtureHandle
  expectedRevision : UInt32
  candidate : T

/-- `IndexedTransaction`; the touched bits are kept one by one, a word of the source at a
time. -/
structure IndexedTransaction (T : Type) where
  slotToIndex : List Nat
  touchedBits : List Bool
  entries : List (TransactionEntry T)
  maxEntries : Nat

/-- The bits of the words that cover a number of slots. -/
def coveredBits (slotCount : Nat) : Nat := (slotCount + (bitsPerWord - 1)) / bitsPerWord * bitsPerWord

namespace IndexedTransaction

variable {T : Type}

/-- The slot of a handle forgets the entry it pointed at. -/
def forget (transaction : IndexedTransaction T) (slot : Nat) : IndexedTransaction T :=
  { transaction with
    slotToIndex := transaction.slotToIndex.set slot unusedIndex
    touchedBits := transaction.touchedBits.set slot false }

/-- `IndexedTransaction::drain_entries`, and `clear`, which drops what it yields. -/
def clear (transaction : IndexedTransaction T) : IndexedTransaction T :=
  { transaction.entries.foldl (fun t entry => t.forget entry.handle.slot.toNat) transaction with
    entries := [] }

/-- `IndexedTransaction::prepare`. -/
def prepare (transaction : IndexedTransaction T) (slotCount maxEntries : Nat) :
    Except TransactionError (IndexedTransaction T) :=
  let transaction := transaction.clear
  if unusedIndex ≤ maxEntries then throw .capacityExceeded
  else
    pure
      { transaction with
        slotToIndex := resized transaction.slotToIndex slotCount unusedIndex
        touchedBits := resized transaction.touchedBits (coveredBits slotCount) false
        maxEntries := maxEntries }

/-- `IndexedTransaction::try_new`. -/
def tryNew (slotCount maxEntries : Nat) : Except TransactionError (IndexedTransaction T) :=
  if unusedIndex ≤ maxEntries then throw .capacityExceeded
  else
    pure
      { slotToIndex := List.replicate slotCount unusedIndex
        touchedBits := List.replicate (coveredBits slotCount) false
        entries := []
        maxEntries := maxEntries }

/-- `IndexedTransaction::entry_index`. -/
def entryIndex (transaction : IndexedTransaction T) (handle : MixtureHandle) : Option Nat :=
  let slot := handle.slot.toNat
  if transaction.touchedBits[slot]? = some true then
    match transaction.slotToIndex[slot]? with
    | some index =>
      if index ≠ unusedIndex ∧ (transaction.entries[index]?.map TransactionEntry.handle) = some handle then
        some index
      else none
    | none => none
  else none

/-- `IndexedTransaction::contains`. -/
def contains (transaction : IndexedTransaction T) (handle : MixtureHandle) : Bool :=
  (transaction.entryIndex handle).isSome

/-- `IndexedTransaction::touch`: the transaction with an entry for the handle. -/
def touch (transaction : IndexedTransaction T) (handle : MixtureHandle) (expectedRevision : UInt32)
    (initial : T) : Except TransactionError (IndexedTransaction T) :=
  let slot := handle.slot.toNat
  match transaction.slotToIndex[slot]? with
  | none => throw .capacityExceeded
  | some index =>
    if index ≠ unusedIndex then
      match transaction.entries[index]? with
      | some entry =>
        if entry.handle ≠ handle then throw (.handleConflict handle entry.handle)
        else pure transaction
      | none => pure transaction
    else if transaction.maxEntries ≤ transaction.entries.length then throw .capacityExceeded
    else
      pure
        { transaction with
          entries := transaction.entries ++ [⟨handle, expectedRevision, initial⟩]
          slotToIndex := transaction.slotToIndex.set slot transaction.entries.length
          touchedBits := transaction.touchedBits.set slot true }

/-- `IndexedTransaction::candidate`. -/
def candidate (transaction : IndexedTransaction T) (handle : MixtureHandle) : Option T := do
  let index ← transaction.entryIndex handle
  let entry ← transaction.entries[index]?
  pure entry.candidate

/-- The write through `IndexedTransaction::candidate_mut`. -/
def setCandidate (transaction : IndexedTransaction T) (handle : MixtureHandle) (value : T) :
    IndexedTransaction T :=
  match transaction.entryIndex handle with
  | none => transaction
  | some index =>
    { transaction with
      entries := transaction.entries.modify index fun entry => { entry with candidate := value } }

/-- `IndexedTransaction::candidate_pair_mut`, read. -/
def candidatePair (transaction : IndexedTransaction T) (first second : MixtureHandle) :
    Except TransactionError (T × T) :=
  if first = second then throw (.sameHandle first)
  else
    match transaction.candidate first with
    | none => throw (.unknownHandle first)
    | some firstCandidate =>
      match transaction.candidate second with
      | none => throw (.unknownHandle second)
      | some secondCandidate => pure (firstCandidate, secondCandidate)

/-- `IndexedTransaction::retire`. -/
def retire (transaction : IndexedTransaction T) (index : Nat) : IndexedTransaction T :=
  match transaction.entries[index]? with
  | none => transaction
  | some entry => transaction.forget entry.handle.slot.toNat

/-- `IndexedTransaction::clear_retired`. -/
def clearRetired (transaction : IndexedTransaction T) : IndexedTransaction T :=
  { transaction with entries := [] }

end IndexedTransaction

end Dogmos
