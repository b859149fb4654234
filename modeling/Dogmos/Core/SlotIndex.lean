import Dogmos.Core.Handles

/-!
# Slot indexes

A `SlotIndex` is a table indexed by the slot of its key.  Clearing it only moves
the epoch on, so every entry carries the epoch it was written in and an entry of
an older epoch counts as absent.  A `SlotSet` is an index without values.

`SlotIndex.Fresh` is the invariant that makes the shortcut sound (no entry is
from a later epoch than the current one, and each sits at its key's own slot);
`get_insert` and `get_clear` are the map it then behaves as: one live key per
slot.
-/

namespace Dogmos

/-- `SlotKey`: the slot a key is stored at; keys of one slot exclude each other. -/
class SlotKey (K : Type) where
  slot : K → Nat

instance : SlotKey UInt32 := ⟨UInt32.toNat⟩

instance : SlotKey TurfHandle := ⟨fun handle => handle.slot.toNat⟩

instance : SlotKey MixtureHandle := ⟨fun handle => handle.slot.toNat⟩

/-- The largest epoch: `u64::MAX`. -/
def maxSlotEpoch : Nat := 2 ^ 64 - 1

/-- `SlotIndex`. -/
structure SlotIndex (K V : Type) where
  entries : List (Option (Nat × K × V))
  epoch : Nat

/-- The table with every slot up to and including `slot`, as `resize_with` leaves it. -/
def growTo {α : Type} (table : List α) (slot : Nat) (vacant : α) : List α :=
  table ++ List.replicate (slot + 1 - table.length) vacant

/-- The table with a given length, as `Vec::resize` leaves it. -/
def resized {α : Type} (table : List α) (length : Nat) (value : α) : List α :=
  table.take length ++ List.replicate (length - table.length) value

theorem length_resized {α : Type} (table : List α) (length : Nat) (value : α) :
    (resized table length value).length = length := by
  unfold resized
  rw [List.length_append, List.length_take, List.length_replicate]
  omega

namespace SlotIndex

variable {K V : Type} [SlotKey K] [DecidableEq K]

/-- `SlotIndex::new`. -/
def new : SlotIndex K V := { entries := [], epoch := 1 }

/-- `SlotIndex::clear`. -/
def clear (index : SlotIndex K V) : SlotIndex K V :=
  if index.epoch < maxSlotEpoch then { index with epoch := index.epoch + 1 }
  else { entries := [], epoch := 1 }

/-- `SlotIndex::get`. -/
def get (index : SlotIndex K V) (key : K) : Option V :=
  index.entries[SlotKey.slot key]?.join.bind fun (epoch, stored, value) =>
    if epoch = index.epoch ∧ stored = key then some value else none

/-- The table `SlotIndex::insert` leaves. -/
def insert (index : SlotIndex K V) (key : K) (value : V) : SlotIndex K V :=
  { index with
    entries := (growTo index.entries (SlotKey.slot key) none).set (SlotKey.slot key)
      (some (index.epoch, key, value)) }

/-- `SlotIndex::contains_key`. -/
def containsKey (index : SlotIndex K V) (key : K) : Bool := (index.get key).isSome

/-- Every entry is of the current epoch or an older one and sits at its key's slot. -/
def Fresh (index : SlotIndex K V) : Prop :=
  ∀ slot epoch key value, index.entries[slot]? = some (some (epoch, key, value)) →
    epoch ≤ index.epoch ∧ SlotKey.slot key = slot

end SlotIndex

/-! ## Growing a table -/

theorem getElem?_growTo {α : Type} (table : List α) (slot n : Nat) (vacant : α) :
    (growTo table slot vacant)[n]? =
      if n < table.length then table[n]? else if n ≤ slot then some vacant else none := by
  unfold growTo
  by_cases h : n < table.length
  · rw [if_pos h, List.getElem?_append_left h]
  · rw [if_neg h, List.getElem?_append_right (by omega), List.getElem?_replicate]
    by_cases hs : n ≤ slot
    · rw [if_pos hs, if_pos (by omega)]
    · rw [if_neg hs, if_neg (by omega)]

theorem length_growTo {α : Type} (table : List α) (slot : Nat) (vacant : α) :
    (growTo table slot vacant).length = max table.length (slot + 1) := by
  rw [growTo, List.length_append, List.length_replicate]
  omega

namespace SlotIndex

section Fresh

variable {K V : Type} [SlotKey K]

theorem fresh_new : (new : SlotIndex K V).Fresh := by
  intro slot epoch key value h
  simp [new] at h

theorem fresh_clear {index : SlotIndex K V} (h : index.Fresh) : index.clear.Fresh := by
  intro slot epoch key value he
  unfold clear at he ⊢
  split at he
  · obtain ⟨hle, hslot⟩ := h slot epoch key value he
    rw [if_pos ‹_›]
    exact ⟨Nat.le_succ_of_le hle, hslot⟩
  · simp at he

theorem getElem?_insert (index : SlotIndex K V) (key : K) (value : V) (slot : Nat) :
    (index.insert key value).entries[slot]? =
      if slot = SlotKey.slot key then some (some (index.epoch, key, value))
      else (growTo index.entries (SlotKey.slot key) none)[slot]? := by
  have hlen : SlotKey.slot key < (growTo index.entries (SlotKey.slot key) none).length := by
    rw [length_growTo]
    omega
  show ((growTo index.entries (SlotKey.slot key) none).set _ _)[slot]? = _
  rw [List.getElem?_set]
  by_cases h : SlotKey.slot key = slot
  · rw [if_pos h, if_pos hlen, if_pos h.symm]
  · rw [if_neg h, if_neg (fun h' => h h'.symm)]

theorem fresh_insert {index : SlotIndex K V} (h : index.Fresh) (key : K) (value : V) :
    (index.insert key value).Fresh := by
  intro slot epoch key' value' he
  rw [getElem?_insert] at he
  split at he
  · simp only [Option.some.injEq, Prod.mk.injEq] at he
    obtain ⟨rfl, rfl, rfl⟩ := he
    exact ⟨le_rfl, by omega⟩
  · rw [getElem?_growTo] at he
    split at he
    · exact h slot epoch key' value' he
    · split at he <;> simp at he

end Fresh

variable {K V : Type} [SlotKey K] [DecidableEq K]

@[simp] theorem get_new (key : K) : (new : SlotIndex K V).get key = none := by
  simp [new, get]

/-- Clearing leaves no key behind. -/
theorem get_clear {index : SlotIndex K V} (h : index.Fresh) (key : K) :
    index.clear.get key = none := by
  unfold get clear
  by_cases hepoch : index.epoch < maxSlotEpoch
  · rw [if_pos hepoch]
    rcases he : index.entries[SlotKey.slot key]? with _ | _ | ⟨epoch, stored, value⟩
    · simp
    · simp
    · have hle := (h _ _ _ _ he).1
      show (if epoch = index.epoch + 1 ∧ stored = key then some value else none) = none
      rw [if_neg (by omega)]
  · rw [if_neg hepoch]
    simp

/-- A write is read back under its own key, hides the other keys of its slot and leaves the
other slots alone. -/
theorem get_insert (index : SlotIndex K V) (key key' : K) (value : V) :
    (index.insert key value).get key' =
      if SlotKey.slot key' = SlotKey.slot key then (if key' = key then some value else none)
      else index.get key' := by
  rw [get, getElem?_insert]
  by_cases hslot : SlotKey.slot key' = SlotKey.slot key
  · rw [if_pos hslot, if_pos hslot]
    show (if index.epoch = index.epoch ∧ key = key' then some value else none) = _
    by_cases hkey : key' = key
    · rw [if_pos ⟨rfl, hkey.symm⟩, if_pos hkey]
    · rw [if_neg (fun h => hkey h.2.symm), if_neg hkey]
  · rw [if_neg hslot, if_neg hslot, getElem?_growTo, get]
    by_cases hlen : SlotKey.slot key' < index.entries.length
    · rw [if_pos hlen]
      rfl
    · rw [if_neg hlen, List.getElem?_eq_none (by omega)]
      split <;> rfl

end SlotIndex

/-! ## Slot sets -/

/-- `SlotSet`. -/
abbrev SlotSet (K : Type) := SlotIndex K Unit

namespace SlotSet

variable {K : Type} [SlotKey K] [DecidableEq K]

/-- `SlotSet::contains`. -/
def contains (set : SlotSet K) (key : K) : Bool := SlotIndex.containsKey set key

/-- `SlotSet::insert`: whether the key was absent, and the set with it. -/
def insertNew (set : SlotSet K) (key : K) : Bool × SlotSet K :=
  (!SlotIndex.containsKey set key, SlotIndex.insert set key ())

/-- `SlotSet::from_iter`. -/
def ofList (keys : List K) : SlotSet K :=
  keys.foldl (fun set key => SlotIndex.insert set key ()) SlotIndex.new

theorem contains_insert (set : SlotSet K) (key key' : K) :
    contains (SlotIndex.insert set key ()) key' =
      if SlotKey.slot key' = SlotKey.slot key then decide (key' = key) else contains set key' := by
  unfold contains SlotIndex.containsKey
  rw [SlotIndex.get_insert]
  by_cases hslot : SlotKey.slot key' = SlotKey.slot key
  · rw [if_pos hslot, if_pos hslot]
    by_cases hkey : key' = key
    · simp [hkey]
    · simp [hkey]
  · rw [if_neg hslot, if_neg hslot]

theorem contains_new (key : K) : contains (SlotIndex.new : SlotSet K) key = false := by
  unfold contains SlotIndex.containsKey
  rw [SlotIndex.get_new]
  rfl

theorem contains_clear {set : SlotSet K} (h : SlotIndex.Fresh set) (key : K) :
    contains (SlotIndex.clear set) key = false := by
  unfold contains SlotIndex.containsKey
  rw [SlotIndex.get_clear h]
  rfl

/-- Inserting a list of keys no two of which exclude each other. -/
theorem contains_foldl_insert {keys : List K} {set : SlotSet K} {key : K}
    (hset : ∀ key, contains set key = false)
    (hkeys : ∀ a ∈ keys, ∀ b ∈ keys, SlotKey.slot a = SlotKey.slot b → a = b) :
    contains (keys.foldl (fun set key => SlotIndex.insert set key ()) set) key =
      decide (key ∈ keys) := by
  induction keys using List.reverseRecOn with
  | nil => simpa using hset key
  | append_singleton rest last ih =>
    rw [List.foldl_append, List.foldl_cons, List.foldl_nil, contains_insert]
    by_cases hslot : SlotKey.slot key = SlotKey.slot last
    · rw [if_pos hslot]
      by_cases hkey : key = last
      · simp [hkey]
      · have hrest : key ∉ rest := fun hmem =>
          hkey (hkeys key (by simp [hmem]) last (by simp) hslot)
        simp [hkey, hrest]
    · have hkey : key ≠ last := fun heq => hslot (by rw [heq])
      rw [if_neg hslot, ih fun a ha b hb => hkeys a (by simp [ha]) b (by simp [hb])]
      simp [hkey]

end SlotSet

end Dogmos
