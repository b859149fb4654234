import Mathlib.Data.Prod.Lex
import Mathlib.Data.UInt

/-!
# Handles

A mixture, a turf and a gameplay object are named by a slot of a table and the
generation of the slot's occupant.  Handles compare by slot first, as the
derived order of the source does (`lt_iff`), and a tree map keyed by handles
finds a key exactly when it is equal (`Std.LawfulEqOrd`).
-/

namespace Dogmos

/-- `MAX_GAS_SLOTS`: the gas amounts of a mixture are an array of this length. -/
abbrev maxGasSlots : Nat := 32

/-- A mixture: a slot of the mixture table and the generation of its occupant. -/
structure MixtureHandle where
  slot : UInt32
  generation : UInt32
deriving DecidableEq

/-- A turf: a slot of the turf table and the generation of its occupant. -/
structure TurfHandle where
  slot : UInt32
  generation : UInt32
deriving DecidableEq

/-- The object a gameplay event is about. -/
structure GameplayHandle where
  slot : UInt32
  generation : UInt32
deriving DecidableEq

/-- `GasId`: the position of a gas in the registry. -/
structure GasId where
  val : UInt16
deriving DecidableEq

/-- `ReactionId`: the position of a reaction in the registry. -/
structure ReactionId where
  val : UInt32
deriving DecidableEq

/-- `impl From<TurfHandle> for GameplayHandle`. -/
def GameplayHandle.ofTurf (handle : TurfHandle) : GameplayHandle :=
  ⟨handle.slot, handle.generation⟩

/-- A gas id as an index into a gas array. -/
abbrev GasId.index (id : GasId) : Nat := id.val.toNat

/-! ## The order of handles -/

/-- The key a mixture handle compares by. -/
def MixtureHandle.key (h : MixtureHandle) : ℕ ×ₗ ℕ := toLex (h.slot.toNat, h.generation.toNat)

/-- The key a turf handle compares by. -/
def TurfHandle.key (h : TurfHandle) : ℕ ×ₗ ℕ := toLex (h.slot.toNat, h.generation.toNat)

theorem MixtureHandle.key_injective : Function.Injective MixtureHandle.key := by
  rintro ⟨a, b⟩ ⟨c, d⟩ h
  simpa [MixtureHandle.key, UInt32.toNat_inj] using h

theorem TurfHandle.key_injective : Function.Injective TurfHandle.key := by
  rintro ⟨a, b⟩ ⟨c, d⟩ h
  simpa [TurfHandle.key, UInt32.toNat_inj] using h

instance : LinearOrder MixtureHandle := LinearOrder.lift' MixtureHandle.key MixtureHandle.key_injective

instance : LinearOrder TurfHandle := LinearOrder.lift' TurfHandle.key TurfHandle.key_injective

instance : Std.LawfulEqOrd MixtureHandle := ⟨compare_eq_iff_eq.1⟩

instance : Std.LawfulEqOrd TurfHandle := ⟨compare_eq_iff_eq.1⟩

theorem TurfHandle.lt_iff (a b : TurfHandle) :
    a < b ↔ a.slot < b.slot ∨ a.slot = b.slot ∧ a.generation < b.generation := by
  show toLex (a.slot.toNat, a.generation.toNat) < toLex (b.slot.toNat, b.generation.toNat) ↔ _
  rw [Prod.Lex.toLex_lt_toLex]
  simp [UInt32.lt_iff_toNat_lt, UInt32.toNat_inj]

end Dogmos
