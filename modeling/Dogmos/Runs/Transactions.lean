import Dogmos.Components.Candidates
import Dogmos.Lib.System

/-!
# Transactions over whole runs

The table, the bits and the entries of a transaction are meant to describe one set of handles.  An
entry is live from its touch to its retirement; a retired entry stays in the list, and nothing
leads to it, until the list is cleared.

* `TransactionRun` — a transaction with the entries that were retired and what it was prepared for.
* `Indexed` — what table, bits and live entries say of each other, kept by every operation that
  retires live entries only and clears retired ones only (`indexed_step`).
* `Indexed.touch_live`, `Indexed.touch_full` — what touching a handle does, and when it fails.
-/

namespace Dogmos

open IndexedTransaction

variable {T : Type}

/-- What is done to a transaction. -/
inductive TransactionOp (T : Type)
  | prepare (slotCount maxEntries : Nat)
  | touch (handle : MixtureHandle) (expectedRevision : UInt32) (initial : T)
  /-- A write through `candidate_mut`. -/
  | setCandidate (handle : MixtureHandle) (value : T)
  /-- The writes through `candidate_pair_mut`. -/
  | setPair (first second : MixtureHandle) (values : T × T)
  | retire (index : Nat)
  | clearRetired
  /-- `clear`, and `drain_entries`. -/
  | clear

/-- A transaction, the indexes of its retired entries, and what it was last prepared for. -/
structure TransactionRun (T : Type) where
  transaction : IndexedTransaction T
  retired : List Nat
  slotCount : Nat
  maxEntries : Nat

namespace TransactionRun

/-- The entry at an index is live, and has a slot. -/
def LiveAt (r : TransactionRun T) (index slot : Nat) : Prop :=
  index ∉ r.retired ∧
    ∃ entry, r.transaction.entries[index]? = some entry ∧ entry.handle.slot.toNat = slot

/-- One operation.  Preparing clears the transaction before it can fail. -/
def step (r : TransactionRun T) : TransactionOp T → TransactionRun T
  | .prepare slotCount maxEntries =>
    match r.transaction.prepare slotCount maxEntries with
    | .ok transaction => { transaction, retired := [], slotCount, maxEntries }
    | .error _ => { r with transaction := r.transaction.clear, retired := [] }
  | .touch handle expectedRevision initial =>
    match r.transaction.touch handle expectedRevision initial with
    | .ok transaction => { r with transaction }
    | .error _ => r
  | .setCandidate handle value =>
    { r with transaction := r.transaction.setCandidate handle value }
  | .setPair first second values =>
    match r.transaction.candidatePair first second with
    | .ok _ =>
      { r with
        transaction :=
          (r.transaction.setCandidate first values.1).setCandidate second values.2 }
    | .error _ => r
  | .retire index =>
    { r with transaction := r.transaction.retire index, retired := index :: r.retired }
  | .clearRetired => { r with transaction := r.transaction.clearRetired, retired := [] }
  | .clear => { r with transaction := r.transaction.clear, retired := [] }

/-- A new transaction. -/
def Initial (r : TransactionRun T) : Prop :=
  tryNew r.slotCount r.maxEntries = .ok r.transaction ∧ r.retired = []

/-- A live entry is retired, and retired entries are cleared when no entry is live. -/
def Admissible (r : TransactionRun T) : TransactionOp T → Prop
  | .retire index => ∃ slot, r.LiveAt index slot
  | .clearRetired => ∀ index slot, ¬r.LiveAt index slot
  | _ => True

/-- The table, the bits and the live entries describe one set of handles. -/
structure Indexed (r : TransactionRun T) : Prop where
  wellFormed : r.transaction.WellFormed
  /-- The table leads from the slot of a live entry to it. -/
  points : ∀ index slot : Nat, r.LiveAt index slot → r.transaction.slotToIndex[slot]? = some index
  /-- The table leads to live entries only. -/
  live : ∀ slot index : Nat, r.transaction.slotToIndex[slot]? = some index → index ≠ unusedIndex →
    r.LiveAt index slot
  /-- A slot that is marked leads to an entry. -/
  marked : ∀ slot : Nat, r.transaction.touchedBits[slot]? = some true →
    ∃ index, r.transaction.slotToIndex[slot]? = some index ∧ index ≠ unusedIndex
  inside : ∀ index ∈ r.retired, index < r.transaction.entries.length
  slots : r.transaction.slotToIndex.length = r.slotCount
  room : r.transaction.maxEntries = r.maxEntries

variable {r : TransactionRun T}

theorem LiveAt.lt {index slot : Nat} (h : r.LiveAt index slot) :
    index < r.transaction.entries.length := by
  obtain ⟨_, entry, hentry, _⟩ := h
  exact (List.getElem?_eq_some_iff.1 hentry).1

namespace Indexed

/-- The index of a live entry is an index. -/
theorem used (h : r.Indexed) {index slot : Nat} (hlive : r.LiveAt index slot) :
    index ≠ unusedIndex := by
  have hlt := hlive.lt
  have hshort := h.wellFormed.short
  have hbounded := h.wellFormed.bounded
  omega

/-- Live entries have distinct slots. -/
theorem unique (h : r.Indexed) {i j slot : Nat} (hi : r.LiveAt i slot) (hj : r.LiveAt j slot) :
    i = j := by
  have hpoints := h.points i slot hi
  rw [h.points j slot hj] at hpoints
  exact (Option.some.inj hpoints).symm

/-- A slot is marked exactly when a live entry has it. -/
theorem marked_iff (h : r.Indexed) (slot : Nat) :
    r.transaction.touchedBits[slot]? = some true ↔ ∃ index, r.LiveAt index slot := by
  constructor
  · intro hmarked
    obtain ⟨index, hindex, hused⟩ := h.marked slot hmarked
    exact ⟨index, h.live slot index hindex hused⟩
  · rintro ⟨index, hlive⟩
    exact (h.wellFormed.used slot index (h.points index slot hlive) (h.used hlive)).1

/-- A handle is found where a live entry has it. -/
theorem entryIndex_iff (h : r.Indexed) {handle : MixtureHandle} {index : Nat} :
    r.transaction.entryIndex handle = some index ↔
      index ∉ r.retired ∧
        ∃ entry, r.transaction.entries[index]? = some entry ∧ entry.handle = handle := by
  rw [entryIndex_eq_some]
  constructor
  · rintro ⟨_, hindex, hused, entry, hentry, hhandle⟩
    exact ⟨(h.live _ index hindex hused).1, entry, hentry, hhandle⟩
  · rintro ⟨hretired, entry, hentry, rfl⟩
    have hlive : r.LiveAt index entry.handle.slot.toNat := ⟨hretired, entry, hentry, rfl⟩
    exact ⟨(h.marked_iff _).2 ⟨index, hlive⟩, h.points index _ hlive, h.used hlive, entry, hentry,
      rfl⟩

/-- Touching the handle of a live entry finds the entry. -/
theorem touch_live (h : r.Indexed) {index : Nat} {entry : TransactionEntry T}
    (hretired : index ∉ r.retired) (hentry : r.transaction.entries[index]? = some entry)
    (revision : UInt32) (initial : T) :
    r.transaction.touch entry.handle revision initial = .ok r.transaction ∧
      r.transaction.candidate entry.handle = some entry.candidate := by
  have hlive : r.LiveAt index entry.handle.slot.toNat := ⟨hretired, entry, hentry, rfl⟩
  have hpoints := h.points index _ hlive
  refine ⟨?_, candidate_eq_some.2
    ⟨index, entry, h.entryIndex_iff.2 ⟨hretired, entry, hentry, rfl⟩, hentry, rfl⟩⟩
  unfold IndexedTransaction.touch
  dsimp only
  rw [hpoints]
  dsimp only
  rw [if_pos (h.used hlive), hentry]
  dsimp only
  rw [if_neg (not_not.2 rfl)]
  rfl

/-- Touching a handle finds no room exactly when its slot lies outside the table, or when its slot
is not marked and the list has all the entries it was prepared for. -/
theorem touch_full (h : r.Indexed) (handle : MixtureHandle) (revision : UInt32) (initial : T) :
    r.transaction.touch handle revision initial = .error .capacityExceeded ↔
      r.slotCount ≤ handle.slot.toNat ∨
        r.transaction.touchedBits[handle.slot.toNat]? ≠ some true ∧
          r.maxEntries ≤ r.transaction.entries.length := by
  unfold IndexedTransaction.touch
  dsimp only
  rcases hindex : r.transaction.slotToIndex[handle.slot.toNat]? with _ | index
  · have hout := List.getElem?_eq_none_iff.1 hindex
    rw [h.slots] at hout
    exact ⟨fun _ => .inl hout, fun _ => rfl⟩
  · have hin := (List.getElem?_eq_some_iff.1 hindex).1
    rw [h.slots] at hin
    dsimp only
    by_cases hused : index ≠ unusedIndex
    · obtain ⟨htouched, entry, hentry, _⟩ := h.wellFormed.used _ index hindex hused
      rw [if_pos hused, hentry]
      dsimp only
      constructor
      · intro heq
        split at heq
        · cases heq
        · cases heq
      · rintro (hout | ⟨hmark, _⟩)
        · omega
        · exact absurd htouched hmark
    · have hmark : r.transaction.touchedBits[handle.slot.toNat]? ≠ some true := by
        intro hmarked
        obtain ⟨found, hfound, hfoundUsed⟩ := h.marked _ hmarked
        rw [hindex] at hfound
        cases hfound
        exact hused hfoundUsed
      rw [if_neg hused, h.room]
      constructor
      · intro heq
        split at heq
        · next hfull => exact .inr ⟨hmark, hfull⟩
        · cases heq
      · rintro (hout | ⟨_, hfull⟩)
        · omega
        · rw [if_pos hfull]
          rfl

end Indexed

/-! ## Transactions that are empty -/

/-- No slot leads anywhere, and none is marked. -/
structure Blank (t : IndexedTransaction T) : Prop where
  table : ∀ slot index : Nat, t.slotToIndex[slot]? = some index → index = unusedIndex
  bits : ∀ slot : Nat, t.touchedBits[slot]? ≠ some true

/-- A blank transaction without entries. -/
theorem indexed_of_blank {t : IndexedTransaction T} {slotCount maxEntries : Nat}
    (hblank : Blank t) (hwell : t.WellFormed) (hentries : t.entries = [])
    (hslots : t.slotToIndex.length = slotCount) (hroom : t.maxEntries = maxEntries) :
    Indexed { transaction := t, retired := [], slotCount, maxEntries } where
  wellFormed := hwell
  points index slot hlive := by
    have hlt : index < t.entries.length := hlive.lt
    rw [hentries] at hlt
    exact absurd hlt (Nat.not_lt_zero _)
  live slot index hindex hused := absurd (hblank.table slot index hindex) hused
  marked slot hmarked := absurd hmarked (hblank.bits slot)
  inside _ hretired := absurd hretired List.not_mem_nil
  slots := hslots
  room := hroom

theorem blank_tryNew {slotCount maxEntries : Nat} {t : IndexedTransaction T}
    (h : tryNew slotCount maxEntries = .ok t) : Blank t := by
  unfold tryNew at h
  split at h
  · cases h
  · cases h
    refine ⟨fun slot index hindex => ?_, fun slot hmarked => ?_⟩
    · exact List.eq_of_mem_replicate (List.mem_of_getElem? hindex)
    · cases List.eq_of_mem_replicate (List.mem_of_getElem? hmarked)

/-- Bits that stay when slots are forgotten are those of other slots. -/
theorem marked_forgetAll (entries : List (TransactionEntry T)) (t : IndexedTransaction T)
    {slot : Nat}
    (h : (entries.foldl (fun t entry => t.forget entry.handle.slot.toNat) t).touchedBits[slot]? =
      some true) :
    t.touchedBits[slot]? = some true ∧ ∀ entry ∈ entries, entry.handle.slot.toNat ≠ slot := by
  induction entries generalizing t with
  | nil => exact ⟨h, fun _ hmem => absurd hmem List.not_mem_nil⟩
  | cons entry rest ih =>
    obtain ⟨hbefore, hothers⟩ := ih (t.forget entry.handle.slot.toNat) h
    simp only [forget] at hbefore
    by_cases hslot : entry.handle.slot.toNat = slot
    · rw [hslot, List.getElem?_set_self'] at hbefore
      obtain ⟨_, _, hfalse⟩ := Option.map_eq_some_iff.1 hbefore
      cases hfalse
    · rw [List.getElem?_set_ne hslot] at hbefore
      refine ⟨hbefore, fun other hother => ?_⟩
      rcases List.mem_cons.1 hother with rfl | hrest
      · exact hslot
      · exact hothers other hrest

/-- Clearing leaves nothing behind, retired entries included. -/
theorem Indexed.blank_clear (h : r.Indexed) : Blank r.transaction.clear := by
  refine ⟨fun slot index hindex => h.wellFormed.clear_unused hindex, fun slot hmarked => ?_⟩
  obtain ⟨hbefore, hothers⟩ := marked_forgetAll r.transaction.entries r.transaction hmarked
  obtain ⟨index, _, entry, hentry, hslot⟩ := (h.marked_iff slot).1 hbefore
  exact hothers entry (List.mem_of_getElem? hentry) hslot

theorem Indexed.clear (h : r.Indexed) :
    Indexed { r with transaction := r.transaction.clear, retired := [] } := by
  obtain ⟨htable, _, hroom⟩ := sizes_forgetAll r.transaction.entries r.transaction
  exact indexed_of_blank h.blank_clear h.wellFormed.clear rfl (htable.trans h.slots)
    (hroom.trans h.room)

/-- Where no entry is live, the list can be cleared alone. -/
theorem Indexed.clearRetired (h : r.Indexed) (hnone : ∀ index slot, ¬r.LiveAt index slot) :
    Indexed { r with transaction := r.transaction.clearRetired, retired := [] } := by
  have hblank : Blank r.transaction.clearRetired := by
    refine ⟨fun slot index hindex => ?_, fun slot hmarked => ?_⟩
    · by_contra hused
      exact hnone index slot (h.live slot index hindex hused)
    · obtain ⟨index, hlive⟩ := (h.marked_iff slot).1 hmarked
      exact hnone index slot hlive
  exact indexed_of_blank hblank (h.wellFormed.clearRetired hblank.table) rfl h.slots h.room

/-- Preparing resizes a transaction that was cleared. -/
theorem Indexed.blank_prepare (h : r.Indexed) {slotCount maxEntries : Nat}
    {t : IndexedTransaction T} (hprepare : r.transaction.prepare slotCount maxEntries = .ok t) :
    Blank t := by
  have hcleared := h.blank_clear
  unfold IndexedTransaction.prepare at hprepare
  dsimp only at hprepare
  split at hprepare
  · cases hprepare
  · cases hprepare
    refine ⟨fun slot index hindex => ?_, fun slot hmarked => ?_⟩
    · rcases List.mem_append.1 (List.mem_of_getElem? hindex) with hold | hnew
      · obtain ⟨place, hplace⟩ := List.mem_iff_getElem?.1 (List.mem_of_mem_take hold)
        exact hcleared.table place index hplace
      · exact List.eq_of_mem_replicate hnew
    · rcases List.mem_append.1 (List.mem_of_getElem? hmarked) with hold | hnew
      · obtain ⟨place, hplace⟩ := List.mem_iff_getElem?.1 (List.mem_of_mem_take hold)
        exact hcleared.bits place hplace
      · cases List.eq_of_mem_replicate hnew

/-! ## Steps -/

theorem Indexed.touch (h : r.Indexed) {handle : MixtureHandle} {revision : UInt32} {initial : T}
    {t : IndexedTransaction T} (htouch : r.transaction.touch handle revision initial = .ok t) :
    Indexed { r with transaction := t } := by
  rcases touch_ok htouch with rfl | ⟨hindex, heq⟩
  · exact h
  have hwell := (h.wellFormed.touch (contains_of_unused hindex) htouch).1
  have hlt := (List.getElem?_eq_some_iff.1 hindex).1
  have hfresh : r.transaction.entries.length ∉ r.retired := fun hretired =>
    Nat.lt_irrefl _ (h.inside _ hretired)
  have hlive : ∀ index slot, index ∉ r.retired →
      ((∃ entry, (r.transaction.entries ++ [⟨handle, revision, initial⟩])[index]? = some entry ∧
          entry.handle.slot.toNat = slot) ↔
        r.LiveAt index slot ∨ index = r.transaction.entries.length ∧ handle.slot.toNat = slot) := by
    intro index slot hretired
    rcases Nat.lt_trichotomy index r.transaction.entries.length with hold | rfl | hout
    · rw [List.getElem?_append_left hold]
      exact ⟨fun hentry => .inl ⟨hretired, hentry⟩, fun hcase => hcase.elim (fun h => h.2)
        fun h => absurd h.1 (Nat.ne_of_lt hold)⟩
    · rw [List.getElem?_concat_length]
      constructor
      · rintro ⟨entry, hentry, rfl⟩
        cases hentry
        exact .inr ⟨rfl, rfl⟩
      · rintro (hlive | ⟨_, hslot⟩)
        · exact absurd hlive.lt (Nat.lt_irrefl _)
        · exact ⟨_, rfl, hslot⟩
    · have hnone : (r.transaction.entries ++ [⟨handle, revision, initial⟩])[index]? = none := by
        rw [List.getElem?_eq_none_iff, List.length_append, List.length_singleton]
        omega
      rw [hnone]
      constructor
      · rintro ⟨entry, hentry, _⟩
        cases hentry
      · rintro (hlive | ⟨rfl, _⟩)
        · exact absurd hlive.lt (Nat.lt_asymm hout)
        · exact absurd hout (Nat.lt_irrefl _)
  -- the slot led nowhere, so no live entry had it
  have hvacant : ∀ index slot, r.LiveAt index slot → handle.slot.toNat ≠ slot := by
    rintro index slot hat rfl
    have hpoints := h.points index _ hat
    rw [hindex] at hpoints
    exact h.used hat (Option.some.inj hpoints).symm
  subst heq
  refine ⟨hwell, ?_, ?_, ?_, ?_, by simpa using h.slots, h.room⟩
  · rintro index slot ⟨hretired, hentry⟩
    dsimp only
    rcases (hlive index slot hretired).1 hentry with hat | ⟨rfl, rfl⟩
    · rw [List.getElem?_set_ne (hvacant index slot hat)]
      exact h.points index slot hat
    · exact List.getElem?_set_self hlt
  · intro slot index hplace hused
    dsimp only at hplace
    by_cases hslot : handle.slot.toNat = slot
    · subst hslot
      rw [List.getElem?_set_self hlt] at hplace
      cases hplace
      exact ⟨hfresh, (hlive _ _ hfresh).2 (.inr ⟨rfl, rfl⟩)⟩
    · rw [List.getElem?_set_ne hslot] at hplace
      have hat := h.live slot index hplace hused
      exact ⟨hat.1, (hlive index slot hat.1).2 (.inl hat)⟩
  · intro slot hmarked
    dsimp only at hmarked ⊢
    by_cases hslot : handle.slot.toNat = slot
    · subst hslot
      have hshort := hwell.short
      have hbounded := hwell.bounded
      simp only [List.length_append, List.length_singleton] at hshort hbounded
      exact ⟨_, List.getElem?_set_self hlt, by omega⟩
    · rw [List.getElem?_set_ne hslot] at hmarked ⊢
      exact h.marked slot hmarked
  · intro index hretired
    have hin := h.inside index hretired
    simp only [List.length_append, List.length_singleton]
    omega

/-- Writing candidates leaves the handles alone. -/
theorem Indexed.setCandidate (h : r.Indexed) (handle : MixtureHandle) (value : T) :
    Indexed { r with transaction := r.transaction.setCandidate handle value } := by
  have hwell := h.wellFormed.setCandidate handle value
  unfold IndexedTransaction.setCandidate at hwell ⊢
  rcases hindex : r.transaction.entryIndex handle with _ | written
  · exact h
  rw [hindex] at hwell
  have hentries : ∀ (index slot : Nat),
      ((∃ entry, (r.transaction.entries.modify written fun entry =>
          { entry with candidate := value })[index]? = some entry ∧
          entry.handle.slot.toNat = slot) ↔
        ∃ entry, r.transaction.entries[index]? = some entry ∧ entry.handle.slot.toNat = slot) := by
    intro index slot
    rw [List.getElem?_modify]
    rcases r.transaction.entries[index]? with _ | entry
    · simp
    · by_cases hwritten : written = index <;> simp [hwritten]
  refine ⟨hwell, ?_, ?_, h.marked, by simpa using h.inside, h.slots, h.room⟩
  · rintro index slot ⟨hretired, hentry⟩
    exact h.points index slot ⟨hretired, (hentries index slot).1 hentry⟩
  · intro slot index hplace hused
    obtain ⟨hretired, hentry⟩ := h.live slot index hplace hused
    exact ⟨hretired, (hentries index slot).2 hentry⟩

/-- A live entry is retired. -/
theorem Indexed.retire (h : r.Indexed) {index slot : Nat} (hlive : r.LiveAt index slot) :
    Indexed { r with
      transaction := r.transaction.retire index, retired := index :: r.retired } := by
  have hin := hlive.lt
  obtain ⟨entry, hentry, hslot⟩ := hlive.2
  have hretire : r.transaction.retire index = r.transaction.forget slot := by
    unfold IndexedTransaction.retire
    rw [hentry, ← hslot]
  rw [hretire]
  refine ⟨h.wellFormed.forget slot, ?_, ?_, ?_, ?_, ?_, h.room⟩
  · rintro place other ⟨hretired, hfound⟩
    rw [List.mem_cons, not_or] at hretired
    have hat : r.LiveAt place other := ⟨hretired.2, hfound⟩
    have hne : slot ≠ other := by
      rintro rfl
      exact hretired.1 (h.unique hat hlive)
    simp only [forget]
    rw [List.getElem?_set_ne hne]
    exact h.points place other hat
  · intro other place hplace hused
    obtain ⟨hne, hbefore⟩ := getElem?_forget hplace hused
    have hat := h.live other place hbefore hused
    refine ⟨?_, hat.2⟩
    rw [List.mem_cons, not_or]
    refine ⟨?_, hat.1⟩
    rintro rfl
    obtain ⟨found, hfound, hother⟩ := hat.2
    rw [hentry] at hfound
    cases hfound
    exact hne (hother.symm.trans hslot)
  · intro other hmarked
    simp only [forget] at hmarked ⊢
    by_cases hother : slot = other
    · rw [hother, List.getElem?_set_self'] at hmarked
      obtain ⟨_, _, hfalse⟩ := Option.map_eq_some_iff.1 hmarked
      cases hfalse
    · rw [List.getElem?_set_ne hother] at hmarked ⊢
      exact h.marked other hmarked
  · intro place hplace
    rcases List.mem_cons.1 hplace with rfl | hretired
    · exact hin
    · exact h.inside place hretired
  · simpa [forget] using h.slots

/-- One operation keeps table, bits and live entries together. -/
theorem indexed_step {op : TransactionOp T} (h : r.Indexed) (hop : r.Admissible op) :
    (r.step op).Indexed := by
  cases op with
  | prepare slotCount maxEntries =>
    unfold step
    dsimp only
    rcases hprepare : r.transaction.prepare slotCount maxEntries with error | t
    · exact h.clear
    · obtain ⟨hentries, hslots, hroom⟩ := prepare_sizes hprepare
      exact indexed_of_blank (h.blank_prepare hprepare) (h.wellFormed.prepare hprepare) hentries
        hslots hroom
  | touch handle revision initial =>
    unfold step
    dsimp only
    split
    · next t htouch => exact h.touch htouch
    · exact h
  | setCandidate handle value => exact h.setCandidate handle value
  | setPair first second values =>
    unfold step
    dsimp only
    split
    · exact (h.setCandidate first values.1).setCandidate second values.2
    · exact h
  | retire index =>
    obtain ⟨slot, hlive⟩ := hop
    exact h.retire hlive
  | clearRetired => exact h.clearRetired hop
  | clear => exact h.clear

theorem indexed_of_initial (h : r.Initial) : r.Indexed := by
  obtain ⟨hnew, hretired⟩ := h
  obtain ⟨hentries, hslots, hroom⟩ := tryNew_sizes hnew
  have hindexed := indexed_of_blank (blank_tryNew hnew) (wellFormed_tryNew hnew) hentries hslots
    hroom
  rwa [← hretired] at hindexed

/-- **Table, bits and live entries agree** after every run that retires live entries only and
clears retired ones only. -/
theorem indexed_of_reachable (h : System.ReachableWhere Initial step Admissible r) : r.Indexed :=
  System.ReachableWhere.induct (I := Indexed) (fun _ => indexed_of_initial)
    (fun _ _ _ hop hr => indexed_step hr hop) h

/-! ## What a transaction says -/

/-- What table, bits and entries say, and what touching a handle does. -/
structure Described (r : TransactionRun T) : Prop where
  /-- A slot is marked exactly when one live entry has it. -/
  marked : ∀ slot : Nat, r.transaction.touchedBits[slot]? = some true ↔
    ∃! index, r.LiveAt index slot
  /-- The table leads to the live entry of a slot, and to no other one. -/
  points : ∀ index slot : Nat, r.LiveAt index slot ↔
    r.transaction.slotToIndex[slot]? = some index ∧ index ≠ unusedIndex
  /-- A handle with a live entry is found, and touching it changes nothing. -/
  touched : ∀ (index : Nat) entry, index ∉ r.retired → r.transaction.entries[index]? = some entry →
    ∀ revision initial,
      r.transaction.touch entry.handle revision initial = .ok r.transaction ∧
        r.transaction.candidate entry.handle = some entry.candidate
  /-- No handle leads to a retired entry. -/
  unreachable : ∀ index ∈ r.retired, ∀ handle, r.transaction.entryIndex handle ≠ some index
  /-- Room runs out for slots outside the table, and for new entries when the list is full. -/
  full : ∀ handle revision initial,
    r.transaction.touch handle revision initial = .error .capacityExceeded ↔
      r.slotCount ≤ handle.slot.toNat ∨
        (∀ index, ¬r.LiveAt index handle.slot.toNat) ∧ r.maxEntries ≤ r.transaction.entries.length

theorem Indexed.described (h : r.Indexed) : r.Described where
  marked slot := by
    rw [h.marked_iff]
    constructor
    · rintro ⟨index, hlive⟩
      exact ⟨index, hlive, fun other hother => h.unique hother hlive⟩
    · rintro ⟨index, hlive, _⟩
      exact ⟨index, hlive⟩
  points index slot :=
    ⟨fun hlive => ⟨h.points index slot hlive, h.used hlive⟩,
      fun hindex => h.live slot index hindex.1 hindex.2⟩
  touched _ _ hretired hentry revision initial := h.touch_live hretired hentry revision initial
  unreachable index hretired handle hfound := (h.entryIndex_iff.1 hfound).1 hretired
  full handle revision initial := by
    rw [h.touch_full, ne_eq, h.marked_iff, not_exists]

end TransactionRun

end Dogmos
