import Dogmos.Core.Transaction

/-!
# The candidates of a transaction

`IndexedTransaction.WellFormed` says that the table and the bits of a transaction lead to its
entries.  New and prepared transactions are well-formed, and touching a mixture or writing its
candidate keeps that.  Seen through `candidate`, a transaction is then a map from handles to
records: `candidate_touch` adds a handle and `candidate_setCandidate` replaces the record of one.
-/

namespace Dogmos

namespace IndexedTransaction

variable {T : Type} {t t' : IndexedTransaction T} {handle other : MixtureHandle} {value : T}
  {index : Nat}

/-- The table and the bits of a transaction lead to its entries. -/
structure WellFormed (t : IndexedTransaction T) : Prop where
  bounded : t.maxEntries < unusedIndex
  short : t.entries.length ≤ t.maxEntries
  wide : t.slotToIndex.length ≤ t.touchedBits.length
  used : ∀ slot index, t.slotToIndex[slot]? = some index → index ≠ unusedIndex →
    t.touchedBits[slot]? = some true ∧
      ∃ entry, t.entries[index]? = some entry ∧ entry.handle.slot.toNat = slot

/-! ## Finding an entry -/

theorem entryIndex_eq_some : t.entryIndex handle = some index ↔
    t.touchedBits[handle.slot.toNat]? = some true ∧
      t.slotToIndex[handle.slot.toNat]? = some index ∧ index ≠ unusedIndex ∧
        ∃ entry, t.entries[index]? = some entry ∧ entry.handle = handle := by
  unfold entryIndex
  dsimp only
  by_cases htouched : t.touchedBits[handle.slot.toNat]? = some true
  · rw [if_pos htouched]
    rcases hindex : t.slotToIndex[handle.slot.toNat]? with _ | found
    · simp
    · dsimp only
      split
      · next hfound =>
        obtain ⟨entry, hentry, hhandle⟩ := Option.map_eq_some_iff.1 hfound.2
        constructor
        · intro h
          cases h
          exact ⟨htouched, rfl, hfound.1, entry, hentry, hhandle⟩
        · exact fun h => h.2.1
      · next hfound =>
        refine ⟨fun h => (by cases h), fun h => absurd ?_ hfound⟩
        obtain ⟨-, heq, hused, entry, hentry, hhandle⟩ := h
        cases heq
        exact ⟨hused, by rw [hentry, Option.map_some, hhandle]⟩
  · rw [if_neg htouched]
    exact ⟨fun h => (by cases h), fun h => absurd h.1 htouched⟩

theorem candidate_eq_some : t.candidate handle = some value ↔
    ∃ index entry, t.entryIndex handle = some index ∧ t.entries[index]? = some entry ∧
      entry.candidate = value := by
  unfold candidate
  rcases hindex : t.entryIndex handle with _ | index
  · simp
  · obtain ⟨-, -, -, entry, hentry, -⟩ := entryIndex_eq_some.1 hindex
    simp [hentry]

/-- A transaction has a candidate for the handles it contains. -/
theorem isSome_candidate : (t.candidate handle).isSome = t.contains handle := by
  unfold candidate contains
  rcases hindex : t.entryIndex handle with _ | index
  · rfl
  · obtain ⟨-, -, -, entry, hentry, -⟩ := entryIndex_eq_some.1 hindex
    simp [hentry]

/-! ## Writing -/

theorem entryIndex_setCandidate (t : IndexedTransaction T) (handle : MixtureHandle) (value : T)
    (other : MixtureHandle) :
    (t.setCandidate handle value).entryIndex other = t.entryIndex other := by
  unfold setCandidate
  rcases hindex : t.entryIndex handle with _ | index
  · rfl
  · unfold entryIndex
    dsimp only
    have hhandle : ∀ i : Nat,
        ((t.entries.modify index fun entry => { entry with candidate := value })[i]?).map
          TransactionEntry.handle = (t.entries[i]?).map TransactionEntry.handle := by
      intro i
      rw [List.getElem?_modify, Option.map_eq_map, Option.map_map]
      congr 1
      funext entry
      dsimp only [Function.comp]
      split <;> rfl
    simp only [hhandle]

theorem candidate_setCandidate (t : IndexedTransaction T) (handle : MixtureHandle) (value : T)
    (other : MixtureHandle) : (t.setCandidate handle value).candidate other =
      if other = handle ∧ (t.candidate handle).isSome then some value else t.candidate other := by
  rw [isSome_candidate]
  unfold candidate
  rw [entryIndex_setCandidate]
  unfold setCandidate contains
  rcases hindex : t.entryIndex handle with _ | index
  · simp
  dsimp only
  rcases hother : t.entryIndex other with _ | place
  · have hne : other ≠ handle := by
      rintro rfl
      rw [hindex] at hother
      cases hother
    simp [hne]
  obtain ⟨-, -, -, entry, hentry, hhandle⟩ := entryIndex_eq_some.1 hother
  obtain ⟨-, -, -, written, hwritten, hwrittenHandle⟩ := entryIndex_eq_some.1 hindex
  by_cases heq : other = handle
  · subst heq
    rw [hindex] at hother
    cases hother
    simp [hentry]
  · -- entries of other handles sit elsewhere
    have hplace : index ≠ place := by
      rintro rfl
      rw [hentry] at hwritten
      cases hwritten
      exact heq (hhandle.symm.trans hwrittenHandle)
    simp [heq, hplace, hentry]

theorem WellFormed.setCandidate (h : t.WellFormed) (handle : MixtureHandle) (value : T) :
    (t.setCandidate handle value).WellFormed := by
  unfold IndexedTransaction.setCandidate
  rcases hindex : t.entryIndex handle with _ | index
  · exact h
  · refine ⟨h.bounded, ?_, h.wide, fun slot place hplace hused => ?_⟩
    · dsimp only
      rw [List.length_modify]
      exact h.short
    · obtain ⟨htouched, entry, hentry, hslot⟩ := h.used slot place hplace hused
      refine ⟨htouched, if index = place then { entry with candidate := value } else entry, ?_, ?_⟩
      · dsimp only
        rw [List.getElem?_modify, hentry]
        split <;> rfl
      · split <;> exact hslot

/-- What an accepted touch does: nothing, or it adds an entry in a slot that led nowhere. -/
theorem touch_ok {revision : UInt32} {initial : T}
    (h : t.touch handle revision initial = .ok t') :
    t' = t ∨ t.slotToIndex[handle.slot.toNat]? = some unusedIndex ∧
      t' =
        { t with
          entries := t.entries ++ [⟨handle, revision, initial⟩]
          slotToIndex := t.slotToIndex.set handle.slot.toNat t.entries.length
          touchedBits := t.touchedBits.set handle.slot.toNat true } := by
  unfold IndexedTransaction.touch at h
  dsimp only at h
  split at h
  · cases h
  · next index hindex =>
    split at h
    · split at h
      · split at h
        · cases h
        · cases h
          exact .inl rfl
      · cases h
        exact .inl rfl
    · next hused =>
      split at h
      · cases h
      · cases h
        rw [not_not.1 hused] at hindex
        exact .inr ⟨hindex, rfl⟩

theorem contains_of_unused (h : t.slotToIndex[handle.slot.toNat]? = some unusedIndex) :
    t.contains handle = false := by
  rw [contains, Option.isSome_eq_false_iff, Option.isNone_iff_eq_none]
  refine Option.eq_none_iff_forall_ne_some.2 fun index hfound => ?_
  obtain ⟨_, hplace, hused, _⟩ := entryIndex_eq_some.1 hfound
  rw [h] at hplace
  exact hused (Option.some.inj hplace).symm

/-- A mixture that is touched for the first time. -/
theorem WellFormed.touch (h : t.WellFormed) (hnew : t.contains handle = false) {revision : UInt32}
    (htouch : t.touch handle revision value = .ok t') :
    t'.WellFormed ∧ ∀ other, t'.candidate other =
      if other = handle then some value else t.candidate other := by
  unfold IndexedTransaction.touch at htouch
  dsimp only at htouch
  rcases hindex : t.slotToIndex[handle.slot.toNat]? with _ | index
  · rw [hindex] at htouch
    cases htouch
  rw [hindex] at htouch
  dsimp only at htouch
  by_cases hused : index ≠ unusedIndex
  · -- the entry that sits there belongs to another handle
    obtain ⟨htouched, entry, hentry, -⟩ := h.used _ index hindex hused
    rw [if_pos hused, hentry] at htouch
    dsimp only at htouch
    by_cases hhandle : entry.handle = handle
    · have hfound := entryIndex_eq_some.2 ⟨htouched, hindex, hused, entry, hentry, hhandle⟩
      rw [contains, hfound] at hnew
      cases hnew
    · rw [if_pos hhandle] at htouch
      cases htouch
  rw [if_neg hused] at htouch
  split at htouch
  · cases htouch
  next hroom =>
  cases htouch
  have hlt : handle.slot.toNat < t.slotToIndex.length := (List.getElem?_eq_some_iff.1 hindex).1
  have hbits : handle.slot.toNat < t.touchedBits.length := Nat.lt_of_lt_of_le hlt h.wide
  have hlast : t.entries.length ≠ unusedIndex := by
    have hshort := h.short
    have hbounded := h.bounded
    omega
  have hentries : ∀ (i : Nat) entry, t.entries[i]? = some entry →
      (t.entries ++ [⟨handle, revision, value⟩])[i]? = some entry := by
    intro i entry hentry
    rwa [List.getElem?_append_left (List.getElem?_eq_some_iff.1 hentry).1]
  have hadded : (t.entries ++ [⟨handle, revision, value⟩])[t.entries.length]? =
      some ⟨handle, revision, value⟩ := by simp
  refine ⟨⟨h.bounded, ?_, ?_, fun slot place hplace hplaced => ?_⟩, fun other => ?_⟩
  · simp only [List.length_append, List.length_singleton]
    omega
  · simpa using h.wide
  · dsimp only at hplace ⊢
    by_cases hslot : handle.slot.toNat = slot
    · subst hslot
      rw [List.getElem?_set_self hlt] at hplace
      cases hplace
      exact ⟨List.getElem?_set_self hbits, _, hadded, rfl⟩
    · rw [List.getElem?_set_ne hslot] at hplace
      obtain ⟨htouched, entry, hentry, hname⟩ := h.used slot place hplace hplaced
      exact ⟨by rwa [List.getElem?_set_ne hslot], entry, hentries place entry hentry, hname⟩
  · by_cases heq : other = handle
    · subst heq
      rw [if_pos rfl]
      refine candidate_eq_some.2 ⟨t.entries.length, _, entryIndex_eq_some.2 ⟨?_, ?_, hlast, _,
        hadded, rfl⟩, hadded, rfl⟩
      · exact List.getElem?_set_self hbits
      · exact List.getElem?_set_self hlt
    · rw [if_neg heq]
      refine Option.ext fun record => ?_
      simp only [candidate_eq_some, entryIndex_eq_some]
      by_cases hslot : handle.slot.toNat = other.slot.toNat
      · -- the slot had no entry, and the one it got is of another handle
        rw [← hslot, List.getElem?_set_self hlt, hindex]
        constructor
        · rintro ⟨place, entry, ⟨-, hplace, -, found, hfound, hname⟩, -⟩
          cases hplace
          rw [hadded] at hfound
          cases hfound
          exact absurd hname.symm heq
        · rintro ⟨place, entry, ⟨-, hplace, hplaced, -⟩, -⟩
          cases hplace
          exact absurd hplaced hused
      · rw [List.getElem?_set_ne hslot, List.getElem?_set_ne hslot]
        constructor
        · rintro ⟨place, entry, ⟨htouched, hplace, hplaced, found, hfound, hname⟩, hentry, hrecord⟩
          obtain ⟨-, old, hold, -⟩ := h.used _ place hplace hplaced
          rw [hentries place old hold] at hfound hentry
          cases hfound
          cases hentry
          exact ⟨place, _, ⟨htouched, hplace, hplaced, _, hold, hname⟩, hold, hrecord⟩
        · rintro ⟨place, entry, ⟨htouched, hplace, hplaced, found, hfound, hname⟩, hentry, hrecord⟩
          refine ⟨place, entry, ⟨htouched, hplace, hplaced, found, ?_, hname⟩, ?_, hrecord⟩
          · exact hentries place found hfound
          · exact hentries place entry hentry

/-! ## New transactions -/

theorem wellFormed_tryNew {slotCount maxEntries : Nat} (h : tryNew slotCount maxEntries = .ok t) :
    t.WellFormed := by
  unfold tryNew at h
  split at h
  · cases h
  · next hfew =>
    cases h
    refine ⟨Nat.lt_of_not_le hfew, Nat.zero_le _, ?_, fun slot place hplace hplaced => ?_⟩
    · simp only [List.length_replicate, coveredBits, bitsPerWord]
      omega
    · rw [List.getElem?_replicate] at hplace
      split at hplace
      · cases hplace
        exact absurd rfl hplaced
      · cases hplace

/-- Forgetting a slot leaves the other slots what they lead to. -/
theorem getElem?_forget {slot i slot' : Nat} (h : (t.forget slot').slotToIndex[slot]? = some i)
    (hused : i ≠ unusedIndex) : slot ≠ slot' ∧ t.slotToIndex[slot]? = some i := by
  unfold forget at h
  dsimp only at h
  by_cases heq : slot' = slot
  · subst heq
    rw [List.getElem?_set_self'] at h
    obtain ⟨_, -, hi⟩ := Option.map_eq_some_iff.1 h
    exact absurd hi.symm hused
  · rw [List.getElem?_set_ne heq] at h
    exact ⟨Ne.symm heq, h⟩

theorem getElem?_forgetAll {slot i : Nat} {entries : List (TransactionEntry T)}
    (h : (entries.foldl (fun t entry => t.forget entry.handle.slot.toNat) t).slotToIndex[slot]? =
      some i) (hused : i ≠ unusedIndex) :
    (∀ entry ∈ entries, entry.handle.slot.toNat ≠ slot) ∧ t.slotToIndex[slot]? = some i := by
  induction entries generalizing t with
  | nil => exact ⟨fun _ hentry => absurd hentry List.not_mem_nil, h⟩
  | cons entry rest ih =>
    obtain ⟨hrest, hplace⟩ := ih h
    obtain ⟨hne, hplace⟩ := getElem?_forget hplace hused
    refine ⟨fun other hother => ?_, hplace⟩
    rcases List.mem_cons.1 hother with rfl | hother
    · exact Ne.symm hne
    · exact hrest other hother

/-- A transaction that is cleared leads nowhere. -/
theorem WellFormed.clear_unused (h : t.WellFormed) {slot i : Nat}
    (hplace : t.clear.slotToIndex[slot]? = some i) : i = unusedIndex := by
  by_contra hused
  obtain ⟨hentries, hplace⟩ := getElem?_forgetAll (t := t) hplace hused
  obtain ⟨-, entry, hentry, hslot⟩ := h.used slot i hplace hused
  exact hentries entry (List.mem_of_getElem? hentry) hslot

theorem WellFormed.prepare (h : t.WellFormed) {slotCount maxEntries : Nat}
    (hprepare : t.prepare slotCount maxEntries = .ok t') : t'.WellFormed := by
  unfold IndexedTransaction.prepare at hprepare
  dsimp only at hprepare
  split at hprepare
  · cases hprepare
  · next hfew =>
    cases hprepare
    refine ⟨Nat.lt_of_not_le hfew, Nat.zero_le _, ?_, fun slot i hplace hused => absurd ?_ hused⟩
    · dsimp only
      rw [length_resized, length_resized]
      simp only [coveredBits, bitsPerWord]
      omega
    · dsimp only [resized] at hplace
      rcases List.mem_append.1 (List.mem_of_getElem? hplace) with hold | hnew
      · obtain ⟨place, hplace⟩ := List.mem_iff_getElem?.1 (List.mem_of_mem_take hold)
        exact h.clear_unused hplace
      · exact List.eq_of_mem_replicate hnew

/-- A prepared transaction has no entries, and the sizes it was prepared for. -/
theorem prepare_sizes {slotCount maxEntries : Nat} (h : t.prepare slotCount maxEntries = .ok t') :
    t'.entries = [] ∧ t'.slotToIndex.length = slotCount ∧ t'.maxEntries = maxEntries := by
  unfold prepare at h
  dsimp only at h
  split at h
  · cases h
  · cases h
    exact ⟨rfl, length_resized .., rfl⟩

theorem tryNew_sizes {slotCount maxEntries : Nat} (h : tryNew slotCount maxEntries = .ok t) :
    t.entries = [] ∧ t.slotToIndex.length = slotCount ∧ t.maxEntries = maxEntries := by
  unfold tryNew at h
  split at h
  · cases h
  · cases h
    exact ⟨rfl, List.length_replicate, rfl⟩

/-! ## Retiring and clearing -/

/-- Forgetting slots changes neither the sizes nor the entries. -/
theorem sizes_forgetAll (entries : List (TransactionEntry T)) (t : IndexedTransaction T) :
    (entries.foldl (fun t entry => t.forget entry.handle.slot.toNat) t).slotToIndex.length =
        t.slotToIndex.length ∧
      (entries.foldl (fun t entry => t.forget entry.handle.slot.toNat) t).touchedBits.length =
        t.touchedBits.length ∧
      (entries.foldl (fun t entry => t.forget entry.handle.slot.toNat) t).maxEntries =
        t.maxEntries := by
  induction entries generalizing t with
  | nil => exact ⟨rfl, rfl, rfl⟩
  | cons entry rest ih =>
    obtain ⟨htable, hbits, hroom⟩ := ih (t.forget entry.handle.slot.toNat)
    exact ⟨htable.trans List.length_set, hbits.trans List.length_set, hroom⟩

theorem WellFormed.clear (h : t.WellFormed) : t.clear.WellFormed := by
  obtain ⟨htable, hbits, hroom⟩ := sizes_forgetAll t.entries t
  refine ⟨?_, Nat.zero_le _, ?_, fun slot index hindex hused => ?_⟩
  · exact Nat.lt_of_le_of_lt (Nat.le_of_eq hroom) h.bounded
  · exact Nat.le_trans (Nat.le_of_eq htable) (Nat.le_trans h.wide (Nat.le_of_eq hbits.symm))
  · exact absurd (h.clear_unused hindex) hused

theorem WellFormed.forget (h : t.WellFormed) (slot : Nat) : (t.forget slot).WellFormed := by
  refine ⟨h.bounded, h.short, by simpa [IndexedTransaction.forget] using h.wide, ?_⟩
  intro other index hindex hused
  obtain ⟨hne, hbefore⟩ := getElem?_forget hindex hused
  obtain ⟨hmarked, hfound⟩ := h.used other index hbefore hused
  refine ⟨?_, hfound⟩
  simp only [IndexedTransaction.forget]
  rwa [List.getElem?_set_ne (Ne.symm hne)]

/-- Retiring an entry leaves only what leads to other entries. -/
theorem WellFormed.retire (h : t.WellFormed) {index : Nat} {entry : TransactionEntry T}
    (hentry : t.entries[index]? = some entry) :
    (t.retire index).WellFormed ∧ (t.retire index).entries = t.entries ∧
      (t.retire index).maxEntries = t.maxEntries ∧
      (t.retire index).slotToIndex.length = t.slotToIndex.length ∧
      ∀ slot other : Nat, (t.retire index).slotToIndex[slot]? = some other → other ≠ unusedIndex →
        other ≠ index ∧ t.slotToIndex[slot]? = some other := by
  unfold IndexedTransaction.retire
  rw [hentry]
  refine ⟨h.forget _, rfl, rfl, List.length_set, fun slot other hother hused => ?_⟩
  obtain ⟨hne, hbefore⟩ := getElem?_forget hother hused
  refine ⟨?_, hbefore⟩
  rintro rfl
  obtain ⟨-, found, hfound, hslot⟩ := h.used slot other hbefore hused
  rw [hentry] at hfound
  cases hfound
  exact hne hslot.symm

/-- Where nothing is led to, the list can be cleared alone. -/
theorem WellFormed.clearRetired (h : t.WellFormed)
    (hnone : ∀ slot index : Nat, t.slotToIndex[slot]? = some index → index = unusedIndex) :
    t.clearRetired.WellFormed :=
  ⟨h.bounded, Nat.zero_le _, h.wide, fun slot index hindex hused =>
    absurd (hnone slot index hindex) hused⟩

end IndexedTransaction

end Dogmos
