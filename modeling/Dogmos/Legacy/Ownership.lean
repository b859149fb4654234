import Dogmos.Legacy.Arena
import Dogmos.Lib.Exact
import Mathlib.Data.List.Nodup
import Mathlib.Data.List.Perm.Basic
import Mathlib.Data.List.Perm.Subperm
import Mathlib.Data.List.Range

/-!
# Who owns a slot of the arena

Free and live slots are meant to make up the arena, each of them once, and the counts beside the
turf graph are meant to be exact.  They are, as long as every slot that is handed out is a number
of the game.  Beyond `2 ^ 24` some are not: such a slot is stored as its neighbour, and two
mixtures own one slot.

* `perm_swapRemove` — taking a slot off the free list.
* `Counted` — the counts of the turf graph, kept by insertion and removal.
* `kept_step` — one operation, `one_owner` — every run that hands out exact slots.
* `two_owners` — without that, no allocator gives every slot one owner in every run.
-/

namespace Dogmos

namespace Legacy

/-! ## Slots as numbers -/

theorem asF32_of_lt {idx : Nat} (h : idx < 2 ^ 24) : asF32 idx = idx := if_pos h

/-- Up to `2 ^ 24` slots are stored as they are. -/
theorem asF32_of_le {idx : Nat} (h : idx ≤ 2 ^ 24) : asF32 idx = idx := by
  rcases Nat.lt_or_eq_of_le h with hlt | rfl
  · exact asF32_of_lt hlt
  · decide +kernel

/-- The first slot that no number is. -/
theorem asF32_ne (idx : Nat) : asF32 idx ≠ 2 ^ 24 + 1 := by
  unfold asF32
  split
  · omega
  · next hlarge =>
    have hlog : 24 ≤ idx.log2 := (Nat.le_log2 (by omega)).2 (Nat.le_of_not_lt hlarge)
    have hunit : 2 ∣ 2 ^ (idx.log2 - 23) := Nat.pow_dvd_pow 2 (m := 1) (by omega)
    dsimp only
    intro heq
    have heven : 2 ∣ 2 ^ 24 + 1 := by
      rw [← heq]
      split
      · exact Nat.dvd_trans hunit (Nat.dvd_mul_left ..)
      · exact Nat.dvd_trans hunit (Nat.dvd_mul_left ..)
    omega

/-! ## Vectors -/

theorem perm_swapRemove {α : Type} {items : List α} {position : Nat} {item : α}
    (h : items[position]? = some item) : (item :: swapRemove items position).Perm items := by
  rcases List.eq_nil_or_concat items with rfl | ⟨before, last, rfl⟩
  · cases h
  unfold swapRemove
  simp only [List.concat_eq_append, List.getLast?_append, List.getLast?_singleton, Option.some_or]
  simp only [List.concat_eq_append] at h
  by_cases hplace : position < before.length
  · rw [List.getElem?_append_left hplace, List.getElem?_eq_some_iff] at h
    obtain ⟨_, rfl⟩ := h
    rw [List.set_append_left _ _ hplace, List.dropLast_concat]
    calc before[position] :: before.set position last
        |>.Perm (before[position] :: last :: before.eraseIdx position) :=
          (List.set_perm_cons_eraseIdx hplace last).cons _
      _ |>.Perm (last :: before[position] :: before.eraseIdx position) := List.Perm.swap ..
      _ |>.Perm (last :: before) := (List.getElem_cons_eraseIdx_perm hplace).cons _
      _ |>.Perm (before ++ [last]) := (List.perm_append_singleton ..).symm
  · have hlast : position = before.length := by
      have hlength := (List.getElem?_eq_some_iff.1 h).1
      rw [List.length_append, List.length_singleton] at hlength
      omega
    subst hlast
    rw [List.getElem?_concat_length, Option.some.injEq] at h
    subst h
    rw [List.set_append_right _ _ (Nat.le_refl _), Nat.sub_self, List.set_cons_zero,
      List.dropLast_concat]
    exact (List.perm_append_singleton ..).symm

/-! ## Counts of the turf graph -/

namespace TurfGases

/-- The number of nodes a slot is counted with. -/
def count (t : TurfGases) (mix : Nat) : Nat := t.mixRefcounts[mix]?.getD 0

theorem mixIsReferenced_eq (t : TurfGases) (mix : Nat) :
    t.mixIsReferenced mix = decide (0 < t.count mix) := by
  unfold mixIsReferenced count
  cases t.mixRefcounts[mix]? <;> rfl

theorem count_acquireMix (t : TurfGases) (mix other : Nat) :
    (t.acquireMix mix).count other =
      if other = mix then min (t.count other + 1) maxCount else t.count other := by
  have hpadded : (t.mixRefcounts ++ List.replicate (mix + 1 - t.mixRefcounts.length) 0)[other]?.getD
      0 = t.count other := by
    by_cases hin : other < t.mixRefcounts.length
    · rw [List.getElem?_append_left hin, count]
    · rw [count, List.getElem?_eq_none (Nat.le_of_not_lt hin),
        List.getElem?_append_right (Nat.le_of_not_lt hin), List.getElem?_replicate]
      split <;> rfl
  unfold acquireMix
  dsimp only [count] at hpadded ⊢
  rw [List.getElem?_modify]
  by_cases hmix : other = mix
  · subst hmix
    have hin : other < (t.mixRefcounts ++
        List.replicate (other + 1 - t.mixRefcounts.length) 0).length := by simp; omega
    rw [List.getElem?_eq_getElem hin, Option.getD_some] at hpadded
    simp [List.getElem?_eq_getElem hin, hpadded]
  · simpa [hmix, Ne.symm hmix] using hpadded

theorem count_releaseMix (t : TurfGases) (mix other : Nat) :
    (t.releaseMix mix).count other =
      if other = mix then t.count other - 1 else t.count other := by
  unfold releaseMix count
  dsimp only
  rw [List.getElem?_modify]
  by_cases hmix : other = mix
  · subst hmix
    cases t.mixRefcounts[other]? <;> simp
  · simp [hmix, Ne.symm hmix]

/-- What insertion and removal keep: the map leads to nodes, no two turfs to one, and the counts
are exact. -/
structure Counted (t : TurfGases) : Prop where
  mapped : ∀ entry ∈ t.map, ∃ turf, t.graph[entry.2]? = some (some turf)
  separate : (t.map.map Prod.snd).Nodup
  size : t.graph.length ≤ maxCount
  counts : ∀ mix, t.count mix = t.naming mix

theorem counted_new : Counted .new where
  mapped := by simp [new]
  separate := by simp [new]
  size := by simp [new]
  counts := by simp [new, count, naming]

/-- The number of nodes that name a slot, after a node is written. -/
theorem naming_set {t : TurfGases} {node : Nat} {before : Option TurfMixture}
    (h : t.graph[node]? = some before) (after : Option TurfMixture) (mix : Nat) :
    naming { t with graph := t.graph.set node after } mix +
        (if before.any (fun turf => turf.mix = mix) then 1 else 0) =
      t.naming mix + if after.any (fun turf => turf.mix = mix) then 1 else 0 := by
  obtain ⟨hnode, hbefore⟩ := List.getElem?_eq_some_iff.1 h
  unfold naming
  dsimp only
  rw [List.countP_set hnode, hbefore]
  split
  · next hany =>
    have hpos : 0 < t.graph.countP fun node => node.any fun turf => turf.mix = mix :=
      List.countP_pos_iff.2 ⟨before, List.mem_of_getElem? h, hany⟩
    omega
  · omega

theorem naming_le (t : TurfGases) (mix : Nat) : t.naming mix ≤ t.graph.length :=
  List.countP_le_length

/-- One more node names a slot, and is counted. -/
theorem counts_acquireMix {t : TurfGases} (before : TurfGases) {mix : Nat}
    (hcount : ∀ other, t.count other = before.naming other)
    (hnaming : ∀ other, t.naming other = before.naming other + if mix = other then 1 else 0)
    (hsize : t.graph.length ≤ maxCount) (other : Nat) :
    (t.acquireMix mix).count other = (t.acquireMix mix).naming other := by
  have hsame : (t.acquireMix mix).naming other = t.naming other := rfl
  have hle := Nat.le_trans (t.naming_le other) hsize
  rw [count_acquireMix, hsame, hcount, hnaming]
  rw [hnaming] at hle
  by_cases hmix : mix = other
  · rw [if_pos hmix] at hle ⊢
    rw [if_pos hmix.symm, Nat.min_eq_left hle]
  · rw [if_neg hmix, if_neg (Ne.symm hmix)]
    rfl

/-- The node that is taken is vacant. -/
theorem vacantNode_spec {t : TurfGases} {wanted node : Nat} (h : t.vacantNode wanted = some node) :
    t.graph[node]? = some none := by
  unfold vacantNode at h
  split at h
  · next hwanted =>
    cases h
    exact hwanted
  · obtain ⟨hnode, hvacant, _⟩ := List.findIdx?_eq_some_iff_getElem.1 h
    rw [Option.isNone_iff_eq_none] at hvacant
    exact List.getElem?_eq_some_iff.2 ⟨hnode, hvacant⟩

theorem Counted.addNode {t added : TurfGases} (h : t.Counted) {turf : TurfMixture}
    {wanted node : Nat} (hadd : t.addNode turf wanted = some (added, node)) :
    t.graph[node]?.getD none = none ∧ added.map = t.map ∧ added.mixRefcounts = t.mixRefcounts ∧
      added.graph.length ≤ maxCount ∧ added.graph[node]? = some (some turf) ∧
      (∀ other, other ≠ node → ∀ held, t.graph[other]? = some (some held) →
        added.graph[other]? = some (some held)) ∧
      ∀ mix, added.naming mix = t.naming mix + if turf.mix = mix then 1 else 0 := by
  unfold TurfGases.addNode at hadd
  split at hadd
  · next vacant hfind =>
    cases hadd
    have hbefore : t.graph[node]? = some none := vacantNode_spec hfind
    have hnode := (List.getElem?_eq_some_iff.1 hbefore).1
    refine ⟨by simp [hbefore], rfl, rfl, by simpa using h.size, by simp [hnode], ?_, ?_⟩
    · intro other hother held hheld
      simpa [List.getElem?_set_ne (Ne.symm hother)] using hheld
    · intro mix
      simpa using naming_set hbefore (some turf) mix
  · split at hadd
    · cases hadd
    · next hroom =>
      cases hadd
      refine ⟨by simp, rfl, rfl, ?_, by simp, ?_, ?_⟩
      · rw [List.length_append, List.length_singleton]
        omega
      · intro other _ held hheld
        rw [List.getElem?_append_left (List.getElem?_eq_some_iff.1 hheld).1]
        exact hheld
      · intro mix
        simp [naming, List.countP_append, List.countP_singleton]

theorem mem_map_of_nodeOf {t : TurfGases} {id : TurfId} {node : Nat}
    (h : t.nodeOf id = some node) : (id, node) ∈ t.map := by
  unfold nodeOf at h
  obtain ⟨entry, hfind, rfl⟩ := Option.map_eq_some_iff.1 h
  have hid := List.find?_some hfind
  rw [decide_eq_true_eq] at hid
  rw [← hid]
  exact List.mem_of_find?_eq_some hfind

theorem Counted.insertTurf {t after : TurfGases} (h : t.Counted) {turf : TurfMixture}
    {wanted : Nat} (hins : t.insertTurf turf wanted = some after) :
    after.Counted ∧ ∀ mix, 0 < after.naming mix → 0 < t.naming mix ∨ mix = turf.mix := by
  unfold TurfGases.insertTurf at hins
  split at hins
  · next node hnode =>
    split at hins
    · next previous hprevious =>
      -- the node of the turf is written, and names another slot perhaps
      have hnaming := naming_set hprevious (some turf)
      have hmapped : ∀ entry ∈ t.map, ∃ held,
          (t.graph.set node (some turf))[entry.2]? = some (some held) := by
        intro entry hentry
        obtain ⟨held, hheld⟩ := h.mapped entry hentry
        by_cases hsame : entry.2 = node
        · exact ⟨turf, by rw [hsame]; simp [(List.getElem?_eq_some_iff.1 hprevious).1]⟩
        · exact ⟨held, by rwa [List.getElem?_set_ne (Ne.symm hsame)]⟩
      simp only [Option.any_some, decide_eq_true_eq] at hnaming
      dsimp only at hins
      split at hins
      · next hmix =>
        cases hins
        have hkept : ∀ mix, naming { t with graph := t.graph.set node (some turf) } mix =
            t.naming mix := by
          intro mix
          have := hnaming mix
          rw [hmix] at this
          omega
        refine ⟨⟨hmapped, h.separate, by simpa using h.size, ?_⟩, ?_⟩
        · intro mix
          rw [hkept]
          exact h.counts mix
        · intro mix hpos
          rw [hkept] at hpos
          exact .inl hpos
      · next hmix =>
        cases hins
        refine ⟨⟨hmapped, h.separate, by simpa [releaseMix, acquireMix] using h.size, ?_⟩, ?_⟩
        · refine counts_acquireMix { t with graph := t.graph.set node none } ?_ ?_
            (by simpa [releaseMix] using h.size)
          · intro other
            have hvacated := naming_set hprevious none other
            simp only [Option.any_some, decide_eq_true_eq, Option.any_none] at hvacated
            have hcount := h.counts other
            rw [count_releaseMix]
            change (if other = previous.mix then t.count other - 1 else t.count other) = _
            by_cases hother : other = previous.mix
            · rw [if_pos hother.symm] at hvacated
              rw [if_pos hother]
              simp only [Bool.false_eq_true, if_false] at hvacated
              omega
            · rw [if_neg (Ne.symm hother)] at hvacated
              rw [if_neg hother]
              simp only [Bool.false_eq_true, if_false] at hvacated
              omega
          · intro other
            have hvacated := naming_set hprevious none other
            have hwritten := hnaming other
            simp only [Option.any_some, decide_eq_true_eq, Option.any_none, Bool.false_eq_true,
              if_false] at hvacated
            change naming { t with graph := t.graph.set node (some turf) } other = _
            omega
        · intro mix hpos
          have hwritten := hnaming mix
          change 0 < naming { t with graph := t.graph.set node (some turf) } mix at hpos
          by_cases hturf : turf.mix = mix
          · exact .inr hturf.symm
          · rw [if_neg hturf] at hwritten
            exact .inl (by omega)
    · cases hins
  · obtain ⟨⟨added, node⟩, hadd, heq⟩ := Option.bind_eq_some_iff.1 hins
    cases heq
    obtain ⟨hvacant, hmap, hcounts, hsize, hnode, hothers, hnaming⟩ := h.addNode hadd
    refine ⟨⟨?_, ?_, hsize, ?_⟩, ?_⟩
    · intro entry hentry
      have hentry : entry ∈ added.map ++ [(turf.id, node)] := hentry
      rw [hmap, List.mem_append, List.mem_singleton] at hentry
      rcases hentry with hold | rfl
      · obtain ⟨held, hheld⟩ := h.mapped entry hold
        refine ⟨held, hothers entry.2 ?_ held hheld⟩
        rintro hsame
        rw [← hsame, hheld] at hvacant
        cases hvacant
      · exact ⟨turf, hnode⟩
    · change ((added.map ++ [(turf.id, node)]).map Prod.snd).Nodup
      rw [hmap, List.map_append, List.map_singleton, List.nodup_append]
      refine ⟨h.separate, List.nodup_singleton _, ?_⟩
      intro other hother new hnew
      obtain ⟨entry, hentry, rfl⟩ := List.mem_map.1 hother
      rw [List.mem_singleton] at hnew
      subst hnew
      rintro hsame
      obtain ⟨held, hheld⟩ := h.mapped entry hentry
      rw [← hsame, hheld] at hvacant
      cases hvacant
    · refine counts_acquireMix t ?_ hnaming hsize
      intro other
      change added.mixRefcounts[other]?.getD 0 = _
      rw [hcounts]
      exact h.counts other
    · intro mix hpos
      have hpos : 0 < added.naming mix := hpos
      rw [hnaming] at hpos
      by_cases hturf : turf.mix = mix
      · exact .inr hturf.symm
      · rw [if_neg hturf] at hpos
        exact .inl hpos

theorem Counted.removeTurf {t : TurfGases} (h : t.Counted) (id : TurfId) :
    (t.removeTurf id).Counted ∧ ∀ mix, (t.removeTurf id).naming mix ≤ t.naming mix := by
  unfold TurfGases.removeTurf
  split
  · exact ⟨h, fun _ => Nat.le_refl _⟩
  · next node hnode =>
    have hentry := mem_map_of_nodeOf hnode
    obtain ⟨removed, hremoved⟩ := h.mapped _ hentry
    have hsub : (t.map.filter fun entry => entry.1 ≠ id).Sublist t.map := List.filter_sublist
    simp only [hremoved]
    have hnaming := naming_set hremoved none
    simp only [Option.any_some, decide_eq_true_eq, Option.any_none, Bool.false_eq_true,
      if_false, Nat.add_zero] at hnaming
    refine ⟨⟨?_, h.separate.sublist (hsub.map _), by simpa [releaseMix] using h.size, ?_⟩, ?_⟩
    · intro entry hkept
      have hkept : entry ∈ t.map.filter fun entry => entry.1 ≠ id := hkept
      obtain ⟨held, hheld⟩ := h.mapped entry (hsub.subset hkept)
      refine ⟨held, ?_⟩
      change (t.graph.set node none)[entry.2]? = _
      rw [List.getElem?_set_ne, hheld]
      rintro hsame
      -- the removed turf alone leads to its node
      have heq := List.inj_on_of_nodup_map h.separate hentry (hsub.subset hkept) hsame
      rw [← heq] at hkept
      simp at hkept
    · intro mix
      rw [count_releaseMix]
      change (if mix = removed.mix then t.count mix - 1 else t.count mix) =
        naming { t with graph := t.graph.set node none } mix
      have hcount := h.counts mix
      have hwritten := hnaming mix
      by_cases hmix : mix = removed.mix
      · rw [if_pos hmix.symm] at hwritten
        rw [if_pos hmix]
        omega
      · rw [if_neg (Ne.symm hmix)] at hwritten
        rw [if_neg hmix]
        omega
    · intro mix
      have hwritten := hnaming mix
      change naming { t with graph := t.graph.set node none } mix ≤ _
      omega

end TurfGases

/-! ## The arena -/

variable {F : Type} [FloatFormat F]

omit [FloatFormat F] in
/-- The place `register_mix` reuses holds a slot of the arena that no turf names. -/
theorem GasArena.reusablePosition_spec {arena : GasArena F} {turfs : TurfGases} {position : Nat}
    (h : arena.reusablePosition turfs = some position) :
    ∃ idx, arena.nextGasIds[position]? = some idx ∧ idx < arena.mixtures.length ∧
      turfs.count idx = 0 := by
  have hfound := List.find?_some h
  split at hfound
  · cases hfound
  · next idx hidx =>
    rw [Bool.and_eq_true, decide_eq_true_eq, TurfGases.mixIsReferenced_eq] at hfound
    exact ⟨idx, hidx, hfound.1, by simpa using hfound.2⟩

/-- What `register_mix` hands out, and how the arena changes. -/
theorem GasArena.registerMix_spec {a : Allocator} {arena after : GasArena F} {turfs : TurfGases}
    {volume : F} {idx : Nat} (h : arena.registerMix a turfs volume = some (idx, after)) :
    FloatFormat.isFinite volume = true ∧ ¬volume < 0.0 ∧ idx = arena.nextSlot turfs ∧
      ((∃ position, arena.nextGasIds[position]? = some idx ∧ idx < arena.mixtures.length ∧
          turfs.count idx = 0 ∧ after = arena.reuse position idx volume) ∨
        idx = arena.mixtures.length ∧ after = arena.extend a volume) := by
  unfold GasArena.registerMix at h
  split at h
  · cases h
  · next hvolume =>
    rw [Bool.or_eq_true, decide_eq_true_eq, not_or, Bool.not_eq_true', Bool.not_eq_false] at hvolume
    refine ⟨hvolume.1, hvolume.2, ?_⟩
    unfold GasArena.nextSlot
    split at h
    · next position hposition =>
      obtain ⟨slot, hslot, hin, hfree⟩ := reusablePosition_spec hposition
      rw [hslot] at h
      cases h
      exact ⟨by rw [hposition, Option.bind_some, hslot], .inl ⟨position, hslot, hin, hfree, rfl⟩⟩
    · next hnone =>
      cases h
      exact ⟨by rw [hnone, Option.bind_none], .inr ⟨rfl, rfl⟩⟩

theorem Mixture.clearWithVol_eq (m : Mixture F) (volume : F) :
    m.clearWithVol volume = .fromVol volume := rfl

namespace ArenaWorld

/-- The invariant of the runs that hand out exact slots. -/
structure Kept (w : ArenaWorld F) : Prop where
  slots : (w.arena.nextGasIds ++ w.live).Perm (List.range w.arena.mixtures.length)
  active : w.arena.activeMixtureSlots = w.live.length
  named : ∀ mix, 0 < w.turfs.naming mix → mix < w.arena.mixtures.length
  counted : w.turfs.Counted

omit [FloatFormat F] in
theorem kept_initial {w : ArenaWorld F} (h : w.Initial) : w.Kept := by
  obtain ⟨hmixtures, hids, hactive, _, _, hturfs, hlive⟩ := h
  refine ⟨by simp [hids, hlive, hmixtures], by simp [hactive, hlive], ?_,
    hturfs ▸ TurfGases.counted_new⟩
  intro mix hpos
  rw [hturfs] at hpos
  simp [TurfGases.naming, TurfGases.new] at hpos

omit [FloatFormat F] in
theorem Kept.live_lt {w : ArenaWorld F} (h : w.Kept) {slot : Nat} (hslot : slot ∈ w.live) :
    slot < w.arena.mixtures.length :=
  List.mem_range.1 (h.slots.subset (List.mem_append_right _ hslot))

omit [FloatFormat F] in
theorem Kept.nodup {w : ArenaWorld F} (h : w.Kept) : (w.arena.nextGasIds ++ w.live).Nodup :=
  h.slots.nodup_iff.2 List.nodup_range

/-- A slot is handed out. -/
theorem Kept.registerMix {w : ArenaWorld F} (h : w.Kept) {a : Allocator} {volume : F} {idx : Nat}
    {arena : GasArena F} (hreg : w.arena.registerMix a w.turfs volume = some (idx, arena)) :
    Kept { w with arena, live := w.live ++ [idx] } := by
  obtain ⟨_, _, _, ⟨position, hidx, hin, _, rfl⟩ | ⟨rfl, rfl⟩⟩ := GasArena.registerMix_spec hreg
  · refine ⟨?_, by simp [GasArena.reuse, h.active], by simpa [GasArena.reuse] using h.named,
      h.counted⟩
    have htaken := perm_swapRemove hidx
    simp only [GasArena.reuse, List.length_modify]
    calc swapRemove w.arena.nextGasIds position ++ (w.live ++ [idx])
        |>.Perm (idx :: (swapRemove w.arena.nextGasIds position ++ w.live)) := by
          rw [← List.append_assoc]
          exact List.perm_append_singleton ..
      _ |>.Perm (w.arena.nextGasIds ++ w.live) := htaken.append_right w.live
      _ |>.Perm (List.range w.arena.mixtures.length) := h.slots
  · refine ⟨?_, by simp [GasArena.extend, h.active], ?_, h.counted⟩
    · simp only [GasArena.extend, List.length_append, List.length_singleton, List.length_replicate]
      generalize GasArena.spareSlots _ _ _ = spare
      have hrange : List.range (w.arena.mixtures.length + 1 + spare) =
          List.range w.arena.mixtures.length ++ [w.arena.mixtures.length] ++
            List.range' (w.arena.mixtures.length + 1) spare := by
        rw [← List.range_succ, List.range_eq_range', List.range_eq_range', ← List.range'_append_1,
          Nat.zero_add]
      rw [hrange]
      have hlast : ∀ spares, (w.arena.nextGasIds ++ spares ++ (w.live ++ [w.arena.mixtures.length]))
          |>.Perm (w.arena.nextGasIds ++ w.live ++ [w.arena.mixtures.length] ++ spares) := by
        intro spares
        refine List.perm_iff_count.2 fun slot => ?_
        simp only [List.count_append]
        omega
      exact (hlast _).trans ((h.slots.append_right _).append_right _)
    · intro mix hpos
      have := h.named mix hpos
      simp only [GasArena.extend, List.length_append, List.length_singleton,
        List.length_replicate]
      omega

omit [FloatFormat F] in
/-- A live mixture gives its slot back. -/
theorem Kept.unregisterMix {w : ArenaWorld F} (h : w.Kept) (a : Allocator) {place slot : Nat}
    (hslot : w.live[place]? = some slot) :
    Kept { w with arena := w.arena.unregisterMix a slot, live := w.live.eraseIdx place } := by
  have hmem := List.mem_of_getElem? hslot
  have hlt := h.live_lt hmem
  obtain ⟨hplace, rfl⟩ := List.getElem?_eq_some_iff.1 hslot
  have hfree : w.live[place] ∉ w.arena.nextGasIds := fun hfree =>
    (List.nodup_append.1 h.nodup).2.2 _ hfree _ hmem rfl
  have htaken : w.arena.unregisterMix a w.live[place] =
      { w.arena with
        nextGasIds := w.arena.nextGasIds ++ [w.live[place]]
        idsCapacity := a.reserve w.arena.idsCapacity (w.arena.nextGasIds.length + 1)
        activeMixtureSlots := w.arena.activeMixtureSlots - 1 } := by
    unfold GasArena.unregisterMix gasSlotFromNumber
    rw [if_neg (Nat.not_le_of_lt hlt)]
    dsimp only
    rw [if_neg (by simpa using hfree)]
  rw [htaken]
  refine ⟨?_, ?_, h.named, h.counted⟩
  · dsimp only
    rw [List.append_assoc, List.singleton_append]
    exact ((List.getElem_cons_eraseIdx_perm hplace).append_left _).trans h.slots
  · simp [h.active, List.length_eraseIdx_of_lt hplace]

/-- One operation keeps the invariant. -/
theorem kept_step (a : Allocator) {w : ArenaWorld F} {op : ArenaOp F} (h : w.Kept)
    (hop : w.Admissible op ∧ w.Exact op) : (w.step a op).Kept := by
  cases op with
  | registerMix volume =>
    unfold step
    dsimp only
    split
    · next idx arena hreg =>
      have hexact : asF32 idx = idx := by
        obtain ⟨hfinite, hsign, hidx, -⟩ := GasArena.registerMix_spec hreg
        rw [hidx]
        exact hop.2 hfinite hsign
      rw [hexact]
      exact h.registerMix hreg
    · exact h
  | unregisterMix place =>
    unfold step
    dsimp only
    split
    · next slot hslot => exact h.unregisterMix a hslot
    · exact h
  | insertTurf turf wanted =>
    unfold step
    dsimp only
    cases hins : w.turfs.insertTurf turf wanted with
    | none => exact h
    | some after =>
      obtain ⟨hcounted, hnamed⟩ := h.counted.insertTurf hins
      refine ⟨h.slots, h.active, ?_, hcounted⟩
      intro mix hpos
      rcases hnamed mix hpos with hbefore | rfl
      · exact h.named mix hbefore
      · exact h.live_lt hop.1
  | removeTurf id =>
    obtain ⟨hcounted, hnamed⟩ := h.counted.removeTurf id
    refine ⟨h.slots, h.active, ?_, hcounted⟩
    intro mix hpos
    exact h.named mix (Nat.lt_of_lt_of_le hpos (hnamed mix))

/-- The invariant says that each slot has one owner. -/
theorem Kept.oneOwner {w : ArenaWorld F} (h : w.Kept) : w.OneOwner := by
  have hnodup := List.nodup_append.1 h.nodup
  have hlength := h.slots.length_eq
  rw [List.length_append, List.length_range] at hlength
  refine
    { free := hnodup.1
      inside := fun slot hslot =>
        List.mem_range.1 (h.slots.subset (List.mem_append_left _ hslot))
      owners := hnodup.2.1
      disjoint := fun slot hlive hfree => hnodup.2.2 slot hfree slot hlive rfl
      whole := fun slot => ?_
      active := ?_
      counted := h.counted.counts
      handed := ?_ }
  · rw [← List.mem_append, ← List.mem_range]
    exact h.slots.mem_iff.symm
  · rw [GasArena.amtGases, h.active]
    omega
  · intro a volume idx arena hreg
    obtain ⟨hfinite, hsign, _, hcase⟩ := GasArena.registerMix_spec hreg
    have hvolume : (Mixture.fromVol volume).volume = volume := by
      have hvalid : validateVolume volume = .ok volume := by
        unfold validateVolume
        rw [hfinite, decide_eq_false hsign]
        rfl
      change orZero (validateVolume volume) = volume
      rw [hvalid]
      rfl
    rcases hcase with ⟨position, _, hin, hfree, rfl⟩ | ⟨rfl, rfl⟩
    · refine ⟨by rw [← h.counted.counts, hfree], ?_, rfl, rfl, hvolume⟩
      simp [GasArena.reuse, List.getElem?_eq_getElem hin, Mixture.clearWithVol_eq]
    · refine ⟨?_, ?_, rfl, rfl, hvolume⟩
      · rcases Nat.eq_zero_or_pos (w.turfs.naming w.arena.mixtures.length) with hzero | hpos
        · exact hzero
        · exact absurd (h.named _ hpos) (Nat.lt_irrefl _)
      · simp [GasArena.extend]

/-- **One owner.**  In every run that hands out exact slots, each slot has one owner, and the
counts of the turf graph are exact. -/
theorem one_owner (a : Allocator) {w : ArenaWorld F}
    (h : System.ReachableWhere Initial (step a) (fun w op => w.Admissible op ∧ w.Exact op) w) :
    w.OneOwner :=
  (System.ReachableWhere.induct (I := Kept) (fun _ => kept_initial)
    (fun _ _ _ hop hw => kept_step a hw hop) h).oneOwner

/-! ## Slots that are not handed out exactly -/

/-- An allocator that gives the room it is asked for. -/
def frugal : Allocator where
  grow _ needed := needed
  enough _ _ := Nat.le_refl _

/-- The arena at the start, with the room it asks for. -/
def fresh : ArenaWorld ℚ where
  arena :=
    { mixtures := [], capacity := 240000, nextGasIds := [], idsCapacity := 2000
      activeMixtureSlots := 0 }
  turfs := .new
  live := []

theorem fresh_initial : fresh.Initial :=
  ⟨rfl, rfl, rfl, Nat.le_refl _, Nat.le_refl _, rfl, rfl⟩

/-- A turf that holds the first slot. -/
def firstTurf : TurfMixture :=
  { mix := 0, id := 7, generation := 0, flags := 3, planetaryAtmos := none }

/-- A mixture. -/
def firstWorld : ArenaWorld ℚ := fresh.step frugal (.registerMix 2500)

/-- Another one is registered, and the first is unregistered while a turf names its slot. -/
def namedWorld : ArenaWorld ℚ :=
  System.run (step frugal) firstWorld [.registerMix 70, .insertTurf firstTurf 0, .unregisterMix 0]

/-- A third mixture is registered, and then the turf goes. -/
def emptiedWorld : ArenaWorld ℚ :=
  System.run (step frugal) namedWorld [.registerMix 40, .removeTurf 7]

/-- The last mixture gets the slot of the first. -/
def reusedWorld : ArenaWorld ℚ := emptiedWorld.step frugal (.registerMix 10)

/-- The slots that are handed out on the way. -/
theorem slots_reusedWorld :
    firstWorld.arena.nextSlot firstWorld.turfs = 1900 ∧
      namedWorld.arena.nextSlot namedWorld.turfs = 1899 ∧
      emptiedWorld.arena.nextSlot emptiedWorld.turfs = 0 ∧
      0 ∈ (firstWorld.step frugal (.registerMix 70)).live ∧
      reusedWorld.live = [1900, 1899, 0] := by
  decide +kernel

/-- Slots up to `2 ^ 24` are numbers of the game. -/
theorem exact_of_nextSlot {w : ArenaWorld F} {slot : Nat} (h : w.arena.nextSlot w.turfs = slot)
    (hslot : slot ≤ 2 ^ 24) (volume : F) : w.Exact (.registerMix volume) :=
  fun _ _ => asF32_of_le (h ▸ hslot)

theorem one_owner_reusedWorld : reusedWorld.live = [1900, 1899, 0] ∧ reusedWorld.OneOwner := by
  obtain ⟨hfirst, hsecond, hthird, hlive, hreused⟩ := slots_reusedWorld
  have hstart : System.ReachableWhere Initial (step frugal)
      (fun w op => w.Admissible op ∧ w.Exact op) fresh := .start fresh_initial
  have hboth := (hstart.next (ArenaOp.registerMix 2500) ⟨trivial, fun _ _ => rfl⟩).next
    (ArenaOp.registerMix 70) ⟨trivial, exact_of_nextSlot hfirst (by decide) 70⟩
  have hnamed := (hboth.next (ArenaOp.insertTurf firstTurf 0) ⟨hlive, trivial⟩).next
    (ArenaOp.unregisterMix 0) ⟨trivial, trivial⟩
  have hemptied := (hnamed.next (ArenaOp.registerMix 40)
    ⟨trivial, exact_of_nextSlot hsecond (by decide) 40⟩).next (ArenaOp.removeTurf 7)
      ⟨trivial, trivial⟩
  exact ⟨hreused, one_owner frugal (hemptied.next (ArenaOp.registerMix 10)
    ⟨trivial, exact_of_nextSlot hthird (by decide) 10⟩)⟩

/-- Where no turf names a slot, a place of the free list is reused if there is one. -/
theorem isSome_reusablePosition {w : ArenaWorld ℚ} (hturfs : w.turfs = .new)
    (hinside : ∀ slot ∈ w.arena.nextGasIds, slot < w.arena.mixtures.length)
    (hfree : w.arena.nextGasIds ≠ []) : (w.arena.reusablePosition w.turfs).isSome := by
  have hpos := List.length_pos_iff.2 hfree
  unfold GasArena.reusablePosition
  rw [List.find?_isSome]
  refine ⟨0, by simpa using hpos, ?_⟩
  rw [List.getElem?_eq_getElem hpos, hturfs]
  simpa [TurfGases.new, TurfGases.mixIsReferenced] using hinside _ (List.getElem_mem hpos)

/-- A mixture is registered, in a slot of the free list if there is one. -/
theorem step_registerMix (a : Allocator) {w : ArenaWorld ℚ} (hturfs : w.turfs = .new)
    (hinside : ∀ slot ∈ w.arena.nextGasIds, slot < w.arena.mixtures.length) :
    (∃ idx, (w.step a (.registerMix 1)).live = w.live ++ [asF32 idx]) ∧
      (w.step a (.registerMix 1)).turfs = .new ∧
      (w.arena.nextGasIds ≠ [] →
        (w.step a (.registerMix 1)).arena.mixtures.length = w.arena.mixtures.length ∧
        (w.step a (.registerMix 1)).arena.nextGasIds.length + 1 =
          w.arena.nextGasIds.length) := by
  have hsome : ∃ idx arena, w.arena.registerMix a w.turfs 1 = some (idx, arena) ∧
      (w.arena.nextGasIds ≠ [] → arena.mixtures.length = w.arena.mixtures.length ∧
        arena.nextGasIds.length + 1 = w.arena.nextGasIds.length) := by
    unfold GasArena.registerMix
    rw [if_neg (by decide +kernel)]
    cases hposition : w.arena.reusablePosition w.turfs with
    | none =>
      refine ⟨_, _, rfl, fun hfree => ?_⟩
      have hreused := isSome_reusablePosition hturfs hinside hfree
      rw [hposition] at hreused
      cases hreused
    | some position =>
      obtain ⟨idx, hidx, _⟩ := GasArena.reusablePosition_spec hposition
      simp only [hidx]
      refine ⟨_, _, rfl, fun _ => ⟨by simp [GasArena.reuse], ?_⟩⟩
      exact (perm_swapRemove hidx).length_eq
  obtain ⟨idx, arena, hreg, hlengths⟩ := hsome
  unfold step
  simp only [hreg]
  exact ⟨⟨idx, rfl⟩, hturfs, hlengths⟩

/-- The run that registers some number of mixtures and does nothing else. -/
def registrations (a : Allocator) (count : Nat) : ArenaWorld ℚ :=
  System.run (step a) fresh (List.replicate count (.registerMix 1))

theorem registrations_succ (a : Allocator) (count : Nat) :
    registrations a (count + 1) = (registrations a count).step a (.registerMix 1) := by
  rw [registrations, List.replicate_succ', System.run_append]
  rfl

theorem reachable_registrations (a : Allocator) (count : Nat) :
    System.ReachableWhere Initial (step a) Admissible (registrations a count) := by
  induction count with
  | zero => exact .start fresh_initial
  | succ count ih =>
    rw [registrations_succ]
    exact ih.next _ trivial

section

variable {a : Allocator} (hall : ∀ count, (registrations a count).OneOwner)

include hall

/-- What the run keeps, had each slot one owner: the slot that is no number is never owned. -/
theorem registrations_kept (count : Nat) :
    (registrations a count).turfs = .new ∧ (registrations a count).live.length = count ∧
      ∀ slot ∈ (registrations a count).live, slot ≠ 2 ^ 24 + 1 := by
  induction count with
  | zero => exact ⟨rfl, rfl, fun slot hslot => by cases hslot⟩
  | succ count ih =>
    obtain ⟨hturfs, hlength, hnumber⟩ := ih
    obtain ⟨⟨idx, hlive⟩, hkept, _⟩ := step_registerMix a hturfs (hall count).inside
    rw [registrations_succ]
    refine ⟨hkept, by rw [hlive, List.length_append, hlength, List.length_singleton], ?_⟩
    rw [hlive]
    intro slot hslot
    rcases List.mem_append.1 hslot with hold | hnew
    · exact hnumber slot hold
    · rw [List.mem_singleton.1 hnew]
      exact asF32_ne idx

/-- That slot stays on the free list, which is used up nevertheless. -/
theorem registrations_length (free : Nat) : ∀ count,
    (registrations a count).arena.nextGasIds.length = free →
      ¬2 ^ 24 + 1 < (registrations a count).arena.mixtures.length := by
  induction free with
  | zero =>
    intro count hfree hlarge
    rcases ((hall count).whole _).1 hlarge with hslot | hslot
    · rw [List.eq_nil_of_length_eq_zero hfree] at hslot
      cases hslot
    · exact (registrations_kept hall count).2.2 _ hslot rfl
  | succ free ih =>
    intro count hfree hlarge
    have hnonempty := List.ne_nil_of_length_eq_add_one hfree
    obtain ⟨_, _, hlengths⟩ :=
      step_registerMix a (registrations_kept hall count).1 (hall count).inside
    obtain ⟨hmixtures, hids⟩ := hlengths hnonempty
    rw [← registrations_succ] at hmixtures hids
    exact ih (count + 1) (by omega) (by omega)

end

/-- **Two owners.**  Whatever the allocator does, not every run leaves each slot with one owner:
registering mixtures, and nothing else, ends with a slot that has not. -/
theorem two_owners : ¬∃ a : Allocator, ∀ w : ArenaWorld ℚ,
    System.ReachableWhere Initial (step a) Admissible w → w.OneOwner := by
  rintro ⟨a, howners⟩
  have hall : ∀ count, (registrations a count).OneOwner := fun count =>
    howners _ (reachable_registrations a count)
  have howner := hall (2 ^ 24 + 2)
  have hsub : (registrations a (2 ^ 24 + 2)).live ⊆
      List.range (registrations a (2 ^ 24 + 2)).arena.mixtures.length := fun slot hslot =>
    List.mem_range.2 ((howner.whole slot).2 (.inr hslot))
  have hlarge := (List.subperm_of_subset howner.owners hsub).length_le
  rw [(registrations_kept hall _).2.1, List.length_range] at hlarge
  exact registrations_length hall _ (2 ^ 24 + 2) rfl (by omega)

end ArenaWorld

end Legacy

end Dogmos
