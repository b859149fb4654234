import Dogmos.Legacy.Callbacks
import Mathlib.Algebra.BigOperators.Group.List.Basic

/-!
# The callback queue over whole runs

Whatever the threads do, the counter of accounted bytes covers exactly the callbacks in the
channel and what an enqueue, a dequeue or a reset still has to settle, and it stays within its
bound, as does the channel.  Accepted callbacks leave the channel in order, each with one fate.

* `Sound` — the invariant, with what the thread that holds the lock found out before.
* `sound_holdStep`, `sound_mainStep` — one access of either side keeps it.
* `Spent` — once the latch is closed, only a callback that passed it before is still run.
* `callback_queue_accounted` — both, over all interleavings.
-/

namespace Dogmos

namespace Legacy

namespace CallbackQueue

variable {C : Type} {p : Platform} {q q' : CallbackQueue C}

/-! ## The invariant -/

/-- Whether the lock is held by `begin_callbacks` or `clean_callbacks`. -/
def resets : Holder C → Bool
  | .beginning => true
  | .unlatching _ => true
  | .zeroing _ => true
  | .opening => true
  | .closing => true
  | .sweeping => true
  | .discarding _ => true
  | _ => false

/-- Whether the main thread is inside `begin_callbacks` or `clean_callbacks`. -/
def inReset : MainThread C → Bool
  | .resetting => true
  | _ => false

/-- What the thread that holds the lock found out, and the others cannot change. -/
def Knows (q : CallbackQueue C) : Holder C → Prop
  | .checkingBytes _ => q.channel.length < maxCallbackItems
  | .accounting envelope => q.channel.length < maxCallbackItems ∧
      q.ownedBytes + envelope.ownedBytesLowerBound ≤ maxCallbackAccountedBytes
  | .sending _ => q.channel.length < maxCallbackItems
  | .latching error => error ≠ .shuttingDown
  | .returning (.error error) => error ≠ .shuttingDown → q.failed = true
  | .unlatching _ => q.channel = []
  | .zeroing _ => q.channel = []
  | .opening => q.channel = []
  | .discarding _ => q.channel = []
  | _ => True

/-- Bytes and callbacks are accounted for. -/
structure Accounted (q : CallbackQueue C) : Prop where
  bytes : q.ownedBytes = bytesOf q.channel + bytesHeld q.holder + bytesTaken q.main
  bounded : q.ownedBytes ≤ maxCallbackAccountedBytes
  depth : q.channel.length ≤ maxCallbackItems
  order : q.accepted = q.fates.map Prod.fst ++ (inHand q.main ++ q.channel)

/-- The invariant of all interleavings. -/
structure Sound (q : CallbackQueue C) : Prop extends Accounted q where
  alone : inReset q.main = resets q.holder
  knows : q.Knows q.holder

@[simp] theorem bytesOf_nil : bytesOf ([] : List (DeferredCallback C)) = 0 := rfl

@[simp] theorem bytesOf_cons (envelope : DeferredCallback C) (rest : List (DeferredCallback C)) :
    bytesOf (envelope :: rest) = envelope.ownedBytesLowerBound + bytesOf rest := rfl

theorem bytesOf_append (first second : List (DeferredCallback C)) :
    bytesOf (first ++ second) = bytesOf first + bytesOf second := by
  simp [bytesOf]

theorem sound_initial : Sound (initial : CallbackQueue C) :=
  ⟨⟨rfl, Nat.zero_le _, Nat.zero_le _, rfl⟩, rfl, trivial⟩

/-- The callbacks that were settled, in order. -/
theorem fates_settle (q : CallbackQueue C) (fate : Fate) (envelopes : List (DeferredCallback C)) :
    (q.settle fate envelopes).fates.map Prod.fst = q.fates.map Prod.fst ++ envelopes := by
  rw [settle, List.map_append, List.map_map]
  congr 1
  exact List.map_id envelopes

/-! ## The thread that holds the lock -/

/-- The thread that holds the lock moves on and changes nothing that is counted. -/
theorem Sound.pass (h : Sound q) {holder : Holder C}
    (hbytes : bytesHeld holder = bytesHeld q.holder)
    (hresets : resets holder = resets q.holder) (hknows : q.Knows holder) :
    Sound { q with holder } where
  bytes := by rw [hbytes]; exact h.bytes
  bounded := h.bounded
  depth := h.depth
  order := h.order
  alone := h.alone.trans hresets.symm
  knows := by cases holder <;> exact hknows

/-- While the main thread opens or closes the queue, it holds no callback. -/
theorem Sound.hands_empty (h : Sound q) (hresets : resets q.holder = true) :
    bytesTaken q.main = 0 ∧ inHand q.main = [] := by
  have hmain := h.alone.trans hresets
  cases hphase : q.main <;> rw [hphase] at hmain <;> first | exact ⟨rfl, rfl⟩ | cases hmain

/-- The channel is drained, and its bytes are still to be released. -/
theorem Sound.drain (h : Sound q) (fate : Fate) {holder : Holder C}
    (hresets : resets q.holder = true) (hheld : bytesHeld q.holder = 0)
    (hbytes : bytesHeld holder = bytesOf q.channel) (hresets' : resets holder = true)
    (hknows : { q.settle fate q.channel with channel := [] }.Knows holder) :
    Sound { q.settle fate q.channel with channel := [], holder } := by
  obtain ⟨htaken, hhand⟩ := h.hands_empty hresets
  have hcounted := h.bytes
  have horder := h.order
  rw [hheld, htaken, Nat.add_zero] at hcounted
  rw [hhand, List.nil_append] at horder
  refine ⟨⟨?_, h.bounded, Nat.zero_le _, ?_⟩, ?_, by cases holder <;> exact hknows⟩
  · show q.ownedBytes = 0 + bytesHeld holder + bytesTaken q.main
    rw [hbytes, htaken, hcounted]
    omega
  · show q.accepted = (q.settle fate q.channel).fates.map Prod.fst ++ (inHand q.main ++ [])
    rw [fates_settle, hhand, horder, List.append_nil]
    exact (List.append_nil _).symm
  · exact h.alone.trans (hresets.trans hresets'.symm)

/-- The main thread returns from `begin_callbacks` or `clean_callbacks`. -/
theorem Sound.return (h : Sound q) (hresets : resets q.holder = true)
    (hheld : bytesHeld q.holder = 0) (admitting : Bool) :
    Sound { q with admitting, holder := .nobody, main := .idle } := by
  obtain ⟨htaken, hhand⟩ := h.hands_empty hresets
  have hcounted := h.bytes
  have horder := h.order
  rw [hheld, htaken] at hcounted
  rw [hhand] at horder
  exact ⟨⟨hcounted, h.bounded, h.depth, horder⟩, rfl, trivial⟩

theorem sound_holdStep (h : Sound q) : Sound (q.holdStep p) := by
  have hcounted := h.bytes
  have hknows := h.knows
  unfold holdStep
  cases hholder : q.holder with
  | nobody => exact h
  | entered callback ownedBytes =>
    dsimp only
    split
    · exact h.pass (by rw [hholder]; rfl) (by rw [hholder]; rfl) fun hne => absurd rfl hne
    · exact h.pass (by rw [hholder]; rfl) (by rw [hholder]; rfl) trivial
  | checkingLatch envelope =>
    dsimp only
    split
    · exact h.pass (by rw [hholder]; rfl) (by rw [hholder]; rfl) fun heq => by cases heq
    · exact h.pass (by rw [hholder]; rfl) (by rw [hholder]; rfl) trivial
  | checkingDepth envelope =>
    dsimp only
    split
    · exact h.pass (by rw [hholder]; rfl) (by rw [hholder]; rfl) fun heq => by cases heq
    · next hroom =>
      exact h.pass (by rw [hholder]; rfl) (by rw [hholder]; rfl) (Nat.lt_of_not_le hroom)
  | checkingBytes envelope =>
    rw [hholder] at hknows
    dsimp only
    split
    · exact h.pass (by rw [hholder]; rfl) (by rw [hholder]; rfl) fun heq => by cases heq
    · next hfits =>
      have hbounded := h.bounded
      refine h.pass (by rw [hholder]; rfl) (by rw [hholder]; rfl) ⟨hknows, ?_⟩
      omega
  | accounting envelope =>
    rw [hholder] at hknows hcounted
    obtain ⟨hroom, hfits⟩ := hknows
    have hsum : p.saturatingAdd q.ownedBytes envelope.ownedBytesLowerBound =
        q.ownedBytes + envelope.ownedBytesLowerBound :=
      Nat.min_eq_left (Nat.le_trans hfits p.fits)
    dsimp only
    rw [hsum]
    refine ⟨⟨?_, hfits, h.depth, h.order⟩, ?_, hroom⟩
    · simp only [bytesHeld] at hcounted ⊢
      omega
    · rw [h.alone, hholder]
      rfl
  | sending envelope =>
    rw [hholder] at hknows hcounted
    dsimp only
    split
    · next hroom =>
      refine ⟨⟨?_, h.bounded, ?_, ?_⟩, ?_, trivial⟩
      · simp only [bytesHeld, bytesOf_append, bytesOf_cons, bytesOf_nil] at hcounted ⊢
        omega
      · simp only [List.length_append, List.length_singleton]
        omega
      · simp only [h.order, List.append_assoc]
      · rw [h.alone, hholder]
        rfl
    · next hfull => exact absurd hknows hfull
  | withdrawing envelope =>
    rw [hholder] at hcounted
    refine ⟨⟨?_, Nat.le_trans (Nat.sub_le ..) h.bounded, h.depth, h.order⟩, ?_,
      fun heq => by cases heq⟩
    · simp only [release, bytesHeld] at hcounted ⊢
      omega
    · show inReset q.main = _
      rw [h.alone, hholder]
      rfl
  | latching error =>
    refine ⟨⟨?_, h.bounded, h.depth, h.order⟩, ?_, fun _ => rfl⟩
    · rw [hholder] at hcounted
      exact hcounted
    · rw [h.alone, hholder]
      rfl
  | returning result => exact h.pass (by rw [hholder]; rfl) (by rw [hholder]; rfl) trivial
  | beginning => exact h.drain .begun (by rw [hholder]; rfl) (by rw [hholder]; rfl) rfl rfl rfl
  | unlatching drained =>
    rw [hholder] at hknows hcounted
    refine ⟨⟨hcounted, h.bounded, h.depth, h.order⟩, ?_, hknows⟩
    rw [h.alone, hholder]
    rfl
  | zeroing drained =>
    have hresets : resets q.holder = true := by rw [hholder]; rfl
    rw [hholder] at hknows
    refine ⟨⟨?_, Nat.zero_le _, h.depth, h.order⟩, ?_, hknows⟩
    · rw [(h.hands_empty hresets).1, show q.channel = [] from hknows]
      rfl
    · rw [h.alone, hresets]
      rfl
  | opening => exact h.return (by rw [hholder]; rfl) (by rw [hholder]; rfl) true
  | closing =>
    refine ⟨⟨?_, h.bounded, h.depth, h.order⟩, ?_, trivial⟩
    · rw [hholder] at hcounted
      exact hcounted
    · rw [h.alone, hholder]
      rfl
  | sweeping => exact h.drain .cleaned (by rw [hholder]; rfl) (by rw [hholder]; rfl) rfl rfl rfl
  | discarding drained =>
    cases drained with
    | nil => exact h.return (by rw [hholder]; rfl) (by rw [hholder]; rfl) q.admitting
    | cons envelope rest =>
      rw [hholder] at hknows hcounted
      refine ⟨⟨?_, Nat.le_trans (Nat.sub_le ..) h.bounded, h.depth, h.order⟩, ?_, hknows⟩
      · simp only [release, bytesHeld, bytesOf_cons] at hcounted ⊢
        omega
      · show inReset q.main = _
        rw [h.alone, hholder]
        rfl

/-! ## The main thread -/

/-- What the lock's holder knows is not changed by callbacks that leave the channel. -/
theorem Knows.mono {holder : Holder C} (h : q.Knows holder)
    (hchannel : q'.channel.length ≤ q.channel.length) (hbytes : q'.ownedBytes ≤ q.ownedBytes)
    (hfailed : q'.failed = q.failed) : q'.Knows holder := by
  have hempty : q.channel = [] → q'.channel = [] := by
    intro hnil
    rw [hnil] at hchannel
    exact List.eq_nil_of_length_eq_zero (Nat.le_zero.1 hchannel)
  cases holder with
  | checkingBytes envelope => exact Nat.lt_of_le_of_lt hchannel h
  | accounting envelope =>
    exact ⟨Nat.lt_of_le_of_lt hchannel h.1, Nat.le_trans (Nat.add_le_add_right hbytes _) h.2⟩
  | sending envelope => exact Nat.lt_of_le_of_lt hchannel h
  | latching error => exact h
  | returning result =>
    cases result with
    | error error =>
      intro hne
      rw [hfailed]
      exact h hne
    | ok value => trivial
  | unlatching drained => exact hempty h
  | zeroing drained => exact hempty h
  | opening => exact hempty h
  | discarding drained => exact hempty h
  | _ => trivial

/-- The main thread moves on: what leaves the channel is in its hands or settled, and what leaves
the counter was in its hands. -/
theorem Sound.move (h : Sound q) (hholder : q'.holder = q.holder) (hfailed : q'.failed = q.failed)
    (haccepted : q'.accepted = q.accepted) (hmain : inReset q'.main = inReset q.main)
    (hchannel : q'.channel.length ≤ q.channel.length) (hbytes : q'.ownedBytes ≤ q.ownedBytes)
    (hcounted : q'.ownedBytes + (bytesOf q.channel + bytesTaken q.main) =
      q.ownedBytes + (bytesOf q'.channel + bytesTaken q'.main))
    (horder : q'.fates.map Prod.fst ++ (inHand q'.main ++ q'.channel) =
      q.fates.map Prod.fst ++ (inHand q.main ++ q.channel)) : Sound q' where
  bytes := by
    have hold := h.bytes
    rw [hholder]
    omega
  bounded := Nat.le_trans hbytes h.bounded
  depth := Nat.le_trans hchannel h.depth
  order := by rw [haccepted, horder, h.order]
  alone := by rw [hmain, hholder, h.alone]
  knows := by
    rw [hholder]
    exact h.knows.mono hchannel hbytes hfailed

/-- The bytes of the callback in hand are in the counter. -/
theorem Sound.taken_le (h : Sound q) : bytesTaken q.main ≤ q.ownedBytes := by
  rw [h.bytes]
  omega

theorem sound_mainStep (elapsed : Bool) (h : Sound q) : Sound (q.mainStep elapsed) := by
  have htaken := h.taken_le
  unfold mainStep
  cases hmain : q.main with
  | idle => exact h
  | resetting => exact h
  | entering timed =>
    refine h.move rfl rfl rfl ?_ (Nat.le_refl _) (Nat.le_refl _) ?_ ?_ <;>
      rw [hmain] <;> dsimp only <;> split <;> rfl
  | draining timed =>
    dsimp only
    split
    · refine h.move rfl rfl rfl ?_ (Nat.le_refl _) (Nat.le_refl _) ?_ ?_ <;> rw [hmain] <;> rfl
    · next envelope rest hchannel =>
      refine h.move rfl rfl rfl ?_ ?_ (Nat.le_refl _) ?_ ?_
      · rw [hmain]
        rfl
      · simp [hchannel]
      · rw [hmain, hchannel]
        simp only [bytesTaken, bytesOf_cons]
        omega
      · rw [hmain, hchannel]
        rfl
  | took timed envelope =>
    rw [hmain] at htaken
    cases timed with
    | false =>
      refine h.move rfl rfl rfl ?_ (Nat.le_refl _) (Nat.sub_le ..) ?_ ?_
      · rw [hmain]
        rfl
      · rw [hmain]
        simp only [release, bytesTaken] at htaken ⊢
        omega
      · rw [hmain]
        rfl
    | true =>
      refine h.move rfl rfl rfl ?_ (Nat.le_refl _) (Nat.le_refl _) ?_ ?_ <;>
        rw [hmain] <;> dsimp only <;> split <;> rfl
  | released envelope =>
    dsimp only
    split
    · refine h.move rfl rfl rfl ?_ (Nat.le_refl _) (Nat.le_refl _) ?_ ?_
      · rw [hmain]
        rfl
      · rw [hmain]
        rfl
      · rw [hmain]
        dsimp only
        rw [fates_settle, List.append_assoc]
        rfl
    · refine h.move rfl rfl rfl ?_ (Nat.le_refl _) (Nat.le_refl _) ?_ ?_ <;> rw [hmain] <;> rfl
  | passed envelope =>
    rw [hmain] at htaken
    refine h.move rfl rfl rfl ?_ (Nat.le_refl _) (Nat.sub_le ..) ?_ ?_
    · rw [hmain]
      rfl
    · rw [hmain]
      simp only [release, bytesTaken] at htaken ⊢
      omega
    · rw [hmain]
      rfl
  | refused envelope =>
    rw [hmain] at htaken
    refine h.move rfl rfl rfl ?_ (Nat.le_refl _) (Nat.sub_le ..) ?_ ?_
    · rw [hmain]
      rfl
    · rw [hmain]
      simp only [settle, release, bytesTaken] at htaken ⊢
      omega
    · rw [hmain]
      dsimp only
      rw [fates_settle, List.append_assoc]
      rfl
  | ready timed envelope =>
    refine h.move rfl rfl rfl ?_ (Nat.le_refl _) (Nat.le_refl _) ?_ ?_
    · rw [hmain]
      rfl
    · rw [hmain]
      rfl
    · rw [hmain]
      dsimp only
      rw [fates_settle, List.append_assoc]
      rfl
  | running timed =>
    refine h.move rfl rfl rfl ?_ (Nat.le_refl _) (Nat.le_refl _) ?_ ?_ <;>
      rw [hmain] <;> dsimp only <;> split <;> rfl

/-! ## All interleavings -/

theorem holder_of_unlocked (h : q.unlocked = true) : q.holder = .nobody := by
  unfold unlocked at h
  split at h
  · assumption
  · cases h

theorem main_of_idle (h : q.idle = true) : q.main = .idle := by
  unfold idle at h
  split at h
  · assumption
  · cases h

/-- The idle main thread gets the free lock. -/
theorem Sound.enter (h : Sound q) (hfree : (q.idle && q.unlocked) = true) {holder : Holder C}
    (hheld : bytesHeld holder = 0) (hresets : resets holder = true) (hknows : q.Knows holder) :
    Sound { q with holder, main := .resetting } := by
  rw [Bool.and_eq_true] at hfree
  have hcounted := h.bytes
  have horder := h.order
  rw [holder_of_unlocked hfree.2, main_of_idle hfree.1] at hcounted
  rw [main_of_idle hfree.1] at horder
  refine ⟨⟨?_, h.bounded, h.depth, horder⟩, hresets.symm, by cases holder <;> exact hknows⟩
  show q.ownedBytes = bytesOf q.channel + bytesHeld holder + 0
  rw [hheld]
  exact hcounted

/-- **One step** of any thread keeps the invariant. -/
theorem sound_step (h : Sound q) (op : CallbackOp C) : Sound (q.step p op) := by
  cases op with
  | enqueue callback ownedBytes =>
    unfold step
    dsimp only
    split
    · next hfree =>
      exact h.pass (by rw [holder_of_unlocked hfree]; rfl) (by rw [holder_of_unlocked hfree]; rfl)
        trivial
    · exact h
  | hold => exact sound_holdStep h
  | process timed =>
    unfold step
    dsimp only
    split
    · next hidle =>
      have hmain := main_of_idle hidle
      refine h.move rfl rfl rfl ?_ (Nat.le_refl _) (Nat.le_refl _) ?_ ?_ <;> rw [hmain] <;> rfl
    · exact h
  | begin =>
    unfold step
    dsimp only
    split
    · next hfree => exact h.enter hfree rfl rfl trivial
    · exact h
  | clean =>
    unfold step
    dsimp only
    split
    · next hfree => exact h.enter hfree rfl rfl trivial
    · exact h
  | main elapsed => exact sound_mainStep elapsed h

theorem sound_of_reachable (h : Reachable p q) : Sound q := by
  refine System.Reachable.induct (I := Sound) (fun q hq => ?_) (fun q op hq => sound_step hq op) h
  rw [hq]
  exact sound_initial

/-! ## The failure latch -/

/-- Whether the lock is held by `begin_callbacks` while the latch is still to be opened. -/
def begins : Holder C → Bool
  | .beginning => true
  | .unlatching _ => true
  | _ => false

/-- The latch is closed and stays so, and no callbacks are run any more but the given ones. -/
structure Spent (seen : List (DeferredCallback C)) (q : CallbackQueue C) : Prop where
  failed : q.failed = true
  begins : begins q.holder = false
  seen : q.ran ++ cleared q.main = seen

theorem ran_settle (q : CallbackQueue C) (fate : Fate) (envelopes : List (DeferredCallback C)) :
    (q.settle fate envelopes).ran = if fate = .ran then q.ran ++ envelopes else q.ran := by
  unfold ran settle
  dsimp only
  rw [List.filter_append, List.map_append]
  split
  · next h =>
    subst h
    simp [List.filter_map, Function.comp_def]
  · next h =>
    simp [List.filter_map, Function.comp_def, h]

variable {seen : List (DeferredCallback C)}

theorem Spent.holdStep (h : Spent seen q) (hq : Sound q) : Spent seen (q.holdStep p) := by
  obtain ⟨hfailed, hbegins, hseen⟩ := h
  have hreset : resets q.holder = true → cleared q.main = [] := by
    intro hresets
    have hmain := hq.alone.trans hresets
    cases hphase : q.main <;> rw [hphase] at hmain <;> first | rfl | cases hmain
  unfold CallbackQueue.holdStep
  cases hholder : q.holder with
  | nobody => exact ⟨hfailed, hbegins, hseen⟩
  | entered callback ownedBytes =>
    dsimp only
    split <;> exact ⟨hfailed, rfl, hseen⟩
  | checkingLatch envelope =>
    dsimp only
    split <;> exact ⟨hfailed, rfl, hseen⟩
  | checkingDepth envelope =>
    dsimp only
    split <;> exact ⟨hfailed, rfl, hseen⟩
  | checkingBytes envelope =>
    dsimp only
    split <;> exact ⟨hfailed, rfl, hseen⟩
  | accounting envelope => exact ⟨hfailed, rfl, hseen⟩
  | sending envelope =>
    dsimp only
    split <;> exact ⟨hfailed, rfl, hseen⟩
  | withdrawing envelope => exact ⟨hfailed, rfl, hseen⟩
  | latching error => exact ⟨rfl, rfl, hseen⟩
  | returning result => exact ⟨hfailed, rfl, hseen⟩
  | beginning =>
    rw [hholder] at hbegins
    cases hbegins
  | unlatching drained =>
    rw [hholder] at hbegins
    cases hbegins
  | zeroing drained => exact ⟨hfailed, rfl, hseen⟩
  | opening =>
    rw [hreset (by rw [hholder]; rfl)] at hseen
    exact ⟨hfailed, rfl, hseen⟩
  | closing => exact ⟨hfailed, rfl, hseen⟩
  | sweeping =>
    refine ⟨hfailed, rfl, ?_⟩
    show (q.settle .cleaned q.channel).ran ++ cleared q.main = seen
    rw [ran_settle, if_neg (by decide)]
    exact hseen
  | discarding drained =>
    cases drained with
    | nil =>
      rw [hreset (by rw [hholder]; rfl)] at hseen
      exact ⟨hfailed, rfl, hseen⟩
    | cons envelope rest => exact ⟨hfailed, rfl, hseen⟩

/-- A callback that is taken while the latch is closed is dropped. -/
theorem Spent.mainStep (h : Spent seen q) (elapsed : Bool) : Spent seen (q.mainStep elapsed) := by
  obtain ⟨hfailed, hbegins, hseen⟩ := h
  unfold CallbackQueue.mainStep
  cases hmain : q.main <;> rw [hmain] at hseen
  case idle => exact ⟨hfailed, hbegins, by rw [hmain]; exact hseen⟩
  case resetting => exact ⟨hfailed, hbegins, by rw [hmain]; exact hseen⟩
  case entering timed =>
    refine ⟨hfailed, hbegins, ?_⟩
    dsimp only
    split <;> exact hseen
  case draining timed =>
    dsimp only
    split <;> exact ⟨hfailed, hbegins, hseen⟩
  case took timed envelope =>
    cases timed with
    | false => exact ⟨hfailed, hbegins, hseen⟩
    | true =>
      refine ⟨hfailed, hbegins, ?_⟩
      dsimp only
      rw [if_pos hfailed]
      exact hseen
  case released envelope =>
    dsimp only
    rw [if_pos hfailed]
    refine ⟨hfailed, hbegins, ?_⟩
    show (q.settle .latched [envelope]).ran ++ [] = seen
    rw [ran_settle, if_neg (by decide)]
    exact hseen
  case passed envelope => exact ⟨hfailed, hbegins, hseen⟩
  case refused envelope =>
    refine ⟨hfailed, hbegins, ?_⟩
    show ((q.release envelope.ownedBytesLowerBound).settle .latched [envelope]).ran ++ [] = seen
    rw [ran_settle, if_neg (by decide)]
    exact hseen
  case ready timed envelope =>
    refine ⟨hfailed, hbegins, ?_⟩
    show (q.settle .ran [envelope]).ran ++ [] = seen
    rw [ran_settle, if_pos rfl, List.append_nil]
    exact hseen
  case running timed =>
    refine ⟨hfailed, hbegins, ?_⟩
    dsimp only
    split <;> exact hseen

theorem Spent.step (h : Spent seen q) (hq : Sound q) {op : CallbackOp C} (hop : op ≠ .begin) :
    Spent seen (q.step p op) := by
  cases op with
  | enqueue callback ownedBytes =>
    unfold CallbackQueue.step
    dsimp only
    split
    · exact ⟨h.failed, rfl, h.seen⟩
    · exact h
  | hold => exact h.holdStep hq
  | process timed =>
    unfold CallbackQueue.step
    dsimp only
    split
    · next hidle =>
      have hseen := h.seen
      rw [main_of_idle hidle] at hseen
      exact ⟨h.failed, h.begins, hseen⟩
    · exact h
  | begin => exact absurd rfl hop
  | clean =>
    unfold CallbackQueue.step
    dsimp only
    split
    · next hfree =>
      rw [Bool.and_eq_true] at hfree
      have hseen := h.seen
      rw [main_of_idle hfree.1] at hseen
      exact ⟨h.failed, rfl, hseen⟩
    · exact h
  | main elapsed => exact h.mainStep elapsed

/-- A run without `begin_callbacks` leaves the latch closed. -/
theorem Spent.run (hq : Sound q) (h : Spent seen q) {ops : List (CallbackOp C)}
    (hops : ∀ op ∈ ops, op ≠ .begin) : Spent seen (System.run (CallbackQueue.step p) q ops) := by
  induction ops generalizing q with
  | nil => exact h
  | cons op rest ih =>
    rw [List.forall_mem_cons] at hops
    exact ih (sound_step hq op) (h.step hq hops.1) hops.2

/-- **The queue accounts for its callbacks**, over all interleavings: bytes and callbacks are
accounted for, callbacks are run in the order they were accepted, and behind a rejected enqueue
none is run but one that the main thread had taken before, until the queue begins anew. -/
theorem callback_queue_accounted (h : Reachable p q) :
    Accounted q ∧ List.Sublist q.ran q.accepted ∧
    ∀ error, q.holder = .returning (.error error) → error ≠ .shuttingDown →
      q.failed = true ∧
      ∀ ops : List (CallbackOp C), (∀ op ∈ ops, op ≠ .begin) →
        (System.run (step p) q ops).ran <+: q.ran ++ cleared q.main := by
  have hq := sound_of_reachable h
  refine ⟨hq.toAccounted, ?_, fun error hholder herror => ?_⟩
  · rw [hq.order]
    exact (List.filter_sublist.map Prod.fst).trans (List.sublist_append_left ..)
  · have hfailed : q.failed = true := by
      have hknows := hq.knows
      rw [hholder] at hknows
      exact hknows herror
    refine ⟨hfailed, fun ops hops => ?_⟩
    have hspent : Spent (q.ran ++ cleared q.main) q := ⟨hfailed, by rw [hholder]; rfl, rfl⟩
    exact ⟨_, (hspent.run hq hops).seen⟩

/-- Steps of the thread that holds the lock. -/
def holds (count : Nat) : List (CallbackOp Nat) := List.replicate count .hold

/-- A platform of 32 bits. -/
def narrow : Platform := ⟨2 ^ 32 - 1, 8, by decide⟩

/-- A queue that is opened and fed, and that is fed too much while its callback is taken. -/
def overfed : CallbackQueue Nat :=
  System.run (step narrow) initial
    (.begin :: holds 4 ++ .enqueue 1 100 :: holds 7 ++
      [.process true, .main false, .main false, .main false, .enqueue 2 (32 * 1024 * 1024)] ++
      holds 5)

theorem callback_queue_accounted_overfed :
    Accounted overfed ∧ overfed.ran = [] ∧ overfed.failed = true ∧
      ∀ ops, (∀ op ∈ ops, op ≠ .begin) →
        (System.run (step narrow) overfed ops).ran <+: [⟨1, 108⟩] := by
  have hstart : Reachable narrow (initial : CallbackQueue Nat) := System.ReachableWhere.start rfl
  have hreachable : Reachable narrow overfed := System.Reachable.run hstart _
  obtain ⟨haccounted, -, hlatched⟩ := callback_queue_accounted hreachable
  obtain ⟨hfailed, hruns⟩ := hlatched .capacityExceeded rfl (by decide)
  exact ⟨haccounted, rfl, hfailed, hruns⟩

end CallbackQueue

end Legacy

end Dogmos
