import Dogmos.Lib.System
import Mathlib.Algebra.GroupWithZero.Nat

/-!
# The legacy callback queue

Worker threads queue callbacks that the main thread runs.  A producer holds the lock on the state
of the queue from its first check to its return; the main thread holds it while it opens or closes
the queue, but not while it drains.  The counter of accounted bytes, the failure latch and the
channel are read and written one at a time, so between two accesses of one thread the others may
move.  A step here is one such access.

A thread that waits for the lock does nothing, so of the producers only the one that holds the lock
is kept (`Holder`).  What became of each accepted callback is kept beside the state the code has.

Of the library's channel this assumes that it is first in, first out, that `drain` takes all it
holds in one access, and that `try_send` fails exactly when it holds `maxCallbackItems`: its receiver
is never dropped.
-/

namespace Dogmos

namespace Legacy

/-- `DeferredCallback`. -/
structure DeferredCallback (C : Type) where
  callback : C
  ownedBytesLowerBound : Nat

/-- `QueueCallbackError`. -/
inductive QueueCallbackError
  | shuttingDown
  | disconnected
  | capacityExceeded
deriving DecidableEq

/-- `MAX_CALLBACK_ITEMS`. -/
def maxCallbackItems : Nat := 65536

/-- `MAX_CALLBACK_ACCOUNTED_BYTES`. -/
def maxCallbackAccountedBytes : Nat := 32 * 1024 * 1024

/-- The numbers of the platform: the largest `usize`, and `size_of::<DeferredFunc>()`. -/
structure Platform where
  usizeMax : Nat
  deferredFuncSize : Nat
  fits : maxCallbackAccountedBytes ≤ usizeMax

/-- `usize::saturating_add`. -/
def Platform.saturatingAdd (p : Platform) (value added : Nat) : Nat :=
  min (value + added) p.usizeMax

/-- The thread that holds the lock on `CALLBACK_STATE`, at its next access. -/
inductive Holder (C : Type)
  | nobody
  /-- `queue_callback`: the state is read. -/
  | entered (callback : C) (ownedBytes : Nat)
  | checkingLatch (envelope : DeferredCallback C)
  | checkingDepth (envelope : DeferredCallback C)
  | checkingBytes (envelope : DeferredCallback C)
  | accounting (envelope : DeferredCallback C)
  | sending (envelope : DeferredCallback C)
  | withdrawing (envelope : DeferredCallback C)
  | latching (error : QueueCallbackError)
  | returning (result : Except QueueCallbackError Unit)
  /-- `begin_callbacks`: the channel is drained. -/
  | beginning
  | unlatching (drained : List (DeferredCallback C))
  | zeroing (drained : List (DeferredCallback C))
  | opening
  /-- `clean_callbacks`: the state is written. -/
  | closing
  | sweeping
  | discarding (drained : List (DeferredCallback C))

/-- The main thread, at its next access; `timed` tells `process_callbacks_for` from
`process_callbacks`. -/
inductive MainThread (C : Type)
  | idle
  /-- `begin_callbacks` or `clean_callbacks`, as the holder of the lock. -/
  | resetting
  | entering (timed : Bool)
  | draining (timed : Bool)
  | took (timed : Bool) (envelope : DeferredCallback C)
  /-- `process_callbacks` releases the bytes before it looks at the latch. -/
  | released (envelope : DeferredCallback C)
  /-- `process_callbacks_for` looks at the latch before it releases the bytes. -/
  | passed (envelope : DeferredCallback C)
  | refused (envelope : DeferredCallback C)
  | ready (timed : Bool) (envelope : DeferredCallback C)
  | running (timed : Bool)

/-- What became of an accepted callback. -/
inductive Fate
  | ran
  | cleaned
  | begun
  | latched
deriving DecidableEq

/-- The state of the queue and of the threads that use it, with the callbacks accepted so far and
what became of those that left the queue. -/
structure CallbackQueue (C : Type) where
  admitting : Bool
  failed : Bool
  ownedBytes : Nat
  channel : List (DeferredCallback C)
  holder : Holder C
  main : MainThread C
  accepted : List (DeferredCallback C)
  fates : List (DeferredCallback C × Fate)

/-- What a thread may do next. -/
inductive CallbackOp (C : Type)
  /-- A thread calls `queue_callback` and gets the lock. -/
  | enqueue (callback : C) (ownedBytes : Nat)
  /-- The thread that holds the lock makes its next access. -/
  | hold
  /-- The main thread calls `process_callbacks` or `process_callbacks_for`. -/
  | process (timed : Bool)
  /-- The main thread calls `begin_callbacks` and gets the lock. -/
  | begin
  /-- The main thread calls `clean_callbacks` and gets the lock. -/
  | clean
  /-- The main thread makes its next access; `elapsed` is the answer of its timer. -/
  | main (elapsed : Bool)

namespace CallbackQueue

variable {C : Type}

/-- The statics before anything ran. -/
def initial : CallbackQueue C :=
  { admitting := false
    failed := false
    ownedBytes := 0
    channel := []
    holder := .nobody
    main := .idle
    accepted := []
    fates := [] }

/-- `release_owned_bytes`. -/
def release (q : CallbackQueue C) (bytes : Nat) : CallbackQueue C :=
  { q with ownedBytes := q.ownedBytes - bytes }

/-- Callbacks leave the channel or the hands of the main thread for good. -/
def settle (q : CallbackQueue C) (fate : Fate) (envelopes : List (DeferredCallback C)) :
    CallbackQueue C :=
  { q with fates := q.fates ++ envelopes.map fun envelope => (envelope, fate) }

/-- The next access of the thread that holds the lock: `queue_callback`, `begin_callbacks` and
`clean_callbacks`. -/
def holdStep (p : Platform) (q : CallbackQueue C) : CallbackQueue C :=
  match q.holder with
  | .nobody => q
  | .entered callback ownedBytes =>
    if !q.admitting then { q with holder := .returning (.error .shuttingDown) }
    else
      { q with holder :=
          .checkingLatch ⟨callback, p.saturatingAdd ownedBytes p.deferredFuncSize⟩ }
  | .checkingLatch envelope =>
    if q.failed then { q with holder := .latching .capacityExceeded }
    else { q with holder := .checkingDepth envelope }
  | .checkingDepth envelope =>
    if maxCallbackItems ≤ q.channel.length then { q with holder := .latching .capacityExceeded }
    else { q with holder := .checkingBytes envelope }
  | .checkingBytes envelope =>
    if maxCallbackAccountedBytes - q.ownedBytes < envelope.ownedBytesLowerBound then
      { q with holder := .latching .capacityExceeded }
    else { q with holder := .accounting envelope }
  | .accounting envelope =>
    { q with
      ownedBytes := p.saturatingAdd q.ownedBytes envelope.ownedBytesLowerBound
      holder := .sending envelope }
  | .sending envelope =>
    if q.channel.length < maxCallbackItems then
      { q with
        channel := q.channel ++ [envelope]
        accepted := q.accepted ++ [envelope]
        holder := .returning (.ok ()) }
    else { q with holder := .withdrawing envelope }
  | .withdrawing envelope =>
    { q.release envelope.ownedBytesLowerBound with holder := .latching .disconnected }
  | .latching error => { q with failed := true, holder := .returning (.error error) }
  | .returning _ => { q with holder := .nobody }
  | .beginning =>
    { q.settle .begun q.channel with channel := [], holder := .unlatching q.channel }
  | .unlatching drained => { q with failed := false, holder := .zeroing drained }
  | .zeroing _ => { q with ownedBytes := 0, holder := .opening }
  | .opening => { q with admitting := true, holder := .nobody, main := .idle }
  | .closing => { q with admitting := false, holder := .sweeping }
  | .sweeping =>
    { q.settle .cleaned q.channel with channel := [], holder := .discarding q.channel }
  | .discarding [] => { q with holder := .nobody, main := .idle }
  | .discarding (envelope :: rest) =>
    { q.release envelope.ownedBytesLowerBound with holder := .discarding rest }

/-- The next access of the main thread: `process_callbacks` and `process_callbacks_for`. -/
def mainStep (elapsed : Bool) (q : CallbackQueue C) : CallbackQueue C :=
  match q.main with
  | .idle => q
  | .resetting => q
  | .entering timed => { q with main := if q.failed then .idle else .draining timed }
  | .draining timed =>
    match q.channel with
    | [] => { q with main := .idle }
    | envelope :: rest => { q with channel := rest, main := .took timed envelope }
  | .took false envelope =>
    { q.release envelope.ownedBytesLowerBound with main := .released envelope }
  | .released envelope =>
    if q.failed then { q.settle .latched [envelope] with main := .idle }
    else { q with main := .ready false envelope }
  | .took true envelope =>
    { q with main := if q.failed then .refused envelope else .passed envelope }
  | .refused envelope =>
    { (q.release envelope.ownedBytesLowerBound).settle .latched [envelope] with main := .idle }
  | .passed envelope =>
    { q.release envelope.ownedBytesLowerBound with main := .ready true envelope }
  | .ready timed envelope => { q.settle .ran [envelope] with main := .running timed }
  | .running timed => { q with main := if timed && elapsed then .idle else .draining timed }

/-- Whether nobody holds the lock. -/
def unlocked (q : CallbackQueue C) : Bool :=
  match q.holder with
  | .nobody => true
  | _ => false

/-- Whether the main thread runs none of the functions here. -/
def idle (q : CallbackQueue C) : Bool :=
  match q.main with
  | .idle => true
  | _ => false

/-- One step; an operation that cannot be done yet changes nothing. -/
def step (p : Platform) (q : CallbackQueue C) : CallbackOp C → CallbackQueue C
  | .enqueue callback ownedBytes =>
    if q.unlocked then { q with holder := .entered callback ownedBytes } else q
  | .hold => q.holdStep p
  | .process timed => if q.idle then { q with main := .entering timed } else q
  | .begin =>
    if q.idle && q.unlocked then { q with holder := .beginning, main := .resetting } else q
  | .clean => if q.idle && q.unlocked then { q with holder := .closing, main := .resetting } else q
  | .main elapsed => q.mainStep elapsed

/-- The states of all interleavings. -/
abbrev Reachable (p : Platform) : CallbackQueue C → Prop :=
  System.Reachable (fun q => q = initial) (step p)

/-! ## What is counted -/

/-- The bytes of a list of callbacks. -/
def bytesOf (envelopes : List (DeferredCallback C)) : Nat :=
  (envelopes.map DeferredCallback.ownedBytesLowerBound).sum

/-- The bytes an enqueue or a reset in progress has still in the counter. -/
def bytesHeld : Holder C → Nat
  | .sending envelope => envelope.ownedBytesLowerBound
  | .withdrawing envelope => envelope.ownedBytesLowerBound
  | .unlatching drained => bytesOf drained
  | .zeroing drained => bytesOf drained
  | .discarding drained => bytesOf drained
  | _ => 0

/-- The bytes a dequeue in progress has still in the counter. -/
def bytesTaken : MainThread C → Nat
  | .took _ envelope => envelope.ownedBytesLowerBound
  | .passed envelope => envelope.ownedBytesLowerBound
  | .refused envelope => envelope.ownedBytesLowerBound
  | _ => 0

/-- The callback the main thread took from the queue and has neither run nor dropped. -/
def inHand : MainThread C → List (DeferredCallback C)
  | .took _ envelope => [envelope]
  | .released envelope => [envelope]
  | .passed envelope => [envelope]
  | .refused envelope => [envelope]
  | .ready _ envelope => [envelope]
  | _ => []

/-- The callback the main thread took and found the latch open for. -/
def cleared : MainThread C → List (DeferredCallback C)
  | .passed envelope => [envelope]
  | .ready _ envelope => [envelope]
  | _ => []

/-- The callbacks that were run, in the order they were. -/
def ran (q : CallbackQueue C) : List (DeferredCallback C) :=
  (q.fates.filter fun fate => fate.2 = .ran).map Prod.fst

end CallbackQueue

end Legacy

end Dogmos
