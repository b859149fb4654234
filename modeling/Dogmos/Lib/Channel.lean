import Mathlib.Data.List.Basic

/-!
# Streams that are cut anywhere

One direction of a stream, as its two ends see it.  A call of the system may be interrupted,
and one that is not moves some of the items it is asked for; `writeAll` and `readExact` call
it again until everything is moved.

* `writeAll_items` — however a buffer is cut, all of it is sent, in order.
* `readExact_eq` — however a stream is cut, what is read is its beginning, and the rest is
  left.
-/

namespace Transport

variable {α : Type}

/-- What one call of the system does: it is interrupted before anything moves, or it moves at
most `n + 1` items. -/
inductive Call where
  | interrupted
  | moves (n : Nat)
deriving DecidableEq

/-- A stream at one of its ends: the items that were sent or are to be received, and what the
next calls do.  A call that is not listed moves all that is asked for. -/
structure Channel (α : Type) where
  items : List α
  calls : List Call
deriving DecidableEq

/-- What `readExact` got, whether that is all, and the channel it leaves. -/
structure Reading (α : Type) where
  got : List α
  complete : Bool
  channel : Channel α

/-! ## The loops -/

/-- The loop of a write: the rest of the buffer is offered again until nothing is left. -/
def sendAll (sent : List α) : List Call → List α → Channel α
  | calls, [] => ⟨sent, calls⟩
  | [], buffer => ⟨sent ++ buffer, []⟩
  | .interrupted :: calls, buffer => sendAll sent calls buffer
  | .moves n :: calls, buffer =>
    sendAll (sent ++ buffer.take (n + 1)) calls (buffer.drop (n + 1))

/-- The loop of a read: it ends when all was read or a call finds the end of the stream. -/
def receiveExact : List Call → List α → Nat → Reading α
  | calls, items, 0 => ⟨[], true, ⟨items, calls⟩⟩
  | [], items, count + 1 =>
    ⟨items.take (count + 1), decide (count + 1 ≤ items.length), ⟨items.drop (count + 1), []⟩⟩
  | .interrupted :: calls, items, count + 1 => receiveExact calls items (count + 1)
  | .moves _ :: calls, [], _ + 1 => ⟨[], false, ⟨[], calls⟩⟩
  | .moves n :: calls, items, count + 1 =>
    let moved := items.take (min (n + 1) (count + 1))
    let rest := receiveExact calls (items.drop moved.length) (count + 1 - moved.length)
    { rest with got := moved ++ rest.got }

namespace Channel

/-- `write_all`. -/
def writeAll (channel : Channel α) (buffer : List α) : Channel α :=
  sendAll channel.items channel.calls buffer

/-- `read_exact`. -/
def readExact (channel : Channel α) (count : Nat) : Reading α :=
  receiveExact channel.calls channel.items count

end Channel

/-! ## Nothing is lost -/

theorem sendAll_items (sent : List α) (calls : List Call) (buffer : List α) :
    (sendAll sent calls buffer).items = sent ++ buffer := by
  induction calls generalizing sent buffer with
  | nil => cases buffer <;> simp [sendAll]
  | cons call calls ih =>
    cases buffer with
    | nil => simp [sendAll]
    | cons item buffer =>
      cases call with
      | interrupted => exact ih sent (item :: buffer)
      | moves n =>
        unfold sendAll
        rw [ih, List.append_assoc, List.take_append_drop]

theorem writeAll_items (channel : Channel α) (buffer : List α) :
    (channel.writeAll buffer).items = channel.items ++ buffer :=
  sendAll_items channel.items channel.calls buffer

theorem receiveExact_eq (calls : List Call) (items : List α) (count : Nat) :
    ∃ calls', receiveExact calls items count =
      ⟨items.take count, decide (count ≤ items.length), ⟨items.drop count, calls'⟩⟩ := by
  induction calls generalizing items count with
  | nil =>
    cases count with
    | zero => exact ⟨[], by simp [receiveExact]⟩
    | succ count => exact ⟨[], rfl⟩
  | cons call calls ih =>
    cases count with
    | zero => exact ⟨call :: calls, by simp [receiveExact]⟩
    | succ count =>
      cases call with
      | interrupted => exact ih items (count + 1)
      | moves n =>
        cases items with
        | nil => exact ⟨calls, by simp [receiveExact]⟩
        | cons item items =>
          unfold receiveExact
          dsimp only
          have hle : ((item :: items).take (min (n + 1) (count + 1))).length ≤ count + 1 := by
            rw [List.length_take]
            omega
          have hsplit := (List.take_append_drop (min (n + 1) (count + 1)) (item :: items)).symm
          -- the stream is what this call moved and the rest
          generalize (item :: items).take (min (n + 1) (count + 1)) = moved at hle hsplit ⊢
          generalize (item :: items).drop (min (n + 1) (count + 1)) = rest at hsplit
          rw [hsplit, List.drop_left]
          obtain ⟨calls', hrest⟩ := ih rest (count + 1 - moved.length)
          refine ⟨calls', ?_⟩
          have hall : count + 1 - moved.length ≤ rest.length ↔
              count + 1 ≤ (moved ++ rest).length := by
            rw [List.length_append]
            omega
          rw [hrest, List.take_append, List.drop_append, List.take_of_length_le hle,
            List.drop_of_length_le hle, List.nil_append, decide_eq_decide.2 hall]

/-- However the calls cut the stream, a read takes its beginning. -/
theorem readExact_eq (channel : Channel α) (count : Nat) :
    ∃ calls', channel.readExact count =
      ⟨channel.items.take count, decide (count ≤ channel.items.length),
        ⟨channel.items.drop count, calls'⟩⟩ :=
  receiveExact_eq channel.calls channel.items count

/-- A read of what comes first leaves what follows it. -/
theorem readExact_append (front rest : List α) (calls : List Call) :
    ∃ calls', (Channel.mk (front ++ rest) calls).readExact front.length =
      ⟨front, true, ⟨rest, calls'⟩⟩ := by
  obtain ⟨calls', hread⟩ := readExact_eq ⟨front ++ rest, calls⟩ front.length
  refine ⟨calls', ?_⟩
  rw [hread]
  simp

end Transport
