import R2CP.ForStd.BoundedFifo
import R2CP.Spec.QueueCapacity

/-!
# The transceiver queue as a pair of bounded queues

`exchange` is what the transceiver queue is for: on each side a bounded first-in
first-out queue of packets, with exact sizes. Called by one thread, the code behaves
the same exactly as long as its 32-bit sums and counts say what they should
(`everyCall_exchanges_iff`).

## Key results

- `everyCall_exchanges_iff`: exactly which calls the code answers as `exchange` does
- `exchange_push_of_le`, `exchange_push_of_lt`, `exchange_pop_of_nil`, `exchange_pop_of_cons`:
  what `exchange` does
-/

namespace R2CP

open StatefulExcept (exec)

/-! ## The abstract queues -/

/-- A packet is pushed to the queue of a side, or popped from it. -/
inductive QueueOperation where
  | push (side : Side) (r2cpPacket : List UInt8)
  | pop (side : Side)
  deriving DecidableEq, Repr

/-- What an operation does on its own to bounded queues of packets. -/
def exchange (queues : Side → BoundedFifo (List UInt8)) :
    QueueOperation → CallResult × (Side → BoundedFifo (List UInt8))
  | .push side r2cpPacket =>
    match (queues side).push? List.length r2cpPacket with
    | some q => (.pushed side r2cpPacket, Function.update queues side q)
    | none => (.threw side side.overflowError, queues)
  | .pop side =>
    match (queues side).pop? with
    | some (r2cpPacket, q) => (.popped side r2cpPacket, Function.update queues side q)
    | none => (.threw side side.underflowError, queues)

namespace PacketQueue

/-- The bounded queue that a queue stands for. -/
def toFifo (q : PacketQueue) : BoundedFifo (List UInt8) := ⟨q.packets, q.maxQueueSize.toNat⟩

variable {q : PacketQueue} {r2cpPacket : List UInt8} {packets : List (List UInt8)}

/-- A packet with room is put at the end. -/
private theorem push?_toFifo_of_le (h : q.bytes + r2cpPacket.length ≤ q.maxQueueSize.toNat) :
    q.toFifo.push? List.length r2cpPacket = some (q.append r2cpPacket).toFifo :=
  BoundedFifo.push?_of_le h

/-- One without room is refused. -/
private theorem push?_toFifo_of_lt (h : q.maxQueueSize.toNat < q.bytes + r2cpPacket.length) :
    q.toFifo.push? List.length r2cpPacket = none :=
  BoundedFifo.push?_of_lt h

/-- Nothing comes out of an empty queue. -/
private theorem pop?_toFifo_of_nil (h : q.packets = []) : q.toFifo.pop? = none :=
  BoundedFifo.pop?_of_nil h

/-- Out of another one comes the first packet. -/
private theorem pop?_toFifo_of_cons (h : q.packets = r2cpPacket :: packets) :
    q.toFifo.pop? = some (r2cpPacket, (q.eraseFirst r2cpPacket).toFifo) := by
  rw [BoundedFifo.pop?_of_cons h]
  simp only [toFifo, eraseFirst, h, List.tail_cons]

/-- The 32-bit count of the packets shows whether there are any. -/
def CountHolds (q : PacketQueue) : Prop := UInt32.ofNat q.packets.length = 0 → q.packets = []

/-- A count that fits 32 bits does not wrap. -/
theorem countHolds_of_lt (h : q.packets.length < 2 ^ 32) : q.CountHolds := by
  intro hzero
  have hlen := UInt32.toNat_ofNat_length h
  rw [hzero] at hlen
  exact List.length_eq_zero_iff.mp hlen.symm

end PacketQueue

namespace R2CPTransceiverQueue

/-- The bounded queues that the singleton stands for. -/
def toFifos (t : R2CPTransceiverQueue) (side : Side) : BoundedFifo (List UInt8) :=
  (t.queue side).toFifo

/-- Queue by queue. -/
private theorem toFifos_setQueue (t : R2CPTransceiverQueue) (q : PacketQueue) (side : Side) :
    (t.setQueue q side).toFifos = Function.update t.toFifos side q.toFifo := by
  funext other
  by_cases hside : other = side
  · rw [hside, Function.update_self, toFifos, queue_setQueue_self]
  · rw [Function.update_of_ne hside, toFifos, queue_setQueue_of_ne t q hside, toFifos]

/-! ## Operations on the singleton's queues -/

section Exchange

variable {t : R2CPTransceiverQueue} {side : Side} {r2cpPacket : List UInt8}
  {packets : List (List UInt8)}

/-- `exchange` accepts what has room. -/
theorem exchange_push_of_le
    (h : (t.queue side).bytes + r2cpPacket.length ≤ (t.queue side).maxQueueSize.toNat) :
    exchange t.toFifos (.push side r2cpPacket) =
      (.pushed side r2cpPacket, (t.setQueue ((t.queue side).append r2cpPacket) side).toFifos) := by
  rw [toFifos_setQueue]
  simp only [exchange, toFifos, PacketQueue.push?_toFifo_of_le h]

/-- It refuses what has none, with the error of the side. -/
theorem exchange_push_of_lt
    (h : (t.queue side).maxQueueSize.toNat < (t.queue side).bytes + r2cpPacket.length) :
    exchange t.toFifos (.push side r2cpPacket) =
      (.threw side side.overflowError, t.toFifos) := by
  simp only [exchange, toFifos, PacketQueue.push?_toFifo_of_lt h]

/-- It has nothing to pop. -/
theorem exchange_pop_of_nil (h : (t.queue side).packets = []) :
    exchange t.toFifos (.pop side) = (.threw side side.underflowError, t.toFifos) := by
  simp only [exchange, toFifos, PacketQueue.pop?_toFifo_of_nil h]

/-- It pops the first packet. -/
theorem exchange_pop_of_cons (h : (t.queue side).packets = r2cpPacket :: packets) :
    exchange t.toFifos (.pop side) =
      (.popped side r2cpPacket,
        (t.setQueue ((t.queue side).eraseFirst r2cpPacket) side).toFifos) := by
  rw [toFifos_setQueue]
  simp only [exchange, toFifos, PacketQueue.pop?_toFifo_of_cons h]

end Exchange

/-! ## Calls of one thread -/

open Transition (EveryStep)

/-- How a call ends. A setter has no result. -/
def resultOf (t : R2CPTransceiverQueue) : Call → Option CallResult
  | .push side r2cpPacket => some (QueueThreads.pushResult side r2cpPacket
      (exec (pushTo side r2cpPacket) t).1)
  | .pop side => some (QueueThreads.popResult side (exec (popFrom side) t).1)
  | .setMaxQueueSize .. => none
  | .setMaxReceptionQueueSize _ => none
  | .setMaxTransmissionQueueSize _ => none

/-- A setter changes a capacity. -/
def setCapacity (queues : Side → BoundedFifo (List UInt8)) (side : Side)
    (newMaxQueueSize : UInt32) : Side → BoundedFifo (List UInt8) :=
  Function.update queues side ((queues side).setCapacity newMaxQueueSize.toNat)

/-- What a call does to bounded queues. -/
def exchangeCall (queues : Side → BoundedFifo (List UInt8)) :
    Call → Option CallResult × (Side → BoundedFifo (List UInt8))
  | .push side r2cpPacket =>
    (some (exchange queues (.push side r2cpPacket)).1, (exchange queues (.push side r2cpPacket)).2)
  | .pop side => (some (exchange queues (.pop side)).1, (exchange queues (.pop side)).2)
  | .setMaxQueueSize newMaxReceptionQueueSize newMaxTransmissionQueueSize =>
    (none, setCapacity (setCapacity queues .reception newMaxReceptionQueueSize) .transmission
      newMaxTransmissionQueueSize)
  | .setMaxReceptionQueueSize newMaxReceptionQueueSize =>
    (none, setCapacity queues .reception newMaxReceptionQueueSize)
  | .setMaxTransmissionQueueSize newMaxTransmissionQueueSize =>
    (none, setCapacity queues .transmission newMaxTransmissionQueueSize)

/-- A call ends, and leaves the queues, as on the bounded queues that they stand for. -/
def Exchanges (t : R2CPTransceiverQueue) (call : Call) (t' : R2CPTransceiverQueue) : Prop :=
  (t.resultOf call, t'.toFifos) = exchangeCall t.toFifos call

/-- The sum of a push holds, and so does the count of a pop. -/
def ArithmeticHolds (t : R2CPTransceiverQueue) : Call → Prop
  | .push side r2cpPacket => (t.queue side).SumHolds r2cpPacket
  | .pop side => (t.queue side).CountHolds
  | .setMaxQueueSize .. => True
  | .setMaxReceptionQueueSize _ => True
  | .setMaxTransmissionQueueSize _ => True

/-- A new maximum is a new capacity. -/
private theorem toFifos_setMaxOn (t : R2CPTransceiverQueue) (side : Side)
    (newMaxQueueSize : UInt32) :
    (exec (setMaxOn side newMaxQueueSize) t).2.toFifos =
      setCapacity t.toFifos side newMaxQueueSize :=
  toFifos_setQueue t { t.queue side with maxQueueSize := newMaxQueueSize } side

/-- A push ends as on a bounded queue exactly when its sum holds. -/
private theorem Counted.exchanges_push_iff {t t' : R2CPTransceiverQueue} (h : t.Counted)
    {side : Side}
    {r2cpPacket : List UInt8} (hlen : r2cpPacket.length < 2 ^ 32)
    (hstep : t.step (.push side r2cpPacket) = some t') :
    t.Exchanges (.push side r2cpPacket) t' ↔ (t.queue side).SumHolds r2cpPacket := by
  have hsum := (h side).toNat_newQueueSize hlen
  have hmax := (t.queue side).maxQueueSize.toNat_lt
  have hmod := Nat.mod_le ((t.queue side).bytes + r2cpPacket.length) (2 ^ 32)
  have hpush := PacketQueue.exec_push side r2cpPacket (t.queue side)
  cases hstep
  unfold PacketQueue.SumHolds
  show (some (QueueThreads.pushResult side r2cpPacket (exec (pushTo side r2cpPacket) t).1),
      (exec (pushTo side r2cpPacket) t).2.toFifos) =
    (some (exchange t.toFifos (.push side r2cpPacket)).1,
      (exchange t.toFifos (.push side r2cpPacket)).2) ↔ _
  rw [exec_pushTo]
  -- what the code compares, and what it should compare
  by_cases hcode : (t.queue side).queueSize + UInt32.ofNat r2cpPacket.length ≤
      (t.queue side).maxQueueSize <;>
    by_cases hfits : (t.queue side).bytes + r2cpPacket.length ≤
      (t.queue side).maxQueueSize.toNat
  · -- both accept it
    rw [if_pos hcode] at hpush
    rw [hpush, exchange_push_of_le hfits]
    exact iff_of_true rfl (.inl (by omega))
  · -- the sum has wrapped, so the code accepts a packet that has no room
    rw [if_pos hcode] at hpush
    rw [UInt32.le_iff_toNat_le, hsum] at hcode
    rw [hpush, exchange_push_of_lt (Nat.lt_of_not_le hfits)]
    refine iff_of_false ?_ (by omega)
    simp [QueueThreads.pushResult]
  · -- a sum that is too large for the code is too large
    rw [if_neg hcode] at hpush
    rw [UInt32.le_iff_toNat_le, hsum] at hcode
    omega
  · -- both refuse it
    rw [if_neg hcode] at hpush
    rw [UInt32.le_iff_toNat_le, hsum] at hcode
    rw [hpush, exchange_push_of_lt (Nat.lt_of_not_le hfits), setQueue_queue]
    exact iff_of_true rfl (.inr (by omega))

/-- A pop ends as on a bounded queue exactly when its count holds. -/
private theorem exchanges_pop_iff {t t' : R2CPTransceiverQueue} {side : Side}
    (hstep : t.step (.pop side) = some t') :
    t.Exchanges (.pop side) t' ↔ (t.queue side).CountHolds := by
  have hpop := PacketQueue.exec_pop side (t.queue side)
  rw [PacketQueue.exec_finishPop] at hpop
  cases hstep
  unfold PacketQueue.CountHolds
  show (some (QueueThreads.popResult side (exec (popFrom side) t).1),
      (exec (popFrom side) t).2.toFifos) =
    (some (exchange t.toFifos (.pop side)).1, (exchange t.toFifos (.pop side)).2) ↔ _
  rw [exec_popFrom]
  by_cases hcount : UInt32.ofNat (t.queue side).packets.length = 0
  · rw [hcount, if_neg (by decide)] at hpop
    rw [hpop, setQueue_queue]
    cases hpackets : (t.queue side).packets with
    | nil =>
      rw [exchange_pop_of_nil hpackets]
      exact iff_of_true rfl fun _ => rfl
    | cons r2cpPacket packets =>
      -- a count that has wrapped to 0 hides the packets
      rw [hpackets] at hcount
      rw [exchange_pop_of_cons hpackets]
      refine iff_of_false ?_ fun h => ?_
      · simp [QueueThreads.popResult]
      · cases h hcount
  · -- a count that is not 0 is of packets, and the first one is popped
    rw [if_pos (UInt32.pos_iff_ne_zero.mpr hcount)] at hpop
    cases hpackets : (t.queue side).packets with
    | nil =>
      rw [hpackets] at hcount
      exact absurd rfl hcount
    | cons r2cpPacket packets =>
      rw [hpackets] at hpop hcount
      rw [hpop, exchange_pop_of_cons hpackets]
      exact iff_of_true rfl fun h => absurd h hcount

/-- The setters always do what they should. -/
private theorem exchanges_setMax {t t' : R2CPTransceiverQueue} {call : Call}
    (hsetter : t.resultOf call = none) (hstep : t.step call = some t') : t.Exchanges call t' := by
  unfold Exchanges
  rw [hsetter]
  cases call with
  | push side r2cpPacket => cases hsetter
  | pop side => cases hsetter
  | setMaxQueueSize m n =>
    cases hstep
    have hfirst := toFifos_setMaxOn t .reception m
    have hsecond := toFifos_setMaxOn (exec (setMaxOn .reception m) t).2 .transmission n
    rw [hfirst] at hsecond
    exact congrArg (Prod.mk none) hsecond
  | setMaxReceptionQueueSize m =>
    cases hstep
    exact congrArg (Prod.mk none) (toFifos_setMaxOn t .reception m)
  | setMaxTransmissionQueueSize n =>
    cases hstep
    exact congrArg (Prod.mk none) (toFifos_setMaxOn t .transmission n)

/-- Each call does what it should exactly as long as its arithmetic holds. -/
private theorem Counted.exchanges_iff {t t' : R2CPTransceiverQueue} (h : t.Counted) {call : Call}
    (hcall : call.Countable) (hstep : t.step call = some t') :
    t.Exchanges call t' ↔ t.ArithmeticHolds call := by
  cases call with
  | push side r2cpPacket => exact h.exchanges_push_iff hcall hstep
  | pop side => exact exchanges_pop_iff hstep
  | setMaxQueueSize m n => exact iff_of_true (exchanges_setMax rfl hstep) trivial
  | setMaxReceptionQueueSize m => exact iff_of_true (exchanges_setMax rfl hstep) trivial
  | setMaxTransmissionQueueSize n => exact iff_of_true (exchanges_setMax rfl hstep) trivial

/-- And then the counters stay right. -/
private theorem Counted.of_arithmeticHolds {t t' : R2CPTransceiverQueue} (h : t.Counted)
    {call : Call}
    (hcall : call.Countable) (hstep : t.step call = some t') (hholds : t.ArithmeticHolds call) :
    t'.Counted := by
  refine h.step ((h.callsExactly_iff hcall).mpr ?_) hstep
  cases call with
  | push side r2cpPacket => exact hholds
  | pop side => trivial
  | setMaxQueueSize m n => trivial
  | setMaxReceptionQueueSize m => trivial
  | setMaxTransmissionQueueSize n => trivial

/-- In every run of one thread's calls, the singleton behaves as a pair of bounded queues
    exactly when the sum of every push and the count of every pop hold. -/
theorem everyCall_exchanges_iff {calls : List Call} (hcalls : ∀ call ∈ calls, call.Countable) :
    EveryStep step Exchanges new calls ↔
      EveryStep step (fun t call _ => t.ArithmeticHolds call) new calls := by
  refine Transition.everyStep_iff_of_invariant ?_ ?_ counted_new hcalls
  · intro t call t' hcounted hcall hstep
    exact hcounted.exchanges_iff hcall hstep
  · intro t call t' hcounted hcall hstep hholds
    exact hcounted.of_arithmeticHolds hcall hstep hholds

/-- A packet that waits while the maximum is lowered is popped all the same. -/
theorem loweredMaximum_exchanges_iff :
    EveryStep step Exchanges new
        [.push .reception [7, 8], .setMaxReceptionQueueSize 1, .push .reception [9],
          .pop .reception, .pop .reception] ↔
      EveryStep step (fun t call _ => t.ArithmeticHolds call) new
        [.push .reception [7, 8], .setMaxReceptionQueueSize 1, .push .reception [9],
          .pop .reception, .pop .reception] :=
  everyCall_exchanges_iff (by simp [Call.Countable])

end R2CPTransceiverQueue

end R2CP
