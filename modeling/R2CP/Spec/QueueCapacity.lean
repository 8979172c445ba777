import R2CP.ForStd.Transition
import R2CP.Spec.QueueInterleaving

/-!
# Capacity of a queue

One thread pushes, pops and sets the maxima. A push should be refused exactly when
the queued bytes and the new ones are more than the maximum. It compares a 32-bit
sum, so it is right as long as the sum does not wrap to something that fits.

## Key results

- `everyPush_exact_iff`: exactly when all pushes of a run are exact
-/

namespace R2CP

open StatefulExcept (exec)

namespace PacketQueue

/-- The counter is the number of queued bytes. The maximum may be lower. -/
def Counted (q : PacketQueue) : Prop := q.queueSize.toNat = q.bytes

/-- The sum that a push compares. -/
theorem Counted.toNat_newQueueSize {q : PacketQueue} (h : q.Counted) {r2cpPacket : List UInt8}
    (hlen : r2cpPacket.length < 2 ^ 32) :
    (q.queueSize + UInt32.ofNat r2cpPacket.length).toNat =
      (q.bytes + r2cpPacket.length) % 2 ^ 32 := by
  rw [UInt32.toNat_add, UInt32.toNat_ofNat_length hlen, h]

/-- A push is refused when the packet does not fit, and changes nothing then; otherwise
    the packet is queued last and counted. -/
structure PushesExactly (side : Side) (q : PacketQueue) (r2cpPacket : List UInt8) : Prop where
  refused : exec (push side r2cpPacket) q = (.error side.overflowError, q) ↔
    q.maxQueueSize.toNat < q.bytes + r2cpPacket.length
  queued : ¬q.maxQueueSize.toNat < q.bytes + r2cpPacket.length →
    ∃ q', exec (push side r2cpPacket) q = (.ok (), q') ∧
      q'.packets = q.packets ++ [r2cpPacket] ∧ q'.maxQueueSize = q.maxQueueSize ∧
      q'.queueSize.toNat = q.bytes + r2cpPacket.length

/-- The 32-bit sum of the queued bytes and the new ones is exact, or too large all the
    same. -/
def SumHolds (q : PacketQueue) (r2cpPacket : List UInt8) : Prop :=
  q.bytes + r2cpPacket.length < 2 ^ 32 ∨
    q.maxQueueSize.toNat < (q.bytes + r2cpPacket.length) % 2 ^ 32

/-- A push onto a counted queue is exact when its sum holds, and only then. -/
private theorem Counted.pushesExactly_iff {q : PacketQueue} (h : q.Counted) (side : Side)
    {r2cpPacket : List UInt8} (hlen : r2cpPacket.length < 2 ^ 32) :
    PushesExactly side q r2cpPacket ↔ q.SumHolds r2cpPacket := by
  have hsum := h.toNat_newQueueSize hlen
  have hmax := q.maxQueueSize.toNat_lt
  have hpush := exec_push side r2cpPacket q
  by_cases hfits : q.queueSize + UInt32.ofNat r2cpPacket.length ≤ q.maxQueueSize
  · -- the code accepts the packet
    rw [if_pos hfits] at hpush
    rw [UInt32.le_iff_toNat_le, hsum] at hfits
    constructor
    · intro hexact
      -- an accepted packet is one that fits, so the sum has not wrapped
      have hnot : ¬q.maxQueueSize.toNat < q.bytes + r2cpPacket.length := by
        intro hlarge
        have hrefused := hexact.refused.mpr hlarge
        rw [hpush] at hrefused
        cases hrefused
      left
      omega
    · intro hholds
      have hexact : (q.bytes + r2cpPacket.length) % 2 ^ 32 = q.bytes + r2cpPacket.length := by
        cases hholds with
        | inl hlt => exact Nat.mod_eq_of_lt hlt
        | inr hlarge => omega
      constructor
      · rw [hpush]
        constructor
        · intro hrefused
          cases hrefused
        · intro hlarge
          omega
      · intro _
        exact ⟨_, hpush, rfl, rfl, by rw [← hexact, ← hsum]; rfl⟩
  · -- it refuses it, and then the sum is too large without wrapping as well
    rw [if_neg hfits] at hpush
    rw [UInt32.le_iff_toNat_le, hsum] at hfits
    have hle := Nat.mod_le (q.bytes + r2cpPacket.length) (2 ^ 32)
    constructor
    · intro _
      right
      omega
    · intro _
      constructor
      · rw [hpush]
        simp only [true_iff]
        omega
      · intro hnot
        omega

/-- An exact push keeps the counter exact. -/
theorem Counted.push {q : PacketQueue} (h : q.Counted) {side : Side} {r2cpPacket : List UInt8}
    (hexact : PushesExactly side q r2cpPacket) :
    (exec (PacketQueue.push side r2cpPacket) q).2.Counted := by
  by_cases hlarge : q.maxQueueSize.toNat < q.bytes + r2cpPacket.length
  · rw [hexact.refused.mpr hlarge]
    exact h
  · obtain ⟨q', hpush, hpackets, -, hsize⟩ := hexact.queued hlarge
    rw [hpush, Counted, hsize]
    simp only [bytes, hpackets, List.map_append, List.sum_append, List.map_cons, List.map_nil,
      List.sum_cons, List.sum_nil, Nat.add_zero]

/-- A pop keeps the counter exact: it subtracts what the packet was counted with. -/
theorem Counted.pop {q : PacketQueue} (h : q.Counted) (side : Side) :
    (exec (PacketQueue.pop side) q).2.Counted := by
  rw [exec_pop, exec_finishPop]
  split
  · cases hq : q.packets with
    | nil => exact h
    | cons r2cpPacket packets =>
      have hbytes := bytes_eraseFirst hq
      have hlt := q.queueSize.toNat_lt
      have hcounted : q.queueSize.toNat = q.bytes := h
      have hlen : (UInt32.ofNat r2cpPacket.length).toNat = r2cpPacket.length :=
        UInt32.toNat_ofNat_length (by omega)
      show (q.queueSize - UInt32.ofNat r2cpPacket.length).toNat = (q.eraseFirst r2cpPacket).bytes
      rw [UInt32.toNat_sub_of_le _ _ (by rw [UInt32.le_iff_toNat_le, hlen]; omega), hlen]
      omega
  · exact h

end PacketQueue

namespace R2CPTransceiverQueue

open Transition (EveryStep)

/-- `pushtoreceptionqueue` and `pushtotransmissionqueue` throw `std::overflow_error` and
    change nothing exactly when the queued bytes and the new ones exceed the maximum;
    otherwise the packet is queued last, and the counter is the sum. -/
structure PushesExactly (t : R2CPTransceiverQueue) (side : Side) (r2cpPacket : List UInt8) :
    Prop where
  refused : exec (pushTo side r2cpPacket) t = (.error side.overflowError, t) ↔
    (t.queue side).maxQueueSize.toNat < (t.queue side).bytes + r2cpPacket.length
  queued : ¬(t.queue side).maxQueueSize.toNat < (t.queue side).bytes + r2cpPacket.length →
    ∃ q', exec (pushTo side r2cpPacket) t = (.ok (), t.setQueue q' side) ∧
      q'.packets = (t.queue side).packets ++ [r2cpPacket] ∧
      q'.maxQueueSize = (t.queue side).maxQueueSize ∧
      q'.queueSize.toNat = (t.queue side).bytes + r2cpPacket.length

/-- A push on the singleton is the push on the queue of its side. -/
theorem exec_pushTo_eq_iff (t : R2CPTransceiverQueue) (side : Side) (r2cpPacket : List UInt8)
    (r : Except StdException Unit) (q : PacketQueue) :
    exec (pushTo side r2cpPacket) t = (r, t.setQueue q side) ↔
      exec (PacketQueue.push side r2cpPacket) (t.queue side) = (r, q) := by
  rw [exec_pushTo]
  constructor
  · intro h
    obtain ⟨hr, hset⟩ := Prod.mk.inj h
    have hq := congrArg (fun t => t.queue side) hset
    simp only [queue_setQueue_self] at hq
    exact Prod.ext hr hq
  · intro h
    rw [h]

/-- A push looks at its own queue. -/
private theorem pushesExactly_iff_queue (t : R2CPTransceiverQueue) (side : Side)
    (r2cpPacket : List UInt8) :
    t.PushesExactly side r2cpPacket ↔
      PacketQueue.PushesExactly side (t.queue side) r2cpPacket := by
  have hrefused := exec_pushTo_eq_iff t side r2cpPacket (.error side.overflowError) (t.queue side)
  rw [setQueue_queue] at hrefused
  constructor
  · intro h
    refine ⟨hrefused.symm.trans h.refused, fun hnot => ?_⟩
    obtain ⟨q', hpush, hq'⟩ := h.queued hnot
    exact ⟨q', (exec_pushTo_eq_iff t side r2cpPacket _ q').mp hpush, hq'⟩
  · intro h
    refine ⟨hrefused.trans h.refused, fun hnot => ?_⟩
    obtain ⟨q', hpush, hq'⟩ := h.queued hnot
    exact ⟨q', (exec_pushTo_eq_iff t side r2cpPacket _ q').mpr hpush, hq'⟩

/-- Both counters are exact. -/
def Counted (t : R2CPTransceiverQueue) : Prop := ∀ side, (t.queue side).Counted

/-- The queues are empty at first. -/
theorem counted_new : new.Counted := by
  intro side
  cases side <;> rfl

/-- The other queue is as it was. -/
theorem Counted.setQueue {t : R2CPTransceiverQueue} (h : t.Counted) {q : PacketQueue}
    (hq : q.Counted) (side : Side) : (t.setQueue q side).Counted := by
  intro other
  by_cases hside : other = side
  · rw [hside, queue_setQueue_self]
    exact hq
  · rw [queue_setQueue_of_ne t q hside]
    exact h other

/-- A new maximum changes no counter. -/
theorem Counted.setMaxOn {t : R2CPTransceiverQueue} (h : t.Counted) (side : Side) (m : UInt32) :
    (exec (R2CPTransceiverQueue.setMaxOn side m) t).2.Counted :=
  h.setQueue (q := { t.queue side with maxQueueSize := m }) (h side) side

/-- The packets that a call pushes are shorter than `2 ^ 32`. -/
def Call.Countable : Call → Prop
  | .push _ r2cpPacket => r2cpPacket.length < 2 ^ 32
  | .pop _ => True
  | .setMaxQueueSize .. => True
  | .setMaxReceptionQueueSize _ => True
  | .setMaxTransmissionQueueSize _ => True

/-- A call that is a push is an exact one. -/
def CallsExactly (t : R2CPTransceiverQueue) : Call → Prop
  | .push side r2cpPacket => t.PushesExactly side r2cpPacket
  | .pop _ => True
  | .setMaxQueueSize .. => True
  | .setMaxReceptionQueueSize _ => True
  | .setMaxTransmissionQueueSize _ => True

/-- The sum of a call that is a push holds. -/
def SumHolds (t : R2CPTransceiverQueue) : Call → Prop
  | .push side r2cpPacket => (t.queue side).SumHolds r2cpPacket
  | .pop _ => True
  | .setMaxQueueSize .. => True
  | .setMaxReceptionQueueSize _ => True
  | .setMaxTransmissionQueueSize _ => True

/-- A call is exact if its sum does not wrap, where it is a push. -/
theorem Counted.callsExactly_iff {t : R2CPTransceiverQueue} (h : t.Counted) {call : Call}
    (hcall : call.Countable) : t.CallsExactly call ↔ t.SumHolds call := by
  cases call with
  | push side r2cpPacket =>
    show t.PushesExactly side r2cpPacket ↔ (t.queue side).SumHolds r2cpPacket
    rw [pushesExactly_iff_queue]
    exact (h side).pushesExactly_iff side hcall
  | pop side => exact Iff.rfl
  | setMaxQueueSize m n => exact Iff.rfl
  | setMaxReceptionQueueSize m => exact Iff.rfl
  | setMaxTransmissionQueueSize n => exact Iff.rfl

/-- Exact calls keep the counters exact. -/
theorem Counted.step {t t' : R2CPTransceiverQueue} (h : t.Counted) {call : Call}
    (hexact : t.CallsExactly call) (hstep : t.step call = some t') : t'.Counted := by
  cases call with
  | push side r2cpPacket =>
    cases hstep
    rw [exec_pushTo]
    exact h.setQueue ((h side).push ((pushesExactly_iff_queue t side r2cpPacket).mp hexact)) side
  | pop side =>
    cases hstep
    rw [exec_popFrom]
    exact h.setQueue ((h side).pop side) side
  | setMaxQueueSize m n =>
    cases hstep
    exact (h.setMaxOn .reception m).setMaxOn .transmission n
  | setMaxReceptionQueueSize m =>
    cases hstep
    exact h.setMaxOn .reception m
  | setMaxTransmissionQueueSize n =>
    cases hstep
    exact h.setMaxOn .transmission n

/-- In every run of calls with countable packets, all pushes are exact exactly when the
    sums of all pushes hold. -/
theorem everyPush_exact_iff {calls : List Call} (hcalls : ∀ call ∈ calls, call.Countable) :
    EveryStep step (fun t call _ => t.CallsExactly call) new calls ↔
      EveryStep step (fun t call _ => t.SumHolds call) new calls := by
  refine Transition.everyStep_iff_of_invariant ?_ ?_ counted_new hcalls
  · intro t call t' hcounted hcall _
    exact hcounted.callsExactly_iff hcall
  · intro t call t' hcounted hcall hstep hholds
    exact hcounted.step ((hcounted.callsExactly_iff hcall).mpr hholds) hstep

/-- A byte that does not fit a maximum of 0. -/
theorem refusedPush_exact_iff :
    EveryStep step (fun t call _ => t.CallsExactly call) new
        [.setMaxReceptionQueueSize 0, .push .reception [7]] ↔
      EveryStep step (fun t call _ => t.SumHolds call) new
        [.setMaxReceptionQueueSize 0, .push .reception [7]] :=
  everyPush_exact_iff (by simp [Call.Countable])

/-- A byte and then `2 ^ 32 - 1` more: their sum wraps to 0, which fits. -/
def wrappingPushes (side : Side) : List Call :=
  [.push side [7], .push side (List.replicate (2 ^ 32 - 1) 0)]

/-- Both packets have a length of 32 bits. -/
private theorem countable_wrappingPushes (side : Side) :
    ∀ call ∈ wrappingPushes side, call.Countable := by
  simp only [wrappingPushes, List.mem_cons, List.not_mem_nil, or_false]
  rintro call (rfl | rfl)
  · show [7].length < 2 ^ 32
    decide
  · show (List.replicate (2 ^ 32 - 1) 0).length < 2 ^ 32
    rw [List.length_replicate]
    decide

/-- The second one is accepted although it does not fit. -/
private theorem not_callsExactly_wrappingPushes (side : Side) :
    ¬EveryStep step (fun t call _ => t.CallsExactly call) new (wrappingPushes side) := by
  intro h
  have hcountable := countable_wrappingPushes side _ (List.mem_cons_of_mem _ List.mem_cons_self)
  obtain ⟨hfirst, hrest⟩ := h _ rfl
  obtain ⟨hsecond, -⟩ := hrest _ rfl
  have hcounted := counted_new.step hfirst rfl
  have hholds := (hcounted.callsExactly_iff hcountable).mp hsecond
  have hbytes : ((exec (pushTo side [7]) new).2.queue side).bytes = 1 := by
    cases side <;> rfl
  simp only [SumHolds, PacketQueue.SumHolds, hbytes, List.length_replicate] at hholds
  omega

/-- On both sides the packets can be counted, and the second one is queued although it
    does not fit. -/
theorem wrappingPushes_not_exact :
    ((∀ call ∈ wrappingPushes .reception, call.Countable) ∧
      ¬EveryStep step (fun t call _ => t.CallsExactly call) new (wrappingPushes .reception)) ∧
    ((∀ call ∈ wrappingPushes .transmission, call.Countable) ∧
      ¬EveryStep step (fun t call _ => t.CallsExactly call) new (wrappingPushes .transmission)) :=
  ⟨⟨countable_wrappingPushes .reception, not_callsExactly_wrappingPushes .reception⟩,
    ⟨countable_wrappingPushes .transmission, not_callsExactly_wrappingPushes .transmission⟩⟩

end R2CPTransceiverQueue

end R2CP
