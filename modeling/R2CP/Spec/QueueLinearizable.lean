import R2CP.ForStd.Linearizability
import R2CP.Spec.QueueRefinement

/-!
# The threads of the program at the transceiver queue

With one pusher and one popper for each queue, every interleaving of the sections is
linearizable (`linearizes_of_wired`): a call takes effect at one moment between its
start and its end, as an operation on the bounded queues of `exchange` does. A call
that fails does so when it reads, because the counter or the count that it has read
decide; one that succeeds does so when it acts.

## Key results

- `linearizes_of_wired`: every interleaving of the program has a sequential explanation
- `follows_of_moves`: the effects that belong to each section
-/

namespace R2CP

namespace QueueThreads

open Linearizability

variable {ι : Type} [DecidableEq ι]

/-- What a step shows of the queues: a call that starts, or how one ends. -/
def actions (s : QueueThreads ι) (e : SectionEvent ι) (s' : QueueThreads ι) :
    List (Action ι QueueOperation CallResult) :=
  match e with
  | .startPush i side r2cpPacket => [.call i (.push side r2cpPacket)]
  | .startPop i side => [.call i (.pop side)]
  | .finish _ => (s'.results.drop s.results.length).map fun r => .ret r.1 r.2

/-- A call that will fail has had its effect, which is none; one that will succeed waits
    for it. The maxima do not change. -/
def statusOf (maxQueueSize : Side → UInt32) : Option PendingCall → Status QueueOperation CallResult
  | none => .idle
  | some (.push side r2cpPacket newQueueSize) =>
    if newQueueSize ≤ maxQueueSize side then .called (.push side r2cpPacket)
    else .performed (.threw side side.overflowError)
  | some (.pop side r2cpPacketsCount) =>
    if r2cpPacketsCount > 0 then .called (.pop side)
    else .performed (.threw side side.underflowError)

/-- The atomic object that the threads follow. -/
def toAtomic (maxQueueSize : Side → UInt32) (s : QueueThreads ι) :
    Atomic (Side → BoundedFifo (List UInt8)) ι QueueOperation CallResult :=
  ⟨s.queues.toFifos, statusOf maxQueueSize ∘ s.pending⟩

/-- The 32-bit counts show whether there are packets. -/
def CountsHold (s : QueueThreads ι) : Prop := ∀ side, (s.queues.queue side).CountHolds

section Steps

variable {pusher popper : Side → ι} {maxQueueSize : Side → UInt32} {s : QueueThreads ι}
  {i : ι} {side : Side}

/-- A section that reads changes no queue. -/
private theorem toAtomic_start (s : QueueThreads ι) (i : ι) (call : PendingCall) :
    toAtomic maxQueueSize (s.start i call) =
      ⟨s.queues.toFifos,
        Function.update (toAtomic maxQueueSize s).status i
          (statusOf maxQueueSize (some call))⟩ := by
  simp only [toAtomic, start, Function.comp_update]

/-- One that acts changes its own, and the thread is free again. -/
private theorem toAtomic_finish (s : QueueThreads ι) (i : ι) (side : Side) (q : PacketQueue)
    (result : CallResult) :
    toAtomic maxQueueSize (s.finish i side q result) =
      ⟨(s.queues.setQueue q side).toFifos,
        Function.update (toAtomic maxQueueSize s).status i .idle⟩ := by
  simp only [toAtomic, finish, Function.comp_update]
  rfl

/-- The end of a call is what the outside sees. -/
private theorem actions_finish (s : QueueThreads ι) (i : ι) (side : Side) (q : PacketQueue)
    (result : CallResult) :
    actions s (.finish i) (s.finish i side q result) = [.ret i result] := by
  simp [actions, finish]

variable {x : Atomic (Side → BoundedFifo (List UInt8)) ι QueueOperation CallResult}

/-- No effect has to take place yet. -/
private theorem refl_toAtomic (maxQueueSize : Side → UInt32) (s : QueueThreads ι) :
    AtomicRun exchange (toAtomic maxQueueSize s) [] [] (toAtomic maxQueueSize s) := .refl

/-- A call that starts and will succeed. -/
private theorem follows_start {call : PendingCall} {op : QueueOperation}
    (hidle : s.pending i = none)
    (hstatus : statusOf maxQueueSize (some call) = .called op) :
    AtomicRun exchange (toAtomic maxQueueSize s) [.call i op] []
      (toAtomic maxQueueSize (s.start i call)) := by
  have hcall := (refl_toAtomic maxQueueSize s).call i op
    (by simp only [toAtomic, Function.comp_apply, hidle, statusOf])
  rw [toAtomic_start, hstatus]
  exact hcall

/-- A call that starts and will fail: its operation has no effect on the queues as they
    are now. -/
private theorem follows_failure {call : PendingCall} {op : QueueOperation} {result : CallResult}
    (hidle : s.pending i = none)
    (hstatus : statusOf maxQueueSize (some call) = .performed result)
    (hop : exchange s.queues.toFifos op = (result, s.queues.toFifos)) :
    AtomicRun exchange (toAtomic maxQueueSize s) [.call i op] [⟨i, op, result⟩]
      (toAtomic maxQueueSize (s.start i call)) := by
  have hcall := (refl_toAtomic maxQueueSize s).call i op
    (by simp only [toAtomic, Function.comp_apply, hidle, statusOf])
  have hperform := hcall.perform i op (Function.update_self ..)
  have hop' : exchange (toAtomic maxQueueSize s).state op = (result, s.queues.toFifos) := hop
  rw [toAtomic_start, hstatus]
  simpa only [hop', Function.update_idem, List.nil_append, List.append_nil] using hperform

/-- A call that ends as it was bound to. -/
private theorem follows_failed {call : PendingCall} {result : CallResult}
    (hpending : s.pending i = some call)
    (hstatus : statusOf maxQueueSize (some call) = .performed result) :
    AtomicRun exchange (toAtomic maxQueueSize s) [.ret i result] []
      (toAtomic maxQueueSize (s.finish i side (s.queues.queue side) result)) := by
  have hret := (refl_toAtomic maxQueueSize s).ret i result
    (by simp only [toAtomic, Function.comp_apply, hpending, hstatus])
  rw [toAtomic_finish, R2CPTransceiverQueue.setQueue_queue]
  exact hret

/-- A call that ends with its effect. -/
private theorem follows_finish {call : PendingCall} {op : QueueOperation} {result : CallResult}
    {q : PacketQueue} (hpending : s.pending i = some call)
    (hstatus : statusOf maxQueueSize (some call) = .called op)
    (hop : exchange s.queues.toFifos op = (result, (s.queues.setQueue q side).toFifos)) :
    AtomicRun exchange (toAtomic maxQueueSize s) [.ret i result] [⟨i, op, result⟩]
      (toAtomic maxQueueSize (s.finish i side q result)) := by
  have hperform := (refl_toAtomic maxQueueSize s).perform i op
    (by simp only [toAtomic, Function.comp_apply, hpending, hstatus])
  have hret := hperform.ret i _ (Function.update_self ..)
  have hop' : exchange (toAtomic maxQueueSize s).state op =
    (result, (s.queues.setQueue q side).toFifos) := hop
  rw [toAtomic_finish]
  simpa only [hop', Function.update_idem, List.nil_append, List.append_nil] using hret

/-- Each step of a wired run is followed by the atomic object. -/
private theorem follows_of_moves {s' : QueueThreads ι} {e : SectionEvent ι}
    (h : WiredInv pusher popper maxQueueSize s) (hcounts : CountsHold s)
    (hwired : Wired pusher popper maxQueueSize e) (hmoves : Moves s e s') :
    ∃ effects, AtomicRun exchange (toAtomic maxQueueSize s) (actions s e s') effects
      (toAtomic maxQueueSize s') := by
  cases hmoves with
  | startPush i side r2cpPacket hidle =>
    -- the sum that is compared is exact, so it decides now
    have hexact := h.exact side
    have hfits := hexact.fits
    have hcounts := hexact.counts
    rw [h.max side] at hfits
    have hroom : (s.queues.queue side).queueSize.toNat + r2cpPacket.length < 2 ^ 32 := by
      have hlen := hwired.2
      omega
    have hsum := hexact.toNat_add hroom
    by_cases hle : (s.queues.queue side).queueSize + UInt32.ofNat r2cpPacket.length ≤
        maxQueueSize side
    · exact ⟨_, follows_start hidle (if_pos hle)⟩
    · refine ⟨_, follows_failure hidle (if_neg hle) ?_⟩
      apply R2CPTransceiverQueue.exchange_push_of_lt
      rw [h.max side, ← hsum]
      exact Nat.lt_of_not_le (mt UInt32.le_iff_toNat_le.mpr hle)
  -- a count of 0 decides now, and another one later
  | startPop i side hidle =>
    by_cases hpos : UInt32.ofNat (s.queues.queue side).packets.length > 0
    · exact ⟨_, follows_start hidle (if_pos hpos)⟩
    · refine ⟨_, follows_failure hidle (if_neg hpos) ?_⟩
      apply R2CPTransceiverQueue.exchange_pop_of_nil
      exact hcounts side (not_not.mp (mt UInt32.pos_iff_ne_zero.mpr hpos))
  -- a push takes effect when it appends
  | append i side r2cpPacket newQueueSize hcall hfits =>
    rw [actions_finish]
    rw [h.max side] at hfits
    refine ⟨_, follows_finish hcall (if_pos hfits) (R2CPTransceiverQueue.exchange_push_of_le ?_)⟩
    rw [← h.max side] at hfits
    rw [← (h.exact side).counts]
    exact h.hasRoom hcall hfits
  -- one that fails has done so before
  | reject i side r2cpPacket newQueueSize hcall hfull =>
    rw [actions_finish]
    rw [h.max side] at hfull
    exact ⟨_, follows_failed hcall (if_neg hfull)⟩
  -- a pop takes effect when it removes
  | remove i side r2cpPacketsCount r2cpPacket packets hcall hcount hpackets =>
    rw [actions_finish]
    exact ⟨_, follows_finish hcall (if_pos hcount)
      (R2CPTransceiverQueue.exchange_pop_of_cons hpackets)⟩
  | missing i side r2cpPacketsCount hcall hcount hpackets =>
    exact absurd hpackets (h.exists_first hcall hcount)
  | underflow i side r2cpPacketsCount hcall hcount =>
    rw [actions_finish]
    exact ⟨_, follows_failed hcall (if_neg hcount)⟩

/-- With one pusher and one popper for each queue, every interleaving of the sections is
    linearizable: each call takes effect at one moment between its start and its end, as
    an operation on bounded queues does, and the queues are left as these are. -/
theorem linearizes_of_wired {es : List (SectionEvent ι)} {s' : QueueThreads ι}
    (hrun : Transition.run step (initial maxQueueSize) es = some s')
    (hes : ∀ e ∈ es, Wired pusher popper maxQueueSize e)
    (hcounts : Transition.EveryState step CountsHold (initial maxQueueSize) es) :
    ∃ effects, Linearizes exchange
      (fun side => (⟨[], (maxQueueSize side).toNat⟩ : BoundedFifo (List UInt8)))
      (history step actions (initial maxQueueSize) es) effects s'.queues.toFifos := by
  have hstep : ∀ (s : QueueThreads ι) x e s',
      (WiredInv pusher popper maxQueueSize s ∧ x = toAtomic maxQueueSize s) → CountsHold s →
      Wired pusher popper maxQueueSize e → step s e = some s' →
      ∃ effects y, AtomicRun exchange x (actions s e s') effects y ∧
        WiredInv pusher popper maxQueueSize s' ∧ y = toAtomic maxQueueSize s' := by
    rintro s x e s' ⟨hinv, rfl⟩ hcounts hwired hstep
    have hmoves := moves_of_step hstep
    obtain ⟨effects, hfollows⟩ := follows_of_moves hinv hcounts hwired hmoves
    exact ⟨effects, _, hfollows, wiredInv_of_moves hinv hwired hmoves, rfl⟩
  obtain ⟨effects, y, hfollows, -, rfl⟩ := exists_atomicRun hstep
    ⟨wiredInv_initial pusher popper maxQueueSize, rfl⟩ hrun hes hcounts
  have hinitial : (toAtomic maxQueueSize (initial maxQueueSize : QueueThreads ι)).state =
      fun side => ⟨[], (maxQueueSize side).toNat⟩ := by
    funext side
    cases side <;> rfl
  have hlin := hfollows.linearizes fun _ => rfl
  rw [hinitial] at hlin
  exact ⟨effects, hlin⟩

end Steps

/-! ## Short runs -/

/-- A step puts at most one packet into a queue. -/
private theorem length_packets_le_of_moves {s s' : QueueThreads ι} {e : SectionEvent ι}
    (hmoves : Moves s e s') (side : Side) :
    (s'.queues.queue side).packets.length ≤ (s.queues.queue side).packets.length + 1 := by
  have hfinish : ∀ (i : ι) (other : Side) (q : PacketQueue) (result : CallResult),
      q.packets.length ≤ (s.queues.queue other).packets.length + 1 →
      ((s.finish i other q result).queues.queue side).packets.length ≤
        (s.queues.queue side).packets.length + 1 := by
    intro i other q result hq
    by_cases hside : side = other
    · rw [hside, queue_finish_self]
      exact hq
    · rw [queue_finish_of_ne hside]
      omega
  cases hmoves with
  | startPush i other r2cpPacket hidle => exact Nat.le_succ _
  | startPop i other hidle => exact Nat.le_succ _
  | append i other r2cpPacket => exact hfinish _ _ _ _ (by simp [PacketQueue.append])
  | reject i other => exact hfinish _ _ _ _ (Nat.le_succ _)
  | remove i other => exact hfinish _ _ _ _ (by simp [PacketQueue.eraseFirst]; omega)
  | missing i other => exact hfinish _ _ _ _ (Nat.le_succ _)
  | underflow i other => exact hfinish _ _ _ _ (Nat.le_succ _)

/-- Fewer than `2 ^ 32` steps cannot queue so many packets that their count wraps. -/
private theorem everyState_countsHold {s : QueueThreads ι} {es : List (SectionEvent ι)}
    (h : ∀ side, (s.queues.queue side).packets.length + es.length < 2 ^ 32) :
    Transition.EveryState step CountsHold s es := by
  induction es generalizing s with
  | nil => exact fun side => PacketQueue.countHolds_of_lt (by have := h side; omega)
  | cons e es ih =>
    refine ⟨fun side => PacketQueue.countHolds_of_lt (by have := h side; omega), fun s' hs' => ?_⟩
    apply ih
    intro side
    have hle := length_packets_le_of_moves (moves_of_step hs') side
    have hbound := h side
    rw [List.length_cons] at hbound
    omega

/-- The interleaving of two pushes and two pops. -/
theorem wiredCalls_linearizes : ∃ s' effects,
    Transition.run step (initial fun _ => 3) wiredCalls = some s' ∧
    Linearizes exchange (fun _ => (⟨[], 3⟩ : BoundedFifo (List UInt8)))
      (history step actions (initial fun _ => 3) wiredCalls) effects s'.queues.toFifos := by
  have hwired : ∀ e ∈ wiredCalls, Wired (fun _ => false) (fun _ => true) (fun _ => 3) e := by
    simp [wiredCalls, Wired]
  have hrun : ∃ s', Transition.run step (initial fun _ => 3) wiredCalls = some s' := ⟨_, rfl⟩
  obtain ⟨s', hrun⟩ := hrun
  have hcounts : Transition.EveryState step CountsHold (initial fun _ => 3) wiredCalls :=
    everyState_countsHold fun side => by cases side <;> decide
  obtain ⟨effects, h⟩ := linearizes_of_wired hrun hwired hcounts
  exact ⟨s', effects, hrun, h⟩

end QueueThreads

end R2CP
