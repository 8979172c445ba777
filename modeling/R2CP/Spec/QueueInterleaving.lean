import R2CP.ForStd.BigEndian
import R2CP.Native.QueueThreads

/-!
# Interleaved pushes and pops

The check of a push and that of a pop can be stale when the call acts on it. With
any number of threads a step is safe exactly when its check would still succeed
(`everyStep_safe_iff`), and two threads are enough to go wrong. With one pusher and
one popper for each queue, as the program wires it, a stale check errs on the safe
side only, and nothing is lost (`delivered_of_wired`).

## Key results

- `everyStep_safe_iff`: exactly which steps of any threads are safe
- `twoThreads_unsafe`: the two ways in which two threads go wrong
- `delivered_of_wired`: with one pusher and one popper for each queue nothing is lost
- `wiredInv_of_moves`: the invariant of these threads, section by section
-/

namespace R2CP

namespace PacketQueue

/-! ## Exact counters -/

/-- The bytes that are queued. -/
def bytes (q : PacketQueue) : Nat := (q.packets.map List.length).sum

/-- The counter is the number of queued bytes, which is within the maximum. -/
structure Exact (q : PacketQueue) : Prop where
  counts : q.queueSize.toNat = q.bytes
  fits : q.bytes ≤ q.maxQueueSize.toNat

variable {q : PacketQueue} {r2cpPacket : List UInt8} {packets : List (List UInt8)}

/-- The new packet is the last one. -/
private theorem bytes_append (q : PacketQueue) (r2cpPacket : List UInt8) :
    (q.append r2cpPacket).bytes = q.bytes + r2cpPacket.length := by
  simp only [bytes, append, List.map_append, List.sum_append, List.map_cons, List.map_nil,
    List.sum_cons, List.sum_nil, Nat.add_zero]

/-- The packet that is taken was the first one. -/
theorem bytes_eraseFirst (h : q.packets = r2cpPacket :: packets) :
    q.bytes = r2cpPacket.length + (q.eraseFirst r2cpPacket).bytes := by
  simp only [bytes, eraseFirst, h, List.map_cons, List.sum_cons, List.tail_cons]

/-- A packet that the counter has room for is counted without wrapping. -/
theorem Exact.toNat_add (h : q.Exact)
    (hfits : q.queueSize.toNat + r2cpPacket.length < 2 ^ 32) :
    (q.queueSize + UInt32.ofNat r2cpPacket.length).toNat = q.bytes + r2cpPacket.length := by
  have hlen : (UInt32.ofNat r2cpPacket.length).toNat = r2cpPacket.length :=
    UInt32.toNat_ofNat_length (by omega)
  rw [UInt32.toNat_add, hlen, ← h.counts]
  exact Nat.mod_eq_of_lt hfits

/-- A packet with room for it keeps the queue exact. -/
theorem Exact.append (h : q.Exact)
    (hfits : q.queueSize.toNat + r2cpPacket.length ≤ q.maxQueueSize.toNat) :
    (q.append r2cpPacket).Exact := by
  have hmax := q.maxQueueSize.toNat_lt
  have hcounts := h.counts
  constructor
  · rw [bytes_append]
    exact h.toNat_add (by omega)
  · rw [bytes_append]
    show _ ≤ q.maxQueueSize.toNat
    omega

/-- Below `2 ^ 31` the counter cannot wrap in an append, so it shows the bytes it counts. -/
private theorem Exact.fits_of_append_le (h : q.Exact) (hmax : q.maxQueueSize.toNat < 2 ^ 31)
    (hlen : r2cpPacket.length < 2 ^ 31)
    (hle : (q.append r2cpPacket).queueSize ≤ (q.append r2cpPacket).maxQueueSize) :
    q.bytes + r2cpPacket.length ≤ q.maxQueueSize.toNat := by
  have hcounts := h.counts
  have hfits := h.fits
  rw [UInt32.le_iff_toNat_le] at hle
  rw [show (q.append r2cpPacket).queueSize = q.queueSize + UInt32.ofNat r2cpPacket.length from rfl,
    h.toNat_add (by omega)] at hle
  exact hle

/-- The first packet is no longer than the counter, so subtracting it does not wrap. -/
private theorem Exact.first_le (h : q.Exact) (hq : q.packets = r2cpPacket :: packets) :
    (UInt32.ofNat r2cpPacket.length).toNat = r2cpPacket.length ∧
      r2cpPacket.length ≤ q.queueSize.toNat := by
  have hbytes := bytes_eraseFirst hq
  have hcounts := h.counts
  have hlt := q.queueSize.toNat_lt
  exact ⟨UInt32.toNat_ofNat_length (by omega), by omega⟩

/-- So does one that is taken. -/
theorem Exact.eraseFirst (h : q.Exact) (hq : q.packets = r2cpPacket :: packets) :
    (q.eraseFirst r2cpPacket).Exact := by
  have hbytes := bytes_eraseFirst hq
  have hcounts := h.counts
  have hfits := h.fits
  obtain ⟨hlen, hle⟩ := h.first_le hq
  constructor
  · show (q.queueSize - UInt32.ofNat r2cpPacket.length).toNat = _
    rw [UInt32.toNat_sub_of_le _ _ (by rw [UInt32.le_iff_toNat_le, hlen]; exact hle), hlen]
    omega
  · show _ ≤ q.maxQueueSize.toNat
    omega

end PacketQueue

namespace QueueThreads

open Transition (EveryState EveryStep)

variable {ι : Type} [DecidableEq ι]

/-! ## What a step leaves alone -/

section Frame

variable {s : QueueThreads ι} {i j : ι} {side other : Side} {q : PacketQueue}
  {result : CallResult} {call call' : PendingCall}

/-- A call ends on its own queue. -/
@[simp] theorem queue_finish_self :
    (s.finish i side q result).queues.queue side = q :=
  R2CPTransceiverQueue.queue_setQueue_self _ _ _

/-- The other queue is as it was. -/
theorem queue_finish_of_ne (h : other ≠ side) :
    (s.finish i side q result).queues.queue other = s.queues.queue other :=
  R2CPTransceiverQueue.queue_setQueue_of_ne _ _ h

/-- A call that is under way after a start is the new one or was under way before. -/
private theorem pending_start (h : (s.start i call).pending j = some call') :
    call' = call ∧ j = i ∨ s.pending j = some call' := by
  by_cases hj : j = i
  · rw [hj, start_pending, Function.update_self] at h
    exact .inl ⟨(Option.some.inj h).symm, hj⟩
  · rw [start_pending, Function.update_of_ne hj] at h
    exact .inr h

/-- A call that is under way after another one has ended was so before. -/
private theorem pending_finish (h : (s.finish i side q result).pending j = some call') :
    j ≠ i ∧ s.pending j = some call' := by
  by_cases hj : j = i
  · rw [hj, finish_pending, Function.update_self] at h
    exact nomatch h
  · rw [finish_pending, Function.update_of_ne hj] at h
    exact ⟨hj, h⟩

/-- A property of both queues survives the end of a call if the new queue has it. -/
private theorem forall_queue_finish {P : Side → PacketQueue → Prop}
    (h : ∀ other, P other (s.queues.queue other)) (hq : P side q) (other : Side) :
    P other ((s.finish i side q result).queues.queue other) := by
  by_cases hside : other = side
  · rw [hside, queue_finish_self]
    exact hq
  · rw [queue_finish_of_ne hside]
    exact h other

end Frame

/-! ## Any number of threads -/

/-- No counter is above its maximum, and a pop that ends returns the oldest packet or
    throws `std::underflow_error`. -/
def SafeStep (s : QueueThreads ι) (e : SectionEvent ι) (s' : QueueThreads ι) : Prop :=
  (∀ side, (s'.queues.queue side).queueSize ≤ (s'.queues.queue side).maxQueueSize) ∧
    ∀ i side r2cpPacketsCount, e = .finish i →
      s.pending i = some (.pop side r2cpPacketsCount) →
      (∃ r2cpPacket packets, (s.queues.queue side).packets = r2cpPacket :: packets ∧
        s'.results = s.results ++ [(i, .popped side r2cpPacket)]) ∨
      s'.results = s.results ++ [(i, .threw side side.underflowError)]

/-- The check that the call of a thread relies on would succeed again if it were made
    now, right before the call acts on it. -/
def CheckStillHolds (s : QueueThreads ι) : SectionEvent ι → Prop
  | .finish i =>
    match s.pending i with
    | some (.push side r2cpPacket newQueueSize) =>
      newQueueSize ≤ (s.queues.queue side).maxQueueSize →
        (s.queues.queue side).queueSize.toNat + r2cpPacket.length ≤
          (s.queues.queue side).maxQueueSize.toNat
    | some (.pop side r2cpPacketsCount) =>
      r2cpPacketsCount > 0 → (s.queues.queue side).packets ≠ []
    | none => True
  | .startPush .. => True
  | .startPop .. => True

/-- Pushed packets are shorter than `2 ^ 31`. -/
def ShortPacket : SectionEvent ι → Prop
  | .startPush _ _ r2cpPacket => r2cpPacket.length < 2 ^ 31
  | .startPop .. => True
  | .finish _ => True

/-- What safe steps preserve: exact counters within fixed maxima below `2 ^ 31`, and
    short packets in the calls under way. -/
structure Sound (maxQueueSize : Side → UInt32) (s : QueueThreads ι) : Prop where
  exact (side : Side) : (s.queues.queue side).Exact
  max (side : Side) : (s.queues.queue side).maxQueueSize = maxQueueSize side
  short (i : ι) (side : Side) (r2cpPacket : List UInt8) (newQueueSize : UInt32) :
    s.pending i = some (.push side r2cpPacket newQueueSize) → r2cpPacket.length < 2 ^ 31

/-- The counter is at most the maximum. -/
private theorem Exact.le {q : PacketQueue} (h : q.Exact) : q.queueSize ≤ q.maxQueueSize := by
  rw [UInt32.le_iff_toNat_le, h.counts]
  exact h.fits

section AnyThreads

variable {maxQueueSize : Side → UInt32} {s s' : QueueThreads ι} {e : SectionEvent ι}

/-- The counters and maxima after the end of a call. -/
theorem Sound.finish (h : Sound maxQueueSize s) {i : ι} {side : Side} {q : PacketQueue}
    (hq : q.Exact) (hmax : q.maxQueueSize = maxQueueSize side) (result : CallResult) :
    Sound maxQueueSize (s.finish i side q result) where
  exact := forall_queue_finish h.exact hq
  max := forall_queue_finish (P := fun side q => q.maxQueueSize = maxQueueSize side) h.max hmax
  short _ side r2cpPacket newQueueSize hcall := h.short _ side r2cpPacket newQueueSize
    (pending_finish hcall).2

/-- A step whose check still holds preserves exact counters. -/
private theorem sound_of_checkStillHolds (h : Sound maxQueueSize s) (hshort : ShortPacket e)
    (hmoves : Moves s e s') (hcheck : CheckStillHolds s e) : Sound maxQueueSize s' := by
  cases hmoves with
  | startPush i side r2cpPacket hidle =>
    refine ⟨h.exact, h.max, fun j side' r2cpPacket' newQueueSize' hcall => ?_⟩
    rcases pending_start hcall with ⟨heq, -⟩ | hold
    · cases heq
      exact hshort
    · exact h.short _ _ _ _ hold
  | startPop i side hidle =>
    refine ⟨h.exact, h.max, fun j side' r2cpPacket' newQueueSize' hcall => ?_⟩
    rcases pending_start hcall with ⟨heq, -⟩ | hold
    · exact nomatch heq
    · exact h.short _ _ _ _ hold
  | append i side r2cpPacket newQueueSize hcall hfits =>
    simp only [CheckStillHolds, hcall] at hcheck
    exact h.finish ((h.exact side).append (hcheck hfits)) (h.max side) _
  | reject i side => exact h.finish (h.exact side) (h.max side) _
  | remove i side r2cpPacketsCount r2cpPacket packets hcall hcount hpackets =>
    -- a pop that finds a packet is exact, whatever it has counted
    exact h.finish ((h.exact side).eraseFirst hpackets) (h.max side) _
  | missing i side => exact h.finish (h.exact side) (h.max side) _
  | underflow i side => exact h.finish (h.exact side) (h.max side) _

/-- A step that is safe has had a check that still held. -/
private theorem checkStillHolds_of_safeStep (hM : ∀ side, (maxQueueSize side).toNat < 2 ^ 31)
    (h : Sound maxQueueSize s) (hmoves : Moves s e s') (hsafe : SafeStep s e s') :
    CheckStillHolds s e := by
  cases hmoves with
  | startPush i side r2cpPacket hidle => trivial
  | startPop i side hidle => trivial
  -- a push that keeps the queue below its maximum had room
  | append i side r2cpPacket newQueueSize hcall hfits =>
    simp only [CheckStillHolds, hcall]
    intro _
    have hle := hsafe.1 side
    rw [queue_finish_self] at hle
    have hbound := hM side
    rw [← h.max side] at hbound
    have hexact := h.exact side
    rw [hexact.counts]
    exact hexact.fits_of_append_le hbound (h.short _ _ _ _ hcall) hle
  | reject i side r2cpPacket newQueueSize hcall hfull =>
    simp only [CheckStillHolds, hcall]
    exact fun hfits => absurd hfits hfull
  -- a pop that takes a packet had one
  | remove i side r2cpPacketsCount r2cpPacket packets hcall hcount hpackets =>
    simp only [CheckStillHolds, hcall, hpackets]
    exact fun _ => List.cons_ne_nil _ _
  | missing i side r2cpPacketsCount hcall hcount hpackets =>
    -- neither of the two safe ends of a pop
    rcases hsafe.2 i side r2cpPacketsCount rfl hcall with ⟨p, ps, hp, -⟩ | hthrew
    · rw [hpackets] at hp
      cases hp
    · simp only [finish, List.append_cancel_left_eq, List.cons.injEq, Prod.mk.injEq,
        CallResult.threw.injEq, true_and, and_true] at hthrew
      cases side <;> cases hthrew
  | underflow i side r2cpPacketsCount hcall hcount =>
    simp only [CheckStillHolds, hcall]
    exact fun hpos => absurd hpos hcount

/-- A step whose check still holds is safe. -/
private theorem safeStep_of_checkStillHolds (h : Sound maxQueueSize s) (hshort : ShortPacket e)
    (hmoves : Moves s e s') (hcheck : CheckStillHolds s e) : SafeStep s e s' := by
  have hsound := sound_of_checkStillHolds h hshort hmoves hcheck
  refine ⟨fun side => Exact.le (hsound.exact side), ?_⟩
  rintro i side r2cpPacketsCount rfl hpop
  cases hmoves with
  | append _ _ _ _ hcall =>
    rw [hcall] at hpop
    cases hpop
  | reject _ _ _ _ hcall =>
    rw [hcall] at hpop
    cases hpop
  | remove _ _ _ r2cpPacket packets hcall hcount hpackets =>
    rw [hcall] at hpop
    cases hpop
    exact .inl ⟨r2cpPacket, packets, hpackets, rfl⟩
  | missing _ _ _ hcall hcount hpackets =>
    simp only [CheckStillHolds, hcall] at hcheck
    exact absurd hpackets (hcheck hcount)
  | underflow _ _ _ hcall =>
    rw [hcall] at hpop
    cases hpop
    exact .inr rfl

/-- From exact counters, a step is safe exactly when its check still holds. -/
private theorem safeStep_iff_checkStillHolds (hM : ∀ side, (maxQueueSize side).toNat < 2 ^ 31)
    (h : Sound maxQueueSize s) (hshort : ShortPacket e) (hmoves : Moves s e s') :
    SafeStep s e s' ↔ CheckStillHolds s e := by
  constructor
  · exact checkStillHolds_of_safeStep hM h hmoves
  · exact safeStep_of_checkStillHolds h hshort hmoves

end AnyThreads

omit [DecidableEq ι] in
/-- Nothing is queued at first, and nobody is in a call. -/
private theorem sound_initial (maxQueueSize : Side → UInt32) :
    Sound maxQueueSize (initial maxQueueSize : QueueThreads ι) where
  exact side := by
    cases side <;> exact ⟨rfl, Nat.zero_le _⟩
  max side := by cases side <;> rfl
  short _ _ _ _ hcall := nomatch hcall

/-- For any number of threads, packets below `2 ^ 31` and fixed maxima below `2 ^ 31`:
    all steps of a run are safe exactly when, at each of them, the check that the call
    relies on would still succeed. -/
theorem everyStep_safe_iff {maxQueueSize : Side → UInt32}
    (hM : ∀ side, (maxQueueSize side).toNat < 2 ^ 31) {es : List (SectionEvent ι)}
    (hes : ∀ e ∈ es, ShortPacket e) :
    EveryStep step SafeStep (initial maxQueueSize) es ↔
      EveryStep step (fun s e _ => CheckStillHolds s e) (initial maxQueueSize) es := by
  have hiff : ∀ (s : QueueThreads ι) e s', Sound maxQueueSize s → ShortPacket e →
      step s e = some s' → (SafeStep s e s' ↔ CheckStillHolds s e) :=
    fun s e s' hs he hstep => safeStep_iff_checkStillHolds hM hs he (moves_of_step hstep)
  have hkeep : ∀ (s : QueueThreads ι) e s', Sound maxQueueSize s → ShortPacket e →
      step s e = some s' → CheckStillHolds s e → Sound maxQueueSize s' :=
    fun s e s' hs he hstep => sound_of_checkStillHolds hs he (moves_of_step hstep)
  exact Transition.everyStep_iff_of_invariant hiff hkeep (sound_initial maxQueueSize) hes

/-- Two threads push a byte each into a reception queue with room for one: both read
    the counter before either appends. -/
def twoPushers : List (SectionEvent Bool) :=
  [.startPush false .reception [7], .startPush true .reception [8], .finish false, .finish true]

/-- Two threads pop the only packet: both count it before either removes it. -/
def twoPoppers : List (SectionEvent Bool) :=
  [.startPush false .reception [7], .finish false, .startPop false .reception,
    .startPop true .reception, .finish false, .finish true]

/-- Both sides, for two poppers and one packet. -/
theorem twoPoppers_safe_iff :
    EveryStep step SafeStep (initial fun _ => 1) twoPoppers ↔
      EveryStep step (fun s e _ => CheckStillHolds s e) (initial fun _ => 1) twoPoppers :=
  everyStep_safe_iff (fun _ => by decide) (by simp [twoPoppers, ShortPacket])

/-- The counter ends at 2 with maximum 1, and the second pop reads position 0 of an
    empty vector. -/
theorem twoThreads_unsafe :
    ((Transition.run step (initial fun _ => 1) twoPushers).map
        fun s => (s.queues.receptionQueue.queueSize, s.queues.receptionQueue.maxQueueSize)) =
      some (2, 1) ∧
    ((Transition.run step (initial fun _ => 1) twoPoppers).map fun s => s.results) =
      some [(false, .pushed .reception [7]), (false, .popped .reception [7]),
        (true, .threw .reception (.outOfRange (.rangeCheck 0 0)))] ∧
    ¬ EveryStep step SafeStep (initial fun _ => 1) twoPushers ∧
    ¬ EveryStep step SafeStep (initial fun _ => 1) twoPoppers := by
  refine ⟨rfl, rfl, fun h => ?_, fun h => ?_⟩
  -- in both runs it is the last step that is not safe
  · obtain ⟨-, h⟩ := h _ rfl
    obtain ⟨-, h⟩ := h _ rfl
    obtain ⟨-, h⟩ := h _ rfl
    obtain ⟨hsafe, -⟩ := h _ rfl
    exact absurd (hsafe.1 .reception) (by decide)
  · obtain ⟨-, h⟩ := h _ rfl
    obtain ⟨-, h⟩ := h _ rfl
    obtain ⟨-, h⟩ := h _ rfl
    obtain ⟨-, h⟩ := h _ rfl
    obtain ⟨-, h⟩ := h _ rfl
    obtain ⟨hsafe, -⟩ := h _ rfl
    rcases hsafe.2 true .reception 1 rfl rfl with ⟨p, ps, hp, -⟩ | hthrew
    · exact nomatch hp
    · revert hthrew
      decide

/-! ## One pusher and one popper for each queue -/

/-- The packet that a call has put into the queue of a side. -/
def pushedTo (side : Side) : CallResult → Option (List UInt8)
  | .pushed side' r2cpPacket => if side' = side then some r2cpPacket else none
  | _ => none

/-- The packet that a call has returned from the queue of a side. -/
def poppedFrom (side : Side) : CallResult → Option (List UInt8)
  | .popped side' r2cpPacket => if side' = side then some r2cpPacket else none
  | _ => none

/-- The packets that pushes have put into the queue of a side, in order. -/
def accepted (s : QueueThreads ι) (side : Side) : List (List UInt8) :=
  s.results.filterMap fun r => pushedTo side r.2

/-- The packets that pops have returned from the queue of a side, in order. -/
def delivered (s : QueueThreads ι) (side : Side) : List (List UInt8) :=
  s.results.filterMap fun r => poppedFrom side r.2

/-- Only `pusher side` pushes to a side, only `popper side` pops from it, and a packet
    that is pushed could be counted on top of a full queue. -/
def Wired (pusher popper : Side → ι) (maxQueueSize : Side → UInt32) : SectionEvent ι → Prop
  | .startPush i side r2cpPacket =>
    i = pusher side ∧ (maxQueueSize side).toNat + r2cpPacket.length < 2 ^ 32
  | .startPop i side => i = popper side
  | .finish _ => True

/-- What was accepted is what was delivered and what is queued, in this order, and the
    counter is the sum of the queued lengths, within the maximum. -/
def Delivers (maxQueueSize : Side → UInt32) (s : QueueThreads ι) : Prop :=
  ∀ side, s.delivered side ++ (s.queues.queue side).packets = s.accepted side ∧
    (s.queues.queue side).queueSize.toNat =
      ((s.queues.queue side).packets.map List.length).sum ∧
    (s.queues.queue side).queueSize.toNat ≤ (maxQueueSize side).toNat

/-- A push that ends has appended its packet or, rejected, changed nothing; a pop that
    counted packets finds one, and subtracts no more than the counter. -/
def FaithfulStep (s : QueueThreads ι) (e : SectionEvent ι) (s' : QueueThreads ι) : Prop :=
  (∀ i side r2cpPacket newQueueSize, e = .finish i →
    s.pending i = some (.push side r2cpPacket newQueueSize) →
    (s'.results = s.results ++ [(i, .pushed side r2cpPacket)] ∧
      (s'.queues.queue side).packets = (s.queues.queue side).packets ++ [r2cpPacket]) ∨
    (s'.results = s.results ++ [(i, .threw side side.overflowError)] ∧ s'.queues = s.queues)) ∧
  ∀ i side r2cpPacketsCount, e = .finish i →
    s.pending i = some (.pop side r2cpPacketsCount) → r2cpPacketsCount > 0 →
    ∃ r2cpPacket packets, (s.queues.queue side).packets = r2cpPacket :: packets ∧
      UInt32.ofNat r2cpPacket.length ≤ (s.queues.queue side).queueSize ∧
      s'.results = s.results ++ [(i, .popped side r2cpPacket)]

/-- The invariant of a wired run. What a call holds on to errs on the safe side: the
    counter has not grown since the pusher read it, because only the pusher adds to it,
    and no packet has gone since the popper counted, because only the popper removes. -/
structure WiredInv (pusher popper : Side → ι) (maxQueueSize : Side → UInt32)
    (s : QueueThreads ι) : Prop where
  exact (side : Side) : (s.queues.queue side).Exact
  max (side : Side) : (s.queues.queue side).maxQueueSize = maxQueueSize side
  order (side : Side) :
    s.delivered side ++ (s.queues.queue side).packets = s.accepted side
  push (i : ι) (side : Side) (r2cpPacket : List UInt8) (newQueueSize : UInt32) :
    s.pending i = some (.push side r2cpPacket newQueueSize) →
    i = pusher side ∧
      (s.queues.queue side).queueSize.toNat + r2cpPacket.length ≤ newQueueSize.toNat
  pop (i : ι) (side : Side) (r2cpPacketsCount : UInt32) :
    s.pending i = some (.pop side r2cpPacketsCount) →
    i = popper side ∧ r2cpPacketsCount.toNat ≤ (s.queues.queue side).packets.length

section Wired

variable {pusher popper : Side → ι} {maxQueueSize : Side → UInt32} {s s' : QueueThreads ι}
  {e : SectionEvent ι}

/-- A call that ends well has pushed one packet more. -/
private theorem accepted_finish (i : ι) (side other : Side) (q : PacketQueue)
    (result : CallResult) :
    (s.finish i side q result).accepted other =
      s.accepted other ++ (pushedTo other result).toList := by
  simp only [accepted, finish, List.filterMap_append]
  cases h : pushedTo other result <;> simp [h]

/-- Or it has popped one. -/
private theorem delivered_finish (i : ι) (side other : Side) (q : PacketQueue)
    (result : CallResult) :
    (s.finish i side q result).delivered other =
      s.delivered other ++ (poppedFrom other result).toList := by
  simp only [delivered, finish, List.filterMap_append]
  cases h : poppedFrom other result <;> simp [h]

/-- A call starts: nothing but its thread's memory changes. -/
theorem WiredInv.start (h : WiredInv pusher popper maxQueueSize s) {i : ι} {call : PendingCall}
    (hpush : ∀ side r2cpPacket newQueueSize, call = .push side r2cpPacket newQueueSize →
      i = pusher side ∧
        (s.queues.queue side).queueSize.toNat + r2cpPacket.length ≤ newQueueSize.toNat)
    (hpop : ∀ side r2cpPacketsCount, call = .pop side r2cpPacketsCount →
      i = popper side ∧ r2cpPacketsCount.toNat ≤ (s.queues.queue side).packets.length) :
    WiredInv pusher popper maxQueueSize (s.start i call) where
  exact := h.exact
  max := h.max
  order := h.order
  push j side r2cpPacket newQueueSize hcall := by
    rcases pending_start hcall with ⟨heq, rfl⟩ | hold
    · exact hpush side r2cpPacket newQueueSize heq.symm
    · exact h.push j side r2cpPacket newQueueSize hold
  pop j side r2cpPacketsCount hcall := by
    rcases pending_start hcall with ⟨heq, rfl⟩ | hold
    · exact hpop side r2cpPacketsCount heq.symm
    · exact h.pop j side r2cpPacketsCount hold

/-- A call ends: the counter grows only if the caller is the pusher of the side, and the
    queue gets shorter only if the caller is its popper, so the calls of the others on
    this side still err on the safe side. -/
theorem WiredInv.finish (h : WiredInv pusher popper maxQueueSize s) {i : ι} {side : Side}
    {q : PacketQueue} {result : CallResult} (hexact : q.Exact)
    (hmax : q.maxQueueSize = maxQueueSize side)
    (horder : s.delivered side ++ (poppedFrom side result).toList ++ q.packets =
      s.accepted side ++ (pushedTo side result).toList)
    (hothers : ∀ other, other ≠ side →
      pushedTo other result = none ∧ poppedFrom other result = none)
    (hgrows : q.queueSize.toNat ≤ (s.queues.queue side).queueSize.toNat ∨ i = pusher side)
    (hshrinks : (s.queues.queue side).packets.length ≤ q.packets.length ∨ i = popper side) :
    WiredInv pusher popper maxQueueSize (s.finish i side q result) where
  exact := forall_queue_finish h.exact hexact
  max := forall_queue_finish (P := fun side q => q.maxQueueSize = maxQueueSize side) h.max hmax
  order other := by
    rw [accepted_finish, delivered_finish]
    by_cases hside : other = side
    · rw [hside, queue_finish_self]
      exact horder
    · obtain ⟨hpushed, hpopped⟩ := hothers other hside
      rw [queue_finish_of_ne hside, hpushed, hpopped, Option.toList_none, List.append_nil,
        List.append_nil]
      exact h.order other
  push j side' r2cpPacket newQueueSize hcall := by
    obtain ⟨hne, hold⟩ := pending_finish hcall
    obtain ⟨hj, hle⟩ := h.push j side' r2cpPacket newQueueSize hold
    refine ⟨hj, ?_⟩
    by_cases hside : side' = side
    · rw [hside] at hj hle ⊢
      rw [queue_finish_self]
      -- only the pusher makes the counter grow, and its call is still under way
      cases hgrows with
      | inl hless => omega
      | inr hi => exact absurd (hj.trans hi.symm) hne
    · rw [queue_finish_of_ne hside]
      exact hle
  pop j side' r2cpPacketsCount hcall := by
    obtain ⟨hne, hold⟩ := pending_finish hcall
    obtain ⟨hj, hle⟩ := h.pop j side' r2cpPacketsCount hold
    refine ⟨hj, ?_⟩
    by_cases hside : side' = side
    · rw [hside] at hj hle ⊢
      rw [queue_finish_self]
      -- only the popper takes packets, and its call is still under way
      cases hshrinks with
      | inl hmore => omega
      | inr hi => exact absurd (hj.trans hi.symm) hne
    · rw [queue_finish_of_ne hside]
      exact hle

/-- A call that throws leaves its queue as it was. -/
theorem WiredInv.threw (h : WiredInv pusher popper maxQueueSize s) (i : ι) (side : Side)
    (e : StdException) :
    WiredInv pusher popper maxQueueSize (s.finish i side (s.queues.queue side) (.threw side e)) :=
  h.finish (h.exact side) (h.max side) (by simpa [pushedTo, poppedFrom] using h.order side)
    (fun _ _ => ⟨rfl, rfl⟩) (.inl (Nat.le_refl _)) (.inl (Nat.le_refl _))

omit [DecidableEq ι] in
/-- Under the invariant a popper that has counted packets finds one. -/
theorem WiredInv.exists_first (h : WiredInv pusher popper maxQueueSize s) {i : ι} {side : Side}
    {r2cpPacketsCount : UInt32} (hcall : s.pending i = some (.pop side r2cpPacketsCount))
    (hcount : r2cpPacketsCount > 0) : (s.queues.queue side).packets ≠ [] := by
  intro hnil
  have hle := (h.pop i side r2cpPacketsCount hcall).2
  have hpos : 0 < r2cpPacketsCount.toNat := UInt32.lt_iff_toNat_lt.mp hcount
  rw [hnil, List.length_nil] at hle
  omega

omit [DecidableEq ι] in
/-- Under the invariant a pusher whose check has succeeded has room. -/
theorem WiredInv.hasRoom (h : WiredInv pusher popper maxQueueSize s) {i : ι} {side : Side}
    {r2cpPacket : List UInt8} {newQueueSize : UInt32}
    (hcall : s.pending i = some (.push side r2cpPacket newQueueSize))
    (hfits : newQueueSize ≤ (s.queues.queue side).maxQueueSize) :
    (s.queues.queue side).queueSize.toNat + r2cpPacket.length ≤
      (s.queues.queue side).maxQueueSize.toNat :=
  Nat.le_trans (h.push i side r2cpPacket newQueueSize hcall).2 (UInt32.le_iff_toNat_le.mp hfits)

/-- What each section preserves. -/
theorem wiredInv_of_moves (h : WiredInv pusher popper maxQueueSize s)
    (hwired : Wired pusher popper maxQueueSize e) (hmoves : Moves s e s') :
    WiredInv pusher popper maxQueueSize s' := by
  cases hmoves with
  | startPush i side r2cpPacket hidle =>
    obtain ⟨hi, hlen⟩ := hwired
    apply h.start
    · rintro _ _ _ ⟨⟩
      refine ⟨hi, ?_⟩
      -- the counter is at most the maximum, so the sum that the pusher holds is exact
      have hexact := h.exact side
      have hfits := hexact.fits
      rw [h.max side] at hfits
      have hcounts := hexact.counts
      rw [hexact.toNat_add (by omega), hcounts]
    · rintro _ _ ⟨⟩
  | startPop i side hidle =>
    apply h.start
    · rintro _ _ _ ⟨⟩
    · rintro _ _ ⟨⟩
      refine ⟨hwired, ?_⟩
      rw [UInt32.toNat_ofNat']
      exact Nat.mod_le _ _
  | append i side r2cpPacket newQueueSize hcall hfits =>
    refine h.finish ((h.exact side).append (h.hasRoom hcall hfits)) (h.max side) ?_ ?_
      (.inr (h.push i side r2cpPacket newQueueSize hcall).1) (.inl ?_)
    · rw [← h.order side]
      simp [pushedTo, poppedFrom, PacketQueue.append]
    · intro other hother
      exact ⟨if_neg (Ne.symm hother), rfl⟩
    · -- a push makes no queue shorter
      simp [PacketQueue.append]
  -- a call that throws leaves its queue alone
  | reject i side => exact h.threw i side _
  | remove i side r2cpPacketsCount r2cpPacket packets hcall hcount hpackets =>
    have hbytes := (h.exact side).eraseFirst hpackets
    refine h.finish hbytes (h.max side) ?_ ?_ (.inl ?_)
      (.inr (h.pop i side r2cpPacketsCount hcall).1)
    · rw [← h.order side]
      simp [pushedTo, poppedFrom, PacketQueue.eraseFirst, hpackets]
    · intro other hother
      exact ⟨rfl, if_neg (Ne.symm hother)⟩
    · -- a pop makes no counter larger
      rw [hbytes.counts, (h.exact side).counts, PacketQueue.bytes_eraseFirst hpackets]
      omega
  | missing i side => exact h.threw i side _
  | underflow i side => exact h.threw i side _

omit [DecidableEq ι] in
/-- The invariant says what was delivered. -/
private theorem delivers_of_wiredInv (h : WiredInv pusher popper maxQueueSize s) :
    Delivers maxQueueSize s := by
  intro side
  have hexact := h.exact side
  refine ⟨h.order side, hexact.counts, ?_⟩
  rw [hexact.counts, ← h.max side]
  exact hexact.fits

/-- It also makes every check as good as one of the moment. -/
private theorem faithfulStep_of_moves (h : WiredInv pusher popper maxQueueSize s)
    (hmoves : Moves s e s') :
    FaithfulStep s e s' := by
  constructor
  · rintro i side r2cpPacket newQueueSize rfl hpush
    cases hmoves with
    -- the end of a push: it has room, or it throws
    -- the end of a pop that counted packets: there is a first one
    | append _ _ _ _ hcall =>
      rw [hcall] at hpush
      cases hpush
      exact .inl ⟨rfl, by rw [queue_finish_self]; rfl⟩
    | reject _ _ _ _ hcall =>
      rw [hcall] at hpush
      cases hpush
      exact .inr ⟨rfl, R2CPTransceiverQueue.setQueue_queue _ _⟩
    | remove _ _ _ _ _ hcall => rw [hcall] at hpush; exact nomatch hpush
    | missing _ _ _ hcall => rw [hcall] at hpush; exact nomatch hpush
    | underflow _ _ _ hcall => rw [hcall] at hpush; exact nomatch hpush
  · rintro i side r2cpPacketsCount rfl hpop hpos
    cases hmoves with
    | append _ _ _ _ hcall => rw [hcall] at hpop; exact nomatch hpop
    | reject _ _ _ _ hcall => rw [hcall] at hpop; exact nomatch hpop
    | remove _ _ _ r2cpPacket packets hcall hcount hpackets =>
      rw [hcall] at hpop
      cases hpop
      obtain ⟨hlen, hle⟩ := (h.exact side).first_le hpackets
      refine ⟨r2cpPacket, packets, hpackets, ?_, rfl⟩
      rw [UInt32.le_iff_toNat_le, hlen]
      exact hle
    | missing _ _ _ hcall hcount hpackets => exact absurd hpackets (h.exists_first hcall hcount)
    | underflow _ _ _ hcall hcount =>
      rw [hcall] at hpop
      cases hpop
      exact absurd hpos hcount

omit [DecidableEq ι] in
/-- Nothing is queued at first. -/
theorem wiredInv_initial (pusher popper : Side → ι) (maxQueueSize : Side → UInt32) :
    WiredInv pusher popper maxQueueSize (initial maxQueueSize) where
  exact := (sound_initial (ι := ι) maxQueueSize).exact
  max := (sound_initial (ι := ι) maxQueueSize).max
  order side := by cases side <;> rfl
  push _ _ _ _ hcall := nomatch hcall
  pop _ _ _ hcall := nomatch hcall

/-- With one pusher and one popper for each queue, and maxima on top of which every packet
    can be counted, every state of every run delivers what was accepted, and every call
    ends faithfully. -/
theorem delivered_of_wired {es : List (SectionEvent ι)}
    (hes : ∀ e ∈ es, Wired pusher popper maxQueueSize e) :
    EveryState step (Delivers maxQueueSize) (initial maxQueueSize) es ∧
      EveryStep step FaithfulStep (initial maxQueueSize) es := by
  have hstep : ∀ (s : QueueThreads ι) e s', WiredInv pusher popper maxQueueSize s →
      Wired pusher popper maxQueueSize e → step s e = some s' →
      WiredInv pusher popper maxQueueSize s' :=
    fun s e s' hs he hstep => wiredInv_of_moves hs he (moves_of_step hstep)
  have hfaithful : ∀ (s : QueueThreads ι) e s', WiredInv pusher popper maxQueueSize s →
      Wired pusher popper maxQueueSize e → step s e = some s' → FaithfulStep s e s' :=
    fun s e s' hs _ hstep => faithfulStep_of_moves hs (moves_of_step hstep)
  have hinit := wiredInv_initial pusher popper maxQueueSize
  exact ⟨Transition.everyState_of_invariant hstep (fun s => delivers_of_wiredInv) hinit hes,
    Transition.everyStep_of_invariant hstep hfaithful hinit hes⟩

end Wired

/-- A push into an empty queue, a pop that starts before it ends, and a second push that
    the maximum 3 does not allow. -/
def wiredCalls : List (SectionEvent Bool) :=
  [.startPush false .reception [1, 2], .finish false, .startPop true .reception,
    .startPush false .reception [3, 4], .finish true, .finish false]

/-- Two pushes and two pops, one inside the other. -/
theorem wiredCalls_delivered :
    EveryState step (Delivers fun _ => 3) (initial fun _ => 3) wiredCalls ∧
      EveryStep step FaithfulStep (initial fun _ => 3) wiredCalls :=
  have hwired : ∀ e ∈ wiredCalls, Wired (fun _ => false) (fun _ => true) (fun _ => 3) e := by
    simp [wiredCalls, Wired]
  delivered_of_wired hwired

end QueueThreads

end R2CP
