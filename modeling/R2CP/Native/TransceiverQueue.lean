import R2CP.Native.Exception

/-!
# Transceiver queue

`R2CPTransceiverQueue` holds a queue of received packets and a queue of packets to
be sent, each behind its own mutex, with a byte counter and a maximum for it. The
members of the two queues have the same shape, so one `PacketQueue` models either
and `Side` tells them apart.

A push is two critical sections: the counter is read under the lock, compared with
the maximum outside of it, and then the packet is appended under the lock again.
A pop is two as well. Each section is a definition of its own here, so that other
threads can be let in between.

## Key results

- `PacketQueue.exec_finishPush`, `PacketQueue.exec_finishPop`: what the second sections do
- `exec_pushTo_of_hasRoom`, `exec_popFrom_cons`: what whole calls do
-/

namespace R2CP

/-- One of the two queues with its counter and its maximum. -/
structure PacketQueue where
  packets : List (List UInt8)
  queueSize : UInt32
  maxQueueSize : UInt32
  deriving DecidableEq, Repr

/-- Which of the two queues. -/
inductive Side where
  | reception
  | transmission
  deriving DecidableEq, Repr

namespace Side

/-- The exception of a push that the counter leaves no room for. -/
def overflowError : Side → StdException
  | .reception => .overflowError (.text "Out of memory in reception queue.")
  | .transmission => .overflowError (.text "Out of memory in transmission queue.")

/-- The exception of a pop from an empty queue. -/
def underflowError : Side → StdException
  | .reception => .underflowError (.text "Reception queue has no R2CP packets to pop.")
  | .transmission => .underflowError (.text "Transmission queue has no R2CP packets to pop.")

end Side

/-! ## Critical sections -/

namespace PacketQueue

/-- A computation on one queue. -/
abbrev Section := StatefulExcept StdException PacketQueue

/-- The queue with a packet appended and counted. -/
def append (q : PacketQueue) (r2cpPacket : List UInt8) : PacketQueue :=
  { q with
    packets := q.packets ++ [r2cpPacket]
    queueSize := q.queueSize + UInt32.ofNat r2cpPacket.length }

/-- The queue without its first packet, which was `r2cpPacket`. -/
def eraseFirst (q : PacketQueue) (r2cpPacket : List UInt8) : PacketQueue :=
  { q with
    packets := q.packets.tail
    queueSize := q.queueSize - UInt32.ofNat r2cpPacket.length }

/-- `getreceptionqueuesize` and `gettransmissionqueuesize`. -/
def getQueueSize : Section UInt32 := do
  pure (← get).queueSize

/-- `getreceptionqueuer2cppacketscount` and `gettransmissionqueuer2cppacketscount`. -/
def getR2CPPacketsCount : Section UInt32 := do
  pure (UInt32.ofNat (← get).packets.length)

/-- The rest of a push that has computed `newQueueSize` from the counter it read. -/
def finishPush (side : Side) (r2cpPacket : List UInt8) (newQueueSize : UInt32) : Section Unit := do
  if newQueueSize ≤ (← get).maxQueueSize then
    -- the counter is added to as it is now, not set to `newQueueSize`
    modify fun q => q.append r2cpPacket
  else
    throw side.overflowError

/-- The rest of a pop that has read `r2cpPacketsCount`. -/
def finishPop (side : Side) (r2cpPacketsCount : UInt32) : Section (List UInt8) := do
  if r2cpPacketsCount > 0 then
    -- position 0 may be gone by now, and then `at` throws
    let r2cpPacket ← vectorAt (← get).packets 0
    modify fun q => q.eraseFirst r2cpPacket
    pure r2cpPacket
  else
    throw side.underflowError

/-- A push with nothing in between. -/
def push (side : Side) (r2cpPacket : List UInt8) : Section Unit := do
  let newQueueSize := (← getQueueSize) + UInt32.ofNat r2cpPacket.length
  finishPush side r2cpPacket newQueueSize

/-- A pop with nothing in between. -/
def pop (side : Side) : Section (List UInt8) := do
  let r2cpPacketsCount ← getR2CPPacketsCount
  finishPop side r2cpPacketsCount

end PacketQueue

/-! ## Both queues -/

/-- The singleton. -/
structure R2CPTransceiverQueue where
  receptionQueue : PacketQueue
  transmissionQueue : PacketQueue
  deriving DecidableEq, Repr

namespace R2CPTransceiverQueue

/-- What both maxima are at first: 16 MiB. -/
def defaultMaxQueueSize : UInt32 := 16777216

/-- What the constructor builds. -/
def new : R2CPTransceiverQueue :=
  ⟨⟨[], 0, defaultMaxQueueSize⟩, ⟨[], 0, defaultMaxQueueSize⟩⟩

/-- The queue on one side. -/
def queue (t : R2CPTransceiverQueue) : Side → PacketQueue
  | .reception => t.receptionQueue
  | .transmission => t.transmissionQueue

/-- Replace the queue on one side. -/
def setQueue (t : R2CPTransceiverQueue) (q : PacketQueue) : Side → R2CPTransceiverQueue
  | .reception => { t with receptionQueue := q }
  | .transmission => { t with transmissionQueue := q }

/-- A queue that was put there is there, -/
@[simp] theorem queue_setQueue_self (t : R2CPTransceiverQueue) (q : PacketQueue) (side : Side) :
    (t.setQueue q side).queue side = q := by
  cases side <;> rfl

/-- the one of the other side stays, -/
theorem queue_setQueue_of_ne (t : R2CPTransceiverQueue) (q : PacketQueue) {side other : Side}
    (h : other ≠ side) : (t.setQueue q side).queue other = t.queue other := by
  cases side <;> cases other <;> first | rfl | exact absurd rfl h

/-- and putting back what was there changes nothing. -/
@[simp] theorem setQueue_queue (t : R2CPTransceiverQueue) (side : Side) :
    t.setQueue (t.queue side) side = t := by
  cases side <;> rfl

/-- A computation on the singleton. -/
abbrev TransceiverQueue := StatefulExcept StdException R2CPTransceiverQueue

/-- Run a section on the queue of one side. -/
def onSide {α : Type} (side : Side) (x : PacketQueue.Section α) : TransceiverQueue α :=
  StatefulExcept.onPart (queue · side) (fun q t => t.setQueue q side) x

/-- `pushtoreceptionqueue`. -/
def pushToReceptionQueue (r2cpPacket : List UInt8) : TransceiverQueue Unit :=
  onSide .reception (PacketQueue.push .reception r2cpPacket)

/-- `pushtotransmissionqueue`. -/
def pushToTransmissionQueue (r2cpPacket : List UInt8) : TransceiverQueue Unit :=
  onSide .transmission (PacketQueue.push .transmission r2cpPacket)

/-- `popfromreceptionqueue`. -/
def popFromReceptionQueue : TransceiverQueue (List UInt8) :=
  onSide .reception (PacketQueue.pop .reception)

/-- `popfromtransmissionqueue`. -/
def popFromTransmissionQueue : TransceiverQueue (List UInt8) :=
  onSide .transmission (PacketQueue.pop .transmission)

/-- Push to the queue of a side. -/
def pushTo : Side → (r2cpPacket : List UInt8) → TransceiverQueue Unit
  | .reception => pushToReceptionQueue
  | .transmission => pushToTransmissionQueue

/-- Pop from the queue of a side. -/
def popFrom : Side → TransceiverQueue (List UInt8)
  | .reception => popFromReceptionQueue
  | .transmission => popFromTransmissionQueue

/-! ## Maxima -/

/-- The queue of a side gets a new maximum, whatever is queued. -/
def setMaxOn (side : Side) (newMaxQueueSize : UInt32) : TransceiverQueue Unit :=
  onSide side (modify fun q => { q with maxQueueSize := newMaxQueueSize })

/-- `setmaxqueuesize` of both sides. -/
def setMaxQueueSize (newMaxReceptionQueueSize newMaxTransmissionQueueSize : UInt32) :
    TransceiverQueue Unit := do
  setMaxOn .reception newMaxReceptionQueueSize
  setMaxOn .transmission newMaxTransmissionQueueSize

/-- `setmaxreceptionqueuesize`. -/
def setMaxReceptionQueueSize (newMaxReceptionQueueSize : UInt32) : TransceiverQueue Unit :=
  setMaxOn .reception newMaxReceptionQueueSize

/-- `setmaxtransmissionqueuesize`. -/
def setMaxTransmissionQueueSize (newMaxTransmissionQueueSize : UInt32) : TransceiverQueue Unit :=
  setMaxOn .transmission newMaxTransmissionQueueSize

/-! ## Calls of one thread -/

/-- The public functions that change the queues. -/
inductive Call where
  | push (side : Side) (r2cpPacket : List UInt8)
  | pop (side : Side)
  | setMaxQueueSize (newMaxReceptionQueueSize newMaxTransmissionQueueSize : UInt32)
  | setMaxReceptionQueueSize (newMaxReceptionQueueSize : UInt32)
  | setMaxTransmissionQueueSize (newMaxTransmissionQueueSize : UInt32)
  deriving DecidableEq, Repr

/-- The queues that a call leaves, also when it throws. -/
def step (t : R2CPTransceiverQueue) : Call → Option R2CPTransceiverQueue
  | .push side r2cpPacket => some (StatefulExcept.exec (pushTo side r2cpPacket) t).2
  | .pop side => some (StatefulExcept.exec (popFrom side) t).2
  | .setMaxQueueSize newMaxReceptionQueueSize newMaxTransmissionQueueSize =>
    some (StatefulExcept.exec
      (setMaxQueueSize newMaxReceptionQueueSize newMaxTransmissionQueueSize) t).2
  | .setMaxReceptionQueueSize newMaxReceptionQueueSize =>
    some (StatefulExcept.exec (setMaxReceptionQueueSize newMaxReceptionQueueSize) t).2
  | .setMaxTransmissionQueueSize newMaxTransmissionQueueSize =>
    some (StatefulExcept.exec (setMaxTransmissionQueueSize newMaxTransmissionQueueSize) t).2

end R2CPTransceiverQueue

/-! ## What the sections do -/

namespace PacketQueue

open StatefulExcept (exec)

/-- A push is refused by the sum that it has computed, not by the counter as it is now. -/
theorem exec_finishPush (side : Side) (r2cpPacket : List UInt8) (newQueueSize : UInt32)
    (q : PacketQueue) :
    exec (finishPush side r2cpPacket newQueueSize) q =
      if newQueueSize ≤ q.maxQueueSize then (.ok (), q.append r2cpPacket)
      else (.error side.overflowError, q) := by
  simp only [finishPush, StatefulExcept.exec_bind, StatefulExcept.exec_get]
  split <;> rfl

/-- A pop is refused by its count. Behind the count, the packet may be gone. -/
theorem exec_finishPop (side : Side) (r2cpPacketsCount : UInt32) (q : PacketQueue) :
    exec (finishPop side r2cpPacketsCount) q =
      if r2cpPacketsCount > 0 then
        match q.packets with
        | [] => (.error (.outOfRange (.rangeCheck 0 0)), q)
        | r2cpPacket :: _ => (.ok r2cpPacket, q.eraseFirst r2cpPacket)
      else (.error side.underflowError, q) := by
  unfold finishPop
  split
  · simp only [StatefulExcept.exec_bind, StatefulExcept.exec_get]
    -- `at(0)` finds a packet, or throws
    cases hq : q.packets with
    | nil => rfl
    | cons r2cpPacket packets => rfl
  · rfl

/-- Without another thread in between, a push compares with the counter as it is. -/
theorem exec_push (side : Side) (r2cpPacket : List UInt8) (q : PacketQueue) :
    exec (push side r2cpPacket) q =
      if q.queueSize + UInt32.ofNat r2cpPacket.length ≤ q.maxQueueSize then
        (.ok (), q.append r2cpPacket)
      else (.error side.overflowError, q) :=
  exec_finishPush side r2cpPacket _ q

/-- Without another thread in between, a pop counts the packets that are there. -/
theorem exec_pop (side : Side) (q : PacketQueue) :
    exec (pop side) q = exec (finishPop side (UInt32.ofNat q.packets.length)) q := rfl

end PacketQueue

namespace R2CPTransceiverQueue

open StatefulExcept (exec)

/-- A push on the singleton is one on the queue of its side. -/
theorem exec_pushTo (t : R2CPTransceiverQueue) (side : Side) (r2cpPacket : List UInt8) :
    exec (pushTo side r2cpPacket) t =
      ((exec (PacketQueue.push side r2cpPacket) (t.queue side)).1,
        t.setQueue (exec (PacketQueue.push side r2cpPacket) (t.queue side)).2 side) := by
  cases side <;> rfl

/-- A pop on the singleton is one on the queue of its side. -/
theorem exec_popFrom (t : R2CPTransceiverQueue) (side : Side) :
    exec (popFrom side) t =
      ((exec (PacketQueue.pop side) (t.queue side)).1,
        t.setQueue (exec (PacketQueue.pop side) (t.queue side)).2 side) := by
  cases side <;> rfl

/-- The queue of a side has room for a packet, as far as 32 bits can tell. -/
def HasRoom (t : R2CPTransceiverQueue) (side : Side) (r2cpPacket : List UInt8) : Prop :=
  (t.queue side).queueSize + UInt32.ofNat r2cpPacket.length ≤ (t.queue side).maxQueueSize

instance (t : R2CPTransceiverQueue) (side : Side) (r2cpPacket : List UInt8) :
    Decidable (t.HasRoom side r2cpPacket) :=
  inferInstanceAs (Decidable (_ ≤ _))

/-- A packet that fits is appended. -/
theorem exec_pushTo_of_hasRoom {t : R2CPTransceiverQueue} (side : Side) {r2cpPacket : List UInt8}
    (h : t.HasRoom side r2cpPacket) :
    exec (pushTo side r2cpPacket) t =
      (.ok (), t.setQueue ((t.queue side).append r2cpPacket) side) := by
  have hpush := (PacketQueue.exec_push side r2cpPacket (t.queue side)).trans (if_pos h)
  rw [exec_pushTo, hpush]

/-- For one that does not fit there is an exception, and nothing else. -/
theorem exec_pushTo_of_not_hasRoom {t : R2CPTransceiverQueue} (side : Side)
    {r2cpPacket : List UInt8} (h : ¬t.HasRoom side r2cpPacket) :
    exec (pushTo side r2cpPacket) t = (.error side.overflowError, t) := by
  have hpush := (PacketQueue.exec_push side r2cpPacket (t.queue side)).trans (if_neg h)
  rw [exec_pushTo, hpush, setQueue_queue]

/-- A pop that counts no packets throws, whatever is there. -/
theorem exec_popFrom_underflow {t : R2CPTransceiverQueue} (side : Side)
    (h : UInt32.ofNat (t.queue side).packets.length = 0) :
    exec (popFrom side) t = (.error side.underflowError, t) := by
  rw [exec_popFrom, PacketQueue.exec_pop, PacketQueue.exec_finishPop, h, if_neg (by decide),
    setQueue_queue]

/-- A pop that counts some takes the first one. -/
theorem exec_popFrom_cons {t : R2CPTransceiverQueue} (side : Side) {r2cpPacket : List UInt8}
    {packets : List (List UInt8)} (hcount : UInt32.ofNat (t.queue side).packets.length ≠ 0)
    (h : (t.queue side).packets = r2cpPacket :: packets) :
    exec (popFrom side) t =
      (.ok r2cpPacket, t.setQueue ((t.queue side).eraseFirst r2cpPacket) side) := by
  rw [exec_popFrom, PacketQueue.exec_pop, PacketQueue.exec_finishPop,
    if_pos (UInt32.pos_iff_ne_zero.mpr hcount), h]

end R2CPTransceiverQueue

end R2CP
