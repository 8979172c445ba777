import R2CP.ForStd.Transition
import R2CP.Native.TransceiverQueue

/-!
# Threads at the transceiver queue

Any number of threads push and pop. The lock-protected sections are the steps: a
call starts with the section that reads the counter (or the count of packets),
after which the calling thread holds on to what it read, and finishes with the
section that acts on it. Between the two, all other threads can take steps.

The maxima are compared outside of the locks, but nothing writes them here, so a
push compares in its second step.

## Key results

- `Moves`, `moves_of_step`: what a section of a thread can do
-/

namespace R2CP

open StatefulExcept (exec)

/-- What a thread holds on to between the two sections of a call. -/
inductive PendingCall where
  | push (side : Side) (r2cpPacket : List UInt8) (newQueueSize : UInt32)
  | pop (side : Side) (r2cpPacketsCount : UInt32)
  deriving DecidableEq, Repr

/-- How a call ended. -/
inductive CallResult where
  | pushed (side : Side) (r2cpPacket : List UInt8)
  | popped (side : Side) (r2cpPacket : List UInt8)
  | threw (side : Side) (e : StdException)
  deriving DecidableEq, Repr

/-- The queues, the calls under way and, in order, the calls that have ended. -/
structure QueueThreads (ι : Type) where
  queues : R2CPTransceiverQueue
  pending : ι → Option PendingCall
  results : List (ι × CallResult)

/-- One section of one thread. -/
inductive SectionEvent (ι : Type) where
  | startPush (i : ι) (side : Side) (r2cpPacket : List UInt8)
  | startPop (i : ι) (side : Side)
  | finish (i : ι)
  deriving DecidableEq, Repr

namespace QueueThreads

variable {ι : Type} [DecidableEq ι]

/-- Empty queues with the given maxima, and no calls. -/
def initial (maxQueueSize : Side → UInt32) : QueueThreads ι where
  queues := ⟨⟨[], 0, maxQueueSize .reception⟩, ⟨[], 0, maxQueueSize .transmission⟩⟩
  pending := fun _ => none
  results := []

/-- Thread `i` has read what it needs and remembers its call. -/
def start (s : QueueThreads ι) (i : ι) (call : PendingCall) : QueueThreads ι :=
  { s with pending := Function.update s.pending i (some call) }

/-- The call of thread `i` ends, with `q` as the queue of its side. -/
def finish (s : QueueThreads ι) (i : ι) (side : Side) (q : PacketQueue) (result : CallResult) :
    QueueThreads ι where
  queues := s.queues.setQueue q side
  pending := Function.update s.pending i none
  results := s.results ++ [(i, result)]

/-- A thread that starts a call has it under way, -/
@[simp] theorem start_pending (s : QueueThreads ι) (i : ι) (call : PendingCall) :
    (s.start i call).pending = Function.update s.pending i (some call) := rfl

/-- and one that finishes it has none. -/
@[simp] theorem finish_pending (s : QueueThreads ι) (i : ι) (side : Side) (q : PacketQueue)
    (result : CallResult) :
    (s.finish i side q result).pending = Function.update s.pending i none := rfl

/-- How a push ended. -/
def pushResult (side : Side) (r2cpPacket : List UInt8) : Except StdException Unit → CallResult
  | .ok _ => .pushed side r2cpPacket
  | .error e => .threw side e

/-- How a pop ended. -/
def popResult (side : Side) : Except StdException (List UInt8) → CallResult
  | .ok r2cpPacket => .popped side r2cpPacket
  | .error e => .threw side e

/-- The sections as steps: a thread that has no call under way can start one, and one
    that has can finish it. -/
def step (s : QueueThreads ι) : SectionEvent ι → Option (QueueThreads ι)
  | .startPush i side r2cpPacket =>
    match s.pending i with
    | some _ => none
    | none =>
      let newQueueSize := (s.queues.queue side).queueSize + UInt32.ofNat r2cpPacket.length
      some (s.start i (.push side r2cpPacket newQueueSize))
  | .startPop i side =>
    match s.pending i with
    | some _ => none
    | none =>
      some (s.start i (.pop side (UInt32.ofNat (s.queues.queue side).packets.length)))
  | .finish i =>
    match s.pending i with
    | none => none
    | some (.push side r2cpPacket newQueueSize) =>
      let (r, q) := exec (PacketQueue.finishPush side r2cpPacket newQueueSize) (s.queues.queue side)
      some (s.finish i side q (pushResult side r2cpPacket r))
    | some (.pop side r2cpPacketsCount) =>
      let (r, q) := exec (PacketQueue.finishPop side r2cpPacketsCount) (s.queues.queue side)
      some (s.finish i side q (popResult side r))

/-- What a step can be. -/
inductive Moves (s : QueueThreads ι) : SectionEvent ι → QueueThreads ι → Prop
  | startPush (i : ι) (side : Side) (r2cpPacket : List UInt8) (hidle : s.pending i = none) :
    Moves s (.startPush i side r2cpPacket) (s.start i (.push side r2cpPacket
      ((s.queues.queue side).queueSize + UInt32.ofNat r2cpPacket.length)))
  | startPop (i : ι) (side : Side) (hidle : s.pending i = none) :
    Moves s (.startPop i side)
      (s.start i (.pop side (UInt32.ofNat (s.queues.queue side).packets.length)))
  | append (i : ι) (side : Side) (r2cpPacket : List UInt8) (newQueueSize : UInt32)
    (hcall : s.pending i = some (.push side r2cpPacket newQueueSize))
    (hfits : newQueueSize ≤ (s.queues.queue side).maxQueueSize) :
    Moves s (.finish i) (s.finish i side ((s.queues.queue side).append r2cpPacket)
      (.pushed side r2cpPacket))
  | reject (i : ι) (side : Side) (r2cpPacket : List UInt8) (newQueueSize : UInt32)
    (hcall : s.pending i = some (.push side r2cpPacket newQueueSize))
    (hfull : ¬ newQueueSize ≤ (s.queues.queue side).maxQueueSize) :
    Moves s (.finish i) (s.finish i side (s.queues.queue side) (.threw side side.overflowError))
  | remove (i : ι) (side : Side) (r2cpPacketsCount : UInt32) (r2cpPacket : List UInt8)
    (packets : List (List UInt8)) (hcall : s.pending i = some (.pop side r2cpPacketsCount))
    (hcount : r2cpPacketsCount > 0)
    (hpackets : (s.queues.queue side).packets = r2cpPacket :: packets) :
    Moves s (.finish i) (s.finish i side ((s.queues.queue side).eraseFirst r2cpPacket)
      (.popped side r2cpPacket))
  | missing (i : ι) (side : Side) (r2cpPacketsCount : UInt32)
    (hcall : s.pending i = some (.pop side r2cpPacketsCount))
    (hcount : r2cpPacketsCount > 0) (hpackets : (s.queues.queue side).packets = []) :
    Moves s (.finish i) (s.finish i side (s.queues.queue side)
      (.threw side (.outOfRange (.rangeCheck 0 0))))
  | underflow (i : ι) (side : Side) (r2cpPacketsCount : UInt32)
    (hcall : s.pending i = some (.pop side r2cpPacketsCount))
    (hcount : ¬ r2cpPacketsCount > 0) :
    Moves s (.finish i) (s.finish i side (s.queues.queue side) (.threw side side.underflowError))

/-- Every step is one of them. -/
theorem moves_of_step {s s' : QueueThreads ι} {e : SectionEvent ι} (h : step s e = some s') :
    Moves s e s' := by
  cases e with
  | startPush i side r2cpPacket =>
    simp only [step] at h
    cases hcall : s.pending i with
    | some call => rw [hcall] at h; exact nomatch h
    | none =>
      rw [hcall] at h
      obtain rfl := Option.some.inj h
      exact .startPush i side r2cpPacket hcall
  | startPop i side =>
    simp only [step] at h
    cases hcall : s.pending i with
    | some call => rw [hcall] at h; exact nomatch h
    | none =>
      rw [hcall] at h
      obtain rfl := Option.some.inj h
      exact .startPop i side hcall
  | finish i =>
    simp only [step] at h
    cases hcall : s.pending i with
    | none => rw [hcall] at h; exact nomatch h
    | some call =>
      rw [hcall] at h
      cases call with
      | push side r2cpPacket newQueueSize =>
        simp only [PacketQueue.exec_finishPush, Option.some.injEq] at h
        split at h
        · rename_i hfits
          obtain rfl := h
          exact .append i side r2cpPacket newQueueSize hcall hfits
        · rename_i hfull
          obtain rfl := h
          exact .reject i side r2cpPacket newQueueSize hcall hfull
      | pop side r2cpPacketsCount =>
        simp only [PacketQueue.exec_finishPop, Option.some.injEq] at h
        split at h
        · rename_i hcount
          cases hpackets : (s.queues.queue side).packets with
          | nil =>
            rw [hpackets] at h
            obtain rfl := h
            exact .missing i side r2cpPacketsCount hcall hcount hpackets
          | cons r2cpPacket packets =>
            rw [hpackets] at h
            obtain rfl := h
            exact .remove i side r2cpPacketsCount r2cpPacket packets hcall hcount hpackets
        · rename_i hcount
          obtain rfl := h
          exact .underflow i side r2cpPacketsCount hcall hcount

end QueueThreads

end R2CP
