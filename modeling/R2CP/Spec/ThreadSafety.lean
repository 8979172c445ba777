import R2CP.ForStd.Transition
import R2CP.Native.ThreadLifecycle

/-!
# Thread safety

A thread that was started must be joined, once, before its `std::thread` object is
deleted or its pointer is assigned again, and there must be a thread where one is
joined or deleted. Whether a run of calls keeps to that depends on what the
pointers are when a call is made: `Allows` says for each call what they may be. The
constructors leave them unassigned, so even the destruction of an object that never
ran anything is not among the calls that are always allowed.

## Key results

- `threads_safe_iff_allowed`: exactly which calls keep the threads safe
- `threads_not_always_safe`: a pointer that was never assigned, two runs, and a join before the
  destruction
-/

namespace R2CP

open StatefulExcept (exec)
open Transition (EveryStep)

/-! ## One pointer -/

/-- A thread is joined once, deleted after that, and not lost before. -/
def ThreadAccess.Safe : ThreadAccess → Prop
  | .join pointer => pointer = .started
  | .delete pointer => pointer = .joined
  | .overwrite pointer => pointer ≠ .started

/-- A pointer with which `halt` leaves nothing undone and does nothing twice. -/
def ThreadPointer.CanHalt : ThreadPointer → Prop
  | .indeterminate isNull => isNull = true
  | .null => True
  | .started => True
  | .joined => False

namespace ThreadMember

/-- All accesses so far were safe. -/
def Safe (t : ThreadMember) : Prop := ∀ access ∈ t.accesses, access.Safe

/-- The member with one more access. -/
def accessed (t : ThreadMember) (access : ThreadAccess) (pointer : ThreadPointer) : ThreadMember :=
  ⟨pointer, t.accesses ++ [access]⟩

/-- One access more. -/
@[simp] theorem safe_accessed (t : ThreadMember) (access : ThreadAccess) (pointer : ThreadPointer) :
    (t.accessed access pointer).Safe ↔ t.Safe ∧ access.Safe := by
  simp [Safe, accessed, or_imp, forall_and]

/-- A pointer that nothing was assigned to has not been used. -/
theorem safe_unassigned (isNull : Bool) : (unassigned isNull).Safe := by
  simp [Safe, unassigned]

/-- The member after `run`. -/
def restarted (t : ThreadMember) : ThreadMember := t.accessed (.overwrite t.pointer) .started

/-- The member after a `join`. -/
def waitedFor (t : ThreadMember) : ThreadMember :=
  t.accessed (.join t.pointer) (if t.pointer = .started then .joined else t.pointer)

/-- The member after its part of a `halt`. -/
def halted (t : ThreadMember) : ThreadMember :=
  match t.pointer with
  | .indeterminate true => t
  | .indeterminate false => t.waitedFor
  | .null => t
  | .started => (t.waitedFor.accessed (.delete .joined) .joined).accessed (.overwrite .joined) .null
  | .joined => t.waitedFor

/-- A new thread may replace anything but a thread that was not joined. -/
theorem safe_restarted {t : ThreadMember} (ht : t.Safe) :
    t.restarted.Safe ↔ t.pointer ≠ .started := by
  simp [restarted, ht, ThreadAccess.Safe]

/-- A join is safe if there is a thread. -/
private theorem safe_waitedFor {t : ThreadMember} (ht : t.Safe) :
    t.waitedFor.Safe ↔ t.pointer = .started := by
  simp [waitedFor, ht, ThreadAccess.Safe]

/-- So is a halt, unless the pointer is null. -/
theorem safe_halted {t : ThreadMember} (ht : t.Safe) : t.halted.Safe ↔ t.pointer.CanHalt := by
  obtain ⟨pointer, accesses⟩ := t
  cases pointer with
  | indeterminate isNull =>
    cases isNull <;> simp [halted, waitedFor, ht, ThreadAccess.Safe, ThreadPointer.CanHalt]
  | null => simp [halted, ht, ThreadPointer.CanHalt]
  | started => simp [halted, waitedFor, ht, ThreadAccess.Safe, ThreadPointer.CanHalt]
  | joined => simp [halted, waitedFor, ht, ThreadAccess.Safe, ThreadPointer.CanHalt]

end ThreadMember

/-! ## Packet processor -/

namespace PacketProcessorThread

/-- All accesses so far were safe. -/
def Safe (p : PacketProcessorThread) : Prop := p.packetProcessorThread.Safe

/-- What the thread pointer may be when a call is made. -/
def Allows (p : PacketProcessorThread) : LifecycleCall Unit → Prop
  | .run => p.packetProcessorThread.pointer ≠ .started
  | .waitUntilFinished => p.packetProcessorThread.pointer = .started
  | .halt _ => p.packetProcessorThread.pointer.CanHalt
  | .destruct _ => p.packetProcessorThread.pointer.CanHalt

/-- A run assigns a new thread, whatever the pointer was. -/
theorem exec_run (p : PacketProcessorThread) :
    (exec run p).2 = ⟨true, p.pollTimeoutInMilliseconds, p.packetProcessorThread.restarted⟩ := rfl

/-- The thread is joined and stays where it is. -/
theorem exec_waitUntilFinished (p : PacketProcessorThread) :
    (exec waitUntilFinished p).2 =
      ⟨p.isRunning, p.pollTimeoutInMilliseconds, p.packetProcessorThread.waitedFor⟩ := by
  obtain ⟨isRunning, ms, pointer, accesses⟩ := p
  cases pointer <;> rfl

/-- The thread is joined and deleted, unless the pointer is null. -/
theorem exec_halt (p : PacketProcessorThread) :
    (exec halt p).2 = ⟨false, p.pollTimeoutInMilliseconds, p.packetProcessorThread.halted⟩ := by
  obtain ⟨isRunning, ms, pointer, accesses⟩ := p
  cases pointer with
  | indeterminate isNull => cases isNull <;> rfl
  | null => rfl
  | started => rfl
  | joined => rfl

/-- After safe accesses, those of a call are safe exactly when the call is allowed. -/
private theorem safe_step {p p' : PacketProcessorThread} {call : LifecycleCall Unit} (hp : p.Safe)
    (h : p.step call = some p') : p'.Safe ↔ p.Allows call := by
  cases call with
  | run =>
    cases h
    show (exec run p).2.Safe ↔ p.packetProcessorThread.pointer ≠ .started
    rw [exec_run]
    exact ThreadMember.safe_restarted hp
  | waitUntilFinished =>
    cases h
    show (exec waitUntilFinished p).2.Safe ↔ p.packetProcessorThread.pointer = .started
    rw [exec_waitUntilFinished]
    exact ThreadMember.safe_waitedFor hp
  | halt w =>
    cases h
    show (exec halt p).2.Safe ↔ p.packetProcessorThread.pointer.CanHalt
    rw [exec_halt]
    exact ThreadMember.safe_halted hp
  | destruct w =>
    cases h
    show (exec halt p).2.Safe ↔ p.packetProcessorThread.pointer.CanHalt
    rw [exec_halt]
    exact ThreadMember.safe_halted hp

end PacketProcessorThread

/-! ## WebSocket server -/

namespace WebSocketServerThreads

/-- All accesses so far were safe. -/
def Safe (s : WebSocketServerThreads) : Prop := s.receptionThread.Safe ∧ s.transmissionThread.Safe

/-- What the thread pointers may be when a call is made. A `halt` does not come to the
    reception thread when websocketpp throws. -/
def Allows (s : WebSocketServerThreads) : LifecycleCall WSServerClosing → Prop
  | .run => s.receptionThread.pointer ≠ .started ∧ s.transmissionThread.pointer ≠ .started
  | .waitUntilFinished =>
    s.receptionThread.pointer = .started ∧ s.transmissionThread.pointer = .started
  | .halt closing =>
    s.transmissionThread.pointer.CanHalt ∧
      (closing = .returns → s.receptionThread.pointer.CanHalt)
  | .destruct closing =>
    s.transmissionThread.pointer.CanHalt ∧
      (closing = .returns → s.receptionThread.pointer.CanHalt)

/-- A run assigns both threads. -/
theorem exec_run (s : WebSocketServerThreads) :
    (exec run s).2 =
      ⟨true, s.pollTimeoutInMilliseconds, s.receptionThread.restarted,
        s.transmissionThread.restarted⟩ := rfl

/-- The transmission thread is waited for when the reception thread could be. -/
theorem exec_waitUntilFinished (s : WebSocketServerThreads) :
    (exec waitUntilFinished s).2 =
      ⟨s.isRunning, s.pollTimeoutInMilliseconds, s.receptionThread.waitedFor,
        if s.receptionThread.pointer = .started then s.transmissionThread.waitedFor
        else s.transmissionThread⟩ := by
  obtain ⟨isRunning, ms, ⟨reception, accesses⟩, ⟨transmission, accesses'⟩⟩ := s
  cases reception <;> cases transmission <;> rfl

/-- The first part of a `halt` comes to its end when the transmission thread can be
    halted. -/
theorem exec_haltTransmissionThread (s : WebSocketServerThreads) :
    ∃ r, exec haltTransmissionThread s =
        (r, { s with transmissionThread := s.transmissionThread.halted }) ∧
      (r = .ok () ↔ s.transmissionThread.pointer.CanHalt) := by
  obtain ⟨isRunning, ms, reception, ⟨transmission, accesses⟩⟩ := s
  cases transmission with
  | indeterminate isNull =>
    cases isNull with
    | false => exact ⟨.error .undefinedBehavior, rfl, by simp [ThreadPointer.CanHalt]⟩
    | true => exact ⟨.ok (), rfl, by simp [ThreadPointer.CanHalt]⟩
  | null => exact ⟨.ok (), rfl, by simp [ThreadPointer.CanHalt]⟩
  | started => exact ⟨.ok (), rfl, by simp [ThreadPointer.CanHalt]⟩
  | joined => exact ⟨.error .systemError, rfl, by simp [ThreadPointer.CanHalt]⟩

/-- The member that the second part of a `halt` leaves. -/
def haltedReception (closing : WSServerClosing) (t : ThreadMember) : ThreadMember :=
  match closing with
  | .returns => t.halted
  | .throws => t

/-- The reception thread is left as it is if websocketpp throws. -/
theorem exec_haltReceptionThread (s : WebSocketServerThreads) (closing : WSServerClosing) :
    (exec (haltReceptionThread closing) s).2 =
      { s with receptionThread := haltedReception closing s.receptionThread } := by
  obtain ⟨isRunning, ms, ⟨reception, accesses⟩, transmission⟩ := s
  cases reception with
  | indeterminate isNull => cases isNull <;> cases closing <;> rfl
  | null => cases closing <;> rfl
  | started => cases closing <;> rfl
  | joined => cases closing <;> rfl

/-- A `halt` with nothing undone or done twice on the transmission thread goes on with
    the reception thread. -/
theorem exec_halt {s : WebSocketServerThreads} (h : s.transmissionThread.pointer.CanHalt)
    (closing : WSServerClosing) :
    (exec (halt closing) s).2 =
      ⟨false, s.pollTimeoutInMilliseconds, haltedReception closing s.receptionThread,
        s.transmissionThread.halted⟩ := by
  obtain ⟨r, hexec, hr⟩ := exec_haltTransmissionThread { s with isRunning := false }
  have hrest := exec_haltReceptionThread
    ⟨false, s.pollTimeoutInMilliseconds, s.receptionThread, s.transmissionThread.halted⟩ closing
  rw [hr.mpr h] at hexec
  simp only [halt, setRunning, StatefulExcept.exec_bind, StatefulExcept.exec_modify, hexec, hrest]

/-- Otherwise it ends with the transmission thread. -/
theorem exec_halt_of_not_canHalt {s : WebSocketServerThreads}
    (h : ¬s.transmissionThread.pointer.CanHalt) (closing : WSServerClosing) :
    (exec (halt closing) s).2 =
      ⟨false, s.pollTimeoutInMilliseconds, s.receptionThread, s.transmissionThread.halted⟩ := by
  obtain ⟨r, hexec, hr⟩ := exec_haltTransmissionThread { s with isRunning := false }
  cases r with
  | ok u => exact absurd (hr.mp rfl) h
  | error e =>
    simp only [halt, setRunning, StatefulExcept.exec_bind, StatefulExcept.exec_modify, hexec]

/-- The reception thread is joined only if websocketpp returned. -/
private theorem safe_haltedReception {t : ThreadMember} (ht : t.Safe) (closing : WSServerClosing) :
    (haltedReception closing t).Safe ↔ (closing = .returns → t.pointer.CanHalt) := by
  cases closing with
  | returns => simp [haltedReception, ThreadMember.safe_halted ht]
  | throws => simp [haltedReception, ht]

/-- The accesses of a `halt`. -/
theorem safe_halt {s : WebSocketServerThreads} (hs : s.Safe) (closing : WSServerClosing) :
    (exec (halt closing) s).2.Safe ↔
      s.transmissionThread.pointer.CanHalt ∧
        (closing = .returns → s.receptionThread.pointer.CanHalt) := by
  obtain ⟨hreception, htransmission⟩ := hs
  by_cases h : s.transmissionThread.pointer.CanHalt
  · rw [exec_halt h closing]
    show (haltedReception closing s.receptionThread).Safe ∧ s.transmissionThread.halted.Safe ↔ _
    rw [safe_haltedReception hreception, ThreadMember.safe_halted htransmission, and_comm]
  · rw [exec_halt_of_not_canHalt h closing]
    show s.receptionThread.Safe ∧ s.transmissionThread.halted.Safe ↔ _
    rw [ThreadMember.safe_halted htransmission]
    simp [h]

/-- The accesses of a `waituntilfinished`. -/
private theorem safe_waitUntilFinished {s : WebSocketServerThreads} (hs : s.Safe) :
    (exec waitUntilFinished s).2.Safe ↔
      s.receptionThread.pointer = .started ∧ s.transmissionThread.pointer = .started := by
  obtain ⟨hreception, htransmission⟩ := hs
  rw [exec_waitUntilFinished]
  show s.receptionThread.waitedFor.Safe ∧ ThreadMember.Safe (if _ then _ else _) ↔ _
  rw [ThreadMember.safe_waitedFor hreception]
  by_cases h : s.receptionThread.pointer = .started
  · simp [h, ThreadMember.safe_waitedFor htransmission]
  · simp [h]

/-- After safe accesses, those of a call are safe exactly when the call is allowed. -/
private theorem safe_step {s s' : WebSocketServerThreads} {call : LifecycleCall WSServerClosing}
    (hs : s.Safe) (h : s.step call = some s') : s'.Safe ↔ s.Allows call := by
  cases call with
  | run =>
    cases h
    show (exec run s).2.Safe ↔ _
    rw [exec_run]
    show s.receptionThread.restarted.Safe ∧ s.transmissionThread.restarted.Safe ↔ _
    rw [ThreadMember.safe_restarted hs.1, ThreadMember.safe_restarted hs.2]
    rfl
  | waitUntilFinished =>
    cases h
    exact safe_waitUntilFinished hs
  | halt closing =>
    cases h
    exact safe_halt hs closing
  | destruct closing =>
    cases h
    exact safe_halt hs closing

end WebSocketServerThreads

/-! ## Runs -/

/-- In a run of calls all accesses are safe exactly when every call is allowed. -/
private theorem PacketProcessorThread.calls_safe_iff {p : PacketProcessorThread} (hp : p.Safe)
    (calls : List (LifecycleCall Unit)) :
    EveryStep step (fun _ _ p' => p'.Safe) p calls ↔
      EveryStep step (fun p call _ => p.Allows call) p calls := by
  refine Transition.everyStep_iff_of_invariant ?_ ?_ hp (fun _ _ => trivial)
  · intro p call p' hp _ h
    exact safe_step hp h
  · intro p call p' hp _ h hallowed
    exact (safe_step hp h).mpr hallowed

/-- As for the packet processor, with two threads. -/
private theorem WebSocketServerThreads.calls_safe_iff {s : WebSocketServerThreads} (hs : s.Safe)
    (calls : List (LifecycleCall WSServerClosing)) :
    EveryStep step (fun _ _ s' => s'.Safe) s calls ↔
      EveryStep step (fun s call _ => s.Allows call) s calls := by
  refine Transition.everyStep_iff_of_invariant ?_ ?_ hs (fun _ _ => trivial)
  · intro s call s' hs _ h
    exact safe_step hs h
  · intro s call s' hs _ h hallowed
    exact (safe_step hs h).mpr hallowed

/-- From construction to destruction, all accesses to the threads are safe exactly
    when every call is made with thread pointers that it allows. -/
theorem threads_safe_iff_allowed (constructor : Constructor)
    (isNull isReceptionNull isTransmissionNull : Bool) (closing : WSServerClosing)
    (processorCalls : List (LifecycleCall Unit))
    (serverCalls : List (LifecycleCall WSServerClosing)) :
    (EveryStep PacketProcessorThread.step (fun _ _ p' => p'.Safe)
        (.new constructor isNull) (processorCalls ++ [.destruct ()]) ↔
      EveryStep PacketProcessorThread.step (fun p call _ => p.Allows call)
        (.new constructor isNull) (processorCalls ++ [.destruct ()])) ∧
    (EveryStep WebSocketServerThreads.step (fun _ _ s' => s'.Safe)
        (.new constructor isReceptionNull isTransmissionNull)
        (serverCalls ++ [.destruct closing]) ↔
      EveryStep WebSocketServerThreads.step (fun s call _ => s.Allows call)
        (.new constructor isReceptionNull isTransmissionNull)
        (serverCalls ++ [.destruct closing])) := by
  constructor
  · apply PacketProcessorThread.calls_safe_iff
    exact ThreadMember.safe_unassigned isNull
  · apply WebSocketServerThreads.calls_safe_iff
    exact ⟨ThreadMember.safe_unassigned isReceptionNull,
      ThreadMember.safe_unassigned isTransmissionNull⟩

/-- An object that is destroyed without a `run`, one that runs twice, and one that is
    waited for before it is destroyed: an unassigned pointer is joined, a running thread
    is lost, and a joined thread is joined again. -/
theorem threads_not_always_safe :
    ¬EveryStep PacketProcessorThread.step (fun _ _ p' => p'.Safe)
        (.new .default false) [.destruct ()] ∧
    ¬EveryStep PacketProcessorThread.step (fun _ _ p' => p'.Safe)
        (.new .default true) [.run, .run, .destruct ()] ∧
    ¬EveryStep PacketProcessorThread.step (fun _ _ p' => p'.Safe)
        (.new .default true) [.run, .waitUntilFinished, .destruct ()] ∧
    ¬EveryStep WebSocketServerThreads.step (fun _ _ s' => s'.Safe)
        (.new .default false false) [.destruct .returns] ∧
    ¬EveryStep WebSocketServerThreads.step (fun _ _ s' => s'.Safe)
        (.new .default true true) [.run, .run, .destruct .returns] ∧
    ¬EveryStep WebSocketServerThreads.step (fun _ _ s' => s'.Safe)
        (.new .default true true) [.run, .waitUntilFinished, .destruct .returns] := by
  refine ⟨?_, ?_, ?_, ?_, ?_, ?_⟩
  · -- the processor: destroyed before a run, run twice, waited for and destroyed
    intro h
    have hjoin := (h _ rfl).1 (.join (.indeterminate false)) (by decide)
    cases hjoin
  · intro h
    have hlost := ((h _ rfl).2 _ rfl).1 (.overwrite .started) (by decide)
    exact hlost rfl
  · intro h
    have hjoin := (((h _ rfl).2 _ rfl).2 _ rfl).1 (.join .joined) (by decide)
    cases hjoin
  · -- the server: the same
    intro h
    have hjoin := (h _ rfl).1.2 (.join (.indeterminate false)) (by decide)
    cases hjoin
  · intro h
    have hlost := ((h _ rfl).2 _ rfl).1.1 (.overwrite .started) (by decide)
    exact hlost rfl
  · intro h
    have hjoin := (((h _ rfl).2 _ rfl).2 _ rfl).1.2 (.join .joined) (by decide)
    cases hjoin

end R2CP
