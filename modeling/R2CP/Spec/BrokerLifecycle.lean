import R2CP.ForStd.List
import R2CP.Spec.ThreadSafety

/-!
# The life of a runtime broker

A broker is constructed, run any number of times and destroyed. A run starts three threads
and halts all of them, so the next run finds no thread where it puts its own, unless
websocketpp threw and the reception thread was left as it was. The destruction
halts everything twice: what the destructor has halted, the destructors of the members find
to be null.

`lifecycle_orderly_iff` says which lives are without a lost thread or a join of nothing.

## Key results

- `lifecycle_orderly_iff`: exactly which lives lose no thread and join none twice
- `BetweenRuns.orderly_iff`: the same from the state that a run leaves
-/

namespace R2CP

open StatefulExcept (exec)
open Transition (EveryStep)

/-! ## Halting -/

/-- What compares equal to `nullptr`. -/
def ThreadPointer.IsNull : ThreadPointer → Prop
  | .indeterminate isNull => isNull = true
  | .null => True
  | .started => False
  | .joined => False

/-- A null pointer is not joined. -/
private theorem ThreadPointer.IsNull.canHalt {pointer : ThreadPointer} (h : pointer.IsNull) :
    pointer.CanHalt := by
  cases pointer with
  | indeterminate isNull => exact h
  | null => trivial
  | started | joined => exact h.elim

/-- It points to no thread either. -/
private theorem ThreadPointer.IsNull.ne_started {pointer : ThreadPointer} (h : pointer.IsNull) :
    pointer ≠ .started := by
  rintro rfl
  exact h

namespace ThreadMember

/-- Then there is nothing to halt. -/
private theorem halted_of_isNull {t : ThreadMember} (h : t.pointer.IsNull) : t.halted = t := by
  obtain ⟨pointer, accesses⟩ := t
  cases pointer with
  | indeterminate isNull =>
    obtain rfl : isNull = true := h
    rfl
  | null => rfl
  | started | joined => exact h.elim

/-- What can be halted is null afterwards. -/
private theorem isNull_halted {t : ThreadMember} (h : t.pointer.CanHalt) :
    t.halted.pointer.IsNull := by
  obtain ⟨pointer, accesses⟩ := t
  cases pointer with
  | indeterminate isNull =>
    obtain rfl : isNull = true := h
    rfl
  | null => trivial
  | started => trivial
  | joined => exact h.elim

/-- A member that is assigned and halted stays safe unless it had a thread. -/
private theorem safe_halted_restarted {t : ThreadMember} (ht : t.Safe) :
    t.restarted.halted.Safe ↔ t.pointer ≠ .started := by
  rw [← safe_restarted ht]
  constructor
  · intro h access haccess
    exact h access (by simp [halted, restarted, waitedFor, accessed] at haccess ⊢; tauto)
  · intro h
    exact (safe_halted h).mpr trivial

end ThreadMember

/-- The `halt` of the processor returns if the thread can be halted. -/
theorem PacketProcessorThread.exec_halt_returns {p : PacketProcessorThread}
    (h : p.packetProcessorThread.pointer.CanHalt) :
    exec halt p =
      (.ok (), ⟨false, p.pollTimeoutInMilliseconds, p.packetProcessorThread.halted⟩) := by
  obtain ⟨isRunning, ms, pointer, accesses⟩ := p
  cases pointer with
  | indeterminate isNull =>
    obtain rfl : isNull = true := h
    rfl
  | null => rfl
  | started => rfl
  | joined => exact h.elim

/-- A join of a thread that is not there throws, after `isrunning` is cleared. -/
theorem PacketProcessorThread.exec_halt_throws {p : PacketProcessorThread}
    (h : ¬p.packetProcessorThread.pointer.CanHalt) :
    ∃ e, exec halt p =
      (.error e, ⟨false, p.pollTimeoutInMilliseconds, p.packetProcessorThread.halted⟩) := by
  obtain ⟨isRunning, ms, pointer, accesses⟩ := p
  cases pointer with
  | indeterminate isNull =>
    obtain rfl : isNull = false := by simpa [ThreadPointer.CanHalt] using h
    exact ⟨_, rfl⟩
  | null => exact absurd trivial h
  | started => exact absurd trivial h
  | joined => exact ⟨_, rfl⟩

namespace WebSocketServerThreads

/-- The second part of a `halt` that returns. -/
theorem exec_haltReceptionThread_returns {s s' : WebSocketServerThreads}
    {closing : WSServerClosing} (h : exec (haltReceptionThread closing) s = (.ok (), s')) :
    s' = { s with receptionThread := s.receptionThread.halted } ∧
      s.receptionThread.pointer.CanHalt := by
  obtain ⟨isRunning, ms, ⟨reception, accesses⟩, transmission⟩ := s
  cases reception with
  | indeterminate isNull =>
    cases isNull with
    | false => cases closing <;> cases h
    | true =>
      cases h
      exact ⟨rfl, rfl⟩
  | null =>
    cases h
    exact ⟨rfl, trivial⟩
  | started =>
    cases closing with
    | returns =>
      cases h
      exact ⟨rfl, trivial⟩
    | throws => cases h
  | joined => cases closing <;> cases h

/-- When the `halt` of the server returns, there is no thread left. -/
private theorem isNull_of_exec_halt {s s' : WebSocketServerThreads} {closing : WSServerClosing}
    (h : exec (halt closing) s = (.ok (), s')) :
    s'.receptionThread.pointer.IsNull ∧ s'.transmissionThread.pointer.IsNull := by
  obtain ⟨r, hexec, hr⟩ := exec_haltTransmissionThread { s with isRunning := false }
  simp only [halt, setRunning, StatefulExcept.exec_bind, StatefulExcept.exec_modify, hexec] at h
  cases r with
  | error e => cases h
  | ok u =>
    obtain ⟨rfl, hreception⟩ := exec_haltReceptionThread_returns h
    exact ⟨ThreadMember.isNull_halted hreception, ThreadMember.isNull_halted (hr.mp rfl)⟩

/-- A `halt` when nothing is left changes no thread. -/
theorem exec_halt_of_isNull {s : WebSocketServerThreads}
    (hreception : s.receptionThread.pointer.IsNull)
    (htransmission : s.transmissionThread.pointer.IsNull) (closing : WSServerClosing) :
    (exec (halt closing) s).2 = { s with isRunning := false } := by
  rw [exec_halt htransmission.canHalt, ThreadMember.halted_of_isNull htransmission]
  cases closing with
  | returns => rw [haltedReception, ThreadMember.halted_of_isNull hreception]
  | throws => rfl

end WebSocketServerThreads

/-! ## The calls of a broker -/

namespace RuntimeBrokerThreads

/-- All accesses so far were safe. -/
def Safe (b : RuntimeBrokerThreads) : Prop := b.robotServer.Safe ∧ b.packetProcessor.Safe

/-- None of the three pointers is a thread that was not joined. -/
structure NothingStarted (b : RuntimeBrokerThreads) : Prop where
  reception : b.robotServer.receptionThread.pointer ≠ .started
  transmission : b.robotServer.transmissionThread.pointer ≠ .started
  processor : b.packetProcessor.packetProcessorThread.pointer ≠ .started

/-- What the thread pointers may be when a call is made. -/
def Allows (b : RuntimeBrokerThreads) : RuntimeBrokerCall → Prop
  | .run _ => b.NothingStarted
  | .destruct closing _ =>
    b.packetProcessor.packetProcessorThread.pointer.CanHalt ∧
      b.robotServer.Allows (.halt closing)

/-- The state that a `run` leaves. -/
theorem exec_run (b : RuntimeBrokerThreads) (closing : WSServerClosing) :
    (exec (run closing) b).2 =
      ⟨⟨false, b.robotServer.pollTimeoutInMilliseconds,
          WebSocketServerThreads.haltedReception closing b.robotServer.receptionThread.restarted,
          b.robotServer.transmissionThread.restarted.halted⟩,
        ⟨false, b.packetProcessor.pollTimeoutInMilliseconds,
          b.packetProcessor.packetProcessorThread.restarted.halted⟩⟩ := by
  cases closing <;> rfl

/-- A run is safe if it finds no thread. -/
private theorem safe_run {b : RuntimeBrokerThreads} (hb : b.Safe) (closing : WSServerClosing) :
    (exec (run closing) b).2.Safe ↔ b.NothingStarted := by
  obtain ⟨⟨hreception, htransmission⟩, hprocessor⟩ := hb
  have hreceptionSafe : (WebSocketServerThreads.haltedReception closing
      b.robotServer.receptionThread.restarted).Safe ↔
        b.robotServer.receptionThread.pointer ≠ .started := by
    cases closing with
    | returns => exact ThreadMember.safe_halted_restarted hreception
    | throws => exact ThreadMember.safe_restarted hreception
  rw [exec_run]
  show (ThreadMember.Safe _ ∧ ThreadMember.Safe _) ∧ ThreadMember.Safe _ ↔ _
  rw [hreceptionSafe, ThreadMember.safe_halted_restarted htransmission,
    ThreadMember.safe_halted_restarted hprocessor]
  exact ⟨fun ⟨⟨hr, ht⟩, hp⟩ => ⟨hr, ht, hp⟩, fun ⟨hr, ht, hp⟩ => ⟨⟨hr, ht⟩, hp⟩⟩

/-- What the destruction leaves of the threads is what the destructor itself leaves. -/
theorem exec_destruct {b : RuntimeBrokerThreads}
    (h : b.packetProcessor.packetProcessorThread.pointer.CanHalt)
    (closing memberClosing : WSServerClosing) :
    ∃ isRunning isRunning',
      (exec (destruct closing memberClosing) b).2 =
        ⟨{ (exec (WebSocketServerThreads.halt closing) b.robotServer).2 with isRunning },
          ⟨isRunning', b.packetProcessor.pollTimeoutInMilliseconds,
            b.packetProcessor.packetProcessorThread.halted⟩⟩ := by
  have hprocessor := PacketProcessorThread.exec_halt_returns h
  -- the pointer is null when the destructor of the processor halts it again
  have hnull := ThreadMember.isNull_halted h
  have hagain := PacketProcessorThread.exec_halt_returns
    (p := ⟨false, b.packetProcessor.pollTimeoutInMilliseconds,
      b.packetProcessor.packetProcessorThread.halted⟩) hnull.canHalt
  rw [show _ = _ from ThreadMember.halted_of_isNull hnull] at hagain
  simp only [destruct, onPacketProcessor, onRobotServer, StatefulExcept.exec_bind,
    StatefulExcept.exec_onPart, hprocessor]
  rcases hserver : exec (WebSocketServerThreads.halt closing) b.robotServer with ⟨e | u, s⟩
  · -- websocketpp threw, and the members are not destroyed
    exact ⟨_, _, rfl⟩
  · -- and so are those of the server
    obtain ⟨hreception, htransmission⟩ := WebSocketServerThreads.isNull_of_exec_halt hserver
    simp only [PacketProcessorThread.destruct, hagain]
    show ∃ isRunning isRunning', RuntimeBrokerThreads.mk
      (exec (WebSocketServerThreads.halt memberClosing) s).2 _ = _
    rw [WebSocketServerThreads.exec_halt_of_isNull hreception htransmission]
    exact ⟨_, _, rfl⟩

/-- The destruction is safe if `halt` is allowed on all three members. -/
private theorem safe_destruct {b : RuntimeBrokerThreads} (hb : b.Safe)
    (closing memberClosing : WSServerClosing) :
    (exec (destruct closing memberClosing) b).2.Safe ↔
      b.Allows (.destruct closing memberClosing) := by
  by_cases h : b.packetProcessor.packetProcessorThread.pointer.CanHalt
  · obtain ⟨isRunning, isRunning', hexec⟩ := exec_destruct h closing memberClosing
    rw [hexec]
    show (exec (WebSocketServerThreads.halt closing) b.robotServer).2.Safe ∧
      b.packetProcessor.packetProcessorThread.halted.Safe ↔ _
    rw [WebSocketServerThreads.safe_halt hb.1, ThreadMember.safe_halted hb.2, and_comm]
    rfl
  · obtain ⟨e, hprocessor⟩ := PacketProcessorThread.exec_halt_throws h
    simp only [destruct, onPacketProcessor, StatefulExcept.exec_bind,
      StatefulExcept.exec_onPart, hprocessor]
    show b.robotServer.Safe ∧ b.packetProcessor.packetProcessorThread.halted.Safe ↔ _
    rw [ThreadMember.safe_halted hb.2]
    exact ⟨fun hsafe => absurd hsafe.2 h, fun hallowed => absurd hallowed.1 h⟩

/-- The destruction leaves no thread behind, unless websocketpp throws. -/
private theorem nothingStarted_destruct {b : RuntimeBrokerThreads} {memberClosing : WSServerClosing}
    (h : b.Allows (.destruct .returns memberClosing)) :
    (exec (destruct .returns memberClosing) b).2.NothingStarted := by
  obtain ⟨hprocessor, htransmission, hreception⟩ := h
  obtain ⟨isRunning, isRunning', hexec⟩ := exec_destruct hprocessor .returns memberClosing
  rw [hexec, WebSocketServerThreads.exec_halt htransmission]
  exact {
    reception := (ThreadMember.isNull_halted (hreception rfl)).ne_started
    transmission := (ThreadMember.isNull_halted htransmission).ne_started
    processor := (ThreadMember.isNull_halted hprocessor).ne_started }

/-! ## Lives -/

/-- All accesses so far were safe, and when the broker is gone, so are its threads. -/
def Orderly (_ : RuntimeBrokerThreads) : RuntimeBrokerCall → RuntimeBrokerThreads → Prop
  | .run _, b' => b'.Safe
  | .destruct closing _, b' => b'.Safe ∧ (closing = .returns → b'.NothingStarted)

/-- The calls of a life. -/
def life (runs : List WSServerClosing) (closing memberClosing : WSServerClosing) :
    List RuntimeBrokerCall :=
  runs.map .run ++ [.destruct closing memberClosing]

/-- After safe accesses, a call is orderly exactly when it is allowed. -/
private theorem orderly_step {b b' : RuntimeBrokerThreads} {call : RuntimeBrokerCall} (hb : b.Safe)
    (h : b.step call = some b') : Orderly b call b' ↔ b.Allows call := by
  cases call with
  | run closing =>
    cases h
    exact safe_run hb closing
  | destruct closing memberClosing =>
    cases h
    rw [← safe_destruct hb closing memberClosing]
    constructor
    · exact And.left
    · intro hsafe
      refine ⟨hsafe, ?_⟩
      rintro rfl
      exact nothingStarted_destruct ((safe_destruct hb _ _).mp hsafe)

/-- Between the runs of a life only the reception thread can be there. -/
structure BetweenRuns (b : RuntimeBrokerThreads) : Prop where
  safe : b.Safe
  transmission : b.robotServer.transmissionThread.pointer = .null
  processor : b.packetProcessor.packetProcessorThread.pointer = .null
  reception : b.robotServer.receptionThread.pointer = .null ∨
    b.robotServer.receptionThread.pointer = .started

/-- What a run leaves behind. -/
private theorem betweenRuns_run {b : RuntimeBrokerThreads} (hb : b.Safe) (h : b.NothingStarted)
    (closing : WSServerClosing) : BetweenRuns (exec (run closing) b).2 where
  safe := (safe_run hb closing).mpr h
  transmission := by rw [exec_run]; rfl
  processor := by rw [exec_run]; rfl
  reception := by
    rw [exec_run]
    cases closing with
    | returns => exact .inl rfl
    | throws => exact .inr rfl

/-- It leaves a reception thread exactly if websocketpp threw. -/
private theorem reception_run (b : RuntimeBrokerThreads) (closing : WSServerClosing) :
    (exec (run closing) b).2.robotServer.receptionThread.pointer ≠ .started ↔
      closing = .returns := by
  rw [exec_run]
  cases closing with
  | returns => exact ⟨fun _ => rfl, fun _ => ThreadPointer.noConfusion⟩
  | throws => exact ⟨fun h => absurd rfl h, fun h => by cases h⟩

/-- After a run, the destruction is safe. -/
private theorem BetweenRuns.allows_destruct {b : RuntimeBrokerThreads} (h : b.BetweenRuns)
    (closing memberClosing : WSServerClosing) : b.Allows (.destruct closing memberClosing) := by
  refine ⟨?_, ?_, ?_⟩
  · rw [h.processor]
    trivial
  · rw [h.transmission]
    trivial
  · intro _
    rcases h.reception with hnull | hstarted
    · rw [hnull]
      trivial
    · rw [hstarted]
      trivial

/-- The next run is safe if the reception thread was joined. -/
private theorem BetweenRuns.allows_run {b : RuntimeBrokerThreads} (h : b.BetweenRuns)
    (closing : WSServerClosing) :
    b.Allows (.run closing) ↔ b.robotServer.receptionThread.pointer ≠ .started := by
  constructor
  · exact fun hnothing => hnothing.reception
  · intro hreception
    exact ⟨hreception, by rw [h.transmission]; exact ThreadPointer.noConfusion,
      by rw [h.processor]; exact ThreadPointer.noConfusion⟩

/-- What is left of a life after a run is orderly if the runs find no reception thread. -/
private theorem BetweenRuns.orderly_iff {b : RuntimeBrokerThreads} (h : b.BetweenRuns)
    (runs : List WSServerClosing) (closing memberClosing : WSServerClosing) :
    EveryStep step Orderly b (life runs closing memberClosing) ↔
      (runs ≠ [] → b.robotServer.receptionThread.pointer ≠ .started) ∧
        ∀ c ∈ runs.dropLast, c = .returns := by
  induction runs generalizing b with
  -- what is left is the destruction
  | nil =>
    have hallowed := h.allows_destruct closing memberClosing
    constructor
    · exact fun _ => ⟨fun hne => absurd rfl hne, by simp⟩
    · exact fun _ b' hstep => ⟨(orderly_step h.safe hstep).mpr hallowed, trivial⟩
  | cons c runs ih =>
    have hstep : b.step (.run c) = some (exec (run c) b).2 := rfl
    -- the run itself, and then the life after it
    have hfirst := (orderly_step h.safe hstep).trans (h.allows_run c)
    have hlife : EveryStep step Orderly b (life (c :: runs) closing memberClosing) ↔
        Orderly b (.run c) (exec (run c) b).2 ∧
          EveryStep step Orderly (exec (run c) b).2 (life runs closing memberClosing) :=
      Transition.everyStep_cons hstep
    rw [hlife, hfirst, List.forall_mem_dropLast_cons]
    -- the reception thread that the next run finds is the one that this run has left
    constructor
    · rintro ⟨hreception, hrest⟩
      have hnext := betweenRuns_run h.safe ((h.allows_run c).mpr hreception) c
      obtain ⟨hfound, hreturns⟩ := (ih hnext).mp hrest
      exact ⟨fun _ => hreception, fun hne => (reception_run b c).mp (hfound hne), hreturns⟩
    · rintro ⟨hfound, hc, hreturns⟩
      have hreception := hfound (List.cons_ne_nil _ _)
      have hnext := betweenRuns_run h.safe ((h.allows_run c).mpr hreception) c
      exact ⟨hreception, (ih hnext).mpr ⟨fun hne => (reception_run b c).mpr (hc hne), hreturns⟩⟩

/-- No call has been made yet. -/
private theorem safe_new (constructor : Constructor)
    (isReceptionNull isTransmissionNull isProcessorNull : Bool) :
    (new constructor isReceptionNull isTransmissionNull isProcessorNull).Safe :=
  ⟨⟨ThreadMember.safe_unassigned _, ThreadMember.safe_unassigned _⟩,
    ThreadMember.safe_unassigned _⟩

/-- The constructors start no thread. -/
private theorem nothingStarted_new (constructor : Constructor)
    (isReceptionNull isTransmissionNull isProcessorNull : Bool) :
    (new constructor isReceptionNull isTransmissionNull isProcessorNull).NothingStarted where
  reception := ThreadPointer.noConfusion
  transmission := ThreadPointer.noConfusion
  processor := ThreadPointer.noConfusion

/-- A life is orderly exactly if no run follows one that websocketpp threw out of, and,
    without any run, what the constructors left unassigned happened to be null. -/
theorem lifecycle_orderly_iff (constructor : Constructor)
    (isReceptionNull isTransmissionNull isProcessorNull : Bool) (runs : List WSServerClosing)
    (closing memberClosing : WSServerClosing) :
    EveryStep step Orderly (new constructor isReceptionNull isTransmissionNull isProcessorNull)
        (life runs closing memberClosing) ↔
      (runs = [] → isProcessorNull = true ∧ isTransmissionNull = true ∧
        (closing = .returns → isReceptionNull = true)) ∧
      ∀ c ∈ runs.dropLast, c = .returns := by
  have hsafe := safe_new constructor isReceptionNull isTransmissionNull isProcessorNull
  cases runs with
  | nil =>
    -- the destructor looks at pointers that nothing has been assigned to
    have hlife : EveryStep step Orderly
        (new constructor isReceptionNull isTransmissionNull isProcessorNull)
        (life [] closing memberClosing) ↔ _ :=
      Transition.everyStep_cons rfl
    rw [hlife, orderly_step hsafe rfl]
    constructor
    · rintro ⟨⟨hprocessor, htransmission, hreception⟩, -⟩
      exact ⟨fun _ => ⟨hprocessor, htransmission, hreception⟩, by simp⟩
    · rintro ⟨hnull, -⟩
      exact ⟨hnull rfl, trivial⟩
  | cons c runs =>
    have hlife : EveryStep step Orderly
        (new constructor isReceptionNull isTransmissionNull isProcessorNull)
        (life (c :: runs) closing memberClosing) ↔ _ :=
      Transition.everyStep_cons rfl
    -- the first run assigns them, whatever they were
    have hnothing :=
      nothingStarted_new constructor isReceptionNull isTransmissionNull isProcessorNull
    rw [hlife, orderly_step hsafe rfl, List.forall_mem_dropLast_cons]
    have hnext := (betweenRuns_run hsafe hnothing c).orderly_iff runs closing memberClosing
    rw [reception_run] at hnext
    constructor
    · rintro ⟨-, hrest⟩
      exact ⟨fun h => absurd h (List.cons_ne_nil _ _), hnext.mp hrest⟩
    · rintro ⟨-, hreturns⟩
      exact ⟨hnothing, hnext.mpr hreturns⟩

end RuntimeBrokerThreads

end R2CP
