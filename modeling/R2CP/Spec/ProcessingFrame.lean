import R2CP.Spec.PacketProcessorCorrect

/-!
# What a round leaves alone

A round evaluates modules and writes log entries before it comes to its responses. Until
then it touches neither the queues behind the popped packet nor the record of the lists
that were handed to a serializer.

## Key results

- `keeps_collectResponses`: the queues and the record are left alone up to the responses
- `serialized_of_respond`: exactly the responses are handed to the serializer, if there are any
-/

namespace R2CP.R2CPPacketProcessor

open StatefulExcept (exec Meets Keeps)

variable {σ : Type}

/-! ## Handlers -/

section Handlers

variable {α : Type} {pre : ProcessingState σ → Prop}
  {post : Except StdException α → ProcessingState σ → Prop} {handler : What → Processing σ α}

/-- The handler for `std::invalid_argument` lets all other exceptions pass. -/
theorem meets_onInvalidArgument (h : ∀ what, Meets pre (handler what) post)
    (hthrow : ∀ e w, pre w → post (.error e) w) (e : StdException) :
    Meets pre (StdException.onInvalidArgument handler e) post := by
  cases e with
  | invalidArgument what => exact h what
  | _ => exact .throw (hthrow _)

/-- The handler for `std::out_of_range` lets all other exceptions pass. -/
private theorem meets_onOutOfRange (h : ∀ what, Meets pre (handler what) post)
    (hthrow : ∀ e w, pre w → post (.error e) w) (e : StdException) :
    Meets pre (StdException.onOutOfRange handler e) post := by
  cases e with
  | outOfRange what => exact h what
  | _ => exact .throw (hthrow _)

/-- The handler for `std::overflow_error` lets all other exceptions pass. -/
private theorem meets_onOverflowError (h : ∀ what, Meets pre (handler what) post)
    (hthrow : ∀ e w, pre w → post (.error e) w) (e : StdException) :
    Meets pre (StdException.onOverflowError handler e) post := by
  cases e with
  | overflowError what => exact h what
  | _ => exact .throw (hthrow _)

/-- The handler for `std::underflow_error` lets all other exceptions pass. -/
theorem meets_onUnderflowError (h : ∀ what, Meets pre (handler what) post)
    (hthrow : ∀ e w, pre w → post (.error e) w) (e : StdException) :
    Meets pre (StdException.onUnderflowError handler e) post := by
  cases e with
  | underflowError what => exact h what
  | _ => exact .throw (hthrow _)

end Handlers

/-! ## Up to the responses -/

/-- The queues of a processing state, and what has been handed to a serializer. -/
structure Untouched (t : R2CPTransceiverQueue) (c : List (List R2CPCommand))
    (w : ProcessingState σ) : Prop where
  transceiverQueue : w.transceiverQueue = t
  serializedCommands : w.serializedCommands = c

section Frame

variable {t : R2CPTransceiverQueue} {c : List (List R2CPCommand)} (p : R2CPPacketProcessor)
  (modules : RobotModules σ)

/-- A log entry touches nothing else. -/
private theorem keeps_writeLog (entry : LogEntry) :
    Keeps (Untouched (σ := σ) t c) (writeLog entry) :=
  Keeps.modify fun _ h => ⟨h.transceiverQueue, h.serializedCommands⟩

/-- A module has its own state, and the call is recorded elsewhere. -/
private theorem keeps_callModule (call : ModuleCall) :
    Keeps (Untouched t c) (callModule modules call) := by
  apply Keeps.bind
  · exact Keeps.modify fun _ h => ⟨h.transceiverQueue, h.serializedCommands⟩
  · exact fun _ => Keeps.onPart fun _ _ h => ⟨h.transceiverQueue, h.serializedCommands⟩

/-- One round of the reactive loop, whichever way it ends. -/
private theorem keeps_evaluateReactive (command : R2CPCommand) (responses : List R2CPCommand) :
    Keeps (Untouched t c) (p.evaluateReactive modules command responses) := by
  apply Keeps.tryCatch
  · apply Keeps.bind
    · unfold robotModuleAt
      split
      · exact .pure _
      · exact .throw _
    · intro robotModule
      exact (keeps_callModule modules _).bind fun _ => .pure _
  · exact meets_onOutOfRange (fun _ => (keeps_writeLog _).bind fun _ => .pure _) fun _ _ h => h

/-- The reactive loop, by induction on the commands that are left. -/
private theorem keeps_reactiveLoop (commands responses : List R2CPCommand) :
    Keeps (Untouched t c) (p.reactiveLoop modules commands responses) := by
  induction commands generalizing responses with
  | nil => exact .pure _
  | cons command commands ih =>
    exact (keeps_evaluateReactive p modules command responses).bind fun _ => ih _

/-- The active loop, by induction on the modules that are left. -/
private theorem keeps_activeLoop (robotModules : List RobotModuleAddress)
    (responses : List R2CPCommand) :
    Keeps (Untouched t c) (activeLoop modules robotModules responses) := by
  induction robotModules generalizing responses with
  | nil => exact .pure _
  | cons robotModule robotModules ih =>
    exact (keeps_callModule modules _).bind fun _ => ih _

/-- A round touches neither the queues nor the record before it has its responses. -/
theorem keeps_collectResponses (r2cpPacket : List UInt8) :
    Keeps (Untouched t c) (p.collectResponses modules r2cpPacket) := by
  apply Keeps.bind
  · exact Keeps.onPart fun _ _ h => ⟨h.transceiverQueue, h.serializedCommands⟩
  · intro commands
    apply Keeps.bind
    · exact keeps_reactiveLoop p modules commands []
    · intro responses
      exact keeps_activeLoop modules _ _

end Frame

/-! ## The responses -/

/-- The lists that a round with these responses hands to a serializer. -/
def handedToSerializer : List R2CPCommand → List (List R2CPCommand)
  | [] => []
  | response :: responses => [response :: responses]

/-- What has been handed to a serializer. -/
abbrev HasSerialized (c : List (List R2CPCommand)) (w : ProcessingState σ) : Prop :=
  w.serializedCommands = c

/-- The record is made before the serializer can throw. -/
private theorem serialized_of_serializeResponses (c : List (List R2CPCommand))
    (responses : List R2CPCommand) :
    Meets (HasSerialized (σ := σ) c) (serializeResponses responses)
      fun _ => HasSerialized (c ++ [responses]) := by
  have hrecord : Meets (HasSerialized (σ := σ) c)
      (modify fun w => { w with serializedCommands := w.serializedCommands ++ [responses] } :
        Processing σ Unit)
      fun _ => HasSerialized (c ++ [responses]) :=
    fun w h => congrArg (· ++ [responses]) h
  exact hrecord.bind (fun _ => Keeps.onPart fun _ _ h => h) fun _ _ h => h

/-- `respond` hands its responses to a serializer once, and nothing if there are none. -/
theorem serialized_of_respond (c : List (List R2CPCommand)) (responses : List R2CPCommand) :
    Meets (HasSerialized (σ := σ) c) (respond responses)
      fun _ => HasSerialized (c ++ handedToSerializer responses) := by
  cases responses with
  | nil => exact .pure fun w h => h.trans (List.append_nil c).symm
  | cons response responses =>
    -- what comes behind the serializer is the push, with its handler
    refine (serialized_of_serializeResponses c _).bind (fun packet => ?_) fun _ _ h => h
    apply Keeps.tryCatch
    · exact Keeps.onPart fun _ _ h => h
    · exact meets_onOverflowError (fun _ => Keeps.modify fun _ h => h) fun _ _ h => h

end R2CP.R2CPPacketProcessor
