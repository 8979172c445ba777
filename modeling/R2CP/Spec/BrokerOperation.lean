import R2CP.Spec.Base64Correct
import R2CP.Spec.BrokerRelay
import R2CP.Spec.PacketNormalForm
import R2CP.Spec.ParameterFamilies

/-!
# Operating a robot

An operator writes commands in the documented format, and sends each packet as a Base64
text. With robot modules that have no answers, the program executes these commands: in
every run the modules get the calls of what was sent, in order, and as soon as nothing
waits any more they have got all of them (`operates_of_run`). This is the decoder, the
queue, the parser, the dispatch and the threads together.

## Key results

- `operates_of_run`: every run executes the commands that the operator has sent
- `FitTogether.messagesOf_eq`: what arrives is what was sent
-/

namespace R2CP

open StatefulExcept (exec)

/-! ## What an operator sends -/

/-- Commands with the magic number that they are sent under. -/
structure CommandList where
  magicNumber : UInt32
  commands : List R2CPCommand
  isMagicNumber : Spec.IsMagicNumber magicNumber
  returnable : ∀ c ∈ commands, R2CPParser.Returnable c

namespace CommandList

/-- The documented packet of the commands. -/
def r2cpPacket (l : CommandList) : List UInt8 := R2CPParser.normalForm l.magicNumber l.commands

/-- The text that is sent for them. -/
def message (l : CommandList) : List UInt8 := Base64.base64Encode l.r2cpPacket

/-- A packet that fits the reception queue has a text that the decoder can count. -/
private theorem base64Decode_message {l : CommandList}
    (h : l.r2cpPacket.length ≤ R2CPTransceiverQueue.defaultMaxQueueSize.toNat) :
    Base64.base64Decode l.message = l.r2cpPacket := by
  have hmax : R2CPTransceiverQueue.defaultMaxQueueSize.toNat = 16777216 := rfl
  rw [message, Base64.base64Encode_eq_text (by omega), Base64.base64Decode_text]

/-- The parser returns the commands. -/
theorem parse {l : CommandList}
    (h : l.r2cpPacket.length ≤ R2CPTransceiverQueue.defaultMaxQueueSize.toNat) (s : R2CPParser) :
    (exec (R2CPParser.parseR2CPPacket l.r2cpPacket) s).1 = .ok l.commands := by
  have hmax : R2CPTransceiverQueue.defaultMaxQueueSize.toNat = 16777216 := rfl
  rw [r2cpPacket, R2CPParser.length_normalForm] at h
  have hnormal : R2CPParser.HasNormalForm l.commands := ⟨l.returnable, by omega⟩
  exact hnormal.parse l.isMagicNumber s

end CommandList

/-! ## Modules without answers -/

namespace R2CPPacketProcessor

variable {σ : Type} {modules : RobotModules σ}

/-- The modules do what they do, and answer nothing. -/
structure Quiet (modules : RobotModules σ) : Prop where
  goesOn : OnlyReactionsThrow modules
  noAnswer : ∀ call s, (answer modules s call).1 = []

/-- Quiet modules have no responses, whatever they are called with. -/
private theorem Quiet.collect_eq_nil (h : Quiet modules) (s : σ) (calls : List ModuleCall) :
    (collect modules s calls).1 = [] := by
  induction calls generalizing s with
  | nil => rfl
  | cons call calls ih =>
    simp only [collect, h.noAnswer, ih, List.append_nil]
    rfl

variable {p : R2CPPacketProcessor} {r2cpPackets : List (List UInt8)}

/-- Such modules survive every packet that has commands. -/
private theorem Quiet.safePackets (h : Quiet modules) {s : σ}
    (hparse : ∀ r2cpPacket ∈ r2cpPackets, ∃ commands,
      (exec (R2CPParser.parseR2CPPacket r2cpPacket) R2CPParser.new).1 = .ok commands) :
    p.SafePackets modules s r2cpPackets := by
  intro before r2cpPacket hprefix
  have hmem : r2cpPacket ∈ r2cpPackets := hprefix.subset (by simp)
  obtain ⟨commands, hcommands⟩ := hparse r2cpPacket hmem
  unfold SafePacket
  rw [hcommands]
  exact h.collect_eq_nil _ _

end R2CPPacketProcessor

/-! ## Runs -/

namespace R2CPRuntimeBroker

open R2CPPacketProcessor (Quiet)

variable {η σ : Type} {modules : RobotModules σ} {b : R2CPRuntimeBroker η σ}
  {p : R2CPPacketProcessor}

/-- The texts that were received, in order. -/
def receivedTexts (es : List (BrokerEvent η)) : List (List UInt8) :=
  es.filterMap fun
    | .reception (.onMessage _ r2cpPacketBase64) => some r2cpPacketBase64
    | _ => none

/-- A message is the bytes of its text. -/
private theorem messagesOf_eq (es : List (BrokerEvent η)) :
    messagesOf es = (receivedTexts es).map Base64.base64Decode := by
  rw [messagesOf, receivedTexts, List.map_filterMap]
  apply List.filterMap_congr
  intro e _
  cases e with
  | reception event => cases event <;> rfl
  | main | finishMessage | processing | transmission => rfl

/-- The packets fit the reception queue together. -/
def FitTogether (sent : List CommandList) : Prop :=
  (sent.map fun l => l.r2cpPacket.length).sum ≤ R2CPTransceiverQueue.defaultMaxQueueSize.toNat

/-- Each of the packets fits the queue alone. -/
theorem FitTogether.length_le {sent : List CommandList} (h : FitTogether sent) {l : CommandList}
    (hl : l ∈ sent) : l.r2cpPacket.length ≤ R2CPTransceiverQueue.defaultMaxQueueSize.toNat :=
  (List.le_sum_of_mem (List.mem_map_of_mem (f := fun l => l.r2cpPacket.length) hl)).trans h

/-- The decoder gets the packets back that the operator has encoded. -/
private theorem FitTogether.messagesOf_eq {sent : List CommandList} (h : FitTogether sent)
    {es : List (BrokerEvent η)} (hsent : receivedTexts es = sent.map CommandList.message) :
    messagesOf es = sent.map CommandList.r2cpPacket := by
  rw [R2CPRuntimeBroker.messagesOf_eq, hsent, List.map_map]
  apply List.map_congr_left
  intro l hl
  exact CommandList.base64Decode_message (h.length_le hl)

/-- How far the program has come with the commands that were sent: it goes on, the modules
    have got the calls of the first ones, and of all of them when no packet waits. -/
structure Operates (p : R2CPPacketProcessor) (sent : List CommandList)
    (b : R2CPRuntimeBroker η σ) : Prop where
  goesOn : b.hasTerminated = false
  calls : b.moduleCalls =
    (sent.take b.finishedPackets.length).flatMap fun l => p.dispatch l.commands
  complete : arriving b.receptionThread = [] → b.transceiverQueue.receptionQueue.packets = [] →
    inHand b.processingThread = [] → b.finishedPackets.length = sent.length

/-- In every run in which the messages are the texts of commands that fit the queue
    together, modules without answers get the calls of these commands in order. -/
theorem operates_of_run (hmodules : Quiet modules) (p : R2CPPacketProcessor) (s : σ)
    {es : List (BrokerEvent η)} (hrun : Transition.run (step modules) (started p s) es = some b)
    {sent : List CommandList} (hsent : receivedTexts es = sent.map CommandList.message)
    (hfits : FitTogether sent) : Operates p sent b := by
  have hmessages := hfits.messagesOf_eq hsent
  have hrelays := (relayInv_of_run hmodules.goesOn p s hrun).relays
  -- nothing was refused, so what was sent is what was taken
  have htaken : b.takenPackets = sent.map CommandList.r2cpPacket := by
    rw [← hmessages]
    apply hrelays.complete
    rw [hmessages, List.map_map]
    exact hfits
  -- and what the processing thread is done with is a first part of it
  have hfinished : b.finishedPackets =
      (sent.take b.finishedPackets.length).map CommandList.r2cpPacket := by
    have hprefix : b.finishedPackets <+: b.takenPackets := by
      unfold takenPackets
      rw [List.append_assoc]
      exact (finishedPackets_isPrefixOf b).trans (List.prefix_append _ _)
    rw [htaken] at hprefix
    rw [List.map_take]
    exact List.prefix_iff_eq_take.mp hprefix
  have hlength : ∀ l ∈ sent.take b.finishedPackets.length,
      l.r2cpPacket.length ≤ R2CPTransceiverQueue.defaultMaxQueueSize.toNat :=
    fun l hl => hfits.length_le (List.mem_of_mem_take hl)
  refine ⟨?_, ?_, ?_⟩
  · -- without answers every packet with commands is survived
    apply hrelays.goesOn.mpr
    apply hmodules.safePackets
    rw [hfinished]
    intro r2cpPacket hpacket
    obtain ⟨l, hl, rfl⟩ := List.mem_map.mp hpacket
    exact ⟨l.commands, CommandList.parse (hlength l hl) R2CPParser.new⟩
  · have hcalls : ∀ l ∈ sent.take b.finishedPackets.length,
        p.packetCalls l.r2cpPacket = p.dispatch l.commands := by
      intro l hl
      rw [R2CPPacketProcessor.packetCalls, CommandList.parse (hlength l hl)]
    rw [hrelays.calls]
    nth_rewrite 1 [hfinished]
    rw [List.flatMap_map]
    exact List.flatMap_congr hcalls
  · intro harriving hqueued hinHand
    -- with nothing on its way, everything taken is finished
    have hall : b.takenPackets = b.finishedPackets := by
      rw [finishedPackets_of_inHand_eq_nil hinHand, takenPackets, harriving, hqueued,
        List.append_nil, List.append_nil]
    rw [← hall, htaken, List.length_map]

/-- These modules are quiet. -/
private theorem quiet_quietModules : Quiet quietModules where
  goesOn := onlyReactionsThrow_quietModules
  noAnswer _ _ := rfl

/-- The command is one that the parser returns. -/
private theorem returnable_printHi :
    ∀ c ∈ [(⟨printMessage, [⟨noParameters, [72, 105]⟩]⟩ : R2CPCommand)],
      R2CPParser.Returnable c := by
  intro c hc
  rw [List.mem_singleton.mp hc]
  exact ⟨by decide, [72, 105], rfl⟩

/-- One command, with the text that is to be printed. -/
def printHi : CommandList where
  magicNumber := R2CPParser.r2cpMagicNumber
  commands := [⟨printMessage, [⟨noParameters, [72, 105]⟩]⟩]
  isMagicNumber := R2CPParser.isMagicNumber_r2cpMagicNumber
  returnable := returnable_printHi

/-- A registry with one module that reacts. -/
def printingModule : R2CPPacketProcessor :=
  R2CPPacketProcessor.new.registerReactiveRobotModule printMessage 7

/-- The command is received and processed. -/
def printedMessage : List (BrokerEvent Unit) :=
  [.reception (.onMessage () printHi.message), .finishMessage, .processing, .processing,
    .processing, .processing]

/-- One packet that prints a text, from the message to the module. -/
theorem printedMessage_operates : ∃ b,
    Transition.run (step quietModules) (started printingModule ()) printedMessage = some b ∧
    b.moduleCalls = [.reactive 7 ⟨printMessage, [⟨noParameters, [72, 105]⟩]⟩, .active 7] ∧
    Operates printingModule [printHi] b := by
  have hcalls : (Transition.run (step quietModules) (started printingModule ())
      printedMessage).map moduleCalls =
        some [.reactive 7 ⟨printMessage, [⟨noParameters, [72, 105]⟩]⟩, .active 7] := by
    decide +kernel
  obtain ⟨b, hrun, hcalls⟩ := Option.map_eq_some_iff.mp hcalls
  have hfits : FitTogether [printHi] := by
    unfold FitTogether
    decide +kernel
  exact ⟨b, hrun, hcalls, operates_of_run quiet_quietModules printingModule () hrun rfl hfits⟩

end R2CPRuntimeBroker

end R2CP
