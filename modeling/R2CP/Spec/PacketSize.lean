import R2CP.Spec.SerializedContent

/-!
# The documented packet size

The size word of a packet is `X = 4 + 8N + ΣS`, with `S` the size of the content of each
command. The serializer computes it in two nested loops over 32-bit numbers, with three
kinds of commands. `precomputeR2CPPacketSize_eq` says that it computes `X` modulo
`2 ^ 32`, without a throw and without a look at the state.

## Key results

- `precomputeR2CPPacketSize_documented`: the size of the packet, and of packets put together
-/

namespace R2CP.R2CPSerializer

open Spec

/-- The documented size `S` of the content that a command is serialized to: nothing without
    parameters, the data alone for a command with raw data, and a parameterized content
    otherwise. -/
def documentedContentSize (command : R2CPCommand) : Nat :=
  match command.commandParameters with
  | [] => 0
  | [p] =>
    if p.parameterCode = noParameters then p.parameterData.length
    else (Content.parameters [p]).size
  | ps => (Content.parameters ps).size

/-- The documented packet size `X`. -/
def documentedSize (commands : List R2CPCommand) : Nat :=
  4 + 8 * commands.length + (commands.map documentedContentSize).sum

/-- A single parameter is direct content, or a list of one. -/
private theorem documentedContentSize_singleton (code : UInt32) (p : R2CPParameter) :
    documentedContentSize ⟨code, [p]⟩ =
      if p.parameterCode = noParameters then p.parameterData.length
      else (Content.parameters [p]).size := rfl

/-- The four bytes of the count are there once. -/
private theorem documentedSize_append (before after : List R2CPCommand) :
    documentedSize (before ++ after) + 4 = documentedSize before + documentedSize after := by
  simp only [documentedSize, List.length_append, List.map_append, List.sum_append]
  omega

/-- The inner loop: the content of the parameters, in 32 bits. -/
private theorem precomputeCommandContentSize_eq (ps : List R2CPParameter) :
    precomputeCommandContentSize ps = UInt32.ofNat (Content.parameters ps).size := by
  apply UInt32.toNat_inj.mp
  rw [toNat_precomputeCommandContentSize, UInt32.toNat_ofNat']

/-- Each of the three kinds adds its documented size. -/
private theorem precomputeCommandSize_eq {command : R2CPCommand}
    (hcount : command.commandParameters.length < 2 ^ 32) :
    precomputeCommandSize command = pure (UInt32.ofNat (documentedContentSize command)) := by
  obtain ⟨code, ps⟩ := command
  have hlength := UInt32.toNat_ofNat_length hcount
  unfold precomputeCommandSize R2CPCommand.getNumberOfCommandParameters
  simp only [precomputeCommandContentSize_eq]
  cases ps with
  | nil => rfl
  | cons p ps =>
    have hpos : UInt32.ofNat (p :: ps).length > 0 := by
      rw [gt_iff_lt, UInt32.lt_iff_toNat_lt, hlength]
      exact Nat.succ_pos ps.length
    rw [if_pos hpos]
    cases ps with
    | nil =>
      rw [if_pos (show UInt32.ofNat [p].length = 1 from rfl)]
      show (pure p >>= fun commandParameter => _) = _
      rw [pure_bind, documentedContentSize_singleton]
      -- direct content has no header of its own
      by_cases hcode : p.parameterCode = noParameters
      · rw [if_pos hcode, if_pos hcode]
        rfl
      · rw [if_neg hcode, if_neg hcode]
    | cons q ps =>
      -- two parameters and more are not counted as one
      have hne : UInt32.ofNat (p :: q :: ps).length ≠ 1 := by
        intro hone
        rw [hone] at hlength
        simp only [UInt32.reduceToNat, List.length_cons] at hlength
        omega
      rw [if_neg hne]
      rfl

/-- The loop adds the sizes up. -/
private theorem precomputeLoop_eq {commands : List R2CPCommand}
    (hcounts : ∀ c ∈ commands, c.commandParameters.length < 2 ^ 32) (r2cpPacketSize : UInt32) :
    precomputeLoop commands r2cpPacketSize =
      pure (r2cpPacketSize + UInt32.ofNat (commands.map documentedContentSize).sum) := by
  induction commands generalizing r2cpPacketSize with
  | nil => simp [precomputeLoop]
  | cons c commands ih =>
    have hrest := ih (fun d hd => hcounts d (by simp [hd]))
      (r2cpPacketSize + UInt32.ofNat (documentedContentSize c))
    rw [precomputeLoop, precomputeCommandSize_eq (hcounts c (by simp)), pure_bind, hrest,
      List.map_cons, List.sum_cons, UInt32.ofNat_add, UInt32.add_assoc]

/-- The outer loop: the documented size, in 32 bits. -/
theorem precomputeR2CPPacketSize_eq {commands : List R2CPCommand}
    (hcounts : ∀ c ∈ commands, c.commandParameters.length < 2 ^ 32) :
    precomputeR2CPPacketSize commands = pure (UInt32.ofNat (documentedSize commands)) := by
  rw [precomputeR2CPPacketSize, precomputeLoop_eq hcounts]
  congr 1
  apply UInt32.toNat_inj.mp
  simp only [documentedSize, UInt32.toNat_add, UInt32.toNat_mul, UInt32.toNat_ofNat',
    UInt32.reduceToNat]
  omega

/-- The computed size is the documented one modulo `2 ^ 32`, so it is the documented one
    exactly if that fits, and the sizes of two lists of commands make up that of both, with
    one count less. -/
theorem precomputeR2CPPacketSize_documented {commands : List R2CPCommand}
    (hcounts : ∀ c ∈ commands, c.commandParameters.length < 2 ^ 32) :
    ∃ size, precomputeR2CPPacketSize commands = pure size ∧
      size.toNat = documentedSize commands % 2 ^ 32 ∧
      (size.toNat = documentedSize commands ↔ documentedSize commands < 2 ^ 32) ∧
      ∀ before after, commands = before ++ after → ∃ n m,
        precomputeR2CPPacketSize before = pure n ∧ precomputeR2CPPacketSize after = pure m ∧
          size = n + m - 4 := by
  have hsize : (UInt32.ofNat (documentedSize commands)).toNat = documentedSize commands % 2 ^ 32 :=
    UInt32.toNat_ofNat'
  refine ⟨_, precomputeR2CPPacketSize_eq hcounts, hsize, ?_, ?_⟩
  · rw [hsize]
    constructor
    · intro h
      rw [← h]
      exact Nat.mod_lt _ (by decide)
    · exact Nat.mod_eq_of_lt
  · rintro before after rfl
    refine ⟨_, _, precomputeR2CPPacketSize_eq fun c hc => hcounts c (by simp [hc]),
      precomputeR2CPPacketSize_eq fun c hc => hcounts c (by simp [hc]), ?_⟩
    have happend := documentedSize_append before after
    have hsum := congrArg UInt32.ofNat happend
    rw [UInt32.ofNat_add, UInt32.ofNat_add] at hsum
    rw [← hsum]
    exact (UInt32.add_sub_cancel _ 4).symm

/-- A command of each of the three kinds. -/
def threeCommands : List R2CPCommand :=
  [⟨motorIdle, []⟩, ⟨printMessage, [⟨noParameters, [72, 105]⟩]⟩,
    ⟨motorDutyCycle, [⟨motorRight, [50]⟩, ⟨motorLeft, [49]⟩]⟩]

/-- One command of each kind. -/
theorem precomputeR2CPPacketSize_threeCommands :
    ∃ size, precomputeR2CPPacketSize threeCommands = pure size ∧
      size.toNat = documentedSize threeCommands % 2 ^ 32 ∧
      (size.toNat = documentedSize threeCommands ↔ documentedSize threeCommands < 2 ^ 32) ∧
      ∀ before after, threeCommands = before ++ after → ∃ n m,
        precomputeR2CPPacketSize before = pure n ∧ precomputeR2CPPacketSize after = pure m ∧
          size = n + m - 4 :=
  precomputeR2CPPacketSize_documented (by decide)

end R2CP.R2CPSerializer
