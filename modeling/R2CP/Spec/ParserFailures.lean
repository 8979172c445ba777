import R2CP.Spec.ParserCorrect

/-!
# How parsing fails

`parseR2CPPacket` declares `std::invalid_argument` for packets that are not valid.
Two kinds of valid packets fail in another way, with `std::out_of_range`: the
header-only packet, whose count word is read although there is none, and packets
with a parameter whose size the validator skipped over without a look at the end.

## Key results

- `parseR2CPPacket_failsOnlyAsDeclared_iff`: the parser fails as declared on all packets but
  these
-/

namespace R2CP.R2CPParser

open StatefulExcept (exec)
open Spec

/-- The failures of the parser on `b` are the declared one: it throws
    `std::invalid_argument` exactly where the validator says no, and nothing else. -/
def FailsOnlyAsDeclared (b : List UInt8) (s : R2CPParser) : Prop :=
  ∃ isR2CPPacketValid, (exec (validateR2CPPacket b) s).1 = .ok isR2CPPacketValid ∧
    (isR2CPPacketValid = false →
      ∃ what, (exec (parseR2CPPacket b) s).1 = .error (.invalidArgument what)) ∧
    (isR2CPPacketValid = true → ∃ commands, (exec (parseR2CPPacket b) s).1 = .ok commands) ∧
    ∀ e, (exec (parseR2CPPacket b) s).1 = .error e → ∃ what, e = .invalidArgument what

variable {b : List UInt8} {s : R2CPParser}

/-- Where the parser throws `std::out_of_range`, it fails in an undeclared way. -/
private theorem not_failsOnlyAsDeclared {what : What}
    (h : (exec (parseR2CPPacket b) s).1 = .error (.outOfRange what)) :
    ¬ FailsOnlyAsDeclared b s := by
  intro hfails
  obtain ⟨_, -, -, -, honly⟩ := hfails
  obtain ⟨what', heq⟩ := honly _ h
  exact nomatch heq

/-- A rejected packet fails as declared, -/
private theorem failsOnlyAsDeclared_of_rejected (h : ¬ PacketAccepted (visible b)) :
    FailsOnlyAsDeclared b s := by
  have hparse := (parseR2CPPacket_rejected h s.parsingOffsetStack).outcome (s := s) rfl
  refine ⟨false, (validateR2CPPacket_rejects h _).outcome rfl, fun _ => ⟨_, hparse⟩, nofun, ?_⟩
  intro e he
  rw [hparse] at he
  cases he
  exact ⟨_, rfl⟩

/-- and one that parses does not fail. -/
private theorem failsOnlyAsDeclared_of_returns (hacc : PacketAccepted (visible b))
    {commands : List R2CPCommand} (h : (exec (parseR2CPPacket b) s).1 = .ok commands) :
    FailsOnlyAsDeclared b s := by
  refine ⟨true, (validateR2CPPacket_accepts hacc _).outcome rfl, nofun, fun _ => ⟨_, h⟩, ?_⟩
  intro e he
  rw [h] at he
  exact nomatch he

/-- The parser fails only as declared exactly on the packets that are neither
    header-only nor accepted with a parameter that overruns its content. -/
theorem parseR2CPPacket_failsOnlyAsDeclared_iff (hlt : b.length < 2 ^ 32) :
    FailsOnlyAsDeclared b s ↔ ¬ IsEmptyPacket b ∧ ¬ OverrunsInside b := by
  have hb := visible_of_lt hlt
  constructor
  · intro h
    -- on each of the two kinds there is another exception
    refine ⟨fun hempty => ?_, fun hover => ?_⟩
    · rw [← hb] at hempty
      exact not_failsOnlyAsDeclared ((parseR2CPPacket_empty hempty _).outcome rfl) h
    · rw [← hb] at hover
      obtain ⟨what, s', hthrow⟩ := parseR2CPPacket_overruns hover s.parsingOffsetStack
      exact not_failsOnlyAsDeclared (hthrow.outcome rfl) h
  · intro hneither
    obtain ⟨hempty, hover⟩ := hneither
    -- an accepted packet that is of neither kind has commands
    by_cases hacc : PacketAccepted (visible b)
    · rw [← hb] at hempty hover
      obtain ⟨commands, hcommands⟩ := exists_commandsOf hacc hempty hover
      exact failsOnlyAsDeclared_of_returns hacc
        ((parseR2CPPacket_parsed hcommands s.parsingOffsetStack).outcome rfl)
    · exact failsOnlyAsDeclared_of_rejected hacc

/-- `R2CP` and the packet size 0. -/
def headerOnlyPacket : List UInt8 := [0x52, 0x32, 0x43, 0x50, 0, 0, 0, 0]

theorem headerOnlyPacket_failsOnlyAsDeclared_iff :
    FailsOnlyAsDeclared headerOnlyPacket new ↔
      ¬ IsEmptyPacket headerOnlyPacket ∧ ¬ OverrunsInside headerOnlyPacket :=
  parseR2CPPacket_failsOnlyAsDeclared_iff (by decide)

/-- A `motorDutyCycle` record whose content announces two parameters in 14 bytes. The
    first one has the code 6 and the size `2 ^ 32 - 12`, which brings the validator's
    offset back to 0; the size read from there is 6, and 14 is the end. -/
def overrunningPacket : List UInt8 :=
  [0x52, 0x32, 0x43, 0x50, 0, 0, 0, 26, 0, 0, 0, 1, 0, 0, 0, 4, 0, 0, 0, 14,
    0, 0, 0, 2, 0, 0, 0, 6, 0xFF, 0xFF, 0xFF, 0xF4, 0, 0]

/-- The validator accepts both, and both make the parser throw `std::out_of_range`: one
    from the guard of a reader, one from `std::vector::at`. -/
theorem parseR2CPPacket_undeclared_failures :
    ((exec (validateR2CPPacket headerOnlyPacket) new).1 = .ok true ∧
      (exec (parseR2CPPacket headerOnlyPacket) new).1 = .error noBytesLeft ∧
      ¬ FailsOnlyAsDeclared headerOnlyPacket new) ∧
    ((exec (validateR2CPPacket overrunningPacket) new).1 = .ok true ∧
      (exec (parseR2CPPacket overrunningPacket) new).1 =
        .error (.outOfRange (.rangeCheck 14 14)) ∧
      ¬ FailsOnlyAsDeclared overrunningPacket new) := by
  have hempty : (exec (parseR2CPPacket headerOnlyPacket) new).1 = .error noBytesLeft := by
    decide +kernel
  have hover : (exec (parseR2CPPacket overrunningPacket) new).1 =
      .error (.outOfRange (.rangeCheck 14 14)) := by
    decide +kernel
  refine ⟨⟨by decide +kernel, hempty, ?_⟩, ⟨by decide +kernel, hover, ?_⟩⟩
  · exact not_failsOnlyAsDeclared hempty
  · exact not_failsOnlyAsDeclared hover

end R2CP.R2CPParser
