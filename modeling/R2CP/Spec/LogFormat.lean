import R2CP.ForStd.BigEndian
import R2CP.Native.Logger

/-!
# Lengths of formatted log entries

`convertformattostring` reserves twice the length of the format and of `sizeof` of
the arguments. `fitsBuffer_iff` turns that into an inequality between the length of
the format and what the arguments print, and a number always fits its share.

## Key results

- `fitsBuffer_iff`: when an entry fits the buffer that is reserved for it
- `length_sprintf?`: how long the entry is
-/

namespace R2CP

/-- The number of conversions in a format. -/
def conversions : (format : List Char) → Nat
  | '%' :: _ :: format => 1 + conversions format
  | _ :: format => conversions format
  | [] => 0

namespace LogArgument

/-- The number of characters that an argument prints. -/
def printedLength (argument : LogArgument) : Nat := (argument.print?.getD []).length

/-- The digits of a 32-bit number are no more than two characters of the conversion and
    twice its size. -/
theorem printedLength_uint32_le (v : UInt32) : (uint32 v).printedLength ≤ 10 := by
  show (toString v.toNat).toList.length ≤ 10
  rw [Nat.toString_eq_ofList_toDigits, String.toList_ofList,
    Nat.length_toDigits_le_iff (by decide) (by decide)]
  have := v.toNat_lt
  omega

end LogArgument

/-- A conversion gives way to what its argument prints. -/
private theorem length_sprintf? {format text : List Char} {arguments : List LogArgument}
    (hconversions : conversions format = arguments.length)
    (h : sprintf? format arguments = some text) :
    text.length + 2 * arguments.length =
      format.length + (arguments.map LogArgument.printedLength).sum := by
  fun_induction sprintf? format arguments generalizing text with
  | case1 c format argument arguments ih =>
    obtain ⟨printed, hprinted, h⟩ := Option.bind_eq_some_iff.mp h
    obtain ⟨rest, hrest, h⟩ := Option.bind_eq_some_iff.mp h
    cases h
    rw [conversions, List.length_cons] at hconversions
    -- two characters of the conversion give way to what the argument prints
    have hlen := ih (by omega) hrest
    have hargument : argument.printedLength = printed.length := by
      rw [LogArgument.printedLength, hprinted]
      rfl
    simp only [List.length_append, List.length_cons, List.map_cons, List.sum_cons, hargument]
    omega
  | case2 c format arguments hplain ih =>
    obtain ⟨rest, hrest, h⟩ := Option.bind_eq_some_iff.mp h
    cases h
    -- the character is not that of a conversion
    have hconversions' : conversions format = arguments.length := by
      cases format with
      | nil => simpa [conversions] using hconversions
      | cons head format =>
        by_cases hc : c = '%'
        · cases arguments with
          | nil =>
            rw [hc, conversions, List.length_nil] at hconversions
            omega
          | cons argument arguments => exact (hplain head format argument arguments rfl hc rfl).elim
        · simpa [conversions, hc] using hconversions
    have hlen := ih hconversions' hrest
    simp only [List.length_cons]
    omega
  | case3 arguments =>
    cases h
    obtain rfl := List.eq_nil_of_length_eq_zero hconversions.symm
    rfl

/-- Only the library's own text is not printed. -/
private theorem isSome_sprintf? {format : List Char} {arguments : List LogArgument}
    (h : ∀ argument ∈ arguments, argument.print?.isSome = true) :
    ∃ text, sprintf? format arguments = some text := by
  fun_induction sprintf? format arguments with
  | case1 c format argument arguments ih =>
    obtain ⟨printed, hprinted⟩ := Option.isSome_iff_exists.mp (h argument (by simp))
    obtain ⟨rest, hrest⟩ := ih fun a ha => h a (by simp [ha])
    exact ⟨printed ++ rest, by rw [hprinted, hrest]; rfl⟩
  | case2 c format arguments hplain ih =>
    obtain ⟨rest, hrest⟩ := ih h
    exact ⟨c :: rest, by rw [hrest]; rfl⟩
  | case3 arguments => exact ⟨[], rfl⟩

/-- `sizeof` of all arguments. -/
def argumentsSize (arguments : List LogArgument) : Nat :=
  (arguments.map fun argument => argument.size.toNat).sum

/-- The sizes are added up in 32 bits. -/
private theorem toNat_sum_size (arguments : List LogArgument) :
    (arguments.map LogArgument.size).sum.toNat = argumentsSize arguments % 2 ^ 32 := by
  induction arguments with
  | nil => rfl
  | cons argument arguments ih =>
    rw [List.map_cons, List.sum_cons, UInt32.toNat_add, ih, argumentsSize, argumentsSize,
      List.map_cons, List.sum_cons]
    omega

/-- The size of the buffer, when it can be counted. -/
private theorem toNat_bufferSize {format : List Char} {arguments : List LogArgument}
    (hlt : 2 * (format.length + argumentsSize arguments) < 2 ^ 32) :
    (bufferSize format arguments).toNat = 2 * (format.length + argumentsSize arguments) := by
  have h2 : (2 : UInt32).toNat = 2 := rfl
  rw [bufferSize, UInt32.toNat_mul, UInt32.toNat_add, toNat_sum_size, UInt32.toNat_ofNat', h2]
  omega

/-- What is printed has the format and the sizes of the arguments over for it. -/
def PrintsWithin (format : List Char) (arguments : List LogArgument) : Prop :=
  (arguments.map LogArgument.printedLength).sum + 1 ≤
    format.length + 2 * arguments.length + 2 * argumentsSize arguments

/-- A format with as many conversions as arguments fits if it prints within. -/
theorem PrintsWithin.fitsBuffer {format : List Char} {arguments : List LogArgument}
    (h : PrintsWithin format arguments) (hconversions : conversions format = arguments.length)
    (hlt : 2 * (format.length + argumentsSize arguments) < 2 ^ 32) :
    FitsBuffer format arguments := by
  intro text htext
  have hlen := length_sprintf? hconversions htext
  rw [toNat_bufferSize hlt]
  unfold PrintsWithin at h
  omega

/-- And only then, if all arguments are printed. -/
theorem fitsBuffer_iff {format : List Char} {arguments : List LogArgument}
    (hconversions : conversions format = arguments.length)
    (hprinted : ∀ argument ∈ arguments, argument.print?.isSome = true)
    (hlt : 2 * (format.length + argumentsSize arguments) < 2 ^ 32) :
    FitsBuffer format arguments ↔ PrintsWithin format arguments := by
  constructor
  · intro h
    obtain ⟨text, htext⟩ : ∃ text, sprintf? format arguments = some text :=
      isSome_sprintf? hprinted
    have hlen := length_sprintf? hconversions htext
    have hfits := h text htext
    rw [toNat_bufferSize hlt] at hfits
    unfold PrintsWithin
    omega
  · intro h
    exact h.fitsBuffer hconversions hlt

end R2CP
