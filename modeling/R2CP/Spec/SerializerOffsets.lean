import R2CP.Spec.SerializedContent

/-!
# The serializer's offset

The offset of a frame should be the number of bytes that were written in it, since the
guards of both writers compare it with the size of the vector. It is computed with 32
bits, but the stack that it is kept on has bytes: the first write that ends at 256 or
more leaves an offset that is too small. `offsetsExact_iff` says which parameter lists
are short enough for that not to happen, and which are so long that a guard, misled by
the 32-bit size of the vector, ends the content before it does.

## Key results

- `offsetsExact_iff`: exactly which parameter lists keep the offset exact
- `serializeParameterizedCommandContent_eq`: the content as a frame with writes in it
-/

namespace R2CP.R2CPSerializer

open StatefulExcept (exec Yields)
open Spec

/-! ## Writes -/

/-- A call of one of the two writers. -/
inductive PacketWrite where
  | word (value : UInt32)
  | bytes (writingBytes : List UInt8)

namespace PacketWrite

/-- The number of bytes that are written. -/
def size : PacketWrite → Nat
  | .word _ => 4
  | .bytes writingBytes => writingBytes.length

/-- Make the call. -/
def perform (r2cpPacket : List UInt8) : PacketWrite → Serializer (List UInt8)
  | .word value => writeUInt32ToR2CPPacket r2cpPacket value
  | .bytes writingBytes => writeBytesToR2CPPacket r2cpPacket writingBytes

/-- Make the calls one after the other. -/
def performAll : (writes : List PacketWrite) → (r2cpPacket : List UInt8) → Serializer (List UInt8)
  | [], r2cpPacket => pure r2cpPacket
  | w :: writes, r2cpPacket => do
    let r2cpPacket ← w.perform r2cpPacket
    performAll writes r2cpPacket

/-- The bytes that writes have in all. -/
def sizeAll (writes : List PacketWrite) : Nat := (writes.map size).sum

/-- The sizes of the writes add up. -/
@[simp] theorem sizeAll_append (ws ws' : List PacketWrite) :
    sizeAll (ws ++ ws') = sizeAll ws + sizeAll ws' := by
  simp [sizeAll]

/-- The first write, and the others. -/
@[simp] theorem sizeAll_cons (w : PacketWrite) (ws : List PacketWrite) :
    sizeAll (w :: ws) = w.size + sizeAll ws := by
  simp [sizeAll]

/-- Nothing is written. -/
@[simp] theorem sizeAll_nil : sizeAll [] = 0 := rfl

/-- Fewer writes are not longer. -/
private theorem sizeAll_le_of_prefix {ws ws' : List PacketWrite} (h : ws <+: ws') :
    sizeAll ws ≤ sizeAll ws' := by
  obtain ⟨more, rfl⟩ := h
  rw [sizeAll_append]
  omega

/-- The last call comes behind all others. -/
private theorem performAll_snoc (ws : List PacketWrite) (w : PacketWrite)
    (r2cpPacket : List UInt8) :
    performAll (ws ++ [w]) r2cpPacket =
      performAll ws r2cpPacket >>= fun r2cpPacket => w.perform r2cpPacket := by
  induction ws generalizing r2cpPacket with
  | nil =>
    show w.perform r2cpPacket >>= pure = pure r2cpPacket >>= _
    rw [bind_pure, pure_bind]
  | cons v ws ih =>
    show v.perform r2cpPacket >>= performAll (ws ++ [w]) = (_ >>= performAll ws) >>= _
    rw [bind_assoc]
    congr 1
    funext content
    exact ih content

end PacketWrite

open PacketWrite (performAll sizeAll)

/-- The writes of the loop over the parameters. -/
def writesOf (commandParameters : List R2CPParameter) : List PacketWrite :=
  commandParameters.flatMap fun p =>
    [.word p.parameterCode, .word p.getParameterDataSize, .bytes p.parameterData]

/-- The loop makes the writes of its parameters. -/
private theorem serializeParameterLoop_eq_performAll (ps : List R2CPParameter)
    (commandContent : List UInt8) :
    serializeParameterLoop ps commandContent = performAll (writesOf ps) commandContent := by
  induction ps generalizing commandContent with
  | nil => rfl
  | cons p ps ih =>
    unfold serializeParameterLoop
    simp only [ih]
    rfl

/-- The vector as it is when the first parameter is written. -/
def initialContent (commandParameters : List R2CPParameter) : List UInt8 :=
  List.replicate (precomputeCommandContentSize commandParameters).toNat 0

/-- All writes together are the documented content without its count. -/
private theorem sizeAll_writesOf (ps : List R2CPParameter) :
    sizeAll (writesOf ps) + 4 = (Content.parameters ps).size := by
  induction ps with
  | nil => rfl
  | cons p ps ih =>
    rw [show writesOf (p :: ps) = [.word p.parameterCode, .word p.getParameterDataSize,
      .bytes p.parameterData] ++ writesOf ps from rfl]
    simp only [Content.size, List.length_cons, List.map_cons, List.sum_cons] at ih ⊢
    simp only [PacketWrite.sizeAll_append, PacketWrite.sizeAll_cons, PacketWrite.sizeAll_nil,
      PacketWrite.size]
    omega

/-! ## One write -/

section

variable {o : UInt8} {s : List UInt8} {r2cpPacket : List UInt8}

/-- The guard of a write. -/
def PacketWrite.Guard (w : PacketWrite) (r2cpPacket : List UInt8) (o : UInt8) : Prop :=
  o.toUInt32 + UInt32.ofNat w.size ≤ UInt32.ofNat r2cpPacket.length

/-- What a write does behind its guard: it appends its bytes, and of the offset behind them
    the low byte is kept. -/
structure Writes (w : PacketWrite) (r2cpPacket : List UInt8) (o : UInt8) (s : List UInt8) :
    Prop where
  accepted (hguard : w.Guard r2cpPacket o) : ∃ written,
    exec (w.perform r2cpPacket) ⟨o :: s⟩ =
      (.ok written, ⟨(o.toUInt32 + UInt32.ofNat w.size).toUInt8 :: s⟩) ∧
    written.length = r2cpPacket.length + w.size
  refused (hguard : ¬w.Guard r2cpPacket o) :
    exec (w.perform r2cpPacket) ⟨o :: s⟩ = (.error noBytesLeft, ⟨o :: s⟩)

/-- The state is the stack. -/
theorem exec_of_yields {α : Type} {x : Serializer α} {r : Except StdException α}
    {v v' : List UInt8} (h : Yields serializingOffsetStack x v r v') :
    exec x ⟨v⟩ = (r, ⟨v'⟩) := by
  obtain ⟨s', hexec, hstack⟩ := h ⟨v⟩ rfl
  obtain ⟨stack⟩ := s'
  cases hstack
  exact hexec

/-- A number has four bytes. -/
private theorem length_pushBackUInt32 (r2cpPacket : List UInt8) (value : UInt32) :
    (pushBackUInt32 r2cpPacket value).length = r2cpPacket.length + 4 := by
  simp [pushBackUInt32]

/-- The copy loop appends the bytes that are left. -/
private theorem writeBytesLoop_yields (written todo : List UInt8) (i : UInt32)
    (hlen : (written ++ todo).length < 2 ^ 32) (hi : i.toNat = written.length)
    (r2cpPacket : List UInt8) :
    Yields serializingOffsetStack (writeBytesLoop (written ++ todo) todo.length i r2cpPacket) s
      (.ok (r2cpPacket ++ todo)) s := by
  -- on the bytes to go; `written` holds those before, and `i` counts them
  induction todo generalizing written i r2cpPacket with
  | nil =>
    rw [List.append_nil r2cpPacket]
    exact .pure r2cpPacket
  | cons x todo ih =>
    have hx : (vectorAt (written ++ x :: todo) i.toNat : Serializer UInt8) = pure x := by
      apply vectorAt_of_lt
      rw [hi, List.getElem?_append_right (Nat.le_refl _)]
      simp
    have hsplit : written ++ x :: todo = written ++ [x] ++ todo := by simp
    have hi' : (i + 1).toNat = (written ++ [x]).length := by
      rw [List.length_append, List.length_cons] at hlen
      rw [UInt32.toNat_add, List.length_append, hi]
      exact Nat.mod_eq_of_lt (by simp; omega)
    show Yields _ (vectorAt (written ++ x :: todo) i.toNat >>= _) _ _ _
    rw [hx]
    have hrest := ih (written ++ [x]) (i + 1) (hsplit ▸ hlen) hi' (r2cpPacket ++ [x])
    rw [List.append_assoc r2cpPacket, List.singleton_append, ← hsplit] at hrest
    exact Yields.bind (.pure x) hrest

/-- A number is written if the guard finds four bytes left. -/
private theorem writes_word (value : UInt32) : Writes (.word value) r2cpPacket o s where
  accepted hguard := by
    have hguard' : o.toUInt32 + 4 ≤ UInt32.ofNat r2cpPacket.length := hguard
    refine ⟨pushBackUInt32 r2cpPacket value, ?_, length_pushBackUInt32 _ _⟩
    apply exec_of_yields
    refine backOffset_yields.bind (popOffset_yields.bind ?_)
    rw [if_pos hguard']
    exact (pushOffset_yields _).bind (.pure _)
  refused hguard := exec_of_yields (writeUInt32ToR2CPPacket_refused value hguard)

/-- Bytes are written if the guard finds them left. -/
private theorem writes_bytes {writingBytes : List UInt8} (hlen : writingBytes.length < 2 ^ 32) :
    Writes (.bytes writingBytes) r2cpPacket o s where
  accepted hguard := by
    have hguard' : o.toUInt32 + UInt32.ofNat writingBytes.length ≤
      UInt32.ofNat r2cpPacket.length := hguard
    refine ⟨r2cpPacket ++ writingBytes, ?_, List.length_append⟩
    apply exec_of_yields
    refine backOffset_yields.bind (popOffset_yields.bind ?_)
    rw [if_pos hguard', UInt32.toNat_ofNat_length hlen]
    exact (writeBytesLoop_yields [] writingBytes 0 hlen rfl r2cpPacket).bind
      ((pushOffset_yields _).bind (.pure _))
  refused hguard := by
    have hguard' : ¬o.toUInt32 + UInt32.ofNat writingBytes.length ≤
      UInt32.ofNat r2cpPacket.length := hguard
    apply exec_of_yields
    refine backOffset_yields.bind (popOffset_yields.bind ?_)
    rw [if_neg hguard']
    have hpush := pushOffset_yields (s := s) o.toUInt32
    rw [UInt8.toUInt8_toUInt32] at hpush
    exact hpush.bind (.throw _)

/-- Every write that 32 bits can count is one of these. -/
private theorem writes_of_lt {w : PacketWrite} (hsize : w.size < 2 ^ 32) :
    Writes w r2cpPacket o s := by
  cases w with
  | word value => exact writes_word value
  | bytes writingBytes => exact writes_bytes hsize

end

/-! ## All writes of a frame -/

/-- The writes of a frame, as far as `ws`, behind the `push_back(0)` that opens it. -/
def openedFrame (ps : List R2CPParameter) (ws : List PacketWrite) : Serializer (List UInt8) := do
  pushOffset 0
  performAll ws (initialContent ps)

/-- The function opens a frame, makes its writes and closes the frame. After every write
    that has succeeded, and before the first, the offset at the top is the number of bytes
    that are behind the zeros, over the stack `s` from before. -/
structure OffsetsExact (ps : List R2CPParameter) (s : List UInt8) : Prop where
  /-- All writes of the function are `writesOf ps`, in the frame that it opens. -/
  frame : serializeParameterizedCommandContent ps = (do
    let commandContent ← openedFrame ps (writesOf ps)
    popOffset
    pure commandContent)
  exact (ws : List PacketWrite) (hbegins : ws <+: writesOf ps) (commandContent : List UInt8)
    (stack : List UInt8)
    (hexec : exec (openedFrame ps ws) ⟨s⟩ = (.ok commandContent, ⟨stack⟩)) :
    ∃ top, stack = top :: s ∧ commandContent.length = (initialContent ps).length + top.toNat

/-- Every write ends below 256, or begins where the size of the vector does not fit 32 bits
    any more. -/
def EndsBelow256 (ps : List R2CPParameter) : Prop :=
  ∀ before w after, writesOf ps = before ++ w :: after →
    sizeAll before + w.size < 256 ∨ 2 ^ 32 ≤ (Content.parameters ps).size + sizeAll before

/-- The frame of a content is its writes, between a `push_back(0)` and a `pop_back()`. -/
private theorem serializeParameterizedCommandContent_eq (ps : List R2CPParameter) :
    serializeParameterizedCommandContent ps = (do
      let commandContent ← openedFrame ps (writesOf ps)
      popOffset
      pure commandContent) := by
  unfold openedFrame
  rw [← serializeParameterLoop_eq_performAll]
  rfl

section

variable {ps : List R2CPParameter} {s : List UInt8} {ws : List PacketWrite} {w : PacketWrite}

/-- The frame begins with an offset of 0 over the stack from before. -/
theorem exec_openedFrame (ps : List R2CPParameter) (ws : List PacketWrite) (s : List UInt8) :
    exec (openedFrame ps ws) ⟨s⟩ = exec (performAll ws (initialContent ps)) ⟨0 :: s⟩ := rfl

/-- The vector has the documented size before anything is written. -/
private theorem length_initialContent (hsize : (Content.parameters ps).size < 2 ^ 32) :
    (initialContent ps).length = (Content.parameters ps).size := by
  rw [initialContent, List.length_replicate, toNat_precomputeCommandContentSize,
    Nat.mod_eq_of_lt hsize]

/-- The frame after `ws`: everything written, and an offset that is exact. -/
def Reached (ps : List R2CPParameter) (s : List UInt8) (ws : List PacketWrite)
    (commandContent : List UInt8) (top : UInt8) : Prop :=
  exec (performAll ws (initialContent ps)) ⟨0 :: s⟩ = (.ok commandContent, ⟨top :: s⟩) ∧
    commandContent.length = (Content.parameters ps).size + sizeAll ws ∧ top.toNat = sizeAll ws

/-- Before the first write. -/
private theorem reached_nil (hsize : (Content.parameters ps).size < 2 ^ 32) :
    Reached ps s [] (initialContent ps) 0 :=
  ⟨rfl, length_initialContent hsize, rfl⟩

/-- No write of the frame is larger than the content without its count. -/
private theorem sizeAll_le_of_snoc_prefix (hbegins : ws ++ [w] <+: writesOf ps) :
    sizeAll ws + w.size + 4 ≤ (Content.parameters ps).size := by
  have hle := PacketWrite.sizeAll_le_of_prefix hbegins
  have hall := sizeAll_writesOf ps
  simp only [PacketWrite.sizeAll_append, PacketWrite.sizeAll_cons, PacketWrite.sizeAll_nil] at hle
  omega

/-- From an exact offset, the guard of the next write passes exactly when the size of the
    vector still fits 32 bits. -/
theorem Reached.guard_iff (hsize : (Content.parameters ps).size < 2 ^ 32)
    {commandContent : List UInt8} {top : UInt8} (h : Reached ps s ws commandContent top)
    (hbegins : ws ++ [w] <+: writesOf ps) :
    w.Guard commandContent top ↔ (Content.parameters ps).size + sizeAll ws < 2 ^ 32 := by
  obtain ⟨-, hlen, htop⟩ := h
  have hle := sizeAll_le_of_snoc_prefix hbegins
  have hlt := top.toNat_lt
  unfold PacketWrite.Guard
  rw [UInt32.le_iff_toNat_le, UInt32.toNat_add, UInt8.toNat_toUInt32, UInt32.toNat_ofNat',
    UInt32.toNat_ofNat', hlen, htop]
  omega

/-- The next write is made from where the frame stands. -/
theorem Reached.exec_snoc {commandContent : List UInt8} {top : UInt8}
    (h : Reached ps s ws commandContent top) (w : PacketWrite) :
    exec (performAll (ws ++ [w]) (initialContent ps)) ⟨0 :: s⟩ =
      exec (w.perform commandContent) ⟨top :: s⟩ := by
  rw [PacketWrite.performAll_snoc, StatefulExcept.exec_bind, h.1]

/-- It leaves the number of bytes modulo 256. -/
theorem Reached.next (hsize : (Content.parameters ps).size < 2 ^ 32) {commandContent : List UInt8}
    {top : UInt8} (h : Reached ps s ws commandContent top)
    (hbegins : ws ++ [w] <+: writesOf ps)
    (hfits : (Content.parameters ps).size + sizeAll ws < 2 ^ 32) :
    ∃ written top', exec (performAll (ws ++ [w]) (initialContent ps)) ⟨0 :: s⟩ =
        (.ok written, ⟨top' :: s⟩) ∧
      written.length = (Content.parameters ps).size + sizeAll (ws ++ [w]) ∧
      top'.toNat = sizeAll (ws ++ [w]) % 256 := by
  have hle := sizeAll_le_of_snoc_prefix hbegins
  have hw : w.size < 2 ^ 32 := by omega
  obtain ⟨written, hwritten, hlength⟩ :=
    (writes_of_lt (s := s) hw).accepted ((h.guard_iff hsize hbegins).mpr hfits)
  have hall : sizeAll (ws ++ [w]) = sizeAll ws + w.size := by simp
  refine ⟨written, _, (h.exec_snoc w).trans hwritten, ?_, ?_⟩
  · rw [hlength, h.2.1, hall]
    omega
  · rw [UInt32.toNat_toUInt8, UInt32.toNat_add, UInt8.toNat_toUInt32, UInt32.toNat_ofNat', h.2.2,
      hall]
    omega

/-- Or it is refused. -/
theorem Reached.stops (hsize : (Content.parameters ps).size < 2 ^ 32) {commandContent : List UInt8}
    {top : UInt8} (h : Reached ps s ws commandContent top)
    (hbegins : ws ++ [w] <+: writesOf ps)
    (hlarge : ¬(Content.parameters ps).size + sizeAll ws < 2 ^ 32) :
    exec (performAll (ws ++ [w]) (initialContent ps)) ⟨0 :: s⟩ =
      (.error noBytesLeft, ⟨top :: s⟩) := by
  have hle := sizeAll_le_of_snoc_prefix hbegins
  have hw : w.size < 2 ^ 32 := by omega
  rw [h.exec_snoc w]
  exact (writes_of_lt hw).refused (mt (h.guard_iff hsize hbegins).mp hlarge)

/-- Where all writes end below 256, the offset stays exact. -/
private theorem reached_of_endsBelow256 (hsize : (Content.parameters ps).size < 2 ^ 32)
    (h : EndsBelow256 ps) (hbegins : ws <+: writesOf ps) {commandContent : List UInt8}
    {st : R2CPSerializer}
    (hexec : exec (performAll ws (initialContent ps)) ⟨0 :: s⟩ = (.ok commandContent, st)) :
    ∃ top, st = ⟨top :: s⟩ ∧ Reached ps s ws commandContent top := by
  induction ws using List.reverseRecOn generalizing commandContent st with
  | nil =>
    have hinit := reached_nil (s := s) hsize
    rw [hinit.1] at hexec
    cases hexec
    exact ⟨0, rfl, hinit⟩
  | append_singleton ws w ih =>
    -- the writes before have succeeded too
    have hbind := hexec
    rw [PacketWrite.performAll_snoc] at hbind
    rcases StatefulExcept.exec_bind_cases (performAll ws (initialContent ps))
        (fun r2cpPacket => w.perform r2cpPacket) ⟨0 :: s⟩ with
      ⟨e, st₀, -, herr⟩ | ⟨before, st₀, hok, -⟩
    · rw [herr] at hbind
      cases hbind
    obtain ⟨top, rfl, hreached⟩ := ih ((List.prefix_append ws [w]).trans hbegins) hok
    -- the guard sees the 32-bit size, so a vector that has wrapped ends the content
    by_cases hfits : (Content.parameters ps).size + sizeAll ws < 2 ^ 32
    · obtain ⟨written, top', hwritten, hlength, htop'⟩ := hreached.next hsize hbegins hfits
      rw [hwritten] at hexec
      cases hexec
      obtain ⟨after, hsplit⟩ := hbegins
      rw [List.append_assoc] at hsplit
      have hbelow : sizeAll (ws ++ [w]) < 256 := by
        rcases h ws w after hsplit.symm with hbelow | hlarge
        · simpa using hbelow
        · omega
      rw [Nat.mod_eq_of_lt hbelow] at htop'
      exact ⟨top', rfl, hwritten, hlength, htop'⟩
    · rw [hreached.stops hsize hbegins hfits] at hexec
      cases hexec

/-- An exact offset takes the frame on to where the size of the vector does not fit 32
    bits any more. -/
private theorem reached_of_offsetsExact (hsize : (Content.parameters ps).size < 2 ^ 32)
    (h : OffsetsExact ps s) (hbegins : ws <+: writesOf ps)
    (hfits : (Content.parameters ps).size + sizeAll ws.dropLast < 2 ^ 32) :
    ∃ commandContent top, Reached ps s ws commandContent top := by
  induction ws using List.reverseRecOn with
  | nil => exact ⟨_, _, reached_nil hsize⟩
  | append_singleton ws w ih =>
    rw [List.dropLast_concat] at hfits
    have hle := PacketWrite.sizeAll_le_of_prefix (List.dropLast_prefix ws)
    obtain ⟨before, top, hreached⟩ := ih ((List.prefix_append ws [w]).trans hbegins) (by omega)
    obtain ⟨written, top', hwritten, hlength, -⟩ := hreached.next hsize hbegins hfits
    obtain ⟨_, hstack, hexact⟩ := h.exact (ws ++ [w]) hbegins written _ hwritten
    cases hstack
    rw [length_initialContent hsize, hlength] at hexact
    exact ⟨written, top', hwritten, hlength, by omega⟩

/-- An offset of a frame is a byte. -/
private theorem endsBelow256_of_offsetsExact (hsize : (Content.parameters ps).size < 2 ^ 32)
    (h : OffsetsExact ps s) : EndsBelow256 ps := by
  intro before w after hsplit
  by_cases hfits : (Content.parameters ps).size + sizeAll before < 2 ^ 32
  · left
    have hbegins : before ++ [w] <+: writesOf ps := ⟨after, by rw [hsplit]; simp⟩
    obtain ⟨commandContent, top, -, -, htop⟩ := reached_of_offsetsExact hsize h hbegins
      (by rw [List.dropLast_concat]; exact hfits)
    have hlt := top.toNat_lt
    simp only [PacketWrite.sizeAll_append, PacketWrite.sizeAll_cons, PacketWrite.sizeAll_nil,
      Nat.add_zero] at htop
    omega
  · right
    omega

end

/-- The offset is the number of bytes written, over every stack, exactly for the parameter
    lists with all writes below 256. -/
theorem offsetsExact_iff {ps : List R2CPParameter} (hsize : (Content.parameters ps).size < 2 ^ 32)
    (s : List UInt8) : OffsetsExact ps s ↔ EndsBelow256 ps := by
  constructor
  · exact endsBelow256_of_offsetsExact hsize
  · intro h
    refine ⟨serializeParameterizedCommandContent_eq ps, ?_⟩
    intro ws hbegins commandContent stack hexec
    rw [exec_openedFrame] at hexec
    obtain ⟨top, hstack, -, hlength, htop⟩ := reached_of_endsBelow256 hsize h hbegins hexec
    cases hstack
    refine ⟨top, rfl, ?_⟩
    rw [length_initialContent hsize]
    omega

/-- Both sides, for a parameter that is short enough. -/
theorem oneParameter_offsetsExact_iff : OffsetsExact oneParameter [] ↔ EndsBelow256 oneParameter :=
  offsetsExact_iff (by decide) []

/-- One parameter that fills 256 bytes with its code and its size has an offset that ends
    at 0. -/
private theorem not_offsetsExact_of_length {p : R2CPParameter} (hlen : p.parameterData.length = 248)
    (s : List UInt8) : ¬OffsetsExact [p] s := by
  intro h
  have hsize : (Content.parameters [p]).size = 260 := by
    simp only [Content.size, List.length_singleton, List.map_singleton, List.sum_singleton, hlen]
  rcases endsBelow256_of_offsetsExact (by omega) h
      [.word p.parameterCode, .word p.getParameterDataSize] (.bytes p.parameterData) [] rfl with
    hbelow | hlarge
  · change 4 + (4 + 0) + p.parameterData.length < 256 at hbelow
    omega
  · change 2 ^ 32 ≤ _ + (4 + (4 + 0)) at hlarge
    omega

/-- A parameter with 248 bytes of data. -/
def longParameter : List R2CPParameter := [⟨motorRight, List.replicate 248 0x40⟩]

/-- And one that is not. -/
theorem longParameter_not_offsetsExact : ¬OffsetsExact longParameter [] :=
  not_offsetsExact_of_length List.length_replicate []

end R2CP.R2CPSerializer
