import R2CP.ForStd.List
import R2CP.Spec.AcceptedPackets

/-!
# What the validator accepts

The validator walks over commands with checked readers and over parameters with
unchecked skips. Its verdict on commands is exact; its verdict on a parameterized
content is that of `walkedSizes`, the same walk in 32-bit arithmetic, which can
pass the end of the content and come back by wrapping.

`Decides x P` is the contract of the inner checks: `x` answers whether `P` holds,
throws nothing, and gives back the stack it got, except that a "no" may have cost
the frame of its caller. `validateR2CPPacket_decides` is the result for a packet.

## Key results

- `validateCommandContent_decides`: the check of a content is exact, up to wrapping
- `validateR2CPPacket_decides`: so is the check of a packet, for vectors of any length
-/

namespace R2CP.R2CPParser

open StatefulExcept (Yields)
open Spec

/-! ## Contracts -/

/-- `x` answers whether `P` holds. A "no" may have taken the caller's frame away. -/
def Decides (x : Parser Bool) (P : Prop) : Prop :=
  ∀ o s, (P ∧ Yields parsingOffsetStack x (o :: s) (.ok true) (o :: s)) ∨
    (¬ P ∧ ∃ s', Yields parsingOffsetStack x (o :: s) (.ok false) s' ∧
      (s' = o :: s ∨ s' = s))

/-- `x` answers "no", and may have taken the caller's frame away. -/
def SaysNo (x : Parser Bool) (o : UInt32) (s : List UInt32) : Prop :=
  ∃ s', Yields parsingOffsetStack x (o :: s) (.ok false) s' ∧ (s' = o :: s ∨ s' = s)

/-- A stack on which a walk's own frame is on top of the caller's, or was lost. -/
def OwnFrameOrLost (s s' : List UInt32) : Prop := s' = s ∨ ∃ o, s' = o :: s

/-- A reader that throws leaves the frame it was given, or loses it. -/
private theorem OwnFrameOrLost.of_throws {o : UInt32} {s s' : List UInt32}
    (h : s' = o :: s ∨ s' = s) :
    OwnFrameOrLost s s' := by
  cases h with
  | inl hown => exact .inr ⟨o, hown⟩
  | inr hlost => exact .inl hlost

/-- The `pop_back()` behind a "no" takes off the walk's own frame, or that of the caller
    if its own was lost. -/
private theorem popOffset_no {o : UInt32} {s s' : List UInt32} (h : OwnFrameOrLost (o :: s) s') :
    ∃ s'', Yields parsingOffsetStack (do popOffset; pure false : Parser Bool) s' (.ok false) s'' ∧
      (s'' = o :: s ∨ s'' = s) := by
  rcases h with rfl | ⟨o', rfl⟩
  · exact ⟨s, popOffset_yields.bind (.pure false), .inr rfl⟩
  · exact ⟨o :: s, popOffset_yields.bind (.pure false), .inl rfl⟩

/-- A reader at any offset of a vector with an exact 32-bit length. -/
private theorem readR2CPPacketAsUInt32_cases {c : List UInt8} (hlt : c.length < 2 ^ 32) (o : UInt32)
    (s : List UInt32) :
    (∃ v, c.readUInt32BE? o.toNat = some v ∧
      Yields parsingOffsetStack (readR2CPPacketAsUInt32 c) (o :: s) (.ok v) ((o + 4) :: s)) ∨
    (c.readUInt32BE? o.toNat = none ∧ ThrowsOutOfRange (readR2CPPacketAsUInt32 c) o s) := by
  cases hr : c.readUInt32BE? o.toNat with
  | none =>
    rw [List.readUInt32BE?_eq_none_iff] at hr
    exact .inr ⟨rfl, readR2CPPacketAsUInt32_throws hr hlt⟩
  | some v =>
    obtain ⟨rest, hdrop⟩ := List.drop_of_readUInt32BE? hr
    -- behind the end there would be no word
    have hle : o.toNat ≤ c.length := by
      by_contra hgt
      have hnil : c.drop o.toNat = [] := List.drop_eq_nil_of_le (by omega)
      rw [hnil] at hdrop
      have hlen := congrArg List.length hdrop
      simp only [List.length_nil, List.length_append, UInt32.length_toBytesBE] at hlen
      omega
    have hat : StandsBefore c o (v.toBytesBE ++ rest) := by
      rw [StandsBefore, visible_of_lt hlt]
      exact ⟨hle, hdrop⟩
    exact .inl ⟨v, rfl, readR2CPPacketAsUInt32_yields hat⟩

/-! ## Parameterized contents -/

/-- One round reads the size that `sizesWalk` reads, and skips without a look at the
    end of the content. -/
theorem validateParameter_cases {c : List UInt8} (hlt : c.length < 2 ^ 32) (o : UInt32)
    (s : List UInt32) :
    (∃ size, c.readUInt32BE? (o + 4).toNat = some size ∧
      Yields parsingOffsetStack (validateParameter c) (o :: s) (.ok true)
        ((o + 4 + 4 + size) :: s)) ∨
    (c.readUInt32BE? (o + 4).toNat = none ∧
      ∃ s', Yields parsingOffsetStack (validateParameter c) (o :: s) (.ok false) s' ∧
        OwnFrameOrLost s s') := by
  rcases readR2CPPacketAsUInt32_cases hlt (o + 4) s with ⟨size, hsize, hread⟩ | ⟨hnone, hthrow⟩
  · -- the size is read, and both skips go unchecked
    refine .inl ⟨size, hsize, Yields.tryCatch_ok ?_⟩
    exact (skipBytesFromR2CPPacket_yields 4).bind
      (hread.bind ((skipBytesFromR2CPPacket_yields size).bind (.pure true)))
  · obtain ⟨what, s', hthrow, hst⟩ := hthrow
    -- the handler logs that the size is not there
    refine .inr ⟨hnone, s', Yields.tryCatch_error
      ((skipBytesFromR2CPPacket_yields 4).bind hthrow.bind_error)
      ((writeLog_yields _).bind (.pure false)), ?_⟩
    exact .of_throws hst

/-- The loop over the parameters follows `sizesWalk`. -/
private theorem validateParameterLoop_cases {c : List UInt8} (hlt : c.length < 2 ^ 32)
    (rounds : Nat)
    (o : UInt32) (s : List UInt32) :
    (∃ sizes o', sizesWalk c rounds o = some (sizes, o') ∧
      Yields parsingOffsetStack (validateParameterLoop c rounds) (o :: s) (.ok true)
        (o' :: s)) ∨
    (sizesWalk c rounds o = none ∧
      ∃ s', Yields parsingOffsetStack (validateParameterLoop c rounds) (o :: s) (.ok false)
        s' ∧ OwnFrameOrLost s s') := by
  -- on the rounds to go, both walks from the same offset
  induction rounds generalizing o with
  | zero => exact .inl ⟨[], o, rfl, .pure true⟩
  | succ rounds ih =>
    simp only [sizesWalk, validateParameterLoop]
    rcases validateParameter_cases hlt o s with ⟨size, hsize, hround⟩ | ⟨hnone, s', hround, hst⟩
    · rw [hsize]
      rcases ih (o + 4 + 4 + size) with ⟨sizes, o', hwalk, hloop⟩ | ⟨hwalk, s', hloop, hst⟩
      · exact .inl ⟨size :: sizes, o', by simp only [hwalk, Option.map_some], hround.bind hloop⟩
      · exact .inr ⟨by simp only [hwalk, Option.map_none], s', hround.bind hloop, hst⟩
    · rw [hnone]
      exact .inr ⟨rfl, s', hround.bind (.pure false), hst⟩

/-- It reads a count, or it logs that there is none. -/
theorem readParametersCount?_cases {c : List UInt8} (hlt : c.length < 2 ^ 32)
    (s : List UInt32) :
    (∃ count, c.readUInt32BE? 0 = some count ∧
      Yields parsingOffsetStack (readParametersCount? c) (0 :: s) (.ok (some count))
        (4 :: s)) ∨
    (c.readUInt32BE? 0 = none ∧
      ∃ s', Yields parsingOffsetStack (readParametersCount? c) (0 :: s) (.ok none) s' ∧
        OwnFrameOrLost s s') := by
  rcases readR2CPPacketAsUInt32_cases hlt 0 s with ⟨count, hcount, hread⟩ | ⟨hnone, hthrow⟩
  · exact .inl ⟨count, hcount, Yields.tryCatch_ok (hread.bind (.pure _))⟩
  · obtain ⟨what, s', hthrow, hst⟩ := hthrow
    refine .inr ⟨hnone, s', Yields.tryCatch_error hthrow.bind_error
      ((writeLog_yields _).bind (.pure none)), ?_⟩
    exact .of_throws hst

/-- Its verdict is that of the walk in 32 bits. -/
private theorem validateParameterizedCommandContent_decides {c : List UInt8}
    (hlt : c.length < 2 ^ 32) :
    Decides (validateParameterizedCommandContent c) ((walkedSizes c).isSome = true) := by
  intro o s
  rcases readParametersCount?_cases hlt (o :: s) with
    ⟨count, hcount, hread⟩ | ⟨hnone, s', hread, hst⟩
  · rcases validateParameterLoop_cases hlt count.toNat 4 (o :: s) with
      ⟨sizes, o', hwalk, hloop⟩ | ⟨hwalk, s', hloop, hst⟩
    · -- every size was read: the verdict is whether the walk stands at the end
      have hall : Yields parsingOffsetStack (validateParameterizedCommandContent c) (o :: s)
          (.ok (o' == UInt32.ofNat c.length)) (o :: s) :=
        pushOffset_yields.bind (hread.bind (hloop.bind
          ((checkIfR2CPPacketEndIsReached_yields c).bind (popOffset_yields.bind (.pure _)))))
      by_cases heq : o' = UInt32.ofNat c.length
      · rw [beq_iff_eq.mpr heq] at hall
        exact .inl ⟨by simp only [walkedSizes, hcount, hwalk, if_pos heq, Option.isSome_some], hall⟩
      · -- stopped short of the end, or went past it
        rw [beq_eq_false_iff_ne.mpr heq] at hall
        exact .inr ⟨by simp [walkedSizes, hcount, hwalk, heq], o :: s, hall, .inl rfl⟩
    · -- a size cannot be read, and the loop stops there
      obtain ⟨s'', hpop, hst''⟩ := popOffset_no hst
      exact .inr ⟨by simp [walkedSizes, hcount, hwalk], s'', pushOffset_yields.bind
        (hread.bind (hloop.bind ((Yields.pure false).bind hpop))), hst''⟩
  · -- the count cannot be read, and no round is made
    obtain ⟨s'', hpop, hst''⟩ := popOffset_no hst
    exact .inr ⟨by simp [walkedSizes, hnone], s'', pushOffset_yields.bind
      (hread.bind ((Yields.pure false).bind ((Yields.pure false).bind hpop))), hst''⟩

/-- The other contents are decided by their type. -/
private theorem validateCommandContent_decides {t : Tlv} (ht : t.Sized) :
    Decides (validateCommandContent t.tag t.value) (ContentAccepted t) := by
  unfold Decides ContentAccepted validateCommandContent contentType
  cases R2CPCommandDictionary.getInstance.getCommandContentType t.tag with
  | parameterizedContent => exact validateParameterizedCommandContent_decides ht
  | directContent => exact fun o s => .inl ⟨trivial, .pure true⟩
  | noContent =>
    intro o s
    by_cases hnil : t.value = []
    · exact .inl ⟨hnil, by rw [hnil]; exact .pure true⟩
    · -- a sized content with bytes does not count as empty
      have hne : UInt32.ofNat t.value.length ≠ 0 := by
        intro h
        have := congrArg UInt32.toNat h
        rw [UInt32.toNat_ofNat_length ht] at this
        exact hnil (List.eq_nil_of_length_eq_zero this)
      refine .inr ⟨hnil, o :: s, ?_, .inl rfl⟩
      show Yields _ (pure (UInt32.ofNat t.value.length == 0)) _ _ _
      rw [beq_eq_false_iff_ne.mpr hne]
      exact .pure false

/-! ## Commands -/

/-- The walk over accepted records moves on to what follows them. -/
private theorem validateCommandLoop_accepted {b rest : List UInt8} {ts : List Tlv}
    (hts : ∀ t ∈ ts, t.Sized ∧ ContentAccepted t) {o : UInt32} {s : List UInt32}
    (h : StandsBefore b o (Tlv.encodeAll ts ++ rest)) (rounds : Nat) :
    ∃ o', StandsBefore b o' rest ∧ ∀ r v,
      Yields parsingOffsetStack (validateCommandLoop b rounds) (o' :: s) r v →
      Yields parsingOffsetStack (validateCommandLoop b (ts.length + rounds)) (o :: s) r v := by
  -- on the records that pass, one round each
  induction ts generalizing o with
  | nil => exact ⟨o, h, fun r v hy => by rwa [List.length_nil, Nat.zero_add]⟩
  | cons t ts ih =>
    obtain ⟨hsized, hok⟩ := hts t (by simp)
    rw [Tlv.encodeAll_cons, List.append_assoc] at h
    have hentry := h.readsEntry hsized
    obtain ⟨o', ho', hloop⟩ := ih (fun u hu => hts u (by simp [hu])) hentry.next
    refine ⟨o', ho', fun r v hy => ?_⟩
    have hcontent := (validateCommandContent_decides hsized)
      (o + 4 + 4 + UInt32.ofNat t.value.length) s
    rcases hcontent with ⟨-, hcontent⟩ | ⟨hno, -⟩
    · rw [List.length_cons, Nat.add_right_comm]
      -- one round: the three reads of the record, and no objection to its content
      exact (hentry.tag s).bind ((hentry.size s).bind ((hentry.value s).bind
        (hcontent.bind (hloop r v hy))))
    · exact absurd hok hno

/-- The walk stops at a record that is not accepted. -/
private theorem validateCommandLoop_rejected {b rest : List UInt8} {t : Tlv} (hsized : t.Sized)
    (hno : ¬ ContentAccepted t) {o : UInt32} {s : List UInt32}
    (h : StandsBefore b o (t.encode ++ rest)) (rounds : Nat) :
    ∃ s', Yields parsingOffsetStack (validateCommandLoop b (rounds + 1)) (o :: s) (.ok false)
      s' ∧ OwnFrameOrLost s s' := by
  have hentry := h.readsEntry hsized
  rcases (validateCommandContent_decides hsized) (o + 4 + 4 + UInt32.ofNat t.value.length) s with
    ⟨hyes, -⟩ | ⟨-, s', hcontent, hst⟩
  · exact absurd hyes hno
  · refine ⟨s', ?_, .of_throws hst⟩
    exact (hentry.tag s).bind ((hentry.size s).bind ((hentry.value s).bind
      (hcontent.bind (.pure false))))

/-- A reader that finds fewer bytes than it wants. -/
theorem StandsBefore.short {b rest : List UInt8} {o n : UInt32} (h : StandsBefore b o rest)
    (hlt : b.length < 2 ^ 32) (hn : rest.length < n.toNat) : Short b o n := by
  have hlen := h.length_eq
  rw [visible_of_lt hlt] at hlen
  unfold Short
  omega

/-- The walk throws where no whole record is left. -/
private theorem validateCommandLoop_stuck {b rest : List UInt8} (hlt : b.length < 2 ^ 32)
    (hstuck : rest.length < 8 ∨ ∃ (tag size : UInt32) (more : List UInt8),
      rest = tag.toBytesBE ++ size.toBytesBE ++ more ∧ more.length < size.toNat)
    {o : UInt32} {s : List UInt32} (h : StandsBefore b o rest) (rounds : Nat) :
    ∃ what s', Yields parsingOffsetStack (validateCommandLoop b (rounds + 1)) (o :: s)
      (.error (.outOfRange what)) s' ∧ OwnFrameOrLost s s' := by
  by_cases h4 : rest.length < 4
  · -- no code
    obtain ⟨what, s', hy, hst⟩ := readR2CPPacketAsUInt32_throws (s := s) (h.short hlt h4) hlt
    exact ⟨what, s', hy.bind_error, .of_throws hst⟩
  have h4' : 4 ≤ rest.length := by omega
  obtain ⟨tag, rest₁, rfl⟩ := UInt32.exists_toBytesBE_append h4'
  have h1 := h.advance (n := 4) rfl
  by_cases h8 : rest₁.length < 4
  · -- a code, but no size
    obtain ⟨what, s', hy, hst⟩ := readR2CPPacketAsUInt32_throws (s := s) (h1.short hlt h8) hlt
    exact ⟨what, s', (readR2CPPacketAsUInt32_yields h).bind hy.bind_error, .of_throws hst⟩
  · -- both words are there, so it is the content that goes past the end
    rcases hstuck with hshort | ⟨tag', size, more, heq, hmore⟩
    · rw [List.length_append, UInt32.length_toBytesBE] at hshort
      omega
    · rw [List.append_assoc] at heq
      obtain ⟨-, rfl⟩ := UInt32.toBytesBE_append_inj heq
      have h2 := h1.advance (n := 4) rfl
      obtain ⟨what, s', hy, hst⟩ :=
        readBytesFromR2CPPacket_throws (s := s) (h2.short hlt hmore) hlt
      exact ⟨what, s', (readR2CPPacketAsUInt32_yields h).bind
        ((readR2CPPacketAsUInt32_yields h1).bind hy.bind_error), .of_throws hst⟩

/-- A walk that ends in an answer or in `std::out_of_range` makes the whole check answer. -/
private theorem validateCommandsFromR2CPPacket_no {b rest : List UInt8} {count : UInt32}
    (h : StandsBefore b 0 (count.toBytesBE ++ rest)) {o : UInt32} {s s' : List UInt32}
    {r : Except StdException Bool}
    (hloop : Yields parsingOffsetStack (validateCommandLoop b count.toNat) (4 :: o :: s) r s')
    (hr : r = .ok false ∨ ∃ what, r = .error (.outOfRange what))
    (hst : OwnFrameOrLost (o :: s) s') : SaysNo (validateCommandsFromR2CPPacket b) o s := by
  obtain ⟨s'', hpop, hst''⟩ := popOffset_no hst
  refine ⟨s'', pushOffset_yields.bind (Yields.bind ?_ hpop), hst''⟩
  have hread := readR2CPPacketAsUInt32_yields (s := o :: s) h
  -- an answer skips the test for the end, and a throw goes to the handler
  rcases hr with rfl | ⟨what, rfl⟩
  · exact Yields.tryCatch_ok (hread.bind (hloop.bind (.pure false)))
  · exact Yields.tryCatch_error (hread.bind hloop.bind_error)
      ((writeLog_yields _).bind (.pure false))

/-- An accepted payload is answered with yes: each record passes, and the last one ends at the
    end. -/
private theorem validateCommandsFromR2CPPacket_accepted {b : List UInt8} (hlt : b.length < 2 ^ 32)
    (hok : PayloadAccepted b) (o : UInt32) (s : List UInt32) :
    Yields parsingOffsetStack (validateCommandsFromR2CPPacket b) (o :: s) (.ok true)
      (o :: s) := by
  obtain ⟨ts, hb, hts⟩ := hok
  have hlen : (Tlv.encodeAll ts).length < 2 ^ 32 := Tlv.length_encodeAll_lt (hb ▸ hlt)
  have hsized := Tlv.sized_of_length_encodeAll hlen
  have hcount := UInt32.toNat_ofNat_length (Tlv.length_lt_of_length_encodeAll hlen)
  have h0 : StandsBefore b 0 ((UInt32.ofNat ts.length).toBytesBE ++ (Tlv.encodeAll ts ++ [])) :=
    StandsBefore.start_of_lt hlt (by rw [List.append_nil]; exact hb)
  obtain ⟨o', ho', hloop⟩ := validateCommandLoop_accepted (s := o :: s)
    (fun t ht => ⟨hsized t ht, hts t ht⟩) (h0.advance (n := 4) rfl) 0
  -- nothing is left behind the last record
  have hend : o' = UInt32.ofNat b.length := by
    apply UInt32.toNat_inj.mp
    have := ho'.length_eq
    rw [toNat_ofNat_length_visible]
    simpa using this
  have hlast := checkIfR2CPPacketEndIsReached_yields (o := o') (s := o :: s) b
  rw [beq_iff_eq.mpr hend] at hlast
  have hwalk := hloop _ _ (Yields.pure true)
  rw [Nat.add_zero, ← hcount] at hwalk
  exact pushOffset_yields.bind ((Yields.tryCatch_ok
    ((readR2CPPacketAsUInt32_yields h0).bind (hwalk.bind hlast))).bind
    (popOffset_yields.bind (.pure true)))

/-- There is not even a count. -/
private theorem validateCommandsFromR2CPPacket_tooShort {b : List UInt8} (hlt : b.length < 2 ^ 32)
    (h4 : b.length < 4) (o : UInt32) (s : List UInt32) :
    SaysNo (validateCommandsFromR2CPPacket b) o s := by
  obtain ⟨what, s', hy, hst⟩ := readR2CPPacketAsUInt32_throws (s := o :: s)
    ((StandsBefore.start_of_lt hlt rfl).short hlt h4) hlt
  obtain ⟨s'', hpop, hst''⟩ := popOffset_no (.of_throws hst)
  exact ⟨s'', pushOffset_yields.bind ((Yields.tryCatch_error hy.bind_error
    ((writeLog_yields _).bind (.pure false))).bind hpop), hst''⟩

section Walk

variable {b rest : List UInt8} {count : UInt32} {ts : List Tlv}

/-- All records are there and accepted, but bytes are left over. -/
private theorem validateCommandsFromR2CPPacket_leftOver
    (h : StandsBefore b 0 (count.toBytesBE ++ (Tlv.encodeAll ts ++ rest)))
    (hts : ∀ t ∈ ts, t.Sized ∧ ContentAccepted t) (hcount : ts.length = count.toNat)
    (hrest : rest ≠ []) (o : UInt32) (s : List UInt32) :
    SaysNo (validateCommandsFromR2CPPacket b) o s := by
  obtain ⟨o', ho', hloop⟩ := validateCommandLoop_accepted (s := o :: s) hts
    (h.advance (n := 4) rfl) 0
  have hwalk := hloop _ _ (Yields.pure true)
  rw [Nat.add_zero, hcount] at hwalk
  -- the walk stands before the end
  have hne : o' ≠ UInt32.ofNat b.length := by
    intro heq
    have hlen := ho'.length_eq
    rw [heq, toNat_ofNat_length_visible] at hlen
    exact hrest (List.eq_nil_of_length_eq_zero (by omega))
  have hlast := checkIfR2CPPacketEndIsReached_yields (o := o') (s := o :: s) b
  rw [beq_eq_false_iff_ne.mpr hne] at hlast
  exact ⟨o :: s, pushOffset_yields.bind ((Yields.tryCatch_ok
    ((readR2CPPacketAsUInt32_yields h).bind (hwalk.bind hlast))).bind
    (popOffset_yields.bind (.pure false))), .inl rfl⟩

/-- There are too few whole records, so that the walk runs out of bytes. -/
private theorem validateCommandsFromR2CPPacket_tooFew (hlt : b.length < 2 ^ 32)
    (h : StandsBefore b 0 (count.toBytesBE ++ (Tlv.encodeAll ts ++ rest)))
    (hts : ∀ t ∈ ts, t.Sized ∧ ContentAccepted t) (hfew : ts.length < count.toNat)
    (hstuck : rest.length < 8 ∨ ∃ (tag size : UInt32) (more : List UInt8),
      rest = tag.toBytesBE ++ size.toBytesBE ++ more ∧ more.length < size.toNat)
    (o : UInt32) (s : List UInt32) : SaysNo (validateCommandsFromR2CPPacket b) o s := by
  obtain ⟨o', ho', hloop⟩ := validateCommandLoop_accepted (s := o :: s) hts
    (h.advance (n := 4) rfl) (count.toNat - ts.length - 1 + 1)
  obtain ⟨what, s', hthrow, hst⟩ := validateCommandLoop_stuck (s := o :: s) hlt hstuck ho'
    (count.toNat - ts.length - 1)
  have hwalk := hloop _ _ hthrow
  rw [show ts.length + (count.toNat - ts.length - 1 + 1) = count.toNat by omega] at hwalk
  exact validateCommandsFromR2CPPacket_no h hwalk (.inr ⟨what, rfl⟩) hst

/-- The walk stops at the first record that is not accepted. -/
private theorem validateCommandsFromR2CPPacket_rejected
    (h : StandsBefore b 0 (count.toBytesBE ++ (Tlv.encodeAll ts ++ rest)))
    (hsized : ∀ t ∈ ts, t.Sized) (hbad : ¬∀ t ∈ ts, ContentAccepted t)
    (hle : ts.length ≤ count.toNat) (o : UInt32) (s : List UInt32) :
    SaysNo (validateCommandsFromR2CPPacket b) o s := by
  obtain ⟨before, t, after, rfl, hbefore, hno⟩ := List.exists_first_not hbad
  have h1 := h.advance (n := 4) rfl
  rw [Tlv.encodeAll_append, Tlv.encodeAll_cons, List.append_assoc, List.append_assoc] at h1
  simp only [List.length_append, List.length_cons] at hle
  -- the records before the first bad one pass, and there the loop ends
  obtain ⟨o', ho', hloop⟩ := validateCommandLoop_accepted (s := o :: s)
    (fun u hu => ⟨hsized u (by simp [hu]), hbefore u hu⟩) h1
    (count.toNat - before.length - 1 + 1)
  obtain ⟨s', hrejected, hst⟩ := validateCommandLoop_rejected (s := o :: s)
    (hsized t (by simp)) hno ho' (count.toNat - before.length - 1)
  have hwalk := hloop _ _ hrejected
  rw [show before.length + (count.toNat - before.length - 1 + 1) = count.toNat by omega] at hwalk
  exact validateCommandsFromR2CPPacket_no h hwalk (.inl rfl) hst

end Walk

/-- The answer for a payload is exact: whole records as many as announced, each accepted, and
    nothing behind them. -/
private theorem validateCommandsFromR2CPPacket_decides {b : List UInt8} (hlt : b.length < 2 ^ 32) :
    Decides (validateCommandsFromR2CPPacket b) (PayloadAccepted b) := by
  intro o s
  -- a "no" excludes acceptance, because an accepted payload is answered with "yes"
  suffices hcases : PayloadAccepted b ∨ SaysNo (validateCommandsFromR2CPPacket b) o s by
    rcases hcases with hok | ⟨s', hy, hst⟩
    · exact .inl ⟨hok, validateCommandsFromR2CPPacket_accepted hlt hok o s⟩
    · refine .inr ⟨fun hok => ?_, s', hy, hst⟩
      have hyes := hy.unique (validateCommandsFromR2CPPacket_accepted hlt hok o s)
        (s := ⟨o :: s, []⟩) rfl
      cases hyes
  by_cases h4 : b.length < 4
  · exact .inr (validateCommandsFromR2CPPacket_tooShort hlt h4 o s)
  have h4' : 4 ≤ b.length := by omega
  obtain ⟨count, body, hb⟩ := UInt32.exists_toBytesBE_append h4'
  -- the whole records behind the count, as many as it says or as there are
  obtain ⟨ts, rest, rfl, hsized, hend⟩ := Tlv.exists_split count.toNat body
  have h0 : StandsBefore b 0 (count.toBytesBE ++ (Tlv.encodeAll ts ++ rest)) :=
    StandsBefore.start_of_lt hlt hb
  have hle : ts.length ≤ count.toNat := hend.elim (fun h => by omega) (fun h => by omega)
  by_cases hall : ∀ t ∈ ts, ContentAccepted t
  swap
  · exact .inr (validateCommandsFromR2CPPacket_rejected h0 hsized hall hle o s)
  have hts : ∀ t ∈ ts, t.Sized ∧ ContentAccepted t := fun t ht => ⟨hsized t ht, hall t ht⟩
  rcases hend with hcount | ⟨hfew, hstuck⟩
  · -- all records are there: is anything behind them?
    by_cases hrest : rest = []
    · refine .inl ⟨ts, ?_, hall⟩
      rw [hb, hrest, List.append_nil, Tlv.encodeCounted, hcount, UInt32.ofNat_toNat]
    · exact .inr (validateCommandsFromR2CPPacket_leftOver h0 hts hcount hrest o s)
  · exact .inr (validateCommandsFromR2CPPacket_tooFew hlt h0 hts hfew hstuck o s)

/-! ## Packets -/

/-- Behind the magic number, the answer is whether the size word is exact and what it
    counts is nothing or accepted. -/
private theorem validatePacketSize_decides {b payload : List UInt8} {size o : UInt32}
    (h : StandsBefore b o (size.toBytesBE ++ payload))
    (hlen : (visible b).length = 8 + payload.length) (s : List UInt32) :
    ∃ r s', Yields parsingOffsetStack (validatePacketSize b) (o :: s) (.ok r) s' ∧
      (r = true ↔ size = UInt32.ofNat payload.length ∧
        (payload = [] ∨ PayloadAccepted payload)) := by
  have hlt := length_visible_lt b
  have hplt : payload.length < 2 ^ 32 := by omega
  have hp := UInt32.toNat_ofNat_length hplt
  -- the sum of 8 and the announced size cannot wrap onto a length of at least 8
  have hsize : UInt32.ofNat b.length = minR2CPPacketSize + size ↔
      size = UInt32.ofNat payload.length := by
    have hs := size.toNat_lt
    have hmin : minR2CPPacketSize.toNat = 8 := rfl
    rw [← UInt32.toNat_inj, ← UInt32.toNat_inj, toNat_ofNat_length_visible, UInt32.toNat_add,
      hmin, hlen, hp]
    omega
  have hread := readR2CPPacketAsUInt32_yields (s := s) h
  by_cases hmatch : size = UInt32.ofNat payload.length
  swap
  · -- a size that does not match is logged
    refine ⟨false, (o + 4) :: s, hread.bind ?_, by simp [hmatch]⟩
    rw [if_neg (fun h => hmatch (hsize.mp h))]
    exact (writeLog_yields _).bind (.pure false)
  by_cases hnil : payload = []
  · -- nothing behind the header, and the size says so
    refine ⟨true, (o + 4) :: s, hread.bind ?_, by simp [hmatch, hnil]⟩
    rw [if_pos (hsize.mpr hmatch), if_pos (by rw [hmatch, hnil]; rfl)]
    exact .pure true
  -- there is a payload, so the size is not 0 and the payload is validated
  have hzero : size ≠ 0 := by
    intro hzero
    rw [hmatch] at hzero
    rw [hzero] at hp
    exact hnil (List.eq_nil_of_length_eq_zero hp.symm)
  have hbytes : StandsBefore b (o + 4) (payload ++ []) := by
    rw [List.append_nil]
    exact h.advance rfl
  have hpayload := readBytesFromR2CPPacket_yields (s := s) hbytes (hmatch ▸ hp.symm)
  rcases (validateCommandsFromR2CPPacket_decides hplt) (o + 4 + size) s with
    ⟨hok, hy⟩ | ⟨hno, s', hy, -⟩
  · refine ⟨true, (o + 4 + size) :: s, hread.bind ?_, by simp [hmatch, hok]⟩
    rw [if_pos (hsize.mpr hmatch), if_neg hzero]
    exact hpayload.bind hy
  · refine ⟨false, s', hread.bind ?_, by simp [hno, hnil]⟩
    rw [if_pos (hsize.mpr hmatch), if_neg hzero]
    exact hpayload.bind hy

/-- What acceptance says about the two words of the header. -/
private theorem packetAccepted_header_iff {magicNumber size : UInt32} {payload : List UInt8} :
    PacketAccepted (magicNumber.toBytesBE ++ (size.toBytesBE ++ payload)) ↔
      IsMagicNumber magicNumber ∧ size = UInt32.ofNat payload.length ∧
        (payload = [] ∨ PayloadAccepted payload) := by
  constructor
  · intro hacc
    obtain ⟨m, p, hm, hbp, hp⟩ := hacc
    rw [encodePacket, List.append_assoc] at hbp
    obtain ⟨hmm, hbp⟩ := UInt32.toBytesBE_append_inj hbp
    obtain ⟨hs, hpp⟩ := UInt32.toBytesBE_append_inj hbp
    rw [hmm, hs, hpp]
    exact ⟨hm, rfl, hp⟩
  · intro hwords
    obtain ⟨hm, rfl, hp⟩ := hwords
    exact ⟨magicNumber, payload, hm, by rw [encodePacket, List.append_assoc], hp⟩

/-- An accepted packet has a header. -/
private theorem eight_le_of_packetAccepted {b : List UInt8} (h : PacketAccepted b) :
    8 ≤ b.length := by
  obtain ⟨magicNumber, payload, -, hb, -⟩ := h
  rw [hb, length_encodePacket]
  omega

/-- The answer for the header and what is behind it. -/
private theorem validateHeader_decides (b : List UInt8) (s : List UInt32) :
    ∃ r s', Yields parsingOffsetStack (validateHeader b) (0 :: s) (.ok r) s' ∧
      (r = true ↔ PacketAccepted (visible b)) := by
  have hguard : minR2CPPacketSize ≤ UInt32.ofNat b.length ↔ 8 ≤ (visible b).length := by
    rw [UInt32.le_iff_toNat_le, toNat_ofNat_length_visible]
    exact Iff.rfl
  by_cases h8 : 8 ≤ (visible b).length
  swap
  · -- too short for a header, so nothing is read
    refine ⟨false, 0 :: s, ?_, ?_⟩
    · unfold validateHeader
      rw [if_neg (fun h => h8 (hguard.mp h))]
      exact (writeLog_yields _).bind (.pure false)
    · simp only [Bool.false_eq_true, false_iff]
      exact fun hacc => h8 (eight_le_of_packetAccepted hacc)
  -- the two words of the header, and what follows
  obtain ⟨magicNumber, size, payload, hb⟩ := UInt32.exists_toBytesBE_append₂ h8
  have h0 : StandsBefore b 0 (magicNumber.toBytesBE ++ (size.toBytesBE ++ payload)) :=
    hb ▸ StandsBefore.start b
  have hlen : (visible b).length = 8 + payload.length := by
    rw [hb]
    simp only [List.length_append, UInt32.length_toBytesBE]
    omega
  have hread := readR2CPPacketAsUInt32_yields (s := s) h0
  rw [hb, packetAccepted_header_iff]
  by_cases hmagic : magicNumber = r2cpMagicNumber ∨ magicNumber = rrcpMagicNumber
  · obtain ⟨r, s', hy, hiff⟩ := validatePacketSize_decides (h0.advance (n := 4) rfl) hlen s
    refine ⟨r, s', ?_, ?_⟩
    · unfold validateHeader
      rw [if_pos (hguard.mpr h8)]
      apply hread.bind
      rw [if_pos hmagic]
      exact hy
    · rw [hiff]
      exact ⟨fun h => ⟨hmagic, h⟩, fun h => h.2⟩
  · -- an unknown magic number
    refine ⟨false, (0 + 4) :: s, ?_, ?_⟩
    · unfold validateHeader
      rw [if_pos (hguard.mpr h8)]
      apply hread.bind
      rw [if_neg hmagic]
      exact (writeLog_yields _).bind (.pure false)
    · simp only [Bool.false_eq_true, false_iff]
      exact fun h => hmagic h.1

/-- The validator answers for every packet whether it is accepted; it throws nothing
    and leaves no frame on the stack, whatever was on it before. -/
theorem validateR2CPPacket_decides (b : List UInt8) (s : List UInt32) :
    ∃ r, Yields parsingOffsetStack (validateR2CPPacket b) s (.ok r) [] ∧
      (r = true ↔ PacketAccepted (visible b)) := by
  obtain ⟨r, s', hy, hiff⟩ := validateHeader_decides b s
  exact ⟨r, pushOffset_yields.bind (hy.bind (clearOffsets_yields.bind (.pure r))), hiff⟩

end R2CP.R2CPParser
