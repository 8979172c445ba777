import R2CP.Spec.ParserFaithful

/-!
# Families of parameters

There are parameters of motors and parameters of images, and the parameterized commands
are about one or the other. The dictionary was meant to keep the two apart, but its
constructor inserts the image parameters into the set of the motor parameters, which
all three commands then take, and it leaves one of them out.
`acceptsOwnFamily_iff` says for which records that makes no difference.

## Key results

- `acceptsOwnFamily_iff`: exactly which records are taken as their family says
-/

namespace R2CP

open StatefulExcept (exec)
open R2CPCommandDictionary (getInstance motorDutyCycleParametersSet)

/-! ## The two families -/

namespace Spec

/-- The parameters of motors. -/
def motorParameters : List UInt32 := [motorRight, motorLeft]

/-- The parameters of images. -/
def imageParameters : List UInt32 :=
  [imageWidth, imageHeight, imageChannels, imageData, imageBMP, imagePNG, imageJPEG, imageGIF]

/-- The parameters that a parameterized command is about. -/
def familyOf (code : UInt32) : List UInt32 :=
  if code = motorDutyCycle then motorParameters else imageParameters

/-- Only three commands have parameters. -/
private theorem eq_of_parameterizedContent {code : UInt32}
    (h : contentType code = .parameterizedContent) :
    code = motorDutyCycle ∨ code = imageSend ∨ code = imageReceive := by
  have hcode : IsCommandCode code := by
    apply isCommandCode_of_contentType
    rw [h]
    simp
  have hknown : getInstance.commandsSet.contains code = true := by
    have hboth : (code != invalidCommand && getInstance.commandsSet.contains code) = true := hcode
    exact (Bool.and_eq_true_iff.mp hboth).2
  rw [R2CPCommandDictionary.contains_commandsSet] at hknown
  -- the nine known codes one by one
  have hnine : ∀ n < 10, contentType (UInt32.ofNat n) = .parameterizedContent →
      n = 4 ∨ n = 5 ∨ n = 6 := by
    decide +kernel
  have hthree := hnine code.toNat (by omega) (by rw [UInt32.ofNat_toNat]; exact h)
  simp only [← UInt32.toNat_inj]
  exact hthree

/-- They all take the same parameters: those of both families, but not `imageHeight`. -/
private theorem isParameterOf_iff {code : UInt32} (h : contentType code = .parameterizedContent)
    (q : UInt32) :
    IsParameterOf code q ↔ q ∈ motorParameters ∨ q ∈ imageParameters ∧ q ≠ imageHeight := by
  have hset : getInstance.getCommandParameters code = motorDutyCycleParametersSet := by
    rcases eq_of_parameterizedContent h with rfl | rfl | rfl
    · rfl
    · rfl
    · rfl
  have hcontains : motorDutyCycleParametersSet.contains q = true ↔
      q ∈ [motorRight, motorLeft, imageWidth, imageChannels, imageData, imageBMP, imagePNG,
        imageJPEG, imageGIF] := by
    simp only [motorDutyCycleParametersSet, Std.TreeSet.contains_insert, Bool.or_eq_true,
      beq_iff_eq, Std.LawfulEqCmp.compare_eq_iff_eq, Std.TreeSet.contains_emptyc,
      Bool.false_eq_true, or_false, List.mem_cons, List.not_mem_nil, eq_comm (b := q)]
    tauto
  rw [IsParameterOf, hset, hcontains]
  simp only [motorParameters, imageParameters, List.mem_cons, List.not_mem_nil, or_false]
  constructor
  · intro hq
    rcases hq with rfl | rfl | rfl | rfl | rfl | rfl | rfl | rfl | rfl <;> decide
  · tauto

/-- A parameter code of neither family. -/
def HasForeign (codes : List UInt32) : Prop :=
  ∃ q ∈ codes, q ∉ motorParameters ∧ q ∉ imageParameters

/-- The code of a command and those of its parameters are such that the set for all three
    commands decides as the family of the command would. -/
def FamilyDecides (code : UInt32) (codes : List UInt32) : Prop :=
  HasForeign codes ∨
    if code = motorDutyCycle then (∃ q ∈ codes, q ∈ imageParameters) → imageHeight ∈ codes
    else imageHeight ∈ codes ↔ ∃ q ∈ codes, q ∈ motorParameters

section

variable {codes : List UInt32}

/-- No parameter belongs to both families. -/
private theorem not_mem_imageParameters {q : UInt32} (h : q ∈ motorParameters) :
    q ∉ imageParameters := by
  simp only [motorParameters, List.mem_cons, List.not_mem_nil, or_false] at h
  rcases h with rfl | rfl <;> decide

/-- Of the known codes, the shared set lacks one. -/
private theorem forall_shared_iff (h : ¬HasForeign codes) :
    (∀ q ∈ codes, q ∈ motorParameters ∨ q ∈ imageParameters ∧ q ≠ imageHeight) ↔
      imageHeight ∉ codes := by
  constructor
  · intro hall hheight
    rcases hall imageHeight hheight with hmotor | ⟨-, hne⟩
    · exact absurd hmotor (by decide)
    · exact hne rfl
  · intro hheight q hq
    by_cases hmotor : q ∈ motorParameters
    · exact .inl hmotor
    · right
      constructor
      · by_contra himage
        exact h ⟨q, hq, hmotor, himage⟩
      · rintro rfl
        exact hheight hq

/-- A known code that is not of motors is of images. -/
private theorem forall_motor_iff (h : ¬HasForeign codes) :
    (∀ q ∈ codes, q ∈ motorParameters) ↔ ¬∃ q ∈ codes, q ∈ imageParameters := by
  constructor
  · rintro hall ⟨q, hq, himage⟩
    exact not_mem_imageParameters (hall q hq) himage
  · intro hnone q hq
    by_contra hmotor
    exact h ⟨q, hq, hmotor, fun himage => hnone ⟨q, hq, himage⟩⟩

/-- And the other way round. -/
private theorem forall_image_iff (h : ¬HasForeign codes) :
    (∀ q ∈ codes, q ∈ imageParameters) ↔ ¬∃ q ∈ codes, q ∈ motorParameters := by
  constructor
  · rintro hall ⟨q, hq, hmotor⟩
    exact not_mem_imageParameters hmotor (hall q hq)
  · intro hnone q hq
    by_contra himage
    exact h ⟨q, hq, fun hmotor => hnone ⟨q, hq, hmotor⟩, himage⟩

/-- The shared set takes all parameters exactly when the family does, for these codes. -/
private theorem shared_iff_family_iff (code : UInt32) :
    ((∀ q ∈ codes, q ∈ motorParameters ∨ q ∈ imageParameters ∧ q ≠ imageHeight) ↔
        ∀ q ∈ codes, q ∈ familyOf code) ↔
      FamilyDecides code codes := by
  unfold FamilyDecides
  by_cases hforeign : HasForeign codes
  · -- neither takes a foreign one
    simp only [hforeign, true_or, iff_true]
    obtain ⟨q, hq, hmotor, himage⟩ := hforeign
    have hfamily : q ∉ familyOf code := by
      unfold familyOf
      split
      · exact hmotor
      · exact himage
    constructor
    · intro hall
      rcases hall q hq with h | ⟨h, -⟩
      · exact absurd h hmotor
      · exact absurd h himage
    · intro hall
      exact absurd (hall q hq) hfamily
  · -- all codes are known: the missing one decides, or the other family
    rw [forall_shared_iff hforeign]
    unfold familyOf
    by_cases hcode : code = motorDutyCycle
    · have himage : imageHeight ∈ codes → ∃ q ∈ codes, q ∈ imageParameters :=
        fun hheight => ⟨imageHeight, hheight, by decide⟩
      simp only [if_pos hcode, forall_motor_iff hforeign, hforeign, false_or, not_iff_not]
      exact ⟨fun h => h.mpr, fun h => ⟨himage, h⟩⟩
    · simp only [if_neg hcode, forall_image_iff hforeign, hforeign, false_or, not_iff_not]

end

/-- Some of the records of a packet fit. -/
private theorem GrammarPacket.fits_part (p : GrammarPacket) {records : List Record}
    (h : records.Sublist p.records) : 8 + payloadSize records < 2 ^ 32 := by
  have hfits := p.fits
  have hlen := h.length_le
  have hsum := (h.map (·.content.size)).sum_le_sum (fun _ _ => Nat.zero_le _)
  simp only [payloadSize] at hfits ⊢
  omega

/-- A packet with some of its records. -/
def GrammarPacket.part (p : GrammarPacket) {records : List Record} (h : records.Sublist p.records) :
    GrammarPacket :=
  ⟨p.magicNumber, p.isMagicNumber, records, p.fits_part h⟩

end Spec

/-! ## Records -/

namespace R2CPParser

open Spec

section

variable {p : GrammarPacket} {before after : List Record} {r : Record}
  {ps : List R2CPParameter}

/-- The records before this one are among those of the packet. -/
private theorem before_sublist (h : p.records = before ++ r :: after) :
    before.Sublist p.records := by
  rw [h]
  exact List.sublist_append_left before (r :: after)

/-- And so are those behind it. -/
private theorem after_sublist (h : p.records = before ++ r :: after) : after.Sublist p.records := by
  rw [h]
  exact (List.sublist_cons_self r after).trans (List.sublist_append_right before (r :: after))

/-- Parsing gives what the records before and after `r` give, with `commands` between. -/
def ParsesBetween (h : p.records = before ++ r :: after) (commands : List R2CPCommand)
    (s : R2CPParser) : Prop :=
  ∃ first last,
    (exec (parseR2CPPacket (p.part (before_sublist h)).encode) s).1 = .ok first ∧
    (exec (parseR2CPPacket (p.part (after_sublist h)).encode) s).1 = .ok last ∧
    (exec (parseR2CPPacket p.encode) s).1 = .ok (first ++ commands ++ last)

/-- A record with parameters is returned as a command exactly if they all belong to its
    family, and otherwise it is discarded. -/
def AcceptsOwnFamily (h : p.records = before ++ r :: after) (ps : List R2CPParameter)
    (s : R2CPParser) : Prop :=
  (ParsesBetween h [⟨r.code, ps⟩] s ↔ ∀ q ∈ ps, q.parameterCode ∈ familyOf r.code) ∧
    ((¬∀ q ∈ ps, q.parameterCode ∈ familyOf r.code) → ParsesBetween h [] s)

/-- What stands between is what the record gives. -/
private theorem parsesBetween_iff (h : p.records = before ++ r :: after)
    (commands : List R2CPCommand)
    (s : R2CPParser) : ParsesBetween h commands s ↔ commands = r.command?.toList := by
  have hwhole : p.records.filterMap Record.command? =
      before.filterMap Record.command? ++ r.command?.toList ++ after.filterMap Record.command? := by
    rw [h, List.filterMap_append, List.append_assoc]
    congr 1
    cases hr : r.command? with
    | none => rw [List.filterMap_cons_none hr]; rfl
    | some command => rw [List.filterMap_cons_some hr]; rfl
  unfold ParsesBetween
  rw [parseR2CPPacket_encode, parseR2CPPacket_encode, parseR2CPPacket_encode, hwhole]
  constructor
  · rintro ⟨first, last, hfirst, hlast, hboth⟩
    cases hfirst
    cases hlast
    have heq := Except.ok.inj hboth
    exact (List.append_cancel_left (List.append_cancel_right heq)).symm
  · rintro rfl
    exact ⟨_, _, rfl, rfl, rfl⟩

/-- A record with parameters is a command if the dictionary has them all. -/
private theorem command?_parameters (hr : r.content = .parameters ps) :
    contentType r.code = .parameterizedContent ∧
      r.command? = if ∀ q ∈ ps, IsParameterOf r.code q.parameterCode then some ⟨r.code, ps⟩
        else none := by
  have hkind : contentType r.code = .parameterizedContent := by
    rw [← r.conforms, hr]
    rfl
  refine ⟨hkind, ?_⟩
  have hcode : IsCommandCode r.code := by
    apply isCommandCode_of_contentType
    rw [hkind]
    simp
  unfold Record.command?
  rw [if_pos hcode, hr]

/-- What the dictionary takes, by the codes alone. -/
private theorem forall_isParameterOf_iff (ps : List R2CPParameter)
    (hkind : contentType r.code = .parameterizedContent) :
    (∀ q ∈ ps, IsParameterOf r.code q.parameterCode) ↔
      ∀ q ∈ ps.map (·.parameterCode),
        q ∈ motorParameters ∨ q ∈ imageParameters ∧ q ≠ imageHeight := by
  simp only [List.forall_mem_map, isParameterOf_iff hkind]

/-- For every packet of the format and each of its records with parameters: the command
    is accepted with exactly its own family if and only if the shared set decides as the
    family does. -/
theorem acceptsOwnFamily_iff (h : p.records = before ++ r :: after)
    (hr : r.content = .parameters ps) (s : R2CPParser) :
    AcceptsOwnFamily h ps s ↔ FamilyDecides r.code (ps.map (·.parameterCode)) := by
  obtain ⟨hkind, hcommand⟩ := command?_parameters hr
  have hshared := forall_isParameterOf_iff ps hkind
  have hfamily : (∀ q ∈ ps, q.parameterCode ∈ familyOf r.code) ↔
      ∀ q ∈ ps.map (·.parameterCode), q ∈ familyOf r.code := by
    simp only [List.forall_mem_map]
  rw [← shared_iff_family_iff, ← hshared, ← hfamily]
  unfold AcceptsOwnFamily
  rw [parsesBetween_iff, parsesBetween_iff, hcommand]
  by_cases hall : ∀ q ∈ ps, IsParameterOf r.code q.parameterCode
  · rw [if_pos hall]
    simp only [Option.toList_some, true_iff, iff_true_intro hall]
    exact ⟨fun hboth => hboth.1, fun hown => ⟨hown, fun hnot => absurd hown hnot⟩⟩
  · rw [if_neg hall]
    simp only [Option.toList_none, List.cons_ne_nil, false_iff, hall, implies_true, and_true]

end

/-- A record with a motor parameter and a foreign one. -/
theorem threeRecords_acceptsOwnFamily_iff :
    AcceptsOwnFamily (p := threeRecords) (show threeRecords.records = [_] ++ _ :: [_] from rfl)
        [⟨motorRight, [50]⟩, ⟨invalidParameter, []⟩] new ↔
      FamilyDecides motorDutyCycle [motorRight, invalidParameter] :=
  acceptsOwnFamily_iff (p := threeRecords) rfl rfl new

/-- Both commands have parameterized content. -/
private theorem contentType_misplaced : contentType motorDutyCycle = .parameterizedContent ∧
    contentType imageSend = .parameterizedContent := by
  decide +kernel

/-- The width of an image for the motors, and the height of an image for the image. -/
def misplacedRecords : List Record :=
  [⟨motorDutyCycle, .parameters [⟨imageWidth, [8]⟩], contentType_misplaced.1.symm⟩,
    ⟨imageSend, .parameters [⟨imageHeight, [8]⟩], contentType_misplaced.2.symm⟩]

/-- Their records fit a packet. -/
private theorem fits_misplacedRecords : 8 + payloadSize misplacedRecords < 2 ^ 32 := by
  decide +kernel

/-- One of the two magic numbers. -/
theorem isMagicNumber_r2cpMagicNumber : IsMagicNumber r2cpMagicNumber := .inl rfl

/-- A packet with a parameter of each family where the other one belongs. -/
def misplacedParameters : GrammarPacket :=
  ⟨r2cpMagicNumber, isMagicNumber_r2cpMagicNumber, misplacedRecords, fits_misplacedRecords⟩

/-- The first record is returned, and the second is discarded. -/
theorem misplacedParameters_not_acceptsOwnFamily :
    (exec (parseR2CPPacket misplacedParameters.encode) new).1 =
        .ok [⟨motorDutyCycle, [⟨imageWidth, [8]⟩]⟩] ∧
      ¬AcceptsOwnFamily (p := misplacedParameters)
        (show misplacedParameters.records = [] ++ _ :: [_] from rfl) [⟨imageWidth, [8]⟩] new ∧
      ¬AcceptsOwnFamily (p := misplacedParameters)
        (show misplacedParameters.records = [_] ++ _ :: [] from rfl) [⟨imageHeight, [8]⟩] new := by
  refine ⟨?_, ?_, ?_⟩
  · rw [parseR2CPPacket_encode]
    decide +kernel
  · rintro ⟨hreturned, -⟩
    rw [parsesBetween_iff] at hreturned
    revert hreturned
    decide +kernel
  · rintro ⟨hreturned, -⟩
    rw [parsesBetween_iff] at hreturned
    revert hreturned
    decide +kernel

end R2CPParser

end R2CP
