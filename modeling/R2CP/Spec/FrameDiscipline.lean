import R2CP.Spec.FrameErasure
import R2CP.Spec.ValidatorCorrect

/-!
# Whose offsets the validator reads

A reader that throws in the middle leaves the stack one frame short, so that the
`pop_back()` of its caller removes a frame of another call. That this does no harm is
because nothing is read any more once something was refused: `Keeps` says that a result
with which the validation goes on finds the frames as they were, and `Abandons` that
the other results are handed on without a read.

## Key results

- `validateR2CPPacket_keepsDiscipline`: the validator accesses frames that are there, and reads
  those of running calls
- `Keeps.bind`, `Keeps.tryCatch`, `Keeps.withFrame`: how the two judgements compose
-/

namespace R2CP

open StatefulExcept (exec Yields)

/-- If a frame is read, its owner is running. -/
def FrameAccess.Live : FrameAccess → Prop
  | .back owner? running => ∀ owner ∈ owner?, owner ∈ running
  | .popBack _ => True

namespace OwnedParser

/-- Only frames of running calls were read. -/
def OnlyLive (g : OwnedParser) : Prop := ∀ access ∈ g.accesses, access.Live

/-- The owners of the frames. -/
def owners (g : OwnedParser) : List Nat := g.frames.map Frame.owner

/-- The frame at the top is of a running call. -/
def TopRuns (g : OwnedParser) : Prop :=
  ∃ owner owners, g.owners = owner :: owners ∧ owner ∈ g.running

/-- With the frame of a running call at the top, `x` reads frames of running calls only. If
    its result is `good`, all frames are there again, and the same calls are running. -/
def Keeps {α : Type} (good : α → Prop) (x : Owned α) : Prop :=
  ∀ g : OwnedParser, g.TopRuns → g.OnlyLive → (exec x g).2.OnlyLive ∧
    ∀ a, (exec x g).1 = .ok a → good a →
      (exec x g).2.owners = g.owners ∧ (exec x g).2.running = g.running

/-- Whatever is at the top, `x` reads nothing stale, and its result is not `good`. -/
def Abandons {α : Type} (good : α → Prop) (x : Owned α) : Prop :=
  ∀ g : OwnedParser, g.OnlyLive → (exec x g).2.OnlyLive ∧ ∀ a, (exec x g).1 = .ok a → ¬good a

section Rules

variable {α β : Type} {good : α → Prop} {good' : β → Prop}

/-- A result with which the validation does not go on. -/
theorem Abandons.pure {a : α} (h : ¬good a) : Abandons good (pure a) := by
  intro g hg
  refine ⟨hg, fun a' ha' => ?_⟩
  cases ha'
  exact h

/-- Nor does it go on after an exception. -/
theorem Abandons.throw (e : StdException) : Abandons good (throw e) := by
  intro g hg
  refine ⟨hg, fun a' ha' => ?_⟩
  cases ha'

/-- A log entry is no read. -/
theorem Abandons.writeLog {entry : LogEntry} {x : Owned α} (h : Abandons good x) :
    Abandons good (writeLog entry >>= fun _ => x) := by
  intro g hg
  exact h { g with log := g.log ++ [entry] } hg

/-- Who gives up needs no frame. -/
theorem Abandons.keeps {x : Owned α} (h : Abandons good x) : Keeps good x := by
  intro g _ hg
  obtain ⟨hlive, hbad⟩ := h g hg
  exact ⟨hlive, fun a ha hgood => (hbad a ha hgood).elim⟩

/-- A result alone changes no frame. -/
theorem Keeps.pure (a : α) : Keeps good (pure a) :=
  fun _ _ hg => ⟨hg, fun _ _ _ => ⟨rfl, rfl⟩⟩

/-- The rest goes on with the frames after a good result, and gives up after others. -/
theorem Keeps.bind {x : Owned α} {f : α → Owned β} (hx : Keeps good x)
    (hgood : ∀ a, good a → Keeps good' (f a)) (hbad : ∀ a, ¬good a → Abandons good' (f a)) :
    Keeps good' (x >>= f) := by
  intro g htop hg
  obtain ⟨hlive, hkeeps⟩ := hx g htop hg
  rcases StatefulExcept.exec_bind_cases x f g with ⟨e, g₁, hexec, hbind⟩ | ⟨a, g₁, hexec, hbind⟩
  · -- `x` throws, and the rest is not reached
    rw [hexec] at hlive
    rw [hbind]
    refine ⟨hlive, fun b hb => ?_⟩
    cases hb
  · rw [hexec] at hlive hkeeps
    rw [hbind]
    -- `x` returns: the rest finds the frames, or it does not look at them
    by_cases ha : good a
    · obtain ⟨howners, hrunning⟩ := hkeeps a rfl ha
      obtain ⟨owner, owners, htop, hruns⟩ := htop
      obtain ⟨hlive₂, hkeeps₂⟩ := hgood a ha g₁
        ⟨owner, owners, howners.trans htop, hrunning ▸ hruns⟩ hlive
      refine ⟨hlive₂, fun b hb hb' => ?_⟩
      obtain ⟨howners₂, hrunning₂⟩ := hkeeps₂ b hb hb'
      exact ⟨howners₂.trans howners, hrunning₂.trans hrunning⟩
    · obtain ⟨hlive₂, hbad₂⟩ := hbad a ha g₁ hlive
      exact ⟨hlive₂, fun b hb hb' => (hbad₂ b hb hb').elim⟩

/-- A reader in front: it throws, or it gives back the frame. -/
theorem Keeps.read {x : Owned α} {f : α → Owned β} (hx : Keeps (fun _ => True) x)
    (hf : ∀ a, Keeps good' (f a)) : Keeps good' (x >>= f) :=
  hx.bind (fun a _ => hf a) fun _ h => (h trivial).elim

/-- A handler gives up. -/
theorem Keeps.tryCatch {x : Owned α} {handler : What → Owned α} (hx : Keeps good x)
    (hh : ∀ what, Abandons good (handler what)) :
    Keeps good (tryCatch x (StdException.onOutOfRange handler)) := by
  -- what is not caught is thrown again, and no read follows
  have hcaught (e : StdException) : Abandons good (StdException.onOutOfRange handler e) := by
    rcases StdException.onOutOfRange_cases e with ⟨what, rfl⟩ | hpasses
    · exact hh what
    · rw [hpasses]
      exact .throw e
  intro g htop hg
  obtain ⟨hlive, hkeeps⟩ := hx g htop hg
  rcases StatefulExcept.exec_tryCatch_cases x (StdException.onOutOfRange handler) g with
    ⟨e, g₁, hexec, hcatch⟩ | ⟨a, g₁, hexec, hcatch⟩
  · rw [hexec] at hlive
    rw [hcatch]
    obtain ⟨hlive₂, hbad⟩ := hcaught e g₁ hlive
    exact ⟨hlive₂, fun a ha hgood => (hbad a ha hgood).elim⟩
  · rw [hexec] at hlive hkeeps
    rw [hcatch]
    exact ⟨hlive, hkeeps⟩

/-- Both branches keep the frames. -/
theorem Keeps.ite {p : Prop} [Decidable p] {x y : Owned α} (hx : Keeps good x)
    (hy : Keeps good y) : Keeps good (if p then x else y) := by
  split
  · exact hx
  · exact hy

end Rules

/-! ## Readers -/

section Readers

variable {α β : Type} {owner : Nat}

/-- Nothing is read, and if `x` returns, it has put a frame of `owner` on the others. -/
def PutsBack (owner : Nat) (x : Owned α) : Prop :=
  ∀ g : OwnedParser, (exec x g).2.accesses = g.accesses ∧ ∀ a, (exec x g).1 = .ok a →
    (exec x g).2.owners = owner :: g.owners ∧ (exec x g).2.running = g.running

/-- A reader puts the new offset on the stack before it returns. -/
private theorem PutsBack.push_pure (offset : UInt32) (a : α) :
    PutsBack owner (pushFrame ⟨owner, offset⟩ >>= fun _ => pure a) :=
  fun _ => ⟨rfl, fun _ _ => ⟨rfl, rfl⟩⟩

/-- Before it throws, it puts the old one there, for the same owner. -/
private theorem PutsBack.push_throw (offset : UInt32) (e : StdException) :
    PutsBack owner (pushFrame ⟨owner, offset⟩ >>= fun _ => (throw e : Owned α)) := by
  intro g
  refine ⟨rfl, fun a ha => ?_⟩
  cases ha

/-- A computation that leaves the state alone does not matter. -/
theorem PutsBack.bind {x : Owned α} {f : α → Owned β} (hx : ∀ g, (exec x g).2 = g)
    (hf : ∀ a, PutsBack owner (f a)) : PutsBack owner (x >>= f) := by
  intro g
  have hstate := hx g
  rcases StatefulExcept.exec_bind_cases x f g with ⟨e, g₁, hexec, hbind⟩ | ⟨a, g₁, hexec, hbind⟩
  · rw [hexec] at hstate
    obtain rfl : g₁ = g := hstate
    rw [hbind]
    refine ⟨rfl, fun b hb => ?_⟩
    cases hb
  · rw [hexec] at hstate
    obtain rfl : g₁ = g := hstate
    rw [hbind]
    exact hf a g₁

/-- Both branches put the frame back. -/
theorem PutsBack.ite {p : Prop} [Decidable p] {x y : Owned α} (hx : PutsBack owner x)
    (hy : PutsBack owner y) : PutsBack owner (if p then x else y) := by
  split
  · exact hx
  · exact hy

/-- `at()` looks at the bytes alone. -/
theorem exec_vectorAt_state (b : List UInt8) (i : Nat) (g : OwnedParser) :
    (exec (vectorAt b i) g).2 = g := by
  unfold vectorAt
  cases b[i]? <;> rfl

/-- So does the loop that reads several of them. -/
theorem exec_readBytesLoop_state (b : List UInt8) (o : UInt32) (rounds : Nat) (i : UInt32)
    (acc : List UInt8) (g : OwnedParser) : (exec (readBytesLoop b o rounds i acc) g).2 = g := by
  induction rounds generalizing i acc with
  | zero => rfl
  | succ rounds ih =>
    have hstate := exec_vectorAt_state b (o + i).toNat g
    rw [readBytesLoop]
    rcases StatefulExcept.exec_bind_cases (vectorAt b (o + i).toNat)
        (fun x => readBytesLoop b o rounds (i + 1) (acc ++ [x])) g with
      ⟨e, g₁, hexec, hbind⟩ | ⟨x, g₁, hexec, hbind⟩
    · rw [hbind]
      rwa [hexec] at hstate
    · rw [hexec] at hstate
      obtain rfl : g₁ = g := hstate
      rw [hbind]
      exact ih (i + 1) (acc ++ [x])

/-- A read of the frame of a running call. -/
private theorem live_back {running : List Nat} (h : owner ∈ running) :
    FrameAccess.Live (.back (some owner) running) := by
  simpa [FrameAccess.Live] using h

/-- The top frame is taken from a running call and put back for it. -/
private theorem keeps_of_putsBack {f : Frame → Owned α}
    (hf : ∀ frame, PutsBack frame.owner (f frame)) :
    Keeps (fun _ => True) (backFrame >>= fun frame => popFrame >>= fun _ => f frame) := by
  intro g htop hg
  obtain ⟨frames, log, running, nextActivation, accesses⟩ := g
  obtain ⟨owner, owners, htop, hruns⟩ := htop
  cases frames with
  | nil => cases htop
  | cons frame frames =>
    cases htop
    -- the state behind `back()` and `pop_back()`
    obtain ⟨haccesses, hputs⟩ := hf frame ⟨frames, log, running, nextActivation,
      accesses ++ [.back (some frame.owner) running] ++ [.popBack (some frame.owner)]⟩
    refine ⟨fun access haccess => ?_, fun a ha _ => hputs a ha⟩
    have hall : ∀ access ∈ accesses ++ [.back (some frame.owner) running] ++
        [.popBack (some frame.owner)], access.Live :=
      List.forall_mem_append.mpr
        ⟨List.forall_mem_append.mpr ⟨hg, by simpa using live_back hruns⟩,
          by simp [FrameAccess.Live]⟩
    exact hall access (Eq.mp (congrArg (access ∈ ·) haccesses) haccess)

/-- It puts the frame back at each end: after the four bytes, and before it throws. -/
private theorem keeps_readR2CPPacketAsUInt32 (b : List UInt8) :
    Keeps (fun _ => True) (readR2CPPacketAsUInt32 b) := by
  refine keeps_of_putsBack fun frame => ?_
  obtain ⟨owner, offset⟩ := frame
  refine .ite ?_ (.push_throw offset _)
  refine .bind (exec_vectorAt_state b _) fun _ => .bind (exec_vectorAt_state b _) fun _ => ?_
  refine .bind (exec_vectorAt_state b _) fun _ => .bind (exec_vectorAt_state b _) fun _ => ?_
  exact .push_pure _ _

/-- The same, with a loop instead of the four bytes. -/
private theorem keeps_readBytesFromR2CPPacket (b : List UInt8) (n : UInt32) :
    Keeps (fun _ => True) (readBytesFromR2CPPacket b n) := by
  refine keeps_of_putsBack fun frame => ?_
  obtain ⟨owner, offset⟩ := frame
  exact .ite (.bind (exec_readBytesLoop_state b _ _ _ _) fun _ => .push_pure _ _)
    (.push_throw offset _)

/-- The one that never throws. -/
private theorem keeps_skipBytesFromR2CPPacket (n : UInt32) :
    Keeps (fun _ => True) (skipBytesFromR2CPPacket n) := by
  refine keeps_of_putsBack fun frame => ?_
  obtain ⟨owner, offset⟩ := frame
  exact fun _ => ⟨rfl, fun _ _ => ⟨rfl, rfl⟩⟩

/-- A single read, which moves nothing. -/
private theorem keeps_checkIfR2CPPacketEndIsReached (b : List UInt8) {good : Bool → Prop} :
    Keeps good (checkIfR2CPPacketEndIsReached b) := by
  intro g htop hg
  obtain ⟨frames, log, running, nextActivation, accesses⟩ := g
  obtain ⟨owner, owners, htop, hruns⟩ := htop
  cases frames with
  | nil => cases htop
  | cons frame frames =>
    cases htop
    exact ⟨List.forall_mem_append.mpr ⟨hg, by simpa [topOwner?] using live_back hruns⟩,
      fun _ _ _ => ⟨rfl, rfl⟩⟩

end Readers

/-! ## Validation -/

/-- The last `pop_back()` of a call. -/
private theorem popFrame_pure_spec {α : Type} {g : OwnedParser} (hg : g.OnlyLive) (a : α) :
    (exec (popFrame >>= fun _ => pure a) g).2.OnlyLive ∧
      ∀ a', (exec (popFrame >>= fun _ => pure a) g).1 = .ok a' → a' = a ∧
        (exec (popFrame >>= fun _ => pure a) g).2.owners = g.owners.tail ∧
        (exec (popFrame >>= fun _ => pure a) g).2.running = g.running := by
  obtain ⟨frames, log, running, nextActivation, accesses⟩ := g
  have hlive : ∀ owner?, ∀ access ∈ accesses ++ [.popBack owner?], FrameAccess.Live access :=
    fun owner? => List.forall_mem_append.mpr ⟨hg, by simp [FrameAccess.Live]⟩
  cases frames with
  | nil => exact ⟨hlive none, fun a' ha' => by cases ha'⟩
  | cons frame frames =>
    refine ⟨hlive (some frame.owner), fun a' ha' => ?_⟩
    cases ha'
    exact ⟨rfl, rfl, rfl⟩

/-- The state in which a call has pushed its frame. -/
def entered (g : OwnedParser) : OwnedParser :=
  { g.enter with frames := ⟨g.nextActivation, 0⟩ :: g.frames }

/-- The call that has just pushed its frame is running. -/
private theorem topRuns_entered (g : OwnedParser) : g.entered.TopRuns :=
  ⟨g.nextActivation, g.owners, rfl, by simp [entered, enter]⟩

/-- The call, from the push of its frame on. -/
theorem exec_activation_push (x : Owned Bool) (g : OwnedParser) :
    exec (activation fun owner => pushFrame ⟨owner, 0⟩ >>= fun _ => x) g =
      ((exec x g.entered).1, (exec x g.entered).2.leave g.nextActivation) := rfl

/-- A call is running while it reads, and its frame goes with it. -/
theorem Keeps.withFrame {body : Owned Bool} (h : Keeps (· = true) body) :
    Keeps (· = true) (withFrame body) := by
  intro g _ hg
  -- the new frame is at the top, and its call is running
  obtain ⟨hlive, hkeeps⟩ := h g.entered g.topRuns_entered hg
  rw [OwnedParser.withFrame, exec_activation_push]
  rcases StatefulExcept.exec_bind_cases body
      (fun isValid => popFrame >>= fun _ => Pure.pure isValid) g.entered with
    ⟨e, g₁, hexec, hbind⟩ | ⟨isValid, g₁, hexec, hbind⟩
  · rw [hexec] at hlive
    rw [hbind]
    refine ⟨hlive, fun a ha => ?_⟩
    cases ha
  · rw [hexec] at hlive hkeeps
    rw [hbind]
    obtain ⟨hlive₂, hpop⟩ := popFrame_pure_spec hlive isValid
    refine ⟨hlive₂, fun a ha hvalid => ?_⟩
    obtain ⟨rfl, howners₂, hrunning₂⟩ := hpop a ha
    obtain ⟨howners, hrunning⟩ := hkeeps a rfl hvalid
    -- the pop takes the frame of this call, and the call ends
    refine ⟨howners₂.trans (by rw [howners]; rfl), ?_⟩
    show List.erase _ g.nextActivation = _
    rw [hrunning₂, hrunning]
    simp [entered, enter]

/-- A parameter that is refused ends the validation, so its frame is not missed. -/
private theorem keeps_validateParameter (c : List UInt8) : Keeps (· = true)
    (validateParameter c) := by
  refine .tryCatch ?_ fun what => .writeLog (.pure (by simp))
  refine .read (keeps_skipBytesFromR2CPPacket 4) fun _ => ?_
  refine .read (keeps_readR2CPPacketAsUInt32 c) fun size => ?_
  exact .read (keeps_skipBytesFromR2CPPacket size) fun _ => .pure true

/-- The validation goes on after `true`. -/
private theorem Keeps.andThen {x y : Owned Bool} (hx : Keeps (· = true) x)
    (hy : Keeps (· = true) y) :
    Keeps (· = true) (x >>= fun isValid => if isValid then y else Pure.pure false) := by
  refine hx.bind (fun isValid hvalid => ?_) fun isValid hinvalid => ?_
  · rw [if_pos hvalid]
    exact hy
  · rw [if_neg hinvalid]
    exact .pure (by simp)

/-- The loop stops at the first parameter that is refused. -/
private theorem keeps_validateParameterLoop (c : List UInt8) (rounds : Nat) :
    Keeps (· = true) (validateParameterLoop c rounds) := by
  induction rounds with
  | zero => exact .pure true
  | succ rounds ih => exact (keeps_validateParameter c).andThen ih

/-- Without a count there is nothing to go on with. -/
private theorem keeps_readParametersCount? (c : List UInt8) :
    Keeps (·.isSome = true) (readParametersCount? c) := by
  refine .tryCatch ?_ fun what => .writeLog (.pure (by simp))
  exact .read (keeps_readR2CPPacketAsUInt32 c) fun count => .pure (some count)

/-- The body of `validateparameterizedcommandcontent`, between its frame and the end. -/
private theorem keeps_validateParameters (c : List UInt8) : Keeps (· = true)
    (validateParameters c) := by
  refine (keeps_readParametersCount? c).bind (fun count? hsome => ?_) fun count? hnone => ?_
  · obtain ⟨count, rfl⟩ := Option.isSome_iff_exists.mp hsome
    exact (keeps_validateParameterLoop c count.toNat).andThen
      (keeps_checkIfR2CPPacketEndIsReached c)
  · obtain rfl : count? = none := by simpa using hnone
    exact .pure (by simp)

/-- Only parameterized content gets a frame of its own. -/
private theorem keeps_validateCommandContent (code : UInt32) (c : List UInt8) :
    Keeps (· = true) (validateCommandContent code c) := by
  unfold validateCommandContent
  cases R2CPCommandDictionary.getInstance.getCommandContentType code with
  | parameterizedContent => exact (keeps_validateParameters c).withFrame
  | noContent => exact .pure _
  | directContent => exact .pure true

/-- The loop stops at the first content that is refused. -/
private theorem keeps_validateCommandLoop (b : List UInt8) (rounds : Nat) :
    Keeps (· = true) (validateCommandLoop b rounds) := by
  induction rounds with
  | zero => exact .pure true
  | succ rounds ih =>
    refine .read (keeps_readR2CPPacketAsUInt32 b) fun code => ?_
    refine .read (keeps_readR2CPPacketAsUInt32 b) fun size => ?_
    refine .read (keeps_readBytesFromR2CPPacket b size) fun content => ?_
    exact (keeps_validateCommandContent code content).andThen ih

/-- The body of `validatecommandsfromr2cppacket`: its handler gives up. -/
private theorem keeps_validateCommands (b : List UInt8) : Keeps (· = true)
    (validateCommands b) := by
  refine .tryCatch ?_ fun what => .writeLog (.pure (by simp))
  refine .read (keeps_readR2CPPacketAsUInt32 b) fun count => ?_
  exact (keeps_validateCommandLoop b count.toNat).andThen (keeps_checkIfR2CPPacketEndIsReached b)

/-- A size that does not match is refused without another read. -/
private theorem keeps_validatePacketSize (b : List UInt8) : Keeps (· = true)
    (validatePacketSize b) := by
  refine .read (keeps_readR2CPPacketAsUInt32 b) fun size => .ite (.ite (.pure true) ?_) ?_
  · exact .read (keeps_readBytesFromR2CPPacket b size) fun commands =>
      (keeps_validateCommands commands).withFrame
  · exact (Abandons.writeLog (.pure (by simp))).keeps

/-- And so is another magic number, or a packet that is too short. -/
private theorem keeps_validateHeader (b : List UInt8) : Keeps (· = true) (validateHeader b) := by
  refine .ite (.read (keeps_readR2CPPacketAsUInt32 b) fun magic => .ite ?_ ?_) ?_
  · exact keeps_validatePacketSize b
  · exact (Abandons.writeLog (.pure (by simp))).keeps
  · exact (Abandons.writeLog (.pure (by simp))).keeps

/-- Only frames of running calls are read. -/
private theorem onlyLive_validateR2CPPacket (b : List UInt8) {g : OwnedParser} (hg : g.OnlyLive) :
    (exec (validateR2CPPacket b) g).2.OnlyLive := by
  obtain ⟨hlive, -⟩ := keeps_validateHeader b g.entered g.topRuns_entered hg
  rw [validateR2CPPacket, exec_activation_push]
  rcases StatefulExcept.exec_bind_cases (validateHeader b)
      (fun isValid => clearFrames >>= fun _ => Pure.pure isValid) g.entered with
    ⟨e, g₁, hexec, hbind⟩ | ⟨isValid, g₁, hexec, hbind⟩
  · rw [hbind]
    rwa [hexec] at hlive
  · rw [hbind]
    rwa [hexec] at hlive

/-- Every access is to a frame, and every read to one of a running call. -/
def KeepsDiscipline (g : OwnedParser) : Prop :=
  ∀ access ∈ g.accesses, access.HasFrame ∧ access.Live

/-- The validator returns from every state, and it leaves no frame; on the way it accesses
    no empty stack, and it reads no frame of a call that has ended. -/
theorem validateR2CPPacket_keepsDiscipline (b : List UInt8) (s : R2CPParser) :
    ∃ isValid g, exec (validateR2CPPacket b) (beforeCall s) = (.ok isValid, g) ∧
      exec (R2CPParser.validateR2CPPacket b) s = (.ok isValid, g.erase) ∧
      g.erase.parsingOffsetStack = [] ∧ g.KeepsDiscipline := by
  obtain ⟨isValid, hy, -⟩ := R2CPParser.validateR2CPPacket_decides b s.parsingOffsetStack
  obtain ⟨s', hexec, hempty⟩ := hy s rfl
  obtain ⟨r, g, howned, hplain, hframes⟩ := refines_validateR2CPPacket b (beforeCall s)
  rw [erase_beforeCall, hexec] at hplain
  cases hplain
  -- it never ends with undefined behavior, so every access was to a frame
  have hlive := onlyLive_validateR2CPPacket b (g := beforeCall s) (by simp [OnlyLive, beforeCall])
  rw [howned] at hlive
  have hhas := hframes (by simp) (by simp [AlwaysFrame, beforeCall])
  exact ⟨isValid, g, howned, hexec, hempty, fun access haccess =>
    ⟨hhas access haccess, hlive access haccess⟩⟩

end OwnedParser

end R2CP
