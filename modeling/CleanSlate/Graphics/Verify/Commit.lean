import CleanSlate.Graphics.Surface

/-!
# Commits are atomic

The checks that `commit` makes first are those its later steps depend on: the serial they found is
the one `ack` finds, and where they found the buffer idle and an entry free the tracker takes the
buffer. So the results that `commit` discards on the way are never errors.
-/

namespace CleanSlate.Graphics

open Lib

theorem ConfigureState.ack_of_checkAck {w : ConfigureState} {serial : Serial}
    (h : w.checkAck serial = .ok ()) : ∃ config, (w.ack serial).1 = .ok config := by
  obtain ⟨index, hps, -⟩ := map_eq_ok.1 h
  rw [okOr_eq_ok] at hps
  have hhl := Slots.position_some hps
  simp only [id, Bool.and_eq_true] at hhl
  cases hen : w.outstanding index with
  | none =>
    rw [hen] at hhl
    cases hhl.2
  | some found =>
    refine ⟨found.2, ?_⟩
    simp only [ack, hps, hen]

namespace BufferTracker

variable {N : Nat}

theorem setLatest_ok (tracker : BufferTracker N) (index : Fin N) (b : ClientBufferId) :
    ∃ released, (tracker.setLatest index b).1 = .ok released := by
  unfold setLatest
  split <;> exact ⟨_, rfl⟩

theorem commit_of_checkCommit {tracker : BufferTracker N} {surface : SurfaceId}
    {pending : PendingBuffer} (h : tracker.checkCommit surface pending = .ok ()) :
    ∃ released, (tracker.commit surface pending).1 = .ok released := by
  unfold commit
  rw [h]
  cases pending with
  | unchanged => exact ⟨_, rfl⟩
  | attach b =>
    cases hfn : tracker.find surface with
    | some index => exact tracker.setLatest_ok index b
    | none =>
      -- the check saw a free entry
      simp only [checkCommit, ite_error_eq_ok, hfn, Option.isNone_none, true_and, not_forall] at h
      obtain ⟨-, ⟨i, hfr⟩, -⟩ := h
      rw [Bool.not_eq_true, Option.isSome_eq_false_iff] at hfr
      obtain ⟨index, hin⟩ := Slots.position_isSome hfr
      simp only [hin]
      exact setLatest_ok _ index b
  | detach =>
    dsimp only
    repeat' split
    all_goals exact ⟨_, rfl⟩

end BufferTracker

namespace SurfaceState

variable {N : Nat} {window : Option ConfigureState}

theorem applyAck_of_checkWindow {ack : Option Serial} (h : checkWindow window ack = .ok ()) :
    (applyAck window ack).1 = ack ∧ ∀ w serial, window = some w → ack = some serial →
        (∃ config, (w.ack serial).1 = .ok config) ∧
          (applyAck window ack).2 = some (w.ack serial).2 := by
  cases window with
  | none =>
    cases ack with
    | none => exact ⟨rfl, fun _ _ hw => by cases hw⟩
    | some serial => cases h
  | some w =>
    cases ack with
    | none => exact ⟨rfl, fun _ _ _ hsr => by cases hsr⟩
    | some serial =>
      obtain ⟨config, hcn⟩ := ConfigureState.ack_of_checkAck h
      have hack : w.ack serial = (.ok config, (w.ack serial).2) := by rw [← hcn]
      have hap : applyAck (some w) (some serial) = (some serial, some (w.ack serial).2) := by
        simp only [applyAck]
        rw [hack]
      refine ⟨by rw [hap], ?_⟩
      rintro _ _ ⟨⟩ ⟨⟩
      exact ⟨⟨config, hcn⟩, by rw [hap]⟩

variable {self : SurfaceState} {surface : SurfaceId} {request : CommitRequest}
  {tracker : BufferTracker N} {resolve : ClientBufferId → Except ProtocolError BufferLayout}
  {buffer : Option CommittedBuffer}

theorem of_commitChecks
    (h : self.commitChecks surface request tracker window resolve = .ok buffer) :
    checkWindow window request.ack = .ok () ∧ (tracker.commit surface self.pending.buffer).1 =
      .ok (self.commitApply surface request tracker window buffer).1.released := by
  simp only [commitChecks, bind_eq_ok, pure_eq_ok] at h
  obtain ⟨_, hwn, _, -, _, htr, rfl⟩ := h
  obtain ⟨released, hrl⟩ := BufferTracker.commit_of_checkCommit htr
  refine ⟨hwn, ?_⟩
  change _ = Except.ok (tracker.commit surface self.pending.buffer).1.toOption.join
  rw [hrl]
  rfl

/-! ## What operations leave alone -/

section

variable (s : SurfaceState)

theorem attach_frame (buffer : Option ClientBufferId) (scale : Scale120)
    (tracker : BufferTracker N) :
    (s.attach buffer scale tracker).2 = s ∨ (s.attach buffer scale tracker).2 = { s with
          pending := { s.pending with
            buffer := match buffer with
              | some b => .attach b
              | none => .detach
            scale } } := by
  unfold attach
  split_ifs
  · exact .inl rfl
  · exact .inl rfl
  · exact .inr rfl

theorem damage_frame (rects : List BufferRect) :
    ∃ damage, (s.damage rects).2 = { s with pending := { s.pending with damage } } := by
  unfold damage
  split
  · exact ⟨_, rfl⟩
  · split <;> exact ⟨_, rfl⟩

theorem setOpaqueRegion_frame (rects : List Rect) (replace : Bool) :
    ∃ opaqueRegion, (s.setOpaqueRegion rects replace).2 =
      { s with pending := { s.pending with opaqueRegion } } := by
  unfold setOpaqueRegion
  split <;> exact ⟨_, rfl⟩

theorem setInputRegion_frame (rects : List Rect) (replace : Bool) :
    ∃ input, (s.setInputRegion rects replace).2 =
      { s with pending := { s.pending with input } } := by
  unfold setInputRegion
  dsimp only
  repeat' split
  all_goals exact ⟨_, rfl⟩

theorem frameSubmitted_frame (presentSeq : UInt64) :
    ∃ frame, (s.frameSubmitted presentSeq).2 = { s with frame } := by
  unfold frameSubmitted
  split <;> exact ⟨_, rfl⟩

theorem presentCompleted_frame (completedSeq completedNs : UInt64) :
    ∃ frame, (s.presentCompleted completedSeq completedNs).2 = { s with frame } := by
  unfold presentCompleted
  repeat' split
  all_goals exact ⟨_, rfl⟩

end

section

variable (self : SurfaceState) (surface : SurfaceId) (request : CommitRequest)
  (tracker : BufferTracker N) (window : Option ConfigureState)
  (resolve : ClientBufferId → Except ProtocolError BufferLayout)

/-- A commit does nothing, or all that is left to do once the checks have passed. -/
theorem commit_cases :
    (∃ e, self.commitChecks surface request tracker window resolve = .error e ∧
      self.commit surface request tracker window resolve = (.error e, self, tracker, window)) ∨
    ∃ buffer, self.commitChecks surface request tracker window resolve = .ok buffer ∧
      self.commit surface request tracker window resolve =
        (.ok (self.commitApply surface request tracker window buffer).1,
          (self.commitApply surface request tracker window buffer).2) := by
  cases hch : self.commitChecks surface request tracker window resolve with
  | error e => exact .inl ⟨e, rfl, by simp only [commit, hch]⟩
  | ok buffer => exact .inr ⟨buffer, rfl, by simp only [commit, hch]⟩

/-! ## Atomicity -/

/-- A commit that returns an error has changed nothing. Once the checks have passed, the tracker
takes the buffer, the serial is acknowledged, and the new state is in place. -/
theorem commit_atomic :
    (∀ e, (self.commit surface request tracker window resolve).1 = .error e →
      (self.commit surface request tracker window resolve).2 = (self, tracker, window)) ∧
    ∀ buffer, self.commitChecks surface request tracker window resolve = .ok buffer →
      ∃ outcome state window',
        self.commit surface request tracker window resolve =
          (.ok outcome, state, (tracker.commit surface self.pending.buffer).2, window') ∧
        (tracker.commit surface self.pending.buffer).1 = .ok outcome.released ∧
        outcome.acked = request.ack ∧
        (∀ w serial, window = some w → request.ack = some serial →
          (∃ config, (w.ack serial).1 = .ok config) ∧ window' = some (w.ack serial).2) ∧
        state.committed.buffer = buffer ∧ state.pending.buffer = .unchanged := by
  refine ⟨fun e he => ?_, fun buffer hch => ?_⟩
  · cases hch : self.commitChecks surface request tracker window resolve with
    | error e' => simp only [commit, hch]
    | ok buffer =>
      simp only [commit, hch] at he
      cases he
  · obtain ⟨hwn, hrl⟩ := of_commitChecks hch
    obtain ⟨hac, hwn'⟩ := applyAck_of_checkWindow hwn
    exact ⟨_, _, _, by simp only [commit, hch]; rfl, hrl, hac, hwn', rfl, rfl⟩

end

/-- A first frame that acknowledges the one configure sent, and the same commit with another
serial. -/
theorem commit_atomic_first_frame :
    let surface : SurfaceId := ⟨⟨0x100, _, rfl⟩⟩
    let buffer : ClientBufferId := ⟨⟨0x101, _, rfl⟩⟩
    let layout : BufferLayout := ⟨1, 1, 4, .xrgb8888, rfl⟩
    let config : WindowConfig := ⟨⟨1, 1⟩, .one, .server, ⟨0, rfl⟩, ⟨1, 1⟩⟩
    let window : ConfigureState := (ConfigureState.new.send .new config).2.1
    let tracker : BufferTracker 1 := .new
    let state := { SurfaceState.new with
      pending := { PendingState.new with buffer := .attach buffer } }
    (state.commit surface ⟨true, .srgb, some ⟨2⟩⟩ tracker (some window) fun _ => .ok layout).2 =
        (state, tracker, some window) ∧
      ∃ outcome rest, state.commit surface ⟨true, .srgb, some ⟨1⟩⟩ tracker (some window)
          (fun _ => .ok layout) = (.ok outcome, rest) ∧ outcome.acked = some ⟨1⟩ :=
  ⟨(commit_atomic _ _ _ _ _ _).1 .serialMismatch rfl,
    ((commit_atomic _ _ _ _ _ _).2 (some ⟨⟨⟨0x101, _, rfl⟩⟩, ⟨1, 1, 4, .xrgb8888, rfl⟩⟩)
      (by exact rfl)).imp
      fun _ ⟨_, _, hcommit, _, hacked, _⟩ => ⟨_, hcommit, hacked⟩⟩

end SurfaceState

end CleanSlate.Graphics
