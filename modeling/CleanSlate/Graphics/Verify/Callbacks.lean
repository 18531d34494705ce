import CleanSlate.Graphics.Verify.Tracker

/-!
# Frame callbacks

A surface has one callback at most. A commit arms it, the next submission takes it, whether or not
the commit has been latched by then, and the first completion that reaches the sequence number of the
submission fires it. The history of a surface is read as a list of such events, and the state of its
callback is what the last of them left.
-/

namespace CleanSlate.Graphics

open Lib Function SurfaceState

variable {frame frame' : FrameState}

inductive CallbackEvent where
  | armed
  | submitted (seq : UInt64) (taken : Bool)
  | completed (seq ns : UInt64) (fired : Option FrameDone)

variable {events : List CallbackEvent}

namespace CallbackEvent

def IsSubmission : CallbackEvent → Prop
  | submitted .. => True
  | _ => False

def IsFiring : CallbackEvent → Prop
  | completed _ _ (some _) => True
  | _ => False

/-- The completion of a present with sequence number `seq` or a later one. -/
def Reaches (seq : UInt64) : CallbackEvent → Prop
  | completed seq' _ _ => seq ≤ seq'
  | _ => False

/-- A callback is armed and has not fired. -/
def Outstanding (events : List CallbackEvent) : Prop := Since (· = armed) IsFiring events

/-- A callback is armed, and no frame has been submitted since. -/
def Armed (events : List CallbackEvent) : Prop := Since (· = armed) IsSubmission events

/-- The submission of `seq` has taken a callback, and no completion has reached it since. -/
def Awaits (seq : UInt64) (events : List CallbackEvent) : Prop :=
  Since (· = submitted seq true) (Reaches seq) events

/-- What may happen after `past`. -/
def Lawful (past : List CallbackEvent) : CallbackEvent → Prop
  | armed => ¬Outstanding past
  | submitted _ taken => taken ↔ Armed past
  | completed seq ns fired =>
    (fired = some ⟨ns, seq⟩ ∧ Outstanding past ∧ ∃ seq' ≤ seq, Awaits seq' past) ∨
      (fired = none ∧ ∀ seq' ≤ seq, ¬Awaits seq' past)

/-- What a transition does to the callback. -/
inductive Turn : Option CallbackEvent → FrameState → FrameState → Prop where
  | none {frame : FrameState} : Turn none frame frame
  | arm : Turn (some armed) .idle .armed
  | take {seq : UInt64} : Turn (some (submitted seq true)) .armed (.awaitingPresent seq)
  | pass {seq : UInt64} {frame : FrameState} (h : frame ≠ .armed) :
      Turn (some (submitted seq false)) frame frame
  | fire {seq seq' ns : UInt64} (h : seq ≤ seq') :
      Turn (some (completed seq' ns (some ⟨ns, seq'⟩))) (.awaitingPresent seq) .idle
  | wait {seq' ns : UInt64} {frame : FrameState}
      (h : ∀ seq, frame = .awaitingPresent seq → ¬seq ≤ seq') :
      Turn (some (completed seq' ns none)) frame frame

theorem Turn.eq_of_none (h : Turn .none frame frame') : frame' = frame := by
  cases h
  rfl

/-- The state of the callback is what the events have left. -/
structure Tracks (events : List CallbackEvent) (frame : FrameState) : Prop where
  armed : Armed events ↔ frame = .armed
  awaits : ∀ seq, Awaits seq events ↔ frame = .awaitingPresent seq
  outstanding : Outstanding events ↔ frame ≠ .idle
  lawful : ∀ past x, past ++ [x] <+: events → Lawful past x

theorem tracks_nil : Tracks [] .idle where
  armed := by simp [Armed, not_since_nil]
  awaits seq := by simp [Awaits, not_since_nil]
  outstanding := by simp [Outstanding, not_since_nil]
  lawful := by simp

theorem Tracks.snoc {x : CallbackEvent}
    (h : Tracks events frame) (htr : Turn (some x) frame frame') :
    Tracks (events ++ [x]) frame' := by
  have har := h.armed
  have haw := h.awaits
  have hot := h.outstanding
  have hlw : Lawful events x := by
    cases htr with
    | arm => simp [Lawful, hot]
    | take => simp [Lawful, har]
    | pass hfr => simp [Lawful, har, hfr]
    | fire hseq => simp [Lawful, hot, haw, hseq]
    | wait hfr => exact .inr ⟨rfl, fun seq hseq hwt => hfr seq ((haw seq).1 hwt) hseq⟩
  refine ⟨?_, fun seq => ?_, ?_, fun past y hps => ?_⟩
  · unfold Armed at har ⊢
    rw [since_snoc]
    cases htr <;> simp_all [IsSubmission]
  · have hat := haw seq
    unfold Awaits at hat ⊢
    rw [since_snoc, hat]
    cases htr with
    | fire hseq => simpa [Reaches] using fun heq => heq ▸ hseq
    | _ => simp_all [Reaches]
  · unfold Outstanding at hot ⊢
    rw [since_snoc]
    cases htr <;> simp_all [IsFiring]
  · rcases List.prefix_concat_iff.1 hps with heq | hps
    · obtain ⟨rfl, rfl⟩ := List.append_singleton_inj.1 heq
      exact hlw
    · exact h.lawful past y hps

theorem Tracks.next
    {x : Option CallbackEvent} (h : Tracks events frame) (htr : Turn x frame frame') :
    Tracks (events ++ x.toList) frame' := by
  cases x with
  | none => simpa [htr.eq_of_none] using h
  | some x => exact h.snoc htr

end CallbackEvent

namespace Surfaces

open CallbackEvent

variable {N : Nat}

/-- What a transition does to the callback of a surface, as far as its reply says. -/
def callback (surface : SurfaceId) (e : Transition N) : Option CallbackEvent :=
  if e.input.1 = surface then
    match e.input.2, e.output with
    | .commit .., .committed (.ok outcome) => if outcome.frameArmed then some .armed else none
    | .frameSubmitted seq, .submitted taken => some (.submitted seq taken)
    | .presentCompleted seq ns, .presented fired => some (.completed seq ns fired)
    | _, _ => none
  else none

/-- The callback events of a surface, in order. -/
def callbacks (surface : SurfaceId) (log : List (Transition N)) : List CallbackEvent :=
  log.filterMap (callback surface)

theorem step_turn (s : Surfaces N) (surface : SurfaceId) {op : SurfaceId × SurfaceOp}
    (hop : op ≠ (surface, .remove)) :
    Turn (callback surface (.of step s op)) (s.state surface).frame
      ((step s op).2.state surface).frame := by
  obtain ⟨target, op⟩ := op
  by_cases hqt : target = surface → op.quiet
  · have hnn : callback surface (.of step s (target, op)) = none := by
      unfold callback
      split
      · next htr =>
        have hop := hqt htr
        cases op <;> first | rfl | cases hop
      · rfl
    rw [hnn, (step_quiet s hqt).2]
    exact .none
  · obtain ⟨rfl, hld⟩ := Classical.not_imp.1 hqt
    simp only [callback, Lib.Event.of, if_true]
    cases op with
    | attach buffer scale =>
      rcases (s.state target).attach_frame buffer scale s.tracker with hfr | hfr <;>
        simp only [step, set, update_self, hfr] <;> exact .none
    | damage | setOpaqueRegion | setInputRegion | latch => exact absurd rfl hld
    | commit request window resolve =>
      rcases (s.state target).commit_cases target request s.tracker window resolve with
        ⟨_, -, hcm⟩ | ⟨_, -, hcm⟩
      · simp only [step, set, update_self, hcm]
        exact .none
      · simp only [step, set, update_self, hcm, commitApply]
        by_cases harm : (request.requestFrame && decide ((s.state target).frame = .idle))
        · have hid : (s.state target).frame = .idle := by simp_all
          rw [if_pos harm, if_pos harm, hid]
          exact .arm
        · rw [if_neg harm, if_neg harm]
          exact .none
    | frameSubmitted seq =>
      by_cases har : (s.state target).frame = .armed
      · simp only [step, set, update_self, frameSubmitted, har, if_true]
        exact .take
      · simp only [step, set, update_self, frameSubmitted, har, if_false]
        exact .pass har
    | presentCompleted seq ns =>
      simp only [step, set, update_self, presentCompleted]
      cases hfr : (s.state target).frame with
      | idle | armed =>
        simp only [hfr]
        exact .wait fun _ h => FrameState.noConfusion h
      | awaitingPresent seq' =>
        by_cases hseq : seq ≥ seq'
        · simp only [hseq, if_true]
          exact .fire hseq
        · simp only [hseq, if_false, hfr]
          exact .wait fun _ h => FrameState.awaitingPresent.inj h ▸ hseq
    | remove => exact absurd rfl hop

section

variable (ops : List (SurfaceId × SurfaceOp)) (surface : SurfaceId)
  (hkept : (surface, .remove) ∉ ops)
include hkept

theorem run_tracks_callbacks : Tracks (callbacks surface (trace step (new : Surfaces N) ops))
      ((run step (new : Surfaces N) ops).state surface).frame := by
  induction ops using List.reverseRecOn with
  | nil => exact tracks_nil
  | append_singleton ops op ih =>
    rw [List.mem_append, not_or, List.mem_singleton] at hkept
    rw [trace_snoc, run_snoc, callbacks, filterMap_snoc]
    exact (ih hkept.1).next (step_turn _ surface (Ne.symm hkept.2))

/-- In every run that does not remove a surface, its callback is armed only when none is outstanding;
the first submission behind the commit that armed it takes it; and it fires at the first completion
that reaches the sequence number of that submission, and only then. A commit that asks for no callback
leaves it as it is. -/
theorem callbacks_fire_once :
    (∀ past x, past ++ [x] <+: callbacks surface (trace step (new : Surfaces N) ops) →
      Lawful past x) ∧
    ∀ e ∈ trace step (new : Surfaces N) ops, ∀ request window resolve,
      e.input.2 = .commit request window resolve → request.requestFrame = false →
      callback surface e = none ∧ (e.post.state surface).frame = (e.pre.state surface).frame := by
  refine ⟨(run_tracks_callbacks ops surface hkept).lawful, ?_⟩
  intro e he request window resolve hin hrq
  obtain ⟨past, op, rest, -, rfl⟩ := mem_trace step he
  have hop : op ≠ (surface, .remove) := by
    rintro rfl
    cases hin
  have htr := step_turn (run step (new : Surfaces N) past) surface hop
  have hnn : callback surface (.of step (run step (new : Surfaces N) past) op) = none := by
    obtain ⟨target, op⟩ := op
    obtain rfl : op = .commit request window resolve := hin
    unfold callback
    split
    · simp only [Lib.Event.of, step]
      rcases (commit_cases _ target request _ window resolve) with
        ⟨_, -, hcm⟩ | ⟨_, -, hcm⟩
      · rw [hcm]
      · rw [hcm]
        simp [commitApply, hrq]
    · rfl
  rw [hnn] at htr
  exact ⟨hnn, htr.eq_of_none⟩

end

/-- A commit that asks for a callback, one that does not, and a present that neither was latched
for. -/
def unlatched (surface : SurfaceId) (buffer : ClientBufferId) (layout : BufferLayout) :
    List (SurfaceId × SurfaceOp) :=
  let commit (requestFrame : Bool) : SurfaceOp :=
    .commit ⟨requestFrame, .srgb, none⟩ none fun _ => .ok layout
  [(surface, .attach (some buffer) .one), (surface, commit true), (surface, commit false),
    (surface, .frameSubmitted 1), (surface, .presentCompleted 1 0)]

theorem callbacks_fire_once_unlatched :
    let surface : SurfaceId := ⟨⟨0x100, _, rfl⟩⟩
    let log := trace step (new : Surfaces 1)
      (unlatched surface ⟨⟨0x101, _, rfl⟩⟩ ⟨1, 1, 4, .xrgb8888, rfl⟩)
    Lawful [.armed, .submitted 1 true] (.completed 1 0 (some ⟨0, 1⟩)) ∧
      ∀ e ∈ log[2]?, callback surface e = none := by
  have h := callbacks_fire_once (N := 1)
    (unlatched ⟨⟨0x100, _, rfl⟩⟩ ⟨⟨0x101, _, rfl⟩⟩ ⟨1, 1, 4, .xrgb8888, rfl⟩) ⟨⟨0x100, _, rfl⟩⟩
    (by simp [unlatched])
  refine ⟨h.1 _ _ ⟨[], rfl⟩, ?_⟩
  rintro _ ⟨⟩
  exact (h.2 _ (by simp [unlatched, trace]) _ _ _ rfl rfl).1

/-- The callback fires for a present that was submitted before the commit was latched: the buffer of
the commit still waits to be composited. -/
theorem callback_fires_unlatched :
    let surface : SurfaceId := ⟨⟨0x100, _, rfl⟩⟩
    let buffer : ClientBufferId := ⟨⟨0x101, _, rfl⟩⟩
    let ops := unlatched surface buffer ⟨1, 1, 4, .xrgb8888, rfl⟩
    callbacks surface (trace step (new : Surfaces 1) ops) =
        [.armed, .submitted 1 true, .completed 1 0 (some ⟨0, 1⟩)] ∧
      (run step (new : Surfaces 1) ops).tracker.entries 0 =
        some ⟨surface, none, .buffer buffer⟩ ∧
      ∀ op ∈ ops, op.2 ≠ .latch :=
  ⟨rfl, rfl, by simp [unlatched]⟩

end Surfaces

end CleanSlate.Graphics
