import CleanSlate.Graphics.Surfaces
import CleanSlate.Graphics.Verify.Commit
import CleanSlate.Lib.Custody
import Mathlib.Data.Set.Card

/-!
# Custody of buffers

The tracker is a custodian of buffers: a commit takes one, and the buffers reported as released are
given back. `Moves` says what an operation can do to the tracker: it writes one entry, that of its
surface, and passes on the buffers the entry held. So no buffer is held in two places, and each is
released once before it is taken again.
-/

namespace CleanSlate.Graphics

open Lib Function List Slots Tracked Latest

variable {S : Finset ClientBufferId} {s : Surfaces N} {ops : List (SurfaceId × SurfaceOp)}
  {request : CommitRequest} {window : Option ConfigureState}
  {resolve : ClientBufferId → Except ProtocolError BufferLayout}

/-! ## What an entry holds -/

namespace Tracked

def isCurrent (b : ClientBufferId) (entry : Option Tracked) : Bool :=
  entry.any fun t => t.current = some b

def isLatest (b : ClientBufferId) (entry : Option Tracked) : Bool :=
  entry.any fun t => t.latest = .buffer b

/-- How often the entry holds the buffer. -/
def holdings (entry : Option Tracked) (b : ClientBufferId) : Nat :=
  (if isCurrent b entry then 1 else 0) + if isLatest b entry then 1 else 0

@[simp] theorem holdings_none (b : ClientBufferId) : holdings none b = 0 := rfl

theorem holdings_some (t : Tracked) (b : ClientBufferId) :
    holdings (some t) b = t.current.toList.count b + t.latest.released.toList.count b := by
  obtain ⟨surface, current, latest⟩ := t
  have hcr : (if isCurrent b (some ⟨surface, current, latest⟩) then 1 else 0) =
      current.toList.count b := by
    cases current <;> simp [isCurrent, count_singleton]
  have hlt : (if isLatest b (some ⟨surface, current, latest⟩) then 1 else 0) =
      latest.released.toList.count b := by
    cases latest <;> simp [isLatest, released, count_singleton]
  unfold holdings
  rw [hcr, hlt]

end Tracked

namespace BufferTracker

variable {N : Nat}

/-- How often the tracker holds the buffer. -/
def holdings (self : BufferTracker N) (b : ClientBufferId) : Nat :=
  Slots.count (Tracked.isCurrent b) self.entries + Slots.count (Tracked.isLatest b) self.entries

theorem holdings_update (self : BufferTracker N) (index : Fin N) (entry : Option Tracked)
    (b : ClientBufferId) :
    holdings ⟨update self.entries index entry⟩ b + Tracked.holdings (self.entries index) b =
      self.holdings b + Tracked.holdings entry b := by
  have hcr := count_update (Tracked.isCurrent b) self.entries index entry
  have hlt := count_update (Tracked.isLatest b) self.entries index entry
  simp only [holdings, Tracked.holdings]
  omega

variable {self self' : BufferTracker N} {b : ClientBufferId} {surface : SurfaceId}
  {taken : Option ClientBufferId}

theorem holdings_pos : 0 < self.holdings b ↔ ∃ i, isCurrent b (self.entries i) ∨
      isLatest b (self.entries i) := by
  rw [holdings, Nat.add_pos_iff_pos_or_pos, count_pos, count_pos, ← exists_or]

theorem isBusy_iff : self.isBusy b ↔ 0 < self.holdings b := by
  rw [holdings_pos]
  simp only [isBusy, any_eq_true, mem_finRange, true_and, isCurrent,
    isLatest, Option.any_eq_true, holds, decide_eq_true_eq]
  refine exists_congr fun i => ?_
  rw [← exists_or]
  exact exists_congr fun t => and_or_left

theorem not_isBusy_iff : self.isBusy b = false ↔ self.holdings b = 0 := by
  rw [← Bool.not_eq_true, isBusy_iff]
  omega

/-! ## Moves -/

/-- What an operation on a surface can do to the tracker, with the buffer it takes and those it
releases. -/
inductive Moves (self : BufferTracker N) (surface : SurfaceId) :
    Option ClientBufferId → List ClientBufferId → BufferTracker N → Prop where
  | same : Moves self surface none [] self
  | write {index : Fin N} {entry : Option Tracked} {taken : Option ClientBufferId}
      {released : List ClientBufferId}
      (place : self.find surface = some index ∨
        self.find surface = none ∧ self.entries index = none)
      (owner : ∀ t ∈ entry, t.surface = surface)
      (busy : ∀ t ∈ entry, t.current.isSome ∨ t.latest.released.isSome)
      (idle : ∀ b ∈ taken, self.isBusy b = false)
      (had : ∀ b, released.count b ≤ Tracked.holdings (self.entries index) b)
      (balance : ∀ b, Tracked.holdings (self.entries index) b + taken.toList.count b =
        released.count b + Tracked.holdings entry b) :
      Moves self surface taken released ⟨update self.entries index entry⟩

theorem find_some {index : Fin N} (h : self.find surface = some index) :
    ∃ t, self.entries index = some t ∧ t.surface = surface := by
  have hfn := position_some h
  rw [Option.any_eq_true] at hfn
  obtain ⟨t, ht, hsr⟩ := hfn
  exact ⟨t, ht, of_decide_eq_true hsr⟩

theorem find_none (h : self.find surface = none) {i : Fin N} {t : Tracked}
    (ht : self.entries i = some t) : t.surface ≠ surface := by
  have hnn := position_none.1 h i
  rw [ht] at hnn
  exact of_decide_eq_false hnn

/-- The buffer that a commit takes. -/
def takenBy : PendingBuffer → Option ClientBufferId
  | .attach b => some b
  | _ => none

theorem commit_moves {pending : PendingBuffer} {released : Option ClientBufferId}
    (h : self.commit surface pending = (.ok released, self')) :
    Moves self surface (takenBy pending) released.toList self' := by
  unfold commit at h
  split at h
  · cases h
  next hch =>
  cases pending with
  | unchanged =>
    cases h
    exact .same
  | attach b =>
    have hid : ∀ b' ∈ some b, self.isBusy b' = false := by
      rintro _ ⟨⟩
      simp only [checkCommit, ite_error_eq_ok, Bool.not_eq_true] at hch
      exact hch.1
    cases hfn : self.find surface with
    | some index =>
      obtain ⟨t, ht, hsr⟩ := find_some hfn
      simp only [hfn, setLatest, ht] at h
      cases h
      refine .write (.inl hfn) ?_ ?_ hid ?_ ?_
      · rintro _ ⟨⟩
        exact hsr
      · rintro _ ⟨⟩
        exact .inr rfl
      · intro b'
        rw [ht, holdings_some]
        omega
      · intro b'
        rw [ht, holdings_some, holdings_some]
        simp only [takenBy, released]
        omega
    | none =>
      cases hfr : position Option.isNone self.entries with
      | none => simp [hfn, hfr] at h
      | some index =>
        have hen : self.entries index = none := by
          simpa using position_some hfr
        simp only [hfn, hfr, setLatest, update_self, update_idem] at h
        cases h
        refine .write (.inr ⟨hfn, hen⟩) ?_ ?_ hid ?_ ?_
        · rintro _ ⟨⟩
          rfl
        · rintro _ ⟨⟩
          exact .inr rfl
        · simp [released]
        · intro b'
          rw [hen, holdings_some]
          simp [takenBy, released]
  | detach =>
    cases hfn : self.find surface with
    | none =>
      simp only [hfn] at h
      cases h
      exact .same
    | some index =>
      obtain ⟨t, ht, hsr⟩ := find_some hfn
      simp only [hfn, ht] at h
      split at h <;> cases h
      · next hcr =>
        refine .write (.inl hfn) ?_ ?_ (by simp [takenBy]) ?_ ?_
        · rintro _ ⟨⟩
          exact hsr
        · rintro _ ⟨⟩
          exact .inl hcr
        · intro b'
          rw [ht, holdings_some]
          omega
        · intro b'
          rw [ht, holdings_some, holdings_some]
          simp only [takenBy, released]
          omega
      · next hcr =>
        rw [Bool.not_eq_true, Option.isSome_eq_false_iff, Option.isNone_iff_eq_none] at hcr
        refine .write (.inl hfn) (by simp) (by simp) (by simp [takenBy]) ?_ ?_ <;> intro b' <;>
          rw [ht, holdings_some] <;> simp [takenBy, hcr]

theorem composited_moves (self : BufferTracker N) (surface : SurfaceId) :
    Moves self surface none (self.composited surface).1.toList (self.composited surface).2 := by
  unfold composited
  cases hfn : self.find surface with
  | none => exact .same
  | some index =>
    obtain ⟨t, ht, hsr⟩ := find_some hfn
    simp only [ht]
    obtain ⟨owner, current, latest⟩ := t
    cases latest with
    | empty => exact .same
    | buffer b =>
      refine .write (.inl hfn) ?_ ?_ (by simp) ?_ ?_
      · rintro _ ⟨⟩
        exact hsr
      · rintro _ ⟨⟩
        exact .inl rfl
      · intro b'
        rw [ht, holdings_some]
        exact Nat.le_add_right _ _
      · intro b'
        rw [ht, holdings_some, holdings_some]
        simp [released]
    | detach =>
      refine .write (.inl hfn) (by simp) (by simp) (by simp) ?_ ?_ <;> intro b' <;>
        rw [ht, holdings_some] <;> simp [released]

theorem removeSurface_moves (self : BufferTracker N) (surface : SurfaceId) : Moves self surface none
      ((self.removeSurface surface).1.1.toList ++ (self.removeSurface surface).1.2.toList)
      (self.removeSurface surface).2 := by
  unfold removeSurface
  cases hfn : self.find surface with
  | none => exact .same
  | some index =>
    obtain ⟨t, ht, -⟩ := find_some hfn
    simp only [ht]
    refine .write (.inl hfn) (by simp) (by simp) (by simp) ?_ ?_ <;> intro b' <;>
      rw [ht, holdings_some] <;> simp

/-! ## Well-formed trackers -/

/-- A surface has one entry at most, and an entry holds a buffer. -/
structure WellFormed (tracker : BufferTracker N) : Prop where
  surfaces : ∀ i j t u, tracker.entries i = some t → tracker.entries j = some u →
    t.surface = u.surface → i = j
  busy : ∀ i t, tracker.entries i = some t → t.current.isSome ∨ t.latest.released.isSome

theorem wellFormed_new : (new : BufferTracker N).WellFormed :=
  ⟨fun _ _ _ _ h => (by cases h), fun _ _ h => (by cases h)⟩

variable {released : List ClientBufferId}

section

variable (h : Moves self surface taken released self')
include h

theorem Moves.wellFormed (hsl : self.WellFormed) : self'.WellFormed := by
  cases h with
  | same => exact hsl
  | @write index entry _ _ place owner busy _ _ _ =>
    -- the surface has no entry but the one that is written
    have hin : ∀ {j u}, self.entries j = some u → u.surface = surface → j = index := by
      intro j u hu hsr
      rcases place with hfn | ⟨hfn, -⟩
      · obtain ⟨t, ht, ht'⟩ := find_some hfn
        exact hsl.surfaces _ _ _ _ hu ht (hsr.trans ht'.symm)
      · exact absurd hsr (find_none hfn hu)
    constructor
    · intro i j t u ht hu htu
      simp only [update_apply] at ht hu
      split at ht <;> split at hu
      · next hi hj => rw [hi, hj]
      · next hi _ => rw [hi, hin hu (htu.symm.trans (owner t ht))]
      · next _ hj => rw [hj, hin ht (htu.trans (owner u hu))]
      · exact hsl.surfaces _ _ _ _ ht hu htu
    · intro i t ht
      simp only [update_apply] at ht
      split at ht
      · exact busy t ht
      · exact hsl.busy _ _ ht

theorem Moves.balance (b : ClientBufferId) :
    self.holdings b + taken.toList.count b = released.count b + self'.holdings b := by
  cases h with
  | same => simp
  | @write index entry _ _ _ _ _ _ _ balance =>
    have hup := self.holdings_update index entry b
    have hbl := balance b
    omega

theorem Moves.idle (hb : b ∈ taken) : self.holdings b = 0 := by
  cases h with
  | same => cases hb
  | write _ _ _ idle _ _ => exact not_isBusy_iff.1 (idle b hb)

/-- Only buffers that were held are released. -/
theorem Moves.had (b : ClientBufferId) : released.count b ≤ self.holdings b := by
  cases h with
  | same => simp
  | @write index entry _ _ _ _ _ _ had _ =>
    have hhad := had b
    have hup := self.holdings_update index none b
    rw [Tracked.holdings_none] at hup
    omega

end

/-! ## Places -/

/-- Where a buffer can be busy. -/
inductive Place where
  | current (surface : SurfaceId)
  | latest (surface : SurfaceId)

/-- An entry of the place's surface holds the buffer there. -/
def HeldAt (self : BufferTracker N) (b : ClientBufferId) : Place → Prop
  | .current surface => ∃ i t, self.entries i = some t ∧ t.surface = surface ∧ t.current = some b
  | .latest surface => ∃ i t, self.entries i = some t ∧ t.surface = surface ∧ t.latest = .buffer b

variable {j i : Fin N}

section
variable (hone : self.holdings b ≤ 1)
include hone

theorem current_unique (hi : isCurrent b (self.entries i))
    (hj : isCurrent b (self.entries j)) : i = j := by
  refine eq_of_count_le_one ?_ hi hj
  unfold holdings at hone
  omega

theorem latest_unique (hi : isLatest b (self.entries i))
    (hj : isLatest b (self.entries j)) : i = j := by
  refine eq_of_count_le_one ?_ hi hj
  unfold holdings at hone
  omega

theorem not_current_and_latest (hi : isCurrent b (self.entries i)) :
    ¬isLatest b (self.entries j) := by
  intro hj
  have hcr := count_pos.2 ⟨i, hi⟩
  have hlt := count_pos.2 ⟨j, hj⟩
  unfold holdings at hone
  omega

theorem HeldAt.unique {p q : Place} (hp : self.HeldAt b p) (hq : self.HeldAt b q) : p = q := by
  cases p with
  | current surface =>
    obtain ⟨i, t, ht, rfl, hb⟩ := hp
    have hi : isCurrent b (self.entries i) := by simp [isCurrent, ht, hb]
    cases q with
    | current surface' =>
      obtain ⟨j, u, hu, rfl, hb'⟩ := hq
      have hij := current_unique hone hi (j := j) (by simp [isCurrent, hu, hb'])
      rw [hij, hu] at ht
      cases ht
      rfl
    | latest surface' =>
      obtain ⟨j, u, hu, rfl, hb'⟩ := hq
      exact absurd (by simp [isLatest, hu, hb']) (not_current_and_latest hone hi (j := j))
  | latest surface =>
    obtain ⟨i, t, ht, rfl, hb⟩ := hp
    have hi : isLatest b (self.entries i) := by simp [isLatest, ht, hb]
    cases q with
    | current surface' =>
      obtain ⟨j, u, hu, rfl, hb'⟩ := hq
      have hj : isCurrent b (self.entries j) := by simp [isCurrent, hu, hb']
      exact absurd hi (not_current_and_latest hone hj)
    | latest surface' =>
      obtain ⟨j, u, hu, rfl, hb'⟩ := hq
      have hij := latest_unique hone hi (j := j) (by simp [isLatest, hu, hb'])
      rw [hij, hu] at ht
      cases ht
      rfl

end

/-- The busy buffers of a surface. -/
def busyOn (self : BufferTracker N) (surface : SurfaceId) : Set ClientBufferId :=
  {b | self.HeldAt b (.current surface) ∨ self.HeldAt b (.latest surface)}

/-- A surface has one entry, and the entry holds two buffers at most. -/
theorem WellFormed.encard_busyOn_le (h : self.WellFormed) (surface : SurfaceId) :
    (self.busyOn surface).encard ≤ 2 := by
  by_cases hen : ∃ i t, self.entries i = some t ∧ t.surface = surface
  · obtain ⟨i, t, ht, hsr⟩ := hen
    have hsub : self.busyOn surface ⊆
        {b | t.current = some b} ∪ {b | t.latest = .buffer b} := by
      rintro b (⟨j, u, hu, hsr', hb⟩ | ⟨j, u, hu, hsr', hb⟩)
      all_goals
        obtain rfl := h.surfaces i j t u ht hu (hsr.trans hsr'.symm)
        rw [ht] at hu
        cases hu
      · exact .inl hb
      · exact .inr hb
    have hcr : {b | t.current = some b}.encard ≤ 1 :=
      Set.encard_le_one_iff.2 fun b b' hb hb' => Option.some.inj (hb.symm.trans hb')
    have hlt : {b | t.latest = .buffer b}.encard ≤ 1 :=
      Set.encard_le_one_iff.2 fun b b' hb hb' => buffer.inj (hb.symm.trans hb')
    calc (self.busyOn surface).encard
        ≤ ({b | t.current = some b} ∪ {b | t.latest = .buffer b}).encard := Set.encard_le_encard hsub
      _ ≤ {b | t.current = some b}.encard + {b | t.latest = .buffer b}.encard :=
        Set.encard_union_le _ _
      _ ≤ 1 + 1 := add_le_add hcr hlt
  · have hem : self.busyOn surface = ∅ := by
      refine Set.eq_empty_iff_forall_notMem.2 ?_
      rintro b (⟨i, t, ht, hsr, -⟩ | ⟨i, t, ht, hsr, -⟩) <;> exact hen ⟨i, t, ht, hsr⟩
    rw [hem, Set.encard_empty]
    exact bot_le

/-- As long as the client uses no more buffers than there are entries, an idle buffer finds a free
entry: all others hold one of the remaining buffers each. -/
theorem WellFormed.exists_free (h : self.WellFormed) (hone : ∀ b, self.holdings b ≤ 1)
    (hcr : S.card ≤ N) (hbs : ∀ b, self.isBusy b → b ∈ S)
    (hb : b ∈ S) (hid : self.isBusy b = false) : ∃ i, self.entries i = none := by
  by_contra hfl
  have hhl : ∀ i, ∃ c, isCurrent c (self.entries i) ∨ isLatest c (self.entries i) := by
    intro i
    obtain ⟨t, ht⟩ := Option.ne_none_iff_exists'.1 fun hnn => hfl ⟨i, hnn⟩
    rcases h.busy i t ht with hcn | hls
    · obtain ⟨c, hc⟩ := Option.isSome_iff_exists.1 hcn
      exact ⟨c, .inl (by simp [isCurrent, ht, hc])⟩
    · obtain ⟨c, hc⟩ := Option.isSome_iff_exists.1 hls
      cases hbf : t.latest with
      | buffer c' => exact ⟨c', .inr (by simp [isLatest, ht, hbf])⟩
      | empty | detach => simp [hbf, released] at hc
  choose f hf using hhl
  have hinj : Injective f := by
    intro i j hij
    have hi := hf i
    have hj := hf j
    rw [← hij] at hj
    rcases hi with hi | hi <;> rcases hj with hj | hj
    · exact current_unique (hone _) hi hj
    · exact absurd hj (not_current_and_latest (hone _) hi)
    · exact absurd hi (not_current_and_latest (hone _) hj)
    · exact latest_unique (hone _) hi hj
  have hmp : ∀ i, f i ∈ S.erase b := by
    intro i
    have hpos : 0 < self.holdings (f i) := holdings_pos.2 ⟨i, hf i⟩
    refine Finset.mem_erase.2 ⟨?_, hbs _ (isBusy_iff.2 hpos)⟩
    rintro rfl
    rw [not_isBusy_iff] at hid
    omega
  have hle : N ≤ (S.erase b).card := by
    have him : Finset.univ.image f ⊆ S.erase b := by
      intro c hc
      obtain ⟨i, -, rfl⟩ := Finset.mem_image.1 hc
      exact hmp i
    have hct := Finset.card_le_card him
    rwa [Finset.card_image_of_injective _ hinj, Finset.card_univ, Fintype.card_fin] at hct
  have hlt := Finset.card_erase_lt_of_mem hb
  omega

end BufferTracker

/-! ## Runs -/

/-- Operations that touch neither the pending buffer nor the frame callback. -/
def SurfaceOp.quiet : SurfaceOp → Bool
  | .damage _ | .setOpaqueRegion .. | .setInputRegion .. | .latch => true
  | _ => false

namespace Surfaces

variable {N : Nat}

abbrev Transition (N : Nat) := Lib.Event (Surfaces N) (SurfaceId × SurfaceOp) SurfaceReply

/-- The buffer that a transition takes. -/
def takes (e : Transition N) : Option ClientBufferId :=
  match e.output with
  | .committed (.ok _) => BufferTracker.takenBy (e.pre.state e.input.1).pending.buffer
  | _ => none

theorem step_moves (s : Surfaces N) (op : SurfaceId × SurfaceOp) :
    s.tracker.Moves op.1 (takes (.of step s op)) (step s op).1.released (step s op).2.tracker := by
  obtain ⟨surface, op⟩ := op
  cases op with
  | commit request window resolve =>
    cases hch : (s.state surface).commitChecks surface request s.tracker window resolve with
    | error e =>
      simp only [Event.of, step, SurfaceState.commit, hch]
      exact .same
    | ok buffer =>
      simp only [Event.of, step, SurfaceState.commit, hch]
      exact BufferTracker.commit_moves (Prod.ext (SurfaceState.of_commitChecks hch).2 rfl)
  | latch => exact s.tracker.composited_moves surface
  | remove => exact s.tracker.removeSurface_moves surface
  | attach | damage | setOpaqueRegion | setInputRegion | frameSubmitted | presentCompleted =>
    exact .same

/-- How often a state holds a buffer, and how often a transition takes and releases it. -/
def held (s : Surfaces N) (b : ClientBufferId) : Nat := s.tracker.holdings b
def taken (e : Transition N) (b : ClientBufferId) : Nat := (takes e).toList.count b
def given (e : Transition N) (b : ClientBufferId) : Nat := e.output.released.count b

theorem balanced : Custody.Balanced (step (N := N)) held taken given :=
  fun s op b => (step_moves s op).balance b

theorem fresh : Custody.Fresh (step (N := N)) held taken := by
  intro s op b
  have hmv := step_moves s op
  unfold taken
  cases htk : takes (.of step s op) with
  | none => exact .inl rfl
  | some b' =>
    rw [htk] at hmv
    by_cases hb : b' = b
    · subst hb
      exact .inr ⟨by simp, hmv.idle rfl⟩
    · exact .inl (by simpa [count_singleton] using hb)

theorem held_new (b : ClientBufferId) : held (new : Surfaces N) b = 0 := by
  refine BufferTracker.not_isBusy_iff.1 ?_
  simp [BufferTracker.isBusy, new, BufferTracker.new]

theorem held_le_one (ops : List (SurfaceId × SurfaceOp)) (b : ClientBufferId) :
    held (run step (new : Surfaces N) ops) b ≤ 1 :=
  Custody.held_run_le_one balanced fresh (by rw [held_new]; omega) ops

theorem wellFormed (ops : List (SurfaceId × SurfaceOp)) :
    (run step (new : Surfaces N) ops).tracker.WellFormed :=
  run_invariant step (P := fun s => s.tracker.WellFormed) BufferTracker.wellFormed_new
    (fun s op hs => (step_moves s op).wellFormed hs) ops

/-- The transition makes the buffer busy. -/
def BecomesBusy (b : ClientBufferId) (e : Transition N) : Prop :=
  e.pre.tracker.isBusy b = false ∧ e.post.tracker.isBusy b

variable {b : ClientBufferId} {op : SurfaceId × SurfaceOp} {surface : SurfaceId}

theorem becomesBusy_of_taken (h : taken (.of step s op) b ≠ 0) : BecomesBusy b (.of step s op) := by
  obtain htk | ⟨htk, hid⟩ := fresh s op b
  · exact absurd htk h
  have hbl := balanced s op b
  have hhad : given (.of step s op) b ≤ held s b := (step_moves s op).had b
  refine ⟨BufferTracker.not_isBusy_iff.2 hid, BufferTracker.isBusy_iff.2 ?_⟩
  change 0 < held (step s op).2 b
  omega

theorem BecomesBusy.not_given (h : BecomesBusy b (.of step s op)) :
    given (.of step s op) b = 0 := by
  have hhad : given (.of step s op) b ≤ held s b := (step_moves s op).had b
  have hid : held s b = 0 := BufferTracker.not_isBusy_iff.1 h.1
  omega

/-- Between two transitions that make a buffer busy it is released once. -/
theorem released_once {before mid after : List (Transition N)} {e e' : Transition N}
    (htr : trace step new ops = before ++ e :: (mid ++ e' :: after)) (he : BecomesBusy b e)
    (he' : BecomesBusy b e') (hmid : ∀ x ∈ mid, ¬BecomesBusy b x) :
    ((e :: (mid ++ [e'])).flatMap fun x => x.output.released).count b = 1 := by
  obtain ⟨first, rest, rfl, -, hfr⟩ := trace_eq_append step htr
  obtain ⟨op, rest, rfl, rfl, hmd⟩ := trace_eq_cons step hfr.symm
  obtain ⟨between, rest, rfl, rfl, hls⟩ := trace_eq_append step hmd.symm
  obtain ⟨op', rest, rfl, rfl, -⟩ := trace_eq_cons step hls.symm
  -- the buffer is held once when the middle starts, and not at all when it ends
  have hhl : held (N := N) (step (run step new first) op).2 b = 1 := by
    have hle := held_le_one (N := N) (first ++ [op]) b
    rw [run_snoc] at hle
    have hbs : 0 < held (step (run step new first) op).2 b := BufferTracker.isBusy_iff.1 he.2
    omega
  have hid : held (run step (step (run step new first) op).2 between) b = 0 :=
    BufferTracker.not_isBusy_iff.1 he'.1
  have htk : ∀ x ∈ trace (step (N := N)) (step (run step new first) op).2 between,
      taken x b = 0 := by
    intro x hx
    by_contra hne
    refine hmid x hx ?_
    obtain ⟨_, _, _, -, rfl⟩ := mem_trace step hx
    exact becomesBusy_of_taken hne
  have hon := Custody.given_once balanced hhl hid htk
  have hfs : count b _ = 0 := he.not_given
  have hls : count b _ = 0 := he'.not_given
  rw [flatMap_cons, flatMap_append, count_append, count_append, count_flatMap, hfs]
  simp only [flatMap_singleton, hls]
  simpa [Custody.total, given, comp_def] using hon

/-! ## Capacity -/

/-- The client uses the buffers of `S` only. -/
structure Uses (S : Finset ClientBufferId) (s : Surfaces N) : Prop where
  pending : ∀ surface b, (s.state surface).pending.buffer = .attach b → b ∈ S
  busy : ∀ b, s.tracker.isBusy b → b ∈ S

theorem uses_new (S : Finset ClientBufferId) : Uses S (new : Surfaces N) where
  pending _ _ h := by cases h
  busy b h := by
    rw [BufferTracker.not_isBusy_iff.2 (held_new b)] at h
    cases h

theorem step_quiet (s : Surfaces N) (h : op.1 = surface → op.2.quiet) :
    ((step s op).2.state surface).pending.buffer = (s.state surface).pending.buffer ∧
      ((step s op).2.state surface).frame = (s.state surface).frame := by
  obtain ⟨target, op⟩ := op
  by_cases htr : surface = target
  · subst htr
    have hop := h rfl
    cases op with
    | damage rects =>
      obtain ⟨_, hfr⟩ := (s.state surface).damage_frame rects
      simp only [step, set, update_self, hfr, and_self]
    | setOpaqueRegion rects replace =>
      obtain ⟨_, hfr⟩ := (s.state surface).setOpaqueRegion_frame rects replace
      simp only [step, set, update_self, hfr, and_self]
    | setInputRegion rects replace =>
      obtain ⟨_, hfr⟩ := (s.state surface).setInputRegion_frame rects replace
      simp only [step, set, update_self, hfr, and_self]
    | latch => simp [step, set, SurfaceState.latch]
    | _ => cases hop
  · cases op <;> simp [step, set, update_of_ne htr]

/-- What an operation leaves pending. -/
theorem step_pending (h : ((step s op).2.state surface).pending.buffer = .attach b) :
    (s.state surface).pending.buffer = .attach b ∨ ∃ scale, op.2 = .attach (some b) scale := by
  by_cases hqt : op.1 = surface → op.2.quiet
  · rw [(step_quiet s hqt).1] at h
    exact .inl h
  obtain ⟨target, op⟩ := op
  obtain ⟨rfl, hld⟩ := Classical.not_imp.1 hqt
  cases op with
  | attach buffer scale =>
    simp only [step, set, update_self] at h
    rcases (s.state target).attach_frame buffer scale s.tracker with hsm | hfr
    · rw [hsm] at h
      exact .inl h
    rw [hfr] at h
    cases buffer with
    | none => cases h
    | some b' =>
      cases h
      exact .inr ⟨scale, rfl⟩
  | damage | setOpaqueRegion | setInputRegion | latch => exact absurd rfl hld
  | commit request window resolve =>
    rcases (s.state target).commit_cases target request s.tracker window resolve with
      ⟨_, -, hcm⟩ | ⟨_, -, hcm⟩
    · simp only [step, set, update_self, hcm] at h
      exact .inl h
    · simp only [step, set, update_self, hcm] at h
      cases h
  | frameSubmitted presentSeq =>
    obtain ⟨_, hfr⟩ := (s.state target).frameSubmitted_frame presentSeq
    simp only [step, set, update_self, hfr] at h
    exact .inl h
  | presentCompleted completedSeq completedNs =>
    obtain ⟨_, hfr⟩ := (s.state target).presentCompleted_frame completedSeq completedNs
    simp only [step, set, update_self, hfr] at h
    exact .inl h
  | remove =>
    simp only [step, set, update_self] at h
    cases h

theorem Uses.step (h : Uses S s) (hop : ∀ b scale, op.2 = .attach (some b) scale → b ∈ S) :
    Uses S (step s op).2 where
  pending surface b hpn := by
    rcases step_pending hpn with hpn | ⟨scale, hat⟩
    · exact h.pending surface b hpn
    · exact hop b scale hat
  busy b hbs := by
    -- what is busy now was busy before, or has just been taken
    have hbl := balanced s op b
    have hpos : 0 < held (Surfaces.step s op).2 b := BufferTracker.isBusy_iff.1 hbs
    by_cases hhl : held s b = 0
    · have htk : b ∈ takes (.of Surfaces.step s op) := by
        have hcn : 0 < (takes (.of Surfaces.step s op)).toList.count b := by
          unfold taken at hbl
          omega
        exact Option.mem_toList.1 (count_pos_iff.1 hcn)
      unfold takes at htk
      split at htk
      · cases hbf : (s.state op.1).pending.buffer with
        | unchanged | detach => simp [Event.of, hbf, BufferTracker.takenBy] at htk
        | attach b' =>
          simp only [Event.of, hbf, BufferTracker.takenBy, Option.mem_def, Option.some.injEq] at htk
          exact h.pending op.1 b (by rw [hbf, htk])
      · cases htk
    · exact h.busy b (BufferTracker.isBusy_iff.2 (Nat.pos_of_ne_zero hhl))

/-- Only the layouts and the tracker can make a commit exceed a limit. -/
theorem commitChecks_limitExceeded {s : SurfaceState} {tracker : BufferTracker N}
    (h : s.commitChecks surface request tracker window resolve = .error .limitExceeded) :
    (∃ b, resolve b = .error .limitExceeded) ∨
      tracker.checkCommit surface s.pending.buffer = .error .limitExceeded := by
  rcases bind_eq_error.1 h with hwn | ⟨_, -, h⟩
  · unfold SurfaceState.checkWindow at hwn
    split at hwn
    · cases hwn
    · next w serial _ =>
      unfold ConfigureState.checkAck at hwn
      cases hps : w.position serial <;> simp [okOr, hps, Except.map] at hwn
    · split at hwn <;> cases hwn
    · cases hwn
  · rcases bind_eq_error.1 h with hbf | ⟨buffer, -, h⟩
    · unfold SurfaceState.newBuffer at hbf
      split at hbf
      · cases hbf
      · cases hbf
      next id _ =>
      left
      refine ⟨id, ?_⟩
      cases hrs : resolve id with
      | ok layout => simp [hrs, Except.map] at hbf
      | error e => simpa [hrs, Except.map] using hbf
    · rcases bind_eq_error.1 h with htr | ⟨_, -, h⟩
      · exact .inr htr
      · cases h

theorem commit_has_space
    (hcr : S.card ≤ N) (hS : ∀ surface b scale, (surface, .attach (some b) scale) ∈ ops → b ∈ S)
    (h : (step (run step (new : Surfaces N) ops) (surface, .commit request window resolve)).1 =
      .committed (.error .limitExceeded)) : ∃ b, resolve b = .error .limitExceeded := by
  have hus : Uses S (run step (new : Surfaces N) ops) :=
    run_invariant_of_mem step (uses_new S) fun s op hop hs =>
      hs.step fun b scale hat => hS op.1 b scale (hat ▸ hop)
  generalize hs : run step new ops = s at *
  rcases (s.state surface).commit_cases surface request s.tracker window resolve with
    ⟨e, hch, hcm⟩ | ⟨_, -, hcm⟩
  · simp only [step, hcm, SurfaceReply.committed.injEq, Except.error.injEq] at h
    rw [h] at hch
    rcases commitChecks_limitExceeded hch with hrs | htr
    · exact hrs
    cases hbf : (s.state surface).pending.buffer with
    | unchanged | detach => simp [hbf, BufferTracker.checkCommit] at htr
    | attach b =>
      simp only [hbf, BufferTracker.checkCommit] at htr
      split_ifs at htr with hbs hfl
      · cases htr
      · obtain ⟨i, hfr⟩ := (hs ▸ wellFormed ops).exists_free (fun b => hs ▸ held_le_one ops b)
          hcr hus.busy (hus.pending surface b hbf) (Bool.eq_false_iff.2 hbs)
        have hsm := hfl.2 i
        rw [hfr] at hsm
        cases hsm
  · simp only [step, hcm] at h
    cases h

/-- In every run over the surfaces of a connection, a buffer is busy in one place, a surface has two
busy buffers at most, a buffer is released once between two transitions that make it busy, and a
client with no more buffers than the tracker has entries never finds it full. -/
theorem buffer_custody (ops : List (SurfaceId × SurfaceOp)) :
    (∀ b p q, (run step (new : Surfaces N) ops).tracker.HeldAt b p →
      (run step (new : Surfaces N) ops).tracker.HeldAt b q → p = q) ∧
    (∀ surface, ((run step (new : Surfaces N) ops).tracker.busyOn surface).encard ≤ 2) ∧
    (∀ b before e mid e' after,
      trace step (new : Surfaces N) ops = before ++ e :: (mid ++ e' :: after) →
      BecomesBusy b e → BecomesBusy b e' → (∀ x ∈ mid, ¬BecomesBusy b x) →
      ((e :: (mid ++ [e'])).flatMap fun x => x.output.released).count b = 1) ∧
    ∀ S : Finset ClientBufferId, S.card ≤ N →
      (∀ surface b scale, (surface, .attach (some b) scale) ∈ ops → b ∈ S) →
      ∀ surface request window resolve,
        (step (run step (new : Surfaces N) ops) (surface, .commit request window resolve)).1 =
          .committed (.error .limitExceeded) → ∃ b, resolve b = .error .limitExceeded :=
  ⟨fun b _ _ hp hq => BufferTracker.HeldAt.unique (held_le_one ops b) hp hq,
    (wellFormed ops).encard_busyOn_le,
    fun _ _ _ _ _ _ htrace he he' hmid => released_once htrace he he' hmid,
    fun _ hcard hS _ _ _ _ h => commit_has_space hcard hS h⟩

/-- A commit on one surface, and a buffer that is committed, detached and committed again. -/
def soleSurface : SurfaceId := ⟨⟨0x100, _, rfl⟩⟩
def soleBuffer : ClientBufferId := ⟨⟨0x101, _, rfl⟩⟩
def soleCommit : SurfaceOp :=
  .commit ⟨false, .srgb, none⟩ none fun _ => .ok ⟨1, 1, 4, .xrgb8888, rfl⟩
def reuse : List (SurfaceId × SurfaceOp) :=
  [.attach (some soleBuffer) .one, soleCommit, .attach none .one, soleCommit,
    .attach (some soleBuffer) .one, soleCommit].map fun op => (soleSurface, op)

/-- One entry is enough for one buffer, which is released once on the way, is held in one place at
the end, and does not keep a further commit from its space. -/
theorem buffer_custody_reuse :
    let s := run step (new : Surfaces 1) reuse
    s.tracker.HeldAt soleBuffer (.latest soleSurface) ∧
      (∀ place, s.tracker.HeldAt soleBuffer place → place = .latest soleSurface) ∧
      (s.tracker.busyOn soleSurface).encard ≤ 2 ∧
      (((trace step (new : Surfaces 1) reuse).drop 1).flatMap fun x => x.output.released).count
        soleBuffer = 1 ∧
      (step s (soleSurface, soleCommit)).1 ≠ .committed (.error .limitExceeded) :=
  have hheld : (run step (new : Surfaces 1) reuse).tracker.HeldAt soleBuffer
      (.latest soleSurface) := ⟨0, _, rfl, rfl, rfl⟩
  have h := buffer_custody (N := 1) reuse
  ⟨hheld, fun _ hpl => h.1 _ _ _ hpl hheld, h.2.1 _,
    h.2.2.1 _ [_] _ [_, _, _] _ [] rfl ⟨rfl, rfl⟩ ⟨rfl, rfl⟩ (by
      simp only [List.forall_mem_cons, List.not_mem_nil, false_implies, implies_true, and_true]
      exact ⟨fun h => Bool.noConfusion (h.1 : true = false),
        fun h => Bool.noConfusion (h.1 : true = false),
        fun h => Bool.noConfusion (h.2 : false = true)⟩),
    fun hlim => nomatch (h.2.2.2 {soleBuffer} (by simp) (by simp +contextual [reuse, soleCommit])
      _ _ _ _ hlim).choose_spec⟩

end Surfaces

end CleanSlate.Graphics
