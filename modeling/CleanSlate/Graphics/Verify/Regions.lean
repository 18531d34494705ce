import CleanSlate.Graphics.Verify.Geometry
import CleanSlate.Graphics.Verify.Tracker

/-!
# Damage and opaque regions

`Declared` is what the client of a surface has said, as exact sets of pixels: the damage not yet
committed, the damage of the commits since the last latch, and the opaque region. A surface keeps
bounded sets of rectangles instead, and `Tracks` says how the two are related: the damage it keeps
covers what was declared, and the opaque region it keeps is what was declared, or nothing.
-/

namespace CleanSlate.Graphics

open Lib Function List CommittedBuffer RectSet

variable {size : Size} {r : Rect} {set : RegionSet} {rects : List Rect}

/-! ## What was declared -/

/-- The extent of the committed buffer. -/
def CommittedState.geometry (self : CommittedState) : Option Size :=
  self.buffer.map CommittedBuffer.size

/-- What the client of a surface has declared. -/
structure Declared where
  /-- damage since the last commit -/
  damage : Set Pixel
  /-- damage of the commits since the last latch -/
  committed : Set Pixel
  /-- one of these commits changed the geometry -/
  resized : Prop
  /-- the rectangles of the opaque region since it was last replaced -/
  opaqueRegion : Set Pixel

variable {d : Declared}

namespace Declared

variable {N : Nat}

def nothing : Declared := ⟨∅, ∅, False, ∅⟩

/-- What a transition adds to the declarations about a surface. -/
def next (surface : SurfaceId) (d : Declared) (e : Surfaces.Transition N) : Declared :=
  if e.input.1 = surface then
    match e.input.2, e.output with
    | .damage rects, .done (.ok ()) =>
      { d with damage := d.damage ∪ cover (rects.map BufferRect.toRect) }
    | .setOpaqueRegion rects replace, .done (.ok ()) =>
      { d with opaqueRegion := if replace then cover rects else d.opaqueRegion ∪ cover rects }
    | .commit .., .committed (.ok _) =>
      { d with
        damage := ∅
        committed := d.committed ∪ d.damage
        resized := d.resized ∨
          (e.pre.state surface).committed.geometry ≠ (e.post.state surface).committed.geometry }
    | .latch, _ => { d with committed := ∅, resized := False }
    | .remove, _ => nothing
    | _, _ => d
  else d

end Declared

/-- What the transitions of a log have declared about a surface. -/
def declared {N : Nat} (surface : SurfaceId) (log : List (Surfaces.Transition N)) : Declared :=
  log.foldl (Declared.next surface) .nothing

/-! ## Sizes -/

theorem small_extentSize : extentSize.Small := ⟨by decide, by decide⟩

theorem BufferLayout.extent (layout : BufferLayout) :
    (0 < layout.width.toNat ∧ layout.width.toNat ≤ maxSurfaceExtent) ∧
      0 < layout.height.toNat ∧ layout.height.toNat ≤ maxSurfaceExtent := by
  have hvl := layout.valid
  simp only [checkLayout, ite_error_eq_ok, not_or, ← UInt32.toNat_inj] at hvl
  obtain ⟨⟨hwd, hhg⟩, ⟨hwt, hhh⟩, -⟩ := hvl
  change ¬_ = 0 at hwd hhg
  omega

theorem Size.Small.pixels_subset (h : size.Small) : size.pixels ⊆ extentSize.pixels := by
  intro p hp
  rw [Size.mem_pixels] at hp ⊢
  have hex : extentSize.width.toNat = maxSurfaceExtent ∧
      extentSize.height.toNat = maxSurfaceExtent := ⟨rfl, rfl⟩
  obtain ⟨hwd, hhg⟩ := h
  omega

theorem pixels_zero : (⟨0, 0⟩ : Size).pixels = ∅ := by
  refine Set.eq_empty_iff_forall_notMem.2 fun p hp => ?_
  change (0 ≤ p.1 ∧ p.1 < 0) ∧ _ at hp
  omega

theorem CommittedBuffer.small_size (b : CommittedBuffer) : b.size.Small :=
  ⟨b.layout.extent.1.2, b.layout.extent.2.2⟩

theorem CommittedState.size_eq (self : CommittedState) : self.size = self.geometry.getD ⟨0, 0⟩ := by
  unfold CommittedState.size CommittedState.geometry
  cases self.buffer <;> rfl

theorem CommittedState.small_size (self : CommittedState) : self.size.Small := by
  unfold CommittedState.size
  split
  · exact CommittedBuffer.small_size _
  · exact ⟨Nat.zero_le _, Nat.zero_le _⟩

/-! ## The loops of the requests -/

namespace SurfaceState

theorem foldlM_damage {set : DamageSet} (hset : set.Within extentSize) (rects : List BufferRect) :
    ∃ set', rects.foldlM addDamage set = .ok set' ∧ set'.Within extentSize ∧
      set.pixels ∪ cover (rects.map BufferRect.toRect) ∩ extentSize.pixels ⊆ set'.pixels := by
  induction rects generalizing set with
  | nil => exact ⟨set, rfl, hset, by simp⟩
  | cons r rects ih =>
    obtain ⟨hpx, hwt⟩ := r.clipToExtent_exact extentSize
    rw [map_cons, cover_cons, Set.union_inter_distrib_right, ← Set.union_assoc, ← hpx]
    cases hcl : r.clipToExtent extentSize.width extentSize.height with
    | none =>
      obtain ⟨set', hfl, hset', hcv⟩ := ih hset
      refine ⟨set', ?_, hset', ?_⟩
      · rw [foldlM_cons, addDamage, hcl]
        exact hfl
      · simpa [Rect.pixelsOf] using hcv
    | some c =>
      obtain ⟨set₁, hin, hset₁, hcover₁, -⟩ := insert_of_within small_extentSize hset (hwt c hcl)
      obtain ⟨set', hfl, hset', hcv⟩ := ih hset₁
      refine ⟨set', ?_, hset', (Set.union_subset_union_left _ hcover₁).trans hcv⟩
      rw [foldlM_cons, addDamage, hcl]
      simp only [hin]
      exact hfl

theorem valid_of_clipTo {result : Option Rect} (h : r.clipTo size = .ok result) : r.Valid := by
  simp only [Rect.clipTo, ite_error_eq_ok, bind_eq_ok] at h
  obtain ⟨-, _, hvl, -⟩ := h
  exact Rect.of_validate hvl

theorem clipRegionRects_ok {out : List Rect} (h : clipRegionRects rects = .ok out) :
    out = clipped rects extentSize ∧ ∀ r ∈ rects, r.Valid := by
  have hlp : ∀ {rects acc out : List Rect}, rects.foldlM clipRegionRect acc = .ok out →
      out = acc ++ clipped rects extentSize ∧ ∀ r ∈ rects, r.Valid := by
    intro rects
    induction rects with
    | nil =>
      simp [clipped]
    | cons r rects ih =>
      intro acc out h
      rw [foldlM_cons, bind_eq_ok] at h
      obtain ⟨acc', hst, hrs⟩ := h
      obtain ⟨rfl, hvl⟩ := ih hrs
      unfold clipRegionRect at hst
      cases hcl : r.clipTo extentSize with
      | error e =>
        rw [hcl] at hst
        cases hst
      | ok result =>
        rw [hcl] at hst
        refine ⟨?_, forall_mem_cons.2 ⟨valid_of_clipTo hcl, hvl⟩⟩
        rw [clipped_cons hcl]
        cases result <;> cases hst <;> simp
  unfold clipRegionRects at h
  split at h
  · cases h
  · simpa using hlp h

/-- An opaque region that has not degraded holds all that was appended. -/
theorem appendOpaque_rects {set' : RegionSet} (hset : set.Within extentSize)
    (hrc : ∀ r ∈ rects, r.Within extentSize) (h : appendOpaque set rects = .rects set') :
    set'.Within extentSize ∧ set'.pixels = set.pixels ∪ cover rects := by
  induction rects generalizing set with
  | nil =>
    cases h
    exact ⟨hset, by simp⟩
  | cons r rects ih =>
    unfold appendOpaque at h
    split at h
    · cases h
    next hlen =>
    obtain ⟨hwt, -, hex⟩ := insertOrKeep_of_within small_extentSize hset (hrc r mem_cons_self)
    obtain ⟨hset', hpx⟩ := ih hwt (fun q hq => hrc q (mem_cons_of_mem r hq)) h
    refine ⟨hset', ?_⟩
    have hrm : set.rects.length < maxRegionRects := Nat.lt_of_le_of_ne set.fits hlen
    rw [hpx, pixels, hex hrm, cover_append, cover_cons, cover_cons, cover_nil,
      Set.union_empty, Set.union_assoc]
    rfl

/-! ## What a surface keeps -/

/-- The surface covers the declared damage, and keeps the opaque region if it keeps one. -/
structure Tracks (s : SurfaceState) (d : Declared) : Prop where
  pendingWithin : s.pending.damage.Within extentSize
  pendingCover : d.damage ∩ extentSize.pixels ⊆ s.pending.damage.pixels
  unlatchedWithin : s.unlatchedDamage.Within extentSize
  unlatchedCover : d.committed ∩ s.committed.size.pixels ⊆ s.unlatchedDamage.pixels
  resizedCover : d.resized → s.committed.size.pixels ⊆ s.unlatchedDamage.pixels
  opaqueExact : ∀ set, s.pending.opaqueRegion = .rects set →
    set.Within extentSize ∧ set.pixels = d.opaqueRegion ∩ extentSize.pixels

theorem tracks_new : Tracks new .nothing where
  pendingWithin := within_new
  pendingCover := by simp [Declared.nothing]
  unlatchedWithin := within_new
  unlatchedCover := by simp [Declared.nothing]
  resizedCover h := h.elim
  opaqueExact := by
    rintro _ ⟨⟩
    exact ⟨within_new, by simp [Declared.nothing]⟩

variable {s : SurfaceState}

theorem Tracks.damage (h : Tracks s d) (rects : List BufferRect) :
    (s.damage rects).2 = s ∧ (s.damage rects).1 ≠ .ok () ∨
      (s.damage rects).1 = .ok () ∧ Tracks (s.damage rects).2
        { d with damage := d.damage ∪ cover (rects.map BufferRect.toRect) } := by
  unfold SurfaceState.damage
  split
  · exact .inl ⟨rfl, fun h => (by cases h)⟩
  obtain ⟨set', hfl, hset', hcv⟩ := foldlM_damage h.pendingWithin rects
  rw [hfl]
  refine .inr ⟨rfl, { h with pendingWithin := hset', pendingCover := ?_ }⟩
  rw [Set.union_inter_distrib_right]
  exact (Set.union_subset_union_left _ h.pendingCover).trans hcv

theorem Tracks.setOpaqueRegion (h : Tracks s d) (rects : List Rect) (replace : Bool) :
    (s.setOpaqueRegion rects replace).2 = s ∧ (s.setOpaqueRegion rects replace).1 ≠ .ok () ∨
      (s.setOpaqueRegion rects replace).1 = .ok () ∧ Tracks (s.setOpaqueRegion rects replace).2
        { d with opaqueRegion := if replace then cover rects else d.opaqueRegion ∪ cover rects } := by
  unfold SurfaceState.setOpaqueRegion
  cases hcl : clipRegionRects rects with
  | error e => exact .inl ⟨rfl, fun h => (by cases h)⟩
  | ok out =>
    obtain ⟨rfl, hvl⟩ := clipRegionRects_ok hcl
    have hwt := within_clipped small_extentSize hvl
    have hcv := cover_clipped small_extentSize hvl
    refine .inr ⟨rfl, { h with opaqueExact := ?_ }⟩
    intro set hset
    cases replace with
    | true =>
      obtain ⟨hset', hpx⟩ := appendOpaque_rects within_new hwt hset
      exact ⟨hset', by rw [hpx, hcv]; simp⟩
    | false =>
      cases hrg : s.pending.opaqueRegion with
      | degraded => simp [hrg] at hset
      | rects base =>
        obtain ⟨hbs, hbs'⟩ := h.opaqueExact base hrg
        simp only [hrg, Bool.false_eq_true, if_false] at hset
        obtain ⟨hset', hpx⟩ := appendOpaque_rects hbs hwt hset
        refine ⟨hset', ?_⟩
        rw [hpx, hbs', hcv, ← Set.union_inter_distrib_right]
        rfl

/-- The damage of a commit: all of a new geometry, or what was declared of an old one. -/
theorem commitDamage_cover {pendingDamage : DamageSet} (hpn : pendingDamage.Within extentSize)
    (oldSize : Option Size) (buffer : Option CommittedBuffer) :
    let size := (buffer.map CommittedBuffer.size).getD ⟨0, 0⟩
    let damage := commitDamage pendingDamage oldSize (buffer.map CommittedBuffer.size)
    damage.Within size ∧ (oldSize ≠ buffer.map CommittedBuffer.size → size.pixels ⊆ damage.pixels) ∧
      (oldSize = buffer.map CommittedBuffer.size →
        pendingDamage.pixels ∩ size.pixels ⊆ damage.pixels) := by
  cases buffer with
  | none =>
    refine ⟨within_new, fun _ => ?_, fun _ => ?_⟩ <;>
      simp only [Option.map_none, Option.getD_none, pixels_zero, Set.inter_empty, Set.empty_subset]
  | some b =>
    simp only [Option.map_some, Option.getD_some, commitDamage]
    by_cases hold : oldSize = some b.size
    · obtain ⟨hwt, hcv, -⟩ := insertClipped_new (N := maxDamageRectsPerCommit)
        b.small_size fun r hr => (hpn r hr).valid small_extentSize
      rw [if_neg (not_not.2 hold)]
      exact ⟨hwt, fun h => absurd hold h, fun _ => hcv⟩
    · obtain ⟨hwt, hcv, -⟩ := insertOrKeep_of_within b.small_size
        (within_new (N := maxDamageRectsPerCommit))
        (Rect.ofSize_within b.layout.extent.1.1 b.layout.extent.2.1)
      rw [if_pos hold]
      rw [pixels_new, Set.empty_union] at hcv
      exact ⟨hwt, fun _ => hcv, fun h => absurd h hold⟩

/-- What is recorded as opaque. -/
theorem clipSetTo_pixels (hset : set.Within extentSize) (hsz : size.Small) :
    (clipSetTo set size).pixels = set.pixels ∩ size.pixels :=
  (insertClipped_new hsz fun r hr => (hset r hr).valid small_extentSize).2.2 set.fits

variable {N : Nat}

section
variable (surface : SurfaceId) (request : CommitRequest) (tracker : BufferTracker N)
  (window : Option ConfigureState) (buffer : Option CommittedBuffer)

theorem Tracks.commitApply (h : Tracks s d) :
    Tracks (s.commitApply surface request tracker window buffer).2.1 { d with
        damage := ∅
        committed := d.committed ∪ d.damage
        resized := d.resized ∨ s.committed.geometry ≠ buffer.map CommittedBuffer.size } := by
  obtain ⟨hwt, hfl, hdc⟩ := commitDamage_cover h.pendingWithin s.committed.geometry buffer
  have hsz : (s.commitApply surface request tracker window buffer).2.1.committed.size =
      (buffer.map size).getD ⟨0, 0⟩ := CommittedState.size_eq _
  have hsm : ((buffer.map size).getD ⟨0, 0⟩).Small := by
    rw [← hsz]
    exact CommittedState.small_size _
  obtain ⟨hwt', hcv, -⟩ := foldl_insertOrKeep small_extentSize h.unlatchedWithin
    fun r hr => (hwt r hr).mono hsm.1 hsm.2
  have hun : s.unlatchedDamage.pixels ⊆
      (s.commitApply surface request tracker window buffer).2.1.unlatchedDamage.pixels :=
    Set.subset_union_left.trans hcv
  have hdm : (commitDamage s.pending.damage s.committed.geometry (buffer.map size)).pixels ⊆
      (s.commitApply surface request tracker window buffer).2.1.unlatchedDamage.pixels :=
    Set.subset_union_right.trans hcv
  refine
    { pendingWithin := within_new
      pendingCover := by simp
      unlatchedWithin := hwt'
      unlatchedCover := ?_
      resizedCover := ?_
      opaqueExact := h.opaqueExact }
  · rw [hsz]
    by_cases hgm : s.committed.geometry = buffer.map size
    · -- the same area: what was covered before, and the damage of this commit
      rw [Set.union_inter_distrib_right, Set.union_subset_iff]
      constructor
      · rw [← hgm, ← CommittedState.size_eq]
        exact h.unlatchedCover.trans hun
      · refine Set.Subset.trans ?_ ((hdc hgm).trans hdm)
        exact fun p hp => ⟨h.pendingCover ⟨hp.1, hsm.pixels_subset hp.2⟩, hp.2⟩
    · exact Set.inter_subset_right.trans ((hfl hgm).trans hdm)
  · rw [hsz]
    by_cases hgm : s.committed.geometry = buffer.map size
    · rintro (hrs | hne)
      · rw [← hgm, ← CommittedState.size_eq]
        exact (h.resizedCover hrs).trans hun
      · exact absurd hgm hne
    · exact fun _ => (hfl hgm).trans hdm

theorem Tracks.commitApply_region (h : Tracks s d) :
    let committed := (s.commitApply surface request tracker window buffer).2.1.committed
    committed.opaqueRegion.pixels = d.opaqueRegion ∩ committed.size.pixels ∨
      committed.opaqueRegion.rects = [] := by
  have hsz : (s.commitApply surface request tracker window buffer).2.1.committed.size =
      (buffer.map size).getD ⟨0, 0⟩ := CommittedState.size_eq _
  have hsm := (s.commitApply surface request tracker window buffer).2.1.committed.small_size
  cases hrg : s.pending.opaqueRegion with
  | degraded =>
    right
    simp only [SurfaceState.commitApply, hrg]
    rfl
  | rects set =>
    left
    obtain ⟨hset, hpx⟩ := h.opaqueExact set hrg
    have hcm : (s.commitApply surface request tracker window buffer).2.1.committed.opaqueRegion =
        clipSetTo set ((buffer.map size).getD ⟨0, 0⟩) := by
      simp only [SurfaceState.commitApply, hrg]
    rw [hcm, ← hsz, clipSetTo_pixels hset hsm, hpx, Set.inter_assoc,
      Set.inter_eq_right.2 hsm.pixels_subset]

end

/-- A latch hands over what was kept, inside of the committed area. -/
theorem Tracks.latch (h : Tracks s d) (surface : SurfaceId) (tracker : BufferTracker N) :
    Tracks (s.latch surface tracker).2.1 { d with committed := ∅, resized := False } ∧
      (s.latch surface tracker).1.damage.Within s.committed.size ∧
      s.unlatchedDamage.pixels ∩ s.committed.size.pixels ⊆
        (s.latch surface tracker).1.damage.pixels := by
  have hdm : (s.latch surface tracker).1.damage =
      if s.committed.size.width > 0 ∧ s.committed.size.height > 0 then
        insertClipped .new s.unlatchedDamage.rects s.committed.size
      else .new := rfl
  refine ⟨?_, ?_⟩
  · exact { h with
        unlatchedWithin := within_new
        unlatchedCover := by simp
        resizedCover := fun hfl => hfl.elim }
  · rw [hdm]
    split_ifs with hsz
    · obtain ⟨hwt, hcv, -⟩ := insertClipped_new (N := maxDamageRectsPerCommit)
        s.committed.small_size fun r hr => (h.unlatchedWithin r hr).valid small_extentSize
      exact ⟨hwt, hcv⟩
    · -- an area without extent has no pixels
      refine ⟨within_new, fun p hp => ?_⟩
      have hin := hp.2
      rw [Size.mem_pixels] at hin
      exfalso
      refine hsz ⟨?_, ?_⟩ <;> rw [gt_iff_lt, UInt32.lt_iff_toNat_lt] <;> change 0 < _ <;> omega

end SurfaceState

/-! ## Runs -/

namespace Surfaces

variable {N : Nat}

theorem frame_tracks {s s' : SurfaceState} (h : s.Tracks d)
    (hpn : s'.pending.damage = s.pending.damage)
    (hrg : s'.pending.opaqueRegion = s.pending.opaqueRegion) (hcm : s'.committed = s.committed)
    (hun : s'.unlatchedDamage = s.unlatchedDamage) : s'.Tracks d := by
  constructor
  · rw [hpn]
    exact h.pendingWithin
  · rw [hpn]
    exact h.pendingCover
  · rw [hun]
    exact h.unlatchedWithin
  · rw [hcm, hun]
    exact h.unlatchedCover
  · rw [hcm, hun]
    exact h.resizedCover
  · rw [hrg]
    exact h.opaqueExact

theorem step_tracks {s : Surfaces N} {surface : SurfaceId}
    (h : (s.state surface).Tracks d) (op : SurfaceId × SurfaceOp) :
    ((step s op).2.state surface).Tracks (d.next surface (.of step s op)) := by
  obtain ⟨target, op⟩ := op
  by_cases htr : target = surface
  · subst htr
    cases op with
    | attach buffer scale =>
      simp only [Declared.next, Event.of, step, set, update_self, if_true]
      rcases (s.state target).attach_frame buffer scale s.tracker with hsm | hfr
      · rw [hsm]
        exact h
      · rw [hfr]
        exact frame_tracks h rfl rfl rfl rfl
    | damage rects =>
      simp only [Declared.next, Event.of, step, set, update_self, if_true]
      rcases h.damage rects with ⟨hsm, her⟩ | ⟨hok, htc⟩
      · rw [hsm]
        cases hrs : ((s.state target).damage rects).1 with
        | error e => exact h
        | ok _ => exact absurd hrs her
      · rw [hok]
        exact htc
    | setOpaqueRegion rects replace =>
      simp only [Declared.next, Event.of, step, set, update_self, if_true]
      rcases h.setOpaqueRegion rects replace with ⟨hsm, her⟩ | ⟨hok, htc⟩
      · rw [hsm]
        cases hrs : ((s.state target).setOpaqueRegion rects replace).1 with
        | error e => exact h
        | ok _ => exact absurd hrs her
      · rw [hok]
        exact htc
    | setInputRegion rects replace =>
      simp only [Declared.next, Event.of, step, set, update_self, if_true]
      obtain ⟨input, hfr⟩ := (s.state target).setInputRegion_frame rects replace
      rw [hfr]
      exact frame_tracks h rfl rfl rfl rfl
    | commit request window resolve =>
      simp only [Declared.next, Event.of, step, set, update_self, if_true]
      rcases (s.state target).commit_cases target request s.tracker window resolve with
        ⟨e, -, hcm⟩ | ⟨buffer, -, hcm⟩
      · rw [hcm]
        exact h
      · rw [hcm]
        exact h.commitApply target request s.tracker window buffer
    | latch =>
      simp only [Declared.next, Event.of, step, set, update_self, if_true]
      exact (h.latch target s.tracker).1
    | frameSubmitted presentSeq =>
      simp only [Declared.next, Event.of, step, set, update_self, if_true]
      obtain ⟨frame, hfr⟩ := (s.state target).frameSubmitted_frame presentSeq
      rw [hfr]
      exact frame_tracks h rfl rfl rfl rfl
    | presentCompleted completedSeq completedNs =>
      simp only [Declared.next, Event.of, step, set, update_self, if_true]
      obtain ⟨frame, hfr⟩ := (s.state target).presentCompleted_frame completedSeq completedNs
      rw [hfr]
      exact frame_tracks h rfl rfl rfl rfl
    | remove =>
      simp only [Declared.next, Event.of, step, set, update_self, if_true]
      exact SurfaceState.tracks_new
  · have hst : (step s (target, op)).2.state surface = s.state surface := by
      cases op <;> simp [step, set, update_of_ne (Ne.symm htr)]
    have hnx : d.next surface (.of step s (target, op)) = d := if_neg htr
    rw [hst, hnx]
    exact h

theorem run_tracks (ops : List (SurfaceId × SurfaceOp)) (surface : SurfaceId) :
    ((run step (new : Surfaces N) ops).state surface).Tracks
      (declared surface (trace step (new : Surfaces N) ops)) := by
  refine run_induction step (P := fun log s => (s.state surface).Tracks (declared surface log))
    SurfaceState.tracks_new ?_ ops
  intro log s op h
  unfold declared at h ⊢
  rw [foldl_append]
  exact step_tracks h op

/-- The damage that a latch returns covers the declared damage of all commits since the last latch,
and all of the area if one of them changed it. It stays inside of the area, in a bounded number of
rectangles. -/
theorem latch_covers_damage (ops : List (SurfaceId × SurfaceOp)) (surface : SurfaceId) :
    let s := run step (new : Surfaces N) ops
    let d := declared surface (trace step (new : Surfaces N) ops)
    let size := (s.state surface).committed.size
    let latch := ((s.state surface).latch surface s.tracker).1
    (∀ p ∈ d.committed, p ∈ size.pixels → p ∈ latch.damage.pixels) ∧
      (d.resized → size.pixels ⊆ latch.damage.pixels) ∧
      (∀ r ∈ latch.damage.rects, r.Within size) ∧
      latch.damage.rects.length ≤ maxDamageRectsPerCommit := by
  intro s d size latch
  have htr := run_tracks (N := N) ops surface
  obtain ⟨-, hwt, hcv⟩ := htr.latch surface s.tracker
  refine ⟨fun p hp hin => hcv ⟨htr.unlatchedCover ⟨hp, hin⟩, hin⟩, fun hrs p hp => ?_,
    hwt, latch.damage.fits⟩
  exact hcv ⟨htr.resizedCover hrs hp, hp⟩

/-- A buffer of one pixel, damaged and declared opaque. -/
def onePixel : List (SurfaceId × SurfaceOp) :=
  let surface : SurfaceId := ⟨⟨0x200, _, rfl⟩⟩
  [(surface, .attach (some ⟨⟨0x201, _, rfl⟩⟩) .one), (surface, .damage [⟨0, 0, 1, 1⟩]),
    (surface, .setOpaqueRegion [⟨0, 0, 1, 1⟩] true)]

theorem checkLayout_onePixel : checkLayout 1 1 4 = .ok () := rfl

def commitOnePixel : SurfaceOp := .commit ⟨true, .srgb, none⟩ none fun _ =>
    .ok ⟨1, 1, 4, .argb8888Premultiplied, checkLayout_onePixel⟩

theorem latch_covers_damage_one_pixel :
    let surface : SurfaceId := ⟨⟨0x200, _, rfl⟩⟩
    let s := run step (new : Surfaces 1) (onePixel ++ [(surface, commitOnePixel)])
    let latch := ((s.state surface).latch surface s.tracker).1
    ((0, 0) : Pixel) ∈ latch.damage.pixels ∧
      (s.state surface).committed.size.pixels ⊆ latch.damage.pixels := by
  have h := latch_covers_damage (N := 1) (onePixel ++ [(⟨⟨0x200, _, rfl⟩⟩, commitOnePixel)])
    ⟨⟨0x200, _, rfl⟩⟩
  have hdm : (0, 0) ∈ (declared ⟨⟨0x200, _, rfl⟩⟩ (trace step (new : Surfaces 1)
      (onePixel ++ [(⟨⟨0x200, _, rfl⟩⟩, commitOnePixel)]))).committed :=
    .inr (.inr ⟨BufferRect.toRect ⟨0, 0, 1, 1⟩, List.mem_singleton.2 rfl,
      BufferRect.mem_pixels_toRect.2 (by decide)⟩)
  have hin : (0, 0) ∈ (⟨1, 1⟩ : Size).pixels := Size.mem_pixels.2 (by decide)
  have hrs : (declared ⟨⟨0x200, _, rfl⟩⟩ (trace step (new : Surfaces 1)
      (onePixel ++ [(⟨⟨0x200, _, rfl⟩⟩, commitOnePixel)]))).resized :=
    .inr (Option.some_ne_none (⟨1, 1⟩ : Size)).symm
  exact ⟨h.1 (0, 0) hdm hin, h.2.1 hrs⟩

/-- The opaque region that a commit records is the declared one inside of the committed area, or
nothing. -/
theorem opaque_region_declared (ops : List (SurfaceId × SurfaceOp)) (surface : SurfaceId)
    (request : CommitRequest) (window : Option ConfigureState)
    (resolve : ClientBufferId → Except ProtocolError BufferLayout) :
    let s := run step (new : Surfaces N) ops
    let d := declared surface (trace step (new : Surfaces N) ops)
    let reply := step s (surface, .commit request window resolve)
    let committed := (reply.2.state surface).committed
    ∀ outcome, reply.1 = .committed (.ok outcome) →
      committed.opaqueRegion.pixels ⊆ d.opaqueRegion ∩ committed.size.pixels ∧
        (committed.opaqueRegion.pixels = d.opaqueRegion ∩ committed.size.pixels ∨
          committed.opaqueRegion.rects = []) := by
  intro s d reply committed outcome hrp
  have htr := run_tracks (N := N) ops surface
  rcases (s.state surface).commit_cases surface request s.tracker window resolve with
    ⟨e, -, hcm⟩ | ⟨buffer, -, hcm⟩
  · simp only [reply, step, hcm, SurfaceReply.committed.injEq] at hrp
    cases hrp
  have hct : committed =
      ((s.state surface).commitApply surface request s.tracker window buffer).2.1.committed := by
    simp only [committed, reply, step, hcm, set, update_self]
  rw [hct]
  have hrg := htr.commitApply_region surface request s.tracker window buffer
  refine ⟨?_, hrg⟩
  rcases hrg with hex | hem
  · exact hex.subset
  · rw [RectSet.pixels, hem, cover_nil]
    exact Set.empty_subset _

theorem opaque_region_declared_one_pixel :
    let surface : SurfaceId := ⟨⟨0x200, _, rfl⟩⟩
    let s := (step (run step (new : Surfaces 1) onePixel) (surface, commitOnePixel)).2
    (s.state surface).committed.opaqueRegion.pixels ⊆
      (declared surface (trace step (new : Surfaces 1) onePixel)).opaqueRegion ∩
        (s.state surface).committed.size.pixels :=
  (opaque_region_declared (N := 1) onePixel ⟨⟨0x200, _, rfl⟩⟩ ⟨true, .srgb, none⟩ none
    (fun _ => .ok ⟨1, 1, 4, .argb8888Premultiplied, checkLayout_onePixel⟩) _ rfl).1

end Surfaces

end CleanSlate.Graphics
