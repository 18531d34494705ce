import CleanSlate.ServicePort.Verify.Preservation

/-!
# The effects a call owes

A call owes the effects of its moves, and none is dropped: what a chain of silent moves can owe is
in a list of at most `4 * P + C` effects (`owable`), which fits. So when every move that breaks a
property owes some effect, a call that breaks it owes the effect too (`Steps.edge`).
-/

namespace CleanSlate.ServicePort

open Lib List WakeBinding
open Capability

variable {P C N : Nat} {B : Type} {all effects : List (Effect B)} {effect : Effect B}
  {core' : PortCore P C B} {n : Nat} {obs : Observation} {R : PortCore P C B → Prop}

/-! ## No effect is dropped -/

section
variable [DecidableEq B]

theorem emit_nodup {items : List (Effect B)} (h : items.Nodup) (effect : Effect B) :
    (emit items effect).Nodup := by
  unfold emit
  split
  · exact h
  next hne =>
  split
  · refine nodup_append.2 ⟨h, nodup_singleton _, fun a ha b hb => ?_⟩
    rw [mem_singleton.1 hb]
    rintro rfl
    exact hne ha
  · exact h

/-- As long as everything that is pushed comes from a list that fits, everything is kept. -/
theorem mem_emitAll (hall : all.length ≤ effectsCapacity)
    (effects : List (Effect B)) (hsub : effects ⊆ all) :
    ∀ items, items.Nodup → items ⊆ all →
      ∀ effect, effect ∈ items ∨ effect ∈ effects → effect ∈ emitAll items effects := by
  induction effects with
  | nil =>
    intro items _ _ effect h
    rcases h with h | h
    · exact h
    · cases h
  | cons first rest ih =>
    intro items hnd hit effect h
    have hfr : first ∈ all := hsub mem_cons_self
    have hem : ∀ e, e ∈ items ∨ e = first → e ∈ emit items first := by
      intro e he
      unfold emit
      split
      · next hmem =>
        rcases he with he | rfl
        · exact he
        · exact hmem
      · next hne =>
        -- one more distinct effect still fits
        have hlt : (first :: items).length ≤ all.length := (nodup_cons.2 ⟨hne, hnd⟩).subperm
            (cons_subset.2 ⟨hfr, hit⟩) |>.length_le
        rw [length_cons] at hlt
        rw [if_pos (by omega), mem_append, mem_singleton]
        exact he
    have hsb : emit items first ⊆ all := by
      unfold emit
      split
      · exact hit
      · split
        · exact append_subset.2 ⟨hit, cons_subset.2 ⟨hfr, nil_subset _⟩⟩
        · exact hit
    refine ih (fun e he => hsub (mem_cons_of_mem _ he)) _ (emit_nodup hnd first) hsb effect ?_
    rcases h with h | h
    · exact .inl (hem effect (.inl h))
    · rcases mem_cons.1 h with rfl | h
      · exact .inl (hem _ (.inr rfl))
      · exact .inr h

theorem mem_emitAll_nil (hall : all.length ≤ effectsCapacity)
    (hsub : effects ⊆ all) (h : effect ∈ effects) :
    effect ∈ emitAll [] effects :=
  mem_emitAll hall effects hsub [] nodup_nil (nil_subset _) effect (.inr h)

end

theorem signals_length (wake : Option (WakeBinding B)) (bit : WakeBinding B → UInt32) :
    (signals wake bit).length ≤ 1 := by
  cases wake <;> simp [signals]

theorem mem_signals {wake : Option (WakeBinding B)} {bit : WakeBinding B → UInt32}
    {binding : WakeBinding B} (h : wake = some binding) :
    Effect.signal binding.target (bit binding) ∈ signals wake bit := by
  rw [h]
  exact mem_singleton_self _

/-- Everything that silent moves from `core` on can owe. -/
def owable (core : PortCore P C B) : List (Effect B) := ((List.finRange P).flatMap fun p =>
    [.wakeServer (core.key p), .wakeSendSpace (core.key p)] ++
      signals (core.ports p).wake WakeBinding.requestBit ++
      signals (core.ports p).wake WakeBinding.noticeBit) ++
    (List.finRange C).map fun c => .wakeConnection (core.connectionId c)

theorem flatMap_length_le {α β : Type} {f : α → List β} {k : Nat} (h : ∀ a, (f a).length ≤ k)
    (l : List α) : (l.flatMap f).length ≤ k * l.length := by
  induction l with
  | nil => exact le_rfl
  | cons a l ih =>
    have ha := h a
    rw [flatMap_cons, length_append, length_cons, Nat.mul_succ]
    omega

theorem owable_length (fits : PortCore.Fits P C) (core : PortCore P C B) :
    (owable core).length ≤ effectsCapacity := by
  have hpr := flatMap_length_le (fun p => by
    have h1 := signals_length (core.ports p).wake requestBit
    have h2 := signals_length (core.ports p).wake noticeBit
    show ([Effect.wakeServer (core.key p), .wakeSendSpace (core.key p)] ++
      signals (core.ports p).wake requestBit ++
      signals (core.ports p).wake noticeBit).length ≤ 4
    simp only [length_append, length_cons, length_nil]
    omega) (finRange P)
  have hft := fits.effects
  unfold owable
  rw [length_append, length_map, length_finRange]
  rw [length_finRange] at hpr
  omega

/-! ## Silent moves -/

/-- What silent moves leave alone: the keys, the ids, and the bindings and servers of the ports
still live. -/
structure Steady (core mid : PortCore P C B) : Prop where
  key : ∀ p, mid.key p = core.key p
  id : ∀ c, mid.connectionId c = core.connectionId c
  live : ∀ p, (mid.ports p).live → (core.ports p).live ∧ (mid.ports p).wake = (core.ports p).wake
  server : ∀ p, (mid.ports p).live → (mid.ports p).server = (core.ports p).server ∧
    (mid.ports p).serverGeneration = (core.ports p).serverGeneration
  wake : ∀ p, (mid.ports p).wake = (core.ports p).wake ∨ (mid.ports p).wake = none

theorem Steady.refl (core : PortCore P C B) : Steady core core :=
  ⟨fun _ => rfl, fun _ => rfl, fun _ h => ⟨h, rfl⟩, fun _ _ => ⟨rfl, rfl⟩, fun _ => .inl rfl⟩

variable {mid core : PortCore P C B}

theorem Steady.trans (h : Steady core mid) (h' : Steady mid core') : Steady core core' where
  key p := (h'.key p).trans (h.key p)
  id c := (h'.id c).trans (h.id c)
  live p hlv := by
    obtain ⟨hmid, hwk⟩ := h'.live p hlv
    exact ⟨(h.live p hmid).1, hwk.trans (h.live p hmid).2⟩
  server p hlv := by
    obtain ⟨hsr, hgen⟩ := h'.server p hlv
    obtain ⟨hsr', hgen'⟩ := h.server p (h'.live p hlv).1
    exact ⟨hsr.trans hsr', hgen.trans hgen'⟩
  wake p := by
    rcases h'.wake p with hw | hw
    · rw [hw]
      exact h.wake p
    · exact .inr hw

theorem Steady.signals_subset (h : Steady core mid) (p : Fin P) (bit : WakeBinding B → UInt32) :
    signals (mid.ports p).wake bit ⊆ signals (core.ports p).wake bit := by
  rcases h.wake p with hw | hw
  · rw [hw]
    exact List.Subset.refl _
  · rw [hw]
    exact nil_subset _

theorem Steady.owable_subset (h : Steady core mid) : owable mid ⊆ owable core := by
  intro effect hef
  unfold owable at hef ⊢
  simp only [mem_append, mem_flatMap, mem_map, h.key, h.id] at hef ⊢
  rcases hef with ⟨p, hp, (hwk | hrq) | hnt⟩ | hcn
  · exact .inl ⟨p, hp, .inl (.inl hwk)⟩
  · exact .inl ⟨p, hp, .inl (.inr (h.signals_subset p _ hrq))⟩
  · exact .inl ⟨p, hp, .inr (h.signals_subset p _ hnt)⟩
  · exact .inr hcn

section Owable

theorem wakeServer_mem_owable (p : Fin P) : .wakeServer (core.key p) ∈ owable core :=
  mem_append_left _ (mem_flatMap.2 ⟨p, mem_finRange p, by simp⟩)

theorem wakeSendSpace_mem_owable (p : Fin P) : .wakeSendSpace (core.key p) ∈ owable core :=
  mem_append_left _ (mem_flatMap.2 ⟨p, mem_finRange p, by simp⟩)

theorem wakeConnection_mem_owable (c : Fin C) :
    .wakeConnection (core.connectionId c) ∈ owable core :=
  mem_append_right _ (mem_map.2 ⟨c, mem_finRange c, rfl⟩)

theorem noticeSignals_subset_owable (p : Fin P) :
    signals (core.ports p).wake noticeBit ⊆ owable core := fun _ h =>
  mem_append_left _ (mem_flatMap.2 ⟨p, mem_finRange p, mem_append_right _ h⟩)

/-- A silent move owes nothing outside `owable`, and leaves the keys, ids and bindings. -/
theorem Move.silent (move : Move core .none effects core') :
    effects ⊆ owable core ∧ Steady core core' := by
  cases move with
  | @clientClose p c kind reason on kind_ne =>
    constructor
    · refine append_subset.2 ⟨append_subset.2 ⟨?_, noticeSignals_subset_owable p⟩, ?_⟩
      · exact cons_subset.2 ⟨wakeServer_mem_owable p, nil_subset _⟩
      · exact cons_subset.2 ⟨wakeSendSpace_mem_owable p,
          cons_subset.2 ⟨wakeConnection_mem_owable c, nil_subset _⟩⟩
    · have hpr : ∀ q, (core.endConnection p c (.closePending kind reason)
          (core.connections c).events.clear).ports q = if q = p then
            ((core.ports p).purged (core.connectionId c)).advance else core.ports q := by
        intro q
        unfold PortCore.endConnection
        rw [PortCore.setConnection_ports, PortCore.setPort_ports, Function.update_apply]
      refine ⟨fun q => core.endConnection_key p q c _ _,
        fun d => core.endConnection_connectionId p c d _ _, fun q => ?_, fun q => ?_, fun q => ?_⟩
      all_goals
        rw [hpr]
        split
      · next hq => rw [hq]; exact fun h => ⟨h, rfl⟩
      · exact fun h => ⟨h, rfl⟩
      · next hq => rw [hq]; exact fun _ => ⟨rfl, rfl⟩
      · exact fun _ => ⟨rfl, rfl⟩
      · next hq => rw [hq]; exact .inl rfl
      · exact .inl rfl
  | @discard c ended =>
    exact ⟨cons_subset.2 ⟨wakeConnection_mem_owable c, nil_subset _⟩,
      fun _ => rfl, core.connectionId_setConnection c rfl, fun _ h => ⟨h, rfl⟩,
      fun _ _ => ⟨rfl, rfl⟩, fun _ => .inl rfl⟩
  | @teardown p seqs seq severed live wakes =>
    constructor
    · refine append_subset.2 ⟨fun effect h => ?_, ?_⟩
      · obtain ⟨c, rfl⟩ := wakes.only effect h
        exact wakeConnection_mem_owable c
      · exact cons_subset.2 ⟨wakeSendSpace_mem_owable p,
          cons_subset.2 ⟨wakeServer_mem_owable p, nil_subset _⟩⟩
    · refine ⟨core.tornDown_key p seqs seq, core.tornDown_connectionId p seqs seq,
        fun q hlv => ?_, fun q hlv => ?_, fun q => ?_⟩
      · obtain ⟨hq, hlv⟩ := PortCore.tornDown_live hlv
        exact ⟨hlv, by rw [core.tornDown_ports_of_ne hq]⟩
      · rw [core.tornDown_ports_of_ne (PortCore.tornDown_live hlv).1]
        exact ⟨rfl, rfl⟩
      · by_cases hq : q = p
        · rw [hq, core.tornDown_ports_self]
          exact .inr rfl
        · rw [core.tornDown_ports_of_ne hq]
          exact .inl rfl

theorem Path.silent (path : Path core n effects core') :
    effects ⊆ owable core ∧ Steady core core' := by
  induction path with
  | refl => exact ⟨nil_subset _, .refl core⟩
  | snoc path move ih =>
    obtain ⟨hsub, hst⟩ := ih
    obtain ⟨hmr, hnx⟩ := move.silent
    exact ⟨append_subset.2 ⟨hsub, fun e he => hst.owable_subset (hmr he)⟩, hst.trans hnx⟩

/-- A move owes at most two effects, or is silent. -/
theorem Move.effects_length (move : Move core obs effects core') :
    effects.length ≤ 2 ∨ obs = .none := by
  cases move with
  | @enqueue p =>
    have := signals_length (core.ports p).wake requestBit
    simp only [length_append, length_cons, length_nil]
    omega
  | bind =>
    split <;> split <;> simp
  | clientClose | discard | teardown => exact .inr rfl
  | _ => exact .inl (by simp)

section
variable [DecidableEq B] (fits : PortCore.Fits P C)
include fits

theorem Move.mem_emitAll (move : Move core obs effects core') (h : effect ∈ effects) :
    effect ∈ emitAll [] effects := by
  rcases move.effects_length with hlen | rfl
  · exact mem_emitAll_nil (Nat.le_trans hlen (by decide)) (List.Subset.refl _) h
  · exact mem_emitAll_nil (owable_length fits core) move.silent.1 h

theorem Path.mem_emitAll (path : Path core n effects core') (h : effect ∈ effects) :
    effect ∈ emitAll [] effects :=
  mem_emitAll_nil (owable_length fits core) path.silent.1 h

end

/-- A chain of silent moves keeps `R`, or the move that breaks it owes the effect. -/
theorem Path.edge (hP : P ≤ 255) (hC : C ≤ 65535)
    (step : ∀ {mid core' : PortCore P C B} {effects : List (Effect B)}, Inv mid → R mid →
      Move mid .none effects core' → R core' ∨ effect ∈ effects)
    (path : Path core n effects core') (inv : Inv core) (h : R core) :
    R core' ∨ effect ∈ effects := by
  induction path with
  | refl => exact .inl h
  | snoc path move ih =>
    rcases ih with hmid | hmem
    · rcases step (path.inv hP hC inv) hmid move with hnx | hmem
      · exact .inl hnx
      · exact .inr (mem_append_right _ hmem)
    · exact .inr (mem_append_left _ hmem)

/-- A call keeps `R`, or owes the effect that every move breaking `R` owes. -/
theorem Steps.edge [DecidableEq B] (fits : PortCore.Fits P C)
    (step : ∀ {mid core' : PortCore P C B} {obs : Observation} {effects : List (Effect B)},
      Inv mid → R mid → Move mid obs effects core' → R core' ∨ effect ∈ effects)
    (steps : Steps core obs effects core') (inv : Inv core) (h : R core) :
    R core' ∨ effect ∈ effects := by
  cases steps with
  | move move => exact (step inv h move).imp_right (move.mem_emitAll fits)
  | path short path =>
    exact (path.edge fits.ports.2 fits.connections.2 step inv h).imp_right (path.mem_emitAll fits)

end Owable

end CleanSlate.ServicePort
