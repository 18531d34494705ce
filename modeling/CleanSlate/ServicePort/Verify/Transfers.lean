import CleanSlate.ServicePort.Verify.Owed
import CleanSlate.ServicePort.Verify.Send

/-!
# Transferred children over a run

Every call keeps the account of the children that SENDs installed (`Custody`): a new child is
carried by one queued request, a RECV that takes the request hands it over, and a dropped request
takes it out of the table. No handle is issued twice, so over a whole run each child is carried
once, was handed over once, or is gone (`Accounted`).
-/

namespace CleanSlate.ServicePort

open Lib PortCore List
open Function (update update_self update_of_ne)
open Capability
open CapabilityTable

variable {P C N : Nat} {B : Type} {core : PortCore P C B} {mints : List (HolderId × TransferredCap)}
  {hands : List TransferredCap} {s : PortSystem P C N B}

section Calls
variable [DecidableEq B]

omit [DecidableEq B] in
theorem carries_enqueue {p q : Fin P} {c : Fin C}
    {entry e : Fin portMaxRequestQueueDepth} {request : Request} {child : TransferredCap}
    (hfree : ((core.ports p).requests entry).isLive = false) (hlive : request.isLive) :
    Carries (enqueue core p c entry request) q e child ↔
      Carries core q e child ∨ q = p ∧ e = entry ∧ request.transfer = some child := by
  unfold Carries enqueue
  by_cases hq : q = p
  · subst hq
    by_cases he : e = entry
    · subst he
      simp [update_self, hfree, hlive]
    · simp [he]
  · simp [hq]

/-- SEND moves at most the child it installs. -/
theorem send_custody (fits : Fits P C) (s : PortSystem P C N B) (inv : Inv s.core)
    (caller : Caller) (connection : UInt64) (frame : Frame) (transfer : Option Transfer) :
    Custody s (minted (Event.of portStep s (.send caller connection frame transfer))) none
      (portStep s (.send caller connection frame transfer)).2 := by
  have hot := send_outcome fits.ports.2 s.call caller connection frame transfer
  unfold minted Event.of portStep CallState.return
  dsimp only
  generalize send s.call caller connection frame transfer = result at hot ⊢
  cases hot with
  | refused error => exact (Unloads.refl s.call).custody
  | revoked => exact (closePending_unloads s.call _ _ _).custody
  | @childFailed p error table child =>
    have hkp := sendChild_keeps s.table caller.holder (s.core.ports p).server transfer
    rw [show sendChild s.table caller.holder (s.core.ports p).server transfer = _ from child] at hkp
    exact .kept (fun _ _ _ => Iff.rfl) hkp
  | @accepted p c entry rights child table client on capacity free mint =>
    have hseq : (sentRequest s.core caller p c frame rights child).isLive := by
      exact decide_eq_true ((inv.ports p).nextSeq on.live)
    have hpr : s.core.connectionPort c = .ok p :=
      (connectionPort_ok fits.ports.2).2 ⟨on.live, on.port⟩
    have hmn : sendChild s.table caller.holder (s.core.ports p).server transfer =
      (.ok child, table) := mint
    have hsn : s.sentChild caller connection transfer =
        child.map fun child => ((s.core.ports p).server, child) := by
      unfold PortSystem.sentChild
      rw [show s.core.clientConnection caller connection = .ok c from client]
      simp only [hpr, hmn]
      cases child <;> rfl
    simp only [hsn, CallState.signal_core, CallState.signal_table, CallState.push_core,
      CallState.push_table]
    cases child with
    | none =>
      have htb := sendChild_none hmn
      refine .kept (fun q e other => ?_) ?_
      · refine (carries_enqueue free hseq).trans ?_
        simp [sentRequest, PortSystem.call]
      · rw [htb]
        exact .refl s.table
    | some child =>
      refine @Custody.minted P C N B s _ p entry child (fun q e other => ?_) (sendChild_some hmn)
      refine (carries_enqueue free hseq).trans ?_
      simp only [sentRequest, PortSystem.call, Option.some.injEq, eq_comm]

theorem portStep_custody (fits : Fits P C) (s : PortSystem P C N B) (inv : Inv s.core)
    (op : PortOp B) :
    (∃ tableOp, op = .table tableOp) ∨
      Custody s (minted (Event.of portStep s op)) (handed (Event.of portStep s op))
        (portStep s op).2 := by
  rcases (portStep_outcome fits s op).2 with htb | ⟨caller, connection, frame, transfer, rfl⟩ | h
  · exact .inl htb
  · exact .inr (send_custody fits s inv caller connection frame transfer)
  · exact .inr h

end Calls

/-! ## The account -/

/-- The children installed in a run, in order. -/
def mintedIn (log : List (PortEvent P C N B)) : List (HolderId × TransferredCap) :=
  log.filterMap minted

/-- The children handed over in a run, in order. -/
def handedIn (log : List (PortEvent P C N B)) : List TransferredCap := log.filterMap handed

/-- The child's handle resolves to nothing. -/
def Gone (table : CapabilityTable N) (child : TransferredCap) : Prop :=
  ∀ handle i, CapabilityHandle.decode child.handle = .ok handle → ¬table.Resolves handle i

/-- The child's handle was issued by the table, and as long as it resolves it finds the child's
own capability. -/
def Issued (table : CapabilityTable N) (server : HolderId) (child : TransferredCap) : Prop :=
  ∃ handle, CapabilityHandle.decode child.handle = .ok handle ∧
    handle.position ≤ slotPosition table handle.slot.toNat ∧
    ∀ i, table.Resolves handle i → OwnRecord server child (table.slots i)

variable {table table' : CapabilityTable N} {server : HolderId} {child : TransferredCap}
  {s' : PortSystem P C N B} {mint : Option (HolderId × TransferredCap)}
  {hand : Option TransferredCap}

section Tables

theorem OwnRecord.revoke {r : CapabilityRecord} (h : OwnRecord server child r) :
    OwnRecord server child r.revoke :=
  ⟨h.holder, h.resourceClass, h.resource, (by decide : Rights.empty.contains .delegate = false)⟩

theorem Issued.ages (h : Issued table server child) (hag : Ages table table') :
    Issued table' server child := by
  obtain ⟨handle, hdc, hle, hown⟩ := h
  refine ⟨handle, hdc, Nat.le_trans hle (slotPosition_ages hag _), fun i hres => ?_⟩
  obtain ⟨hbf, heq | heq⟩ := resolves_of_ages hag hle hres
  · rw [heq]
    exact hown i hbf
  · rw [heq]
    exact (hown i hbf).revoke

theorem Gone.ages (h : Gone table child) (his : Issued table server child)
    (hag : Ages table table') : Gone table' child := by
  obtain ⟨handle, hdc, hle, -⟩ := his
  intro other i hot hres
  obtain rfl : other = handle := Except.ok.inj (hot.symm.trans hdc)
  exact h other i hot (resolves_of_ages hag hle hres).1

/-- A fresh child has a handle that no issued one has. -/
theorem Installs.handle_ne (h : Installs table table' server child) {server' : HolderId}
    {child' : TransferredCap} (his : Issued table server' child') :
    child'.handle ≠ child.handle := by
  obtain ⟨handle, i, hdc, hfr, -⟩ := h.fresh
  obtain ⟨han', hdc', hle, -⟩ := his
  intro heq
  rw [heq, hdc] at hdc'
  obtain rfl : handle = han' := Except.ok.inj hdc'
  omega

theorem Installs.issued (h : Installs table table' server child) : Issued table' server child := by
  obtain ⟨handle, i, hdc, -, hres, -, hown⟩ := h.fresh
  obtain ⟨hsl, hpos⟩ := resolves_iff_position.1 hres
  refine ⟨handle, hdc, ?_, fun j hj => ?_⟩
  · rw [hsl, slotPosition_eq, hpos]
  · rw [hj.1.unique hres.1]
    exact hown

end Tables

/-- The account of the children that were installed and of those that were handed over. -/
structure Accounted (mints : List (HolderId × TransferredCap)) (hands : List TransferredCap)
    (s : PortSystem P C N B) : Prop where
  fresh : (mints.map fun m => m.2.handle).Nodup
  issued : ∀ m ∈ mints, Issued s.table m.1 m.2
  carried : ∀ p entry child, Carries s.core p entry child →
    (∃ server, (server, child) ∈ mints) ∧ child ∉ hands
  once : ∀ p entry q e child, Carries s.core p entry child → Carries s.core q e child →
    q = p ∧ e = entry
  handedOnce : hands.Nodup
  known : ∀ child ∈ hands, ∃ server, (server, child) ∈ mints
  placed : ∀ m ∈ mints, (∃ p entry, Carries s.core p entry m.2) ∨ m.2 ∈ hands ∨ Gone s.table m.2

theorem Custody.ages (h : Custody s mint hand s') : Ages s.table s'.table := by
  cases h with
  | kept carries keeps => exact keeps.ages
  | purged purges => exact purges.table.ages
  | minted carries installs => exact installs.ages
  | handed carried carries table =>
    rw [table]
    exact .refl s.table

section Account

theorem Accounted.new (table : CapabilityTable N) :
    Accounted [] [] (⟨⟨fun _ => .empty, fun _ => .empty⟩, table⟩ : PortSystem P C N B) where
  fresh := nodup_nil
  issued _ h := nomatch h
  carried _ _ _ h := nomatch h.1
  once _ _ _ _ _ h := nomatch h.1
  handedOnce := nodup_nil
  known _ h := nomatch h
  placed _ h := nomatch h

section

variable (h : Accounted mints hands s)
include h

theorem Accounted.settle (hag : Ages s.table s'.table)
    (hkp : ∀ p entry child, Carries s'.core p entry child → Carries s.core p entry child)
    (hpl : ∀ p entry child, Carries s.core p entry child →
      Carries s'.core p entry child ∨ Gone s'.table child) : Accounted mints hands s' where
  fresh := h.fresh
  issued m hm := (h.issued m hm).ages hag
  carried p entry child hc := h.carried p entry child (hkp p entry child hc)
  once p entry q e child hc hc' :=
    h.once p entry q e child (hkp p entry child hc) (hkp q e child hc')
  handedOnce := h.handedOnce
  known := h.known
  placed m hm := by
    rcases h.placed m hm with ⟨p, entry, hc⟩ | hhn | hgn
    · rcases hpl p entry m.2 hc with hc | hgn
      · exact .inl ⟨p, entry, hc⟩
      · exact .inr (.inr hgn)
    · exact .inr (.inl hhn)
    · exact .inr (.inr (hgn.ages (h.issued m hm) hag))

/-- A new child is carried by the one request that was queued with it. -/
theorem Accounted.after_mint {p : Fin P} {entry : Fin portMaxRequestQueueDepth}
    (hin : Installs s.table s'.table server child) (hcr : ∀ q e other, Carries s'.core q e other ↔
      Carries s.core q e other ∨ q = p ∧ e = entry ∧ other = child) :
    Accounted (mints ++ [(server, child)]) hands s' := by
  have hnew : ∀ m ∈ mints, m.2.handle ≠ child.handle := fun m hm =>
    hin.handle_ne (h.issued m hm)
  -- the new child was neither carried nor handed over before
  have hnotCarried : ∀ q e, ¬Carries s.core q e child := fun q e hc => by
    obtain ⟨⟨server', hmem⟩, -⟩ := h.carried q e child hc
    exact hnew _ hmem rfl
  have hnotHanded : child ∉ hands := fun hmem => by
    obtain ⟨server', hmn⟩ := h.known child hmem
    exact hnew _ hmn rfl
  refine ⟨?_, fun m hm => ?_, fun q e other hc => ?_, fun q e q' e' other hc hc' => ?_,
    h.handedOnce, fun other hmem => ?_, fun m hm => ?_⟩
  · rw [map_append, nodup_append]
    refine ⟨h.fresh, nodup_singleton _, fun a ha b hb => ?_⟩
    obtain ⟨m, hm, rfl⟩ := mem_map.1 ha
    rw [mem_singleton.1 hb]
    exact hnew m hm
  · rcases mem_append.1 hm with hm | hm
    · exact (h.issued m hm).ages hin.ages
    · rw [mem_singleton.1 hm]
      exact hin.issued
  · rcases (hcr q e other).1 hc with hc | ⟨-, -, rfl⟩
    · obtain ⟨⟨server', hmem⟩, hnot⟩ := h.carried q e other hc
      exact ⟨⟨server', mem_append_left _ hmem⟩, hnot⟩
    · exact ⟨⟨server, mem_append_right _ (mem_singleton_self _)⟩, hnotHanded⟩
  · rcases (hcr q e other).1 hc with hold | ⟨rfl, rfl, rfl⟩
    · rcases (hcr q' e' other).1 hc' with hold' | ⟨-, -, rfl⟩
      · exact h.once q e q' e' other hold hold'
      · exact absurd hold (hnotCarried q e)
    · rcases (hcr q' e' other).1 hc' with hold' | ⟨rfl, rfl, -⟩
      · exact absurd hold' (hnotCarried q' e')
      · exact ⟨rfl, rfl⟩
  · obtain ⟨server', hmn⟩ := h.known other hmem
    exact ⟨server', mem_append_left _ hmn⟩
  · rcases mem_append.1 hm with hm | hm
    · rcases h.placed m hm with ⟨q, e, hc⟩ | hhn | hgn
      · exact .inl ⟨q, e, (hcr q e m.2).2 (.inl hc)⟩
      · exact .inr (.inl hhn)
      · exact .inr (.inr (hgn.ages (h.issued m hm) hin.ages))
    · rw [mem_singleton.1 hm]
      exact .inl ⟨p, entry, (hcr p entry child).2 (.inr ⟨rfl, rfl, rfl⟩)⟩

theorem Accounted.after_hand {p : Fin P} {entry : Fin portMaxRequestQueueDepth}
    (hcr : Carries s.core p entry child)
    (hcs : ∀ q e other, Carries s'.core q e other ↔ Carries s.core q e other ∧ ¬(q = p ∧ e = entry))
    (htb : s'.table = s.table) : Accounted mints (hands ++ [child]) s' := by
  obtain ⟨⟨server, hmn⟩, hnot⟩ := h.carried p entry child hcr
  refine ⟨h.fresh, fun m hm => ?_, fun q e other hc => ?_, fun q e q' e' other hc hc' => ?_,
    ?_, fun other hmem => ?_, fun m hm => ?_⟩
  · rw [htb]
    exact h.issued m hm
  · obtain ⟨hold, hne⟩ := (hcs q e other).1 hc
    obtain ⟨hmem, hnotHanded⟩ := h.carried q e other hold
    refine ⟨hmem, fun hin => ?_⟩
    rcases mem_append.1 hin with hin | hin
    · exact hnotHanded hin
    · rw [mem_singleton.1 hin] at hold
      exact hne (h.once p entry q e child hcr hold)
  · exact h.once q e q' e' other ((hcs q e other).1 hc).1 ((hcs q' e' other).1 hc').1
  · refine nodup_append.2 ⟨h.handedOnce, nodup_singleton _, fun a ha b hb heq => ?_⟩
    rw [heq, mem_singleton.1 hb] at ha
    exact hnot ha
  · rcases mem_append.1 hmem with hmem | hmem
    · exact h.known other hmem
    · rw [mem_singleton.1 hmem]
      exact ⟨server, hmn⟩
  · rcases h.placed m hm with ⟨q, e, hc⟩ | hhn | hgn
    · by_cases heq : q = p ∧ e = entry
      · obtain ⟨rfl, rfl⟩ := heq
        rw [hc.unique hcr]
        exact .inr (.inl (mem_append_right _ (mem_singleton_self _)))
      · exact .inl ⟨q, e, (hcs q e m.2).2 ⟨hc, heq⟩⟩
    · exact .inr (.inl (mem_append_left _ hhn))
    · rw [htb]
      exact .inr (.inr hgn)

theorem Accounted.custody (hst : Custody s mint hand s') :
    Accounted (mints ++ mint.toList) (hands ++ hand.toList) s' := by
  cases hst with
  | kept carries keeps =>
    simp only [Option.toList_none, append_nil]
    exact h.settle keeps.ages (fun p entry child => (carries p entry child).1)
      fun p entry child hc => .inl ((carries p entry child).2 hc)
  | purged purges =>
    simp only [Option.toList_none, append_nil]
    refine h.settle purges.table.ages purges.kept fun p entry child hc => ?_
    refine (purges.dropped p entry child hc).imp_right fun hdr handle i hdc => ?_
    exact purges.table.gone (hdr handle hdc) i
  | minted carries installs =>
    simp only [Option.toList_none, append_nil, Option.toList_some]
    exact h.after_mint installs carries
  | handed carried carries table =>
    simp only [Option.toList_none, append_nil, Option.toList_some]
    exact h.after_hand carried carries table

end

end Account

theorem run_accounted [DecidableEq B] (h : PortCore.new = some core)
    (table : CapabilityTable N) (ops : List (PortOp B)) :
    Accounted (mintedIn (trace portStep ⟨core, table⟩ ops))
      (handedIn (trace portStep ⟨core, table⟩ ops)) (run portStep ⟨core, table⟩ ops) := by
  obtain ⟨fits, rfl⟩ := new_eq h
  refine (run_induction portStep (P := fun log s => Inv s.core ∧
    Accounted (mintedIn log) (handedIn log) s) ⟨.new, .new table⟩ ?_ ops).2
  rintro log s op ⟨inv, hac⟩
  refine ⟨(portStep_steps fits s op).inv fits inv, ?_⟩
  rw [mintedIn, handedIn, filterMap_snoc, filterMap_snoc]
  rcases portStep_custody fits s inv op with ⟨tableOp, rfl⟩ | hcs
  · simp only [minted, handed, Event.of, portStep, Option.toList_none, append_nil]
    exact hac.settle (tableStep_ages s.table tableOp) (fun _ _ _ h => h) fun _ _ _ h => .inl h
  · exact hac.custody hcs

/-! ## Every run -/

/-- Where a transferred child is: carried by one queued request and not handed over, or handed
over once and carried by none, or neither, and then its handle resolves to nothing. -/
inductive Whereabouts (hands : List TransferredCap) (s : PortSystem P C N B)
    (child : TransferredCap) : Prop
  | queued (carried : ∃! place : Fin P × Fin portMaxRequestQueueDepth,
        Carries s.core place.1 place.2 child)
      (notHanded : hands.count child = 0)
  | handedOver (notCarried : ∀ p entry, ¬Carries s.core p entry child)
      (once : hands.count child = 1)
  | gone (notCarried : ∀ p entry, ¬Carries s.core p entry child)
      (notHanded : hands.count child = 0) (gone : Gone s.table child)

theorem Accounted.whereabouts (h : Accounted mints hands s)
    {m : HolderId × TransferredCap} (hm : m ∈ mints) : Whereabouts hands s m.2 := by
  by_cases hcr : ∃ p entry, Carries s.core p entry m.2
  · obtain ⟨p, entry, hc⟩ := hcr
    refine .queued ⟨(p, entry), hc, ?_⟩ (count_eq_zero.2 (h.carried p entry m.2 hc).2)
    rintro ⟨q, e⟩ hot
    obtain ⟨rfl, rfl⟩ := h.once p entry q e m.2 hc hot
    rfl
  · have hnot : ∀ p entry, ¬Carries s.core p entry m.2 := fun p entry hc =>
      hcr ⟨p, entry, hc⟩
    by_cases hhn : m.2 ∈ hands
    · exact .handedOver hnot (count_eq_one_of_mem h.handedOnce hhn)
    refine .gone hnot (count_eq_zero.2 hhn) ?_
    rcases h.placed m hm with hc | hmem | hgn
    · exact absurd hc hcr
    · exact absurd hmem hhn
    · exact hgn

/-- A slot that a call empties held the own child of a request the call dropped. -/
theorem Accounted.dropped_own (h : Accounted mints hands s) {H : CapabilityHandle → Prop}
    (purges : Purges s s' H) {i : Fin N} (hch : s'.table.slots i ≠ s.table.slots i) :
    ∃ p entry, ∃ m ∈ mints, ∃ handle, Carries s.core p entry m.2 ∧
      ¬Carries s'.core p entry m.2 ∧ CapabilityHandle.decode m.2.handle = .ok handle ∧
      s.table.Resolves handle i ∧ OwnRecord m.1 m.2 (s.table.slots i) := by
  rcases purges.table i with ⟨heq, -⟩ | ⟨⟨handle, hh, hres⟩, -⟩
  · exact absurd heq hch
  obtain ⟨p, entry, child, hc, hno, hdc⟩ := purges.only handle hh
  obtain ⟨⟨server, hmem⟩, -⟩ := h.carried p entry child hc
  obtain ⟨han', hdc', -, hown⟩ := h.issued _ hmem
  obtain rfl : handle = han' := Except.ok.inj (hdc.symm.trans hdc')
  exact ⟨p, entry, (server, child), hmem, handle, hc, hno, hdc, hres, hown i hres⟩

/-- A call of the engine that takes a live capability away drops requests. -/
theorem Custody.live_changed (h : Custody s mint hand s') {i : Fin N}
    (hlive : s.table.Live i) (hch : s'.table.slots i ≠ s.table.slots i) :
    ∃ H, Purges s s' H := by
  cases h with
  | kept carries keeps => exact absurd (keeps.live i hlive) hch
  | purged purges => exact ⟨_, purges⟩
  | minted carries installs => exact absurd (installs.live i hlive) hch
  | handed carried carries table =>
    rw [table] at hch
    exact absurd rfl hch

/-! ## Exits -/

/-- No call of the engine breaks the delegation policy: a child has no `DELEGATE`, so nothing is
below the ones it drops. -/
theorem Accounted.attenuated (h : Accounted mints hands s)
    (hst : Custody s mint hand s') (hat : Attenuated s.table) : Attenuated s'.table := by
  cases hst with
  | kept carries keeps => exact keeps.attenuated hat
  | purged purges =>
    refine ⟨hat.rooted.of_live_subset (fun i => purges.table.live) fun i j hi hj hpr => ?_,
      fun i => ?_⟩
    · by_cases heq : s'.table.slots j = s.table.slots j
      · unfold CapabilityTable.Live
        rwa [heq]
      · obtain ⟨-, -, m, -, -, -, -, -, -, hown⟩ := h.dropped_own purges heq
        have hli : s.table.Live i := by
          rwa [CapabilityTable.Live, ← purges.table.live hi]
        have hdel := (hat.rooted.live_parent hli hpr).2.delegates
        rw [hown.leaf] at hdel
        cases hdel
    · rcases purges.table i with ⟨heq, -⟩ | ⟨-, heq⟩
      · rw [heq]
        exact hat.slot i
      · rw [heq]
        exact noLaundering_law.release _
  | minted carries installs => exact installs.attenuated hat
  | handed carried carries table =>
    rw [table]
    exact hat

/-- A call on the table that goes through the delegation policy. -/
def PortOp.Governed : PortOp B → Prop
  | .table op => ∃ call : ForestOp, op = call.toTableOp
  | _ => True

variable {ops : List (PortOp B)}

section Runs
variable [DecidableEq B]

theorem run_attenuated (h : PortCore.new = some core) (hat : Attenuated table)
    (hgv : ∀ op ∈ ops, op.Governed) : Attenuated (run portStep ⟨core, table⟩ ops).table := by
  obtain ⟨fits, -⟩ := new_eq h
  induction ops using reverseRecOn with
  | nil => exact hat
  | append_singleton ops op ih =>
    rw [forall_mem_append, forall_mem_singleton] at hgv
    rw [run_snoc]
    rcases portStep_custody fits _ (run_inv h table ops) op with ⟨tableOp, rfl⟩ | hcs
    · obtain ⟨call, rfl⟩ := hgv.2
      exact forestStep_attenuated (ih hgv.1) call
    · exact (run_accounted h table ops).attenuated hcs (ih hgv.1)

/-- The child is not live under its handle. -/
def Dead (table : CapabilityTable N) (child : TransferredCap) : Prop :=
  ∀ handle i, CapabilityHandle.decode child.handle = .ok handle → table.Resolves handle i →
    ¬table.Live i

/-- What is dead stays dead. -/
theorem Dead.ages (h : Dead table child) (his : Issued table server child)
    (hag : Ages table table') : Dead table' child := by
  obtain ⟨handle, hdc, hle, -⟩ := his
  intro other i hot hres hlive
  obtain rfl : other = handle := Except.ok.inj (hot.symm.trans hdc)
  obtain ⟨hbf, heq | heq⟩ := resolves_of_ages hag hle hres <;>
    rw [CapabilityTable.Live, heq] at hlive
  · exact h other i hot hbf hlive
  · cases hlive

/-- The end of its holder's exit takes a child's capability away. -/
theorem Issued.exit (hN : N ≤ 65536) (hat : Attenuated table) (h : Issued table server child) :
    Dead (revokeHolderTree table server).2 child := by
  obtain ⟨handle, hdc, -, hown⟩ := h.ages (tableStep_ages table (.revokeHolderTree server))
  intro other i hot hres hlive
  obtain rfl : other = handle := Except.ok.inj (hot.symm.trans hdc)
  exact revokeHolderTree_live hN (hat.wellRooted attenuates_lineage noLaundering_law) hlive
    (hown i hres).holder

/-- Dead after its holder's exit, a child stays so whatever is called. -/
theorem run_dead (fits : Fits P C) (h : Dead s.table child)
    (his : Issued s.table server child) (inv : Inv s.core) (ops : List (PortOp B)) :
    Dead (run portStep s ops).table child := by
  refine (run_invariant portStep (P := fun t => Inv t.core ∧ Issued t.table server child ∧
    Dead t.table child) ⟨inv, his, h⟩ ?_ ops).2.2
  rintro t op ⟨inv, his, h⟩
  have hag : Ages t.table (portStep t op).2.table := by
    rcases portStep_custody fits t inv op with ⟨tableOp, rfl⟩ | hcs
    · exact tableStep_ages t.table tableOp
    · exact hcs.ages
  exact ⟨(portStep_steps fits t op).inv fits inv, his.ages hag, h.ages his hag⟩

end Runs

/-- **Transferred children are never lost or duplicated.** Over every run of the engine, with any
calls of others on the capability table: no two SENDs install a child under the same handle; each
child is carried by exactly one queued request, or was handed to the server exactly once, or is
gone for good. A call of the engine takes no live capability away but the own child of a request it
drops. And when the calls of others go through the delegation policy, no child is live any more
once the exit of the holder it was installed for, which ends in `revoke_holder_tree`, is over,
whatever is called before and after. -/
theorem transfers_accounted [DecidableEq B] {core : PortCore P C B} (h : PortCore.new = some core)
    (table : CapabilityTable N) (ops : List (PortOp B)) :
    let log := trace portStep ⟨core, table⟩ ops
    let s := run portStep ⟨core, table⟩ ops
    ((mintedIn log).map fun m => m.2.handle).Nodup ∧
    (∀ m ∈ mintedIn log, Whereabouts (handedIn log) s m.2) ∧
    (∀ op, (∀ tableOp, op ≠ .table tableOp) → ∀ i, s.table.Live i →
      (portStep s op).2.table.slots i ≠ s.table.slots i →
      ∃ p entry, ∃ m ∈ mintedIn log, ∃ handle, Carries s.core p entry m.2 ∧
        ¬Carries (portStep s op).2.core p entry m.2 ∧
        CapabilityHandle.decode m.2.handle = .ok handle ∧ s.table.Resolves handle i ∧
        OwnRecord m.1 m.2 (s.table.slots i)) ∧
    (N ≤ 65536 → Attenuated table → ∀ later, (∀ op ∈ ops ++ later, op.Governed) →
      ∀ m ∈ mintedIn log, .table (.revokeHolderTree m.1) ∈ later →
        Dead (run portStep s later).table m.2) := by
  intro log s
  have hlog := run_accounted h table ops
  obtain ⟨fits, -⟩ := new_eq h
  refine ⟨hlog.fresh, fun m hm => hlog.whereabouts hm, fun op hop i hlive hch => ?_,
    fun hN hat later hgv m hm hexit => ?_⟩
  · rcases portStep_custody fits s (run_inv h table ops) op with ⟨tableOp, rfl⟩ | hcs
    · exact absurd rfl (hop tableOp)
    · obtain ⟨H, purges⟩ := hcs.live_changed hlive hch
      exact hlog.dropped_own purges hch
  · obtain ⟨before, after, rfl⟩ := append_of_mem hexit
    rw [← append_assoc] at hgv
    have hsys := run_append portStep ⟨core, table⟩ ops before
    have his := (run_accounted h table (ops ++ before)).issued m (by
      rw [trace_append, mintedIn, filterMap_append]
      exact mem_append_left _ hm)
    have hat := run_attenuated h hat fun op hop => hgv op (mem_append_left _ hop)
    have inv := run_inv h table (ops ++ before)
    rw [hsys] at his hat inv
    rw [run_append]
    -- the exit itself, then the calls after it
    generalize run portStep s before = t at his hat inv
    have hdd : Dead (portStep t (.table (.revokeHolderTree m.1))).2.table m.2 := his.exit hN hat
    exact run_dead fits hdd (his.ages (tableStep_ages _ (.revokeHolderTree m.1))) inv after

/-- The child the client of `sharingSession` sends. -/
def soleChild : TransferredCap :=
  ⟨CapabilityHandle.encode ⟨3, 1⟩, soleBuffer.encode, 4096, Rights.read.bits,
    ResourceClass.sharedBuffer.asU8⟩

/-- The client sends its buffer. -/
def sendingSession : List (PortOp Unit) :=
  sharingSession ++ [.send soleClient soleConnection zeroFrame (some soleTransfer)]

/-- The client sends its buffer and the server receives it. -/
def handingSession : List (PortOp Unit) := sendingSession ++ [.recv soleServer soleServe]

/-- The exit of a holder: `on_holder_exit`, then `revoke_holder_tree`. -/
def exitOps (holder : HolderId) (generation : UInt64) : List (PortOp Unit) :=
  [.holderExit holder generation, .table (.revokeHolderTree holder)]

/-- A child handed over is dead once client and server have exited. -/
theorem transfers_accounted_handed :
    Whereabouts (handedIn (trace portStep sharingStart handingSession))
        (run portStep sharingStart handingSession) soleChild ∧
      soleChild ∈ handedIn (trace portStep sharingStart handingSession) ∧
      (run portStep sharingStart handingSession).table.Live 3 ∧
      Dead (run portStep (run portStep sharingStart handingSession)
        (exitOps ⟨2⟩ 1 ++ exitOps ⟨1⟩ 1)).table soleChild := by
  have h := transfers_accounted (show PortCore.new = some sharingStart.core from rfl)
    sharingStart.table handingSession
  have heta : ⟨sharingStart.core, sharingStart.table⟩ = sharingStart := rfl
  simp only [heta] at h
  obtain ⟨-, hpl, -, hex⟩ := h
  have hmem : (⟨1⟩, soleChild) ∈ mintedIn (trace portStep sharingStart handingSession) := by
    exact mem_singleton_self _
  refine ⟨hpl _ hmem, mem_singleton_self _, by decide +kernel,
    hex (by decide) attenuated_new _ ?_ _ hmem (by simp [exitOps])⟩
  simp only [handingSession, sendingSession, sharingSession, openSession, exitOps, cons_append,
    nil_append, forall_mem_cons]
  exact ⟨⟨.grantRoot _ _ _, rfl⟩, ⟨.grantRoot _ _ _, rfl⟩, trivial, trivial,
    ⟨.grantRoot _ _ _, rfl⟩, trivial, trivial, trivial, ⟨.revokeHolderTree _, rfl⟩, trivial,
    ⟨.revokeHolderTree _, rfl⟩, nofun⟩

/-- A child can be queued and revoked at once: the client revokes its buffer's subtree, and the
child's slot is released while its request waits. -/
theorem queued_child_revoked :
    let ops := sendingSession ++ [.table (.revokeSubtree ⟨2, 1⟩), .table .releaseRevoked]
    (⟨1⟩, soleChild) ∈ mintedIn (trace portStep sharingStart ops) ∧
      Carries (run portStep sharingStart ops).core 0 0 soleChild ∧
      (run portStep sharingStart ops).table.stateAt 3 = .empty := by
  refine ⟨?_, ⟨?_, ?_⟩, ?_⟩ <;> decide +kernel

end CleanSlate.ServicePort
