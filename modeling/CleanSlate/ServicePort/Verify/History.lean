import CleanSlate.Lib.Channel
import CleanSlate.ServicePort.Verify.Delivery

/-!
# Connection ids in a history

CONNECT never returns an id twice: the generation of a slot only grows. So what a history says about
an id is about one connection, from the call that opens it to the one that ends it (`Seen`). Each of
its two directions is then a channel, which the end of the connection shuts (`Conveyed`).
-/

namespace CleanSlate.ServicePort

open Lib
open Capability

variable {P C N : Nat} {B : Type} {core core' : PortCore P C B} {obs : Observation}
  {effects : List (Effect B)} {id : ConnectionId}

section

theorem Inv.not_fresh (hC : C ≤ 65535) (inv : Inv core) {c : Fin C}
    (hus : (core.connections c).state ≠ .free) : ¬Fresh core (core.connectionId c) := by
  intro h
  have hgen := (inv.connections c).generation hus
  have hlt := h c (PortCore.connectionId_slot core hC hgen)
  rw [PortCore.connectionId_generation core hgen] at hlt
  exact Nat.lt_irrefl _ hlt

theorem Inv.openOn_unique (fits : PortCore.Fits P C) (inv : Inv core) {p q : Fin P} {c d : Fin C}
    (hc : OpenOn core p c) (hd : OpenOn core q d)
    (hid : core.connectionId d = core.connectionId c) : q = p ∧ d = c := by
  have heq : d = c := by
    by_contra hne
    exact inv.connectionId_ne fits.connections.2 hc.used hd.used hne hid.symm
  subst heq
  exact ⟨PortCore.key_inj fits.ports.2 (hd.port.symm.trans hc.port), rfl⟩

variable [DecidableEq B]

/-- CONNECT returns an id that none returned before, and its slot remembers it. -/
theorem Steps.connected_new (hC : C ≤ 65535) (steps : Steps core obs effects core')
    (h : obs = .connected id) : ∃ c, id.slot.toNat = c.val ∧
      (core.connections c).generation.toNat < id.generation.toNat ∧
      (core'.connections c).generation = id.generation := by
  cases steps with
  | path => cases h
  | move move =>
    cases move with
    | @connect p c caller handle live free generation =>
      cases h
      refine ⟨c, ?_, ?_, ?_⟩
      · exact UInt16.toNat_ofNat_of_lt' (by have := c.isLt; simp only [UInt16.size]; omega)
      · rw [Generation.toNat_add_one generation]
        exact Nat.lt_succ_self _
      · rw [PortCore.setConnection_connections, Function.update_self]
        rfl
    | _ => cases h

theorem Steps.connected_fresh (hC : C ≤ 65535) (steps : Steps core obs effects core')
    (h : obs = .connected id) : Fresh core id := by
  obtain ⟨c, hsl, hlt, -⟩ := steps.connected_new hC h
  intro d hd
  obtain rfl : c = d := Fin.ext (hsl.symm.trans hd)
  exact hlt

end

/-! ## No id is issued twice -/

/-- The generation of a connection slot. -/
def connectionLevel (s : PortSystem P C N B) (slot : Nat) : Nat :=
  if h : slot < C then (s.core.connections ⟨slot, h⟩).generation.toNat else 0

theorem connectedId_eq_some [DecidableEq B] {s : PortSystem P C N B} {op : PortOp B}
    (h : (portStep s op).1.connectedId = some id) :
    observe (Event.of portStep s op) = .connected id := by
  cases op with
  | connect caller handle resourceClass resource =>
    simp only [portStep, PortOutput.connectedId] at h
    simp only [observe, Event.of, portStep]
    split at h
    · next result hrs =>
      cases h
      rw [hrs]
    · cases h
  | _ => cases h

/-- No run issues a connection id twice. -/
theorem connectedIds_nodup [DecidableEq B] (fits : PortCore.Fits P C) (s : PortSystem P C N B)
    (ops : List (PortOp B)) : (issued PortOutput.connectedId (trace portStep s ops)).Nodup := by
  refine issued_nodup portStep PortOutput.connectedId (fun id => id.slot.toNat)
    (fun id => id.generation.toNat) connectionLevel (fun s op slot => ?_) (fun s op id hid => ?_)
    s ops
  · unfold connectionLevel
    split
    · exact (portStep_steps fits s op).generation_le _
    · exact le_rfl
  · obtain ⟨c, hsl, hlt, heq⟩ :=
      (portStep_steps fits s op).connected_new fits.connections.2 (connectedId_eq_some hid)
    unfold connectionLevel
    rw [hsl, dif_pos c.isLt, dif_pos c.isLt]
    exact ⟨hlt, by rw [heq]⟩

/-! ## What a history says about a connection -/

/-- What is put into the connection `id` and what comes out of it: nothing before it is opened, and
what ends it comes last. -/
structure Seen {α β : Type} (put : Observation → Option α) (get : Observation → Option β)
    (last : β → Prop) (hist : List Observation) (core : PortCore P C B) (id : ConnectionId) :
    Prop where
  fresh : Fresh core id → hist.filterMap put = [] ∧ hist.filterMap get = []
  used : ∀ c, (core.connections c).state ≠ .free → core.connectionId c = id →
    ∀ b ∈ hist.filterMap get, ¬last b
  shape : LastOnly last (hist.filterMap get)

variable {α β : Type} {last : β → Prop}

section
variable {put : Observation → Option α} {get : Observation → Option β}

theorem Seen.new : Seen put get last [] (⟨fun _ => .empty, fun _ => .empty⟩ : PortCore P C B) id :=
  ⟨fun _ => ⟨rfl, rfl⟩, fun _ hus => absurd rfl hus, .nil⟩

theorem Seen.next [DecidableEq B] (fits : PortCore.Fits P C) (steps : Steps core obs effects core')
    (inv : Inv core) (inv' : Inv core') (hput : ∀ a, put obs = some a →
      ∃ c, (core'.connections c).state ≠ .free ∧ core'.connectionId c = id)
    (hget : ∀ b, get obs = some b → ∃ c, (core.connections c).state ≠ .free ∧
      core.connectionId c = id ∧ core'.connectionId c = id ∧
      (last b → (core'.connections c).state = .free)) {hist : List Observation}
    (h : Seen put get last hist core id) : Seen put get last (hist ++ [obs]) core' id := by
  have hC := fits.connections.2
  -- what comes out belongs to a connection in use, so the id is not fresh
  have hnn : Fresh core id → get obs = none := by
    intro hfr
    cases hobs : get obs with
    | none => rfl
    | some b =>
      obtain ⟨c, hus, hid, -⟩ := hget b hobs
      rw [← hid] at hfr
      exact absurd hfr (inv.not_fresh hC hus)
  refine ⟨fun hfr => ?_, fun c hus hid b hb => ?_, ?_⟩
  · have hbf := steps.fresh hfr
    rw [filterMap_snoc, filterMap_snoc, (h.fresh hbf).1, (h.fresh hbf).2, hnn hbf]
    refine ⟨?_, rfl⟩
    cases hobs : put obs with
    | none => rfl
    | some a =>
      obtain ⟨c, hus, hid⟩ := hput a hobs
      rw [← hid] at hfr
      exact absurd hfr (inv'.not_fresh hC hus)
  · rw [filterMap_snoc, List.mem_append, Option.mem_toList] at hb
    cases steps.staysUsed fits inv hus with
    | opened connected =>
      have hfr := steps.connected_fresh hC connected
      rw [hid] at hfr
      rw [hnn hfr, (h.fresh hfr).2] at hb
      rcases hb with hb | hb <;> cases hb
    | stayed before hsm =>
      rw [hid] at hsm
      rcases hb with hb | hb
      · exact h.used c before hsm.symm b hb
      -- the connection that ended is another one
      intro hls
      obtain ⟨d, hd, hdid, hdid', hfe⟩ := hget b hb
      obtain rfl : d = c := by
        by_contra hne
        exact inv.connectionId_ne hC before hd hne (hsm.symm.trans hdid.symm)
      exact hus (hfe hls)
  · rw [filterMap_snoc]
    cases hobs : get obs with
    | none => simpa using h.shape
    | some b =>
      obtain ⟨c, hus, hid, -⟩ := hget b hobs
      exact .snoc (h.used c hus hid) b

end

/-! ## A direction of a connection as a channel -/

variable {fifo' : Prop} {raw : Observation → Option β} {hist : List Observation} {ch : Channel α}

section
variable (put get : Observation → Option α) (Done : List Observation → Prop)
  (On : PortCore P C B → Fin C → Prop) (At : Prop → PortCore P C B → Fin C → Channel α → Prop)
  (fifo : Prop)

/-- What was put into one direction of the connection `id` and what was taken out of it, as a channel:
as long as the connection is `On` the channel is what its slot says (`At`), and then it is shut. Once
the history is `Done` everything was taken. -/
structure Conveyed (hist : List Observation) (core : PortCore P C B) (id : ConnectionId)
    (ch : Channel α) : Prop where
  reachable : Channel.Reachable fifo ch
  puts : ch.puts = hist.filterMap put
  takes : ch.takes = hist.filterMap get
  queued : ∀ c, On core c → core.connectionId c = id → At fifo core c ch
  ended : (∀ c, On core c → core.connectionId c ≠ id) → ch.phase = .shut ∨ ch = .new
  complete : Done hist → ch.puts = ch.takes

/-- A connection that is `On` after a call was opened by it, or its channel made a step. -/
inductive Conveys (fifo' : Prop) (core core' : PortCore P C B) (obs : Observation) (c : Fin C) : Prop
  | opened (connected : obs = .connected (core'.connectionId c)) (new : At fifo' core' c .new)
  | stayed (before : On core c) (id : core'.connectionId c = core.connectionId c)
      (flow : ∀ ch, Channel.Reachable fifo ch → At fifo core c ch → ∃ ch',
        Channel.Reachable fifo' ch' ∧ At fifo' core' c ch' ∧
          ch'.puts = ch.puts ++ (put obs).toList ∧ ch'.takes = ch.takes ++ (get obs).toList)

variable {put get Done On At fifo} [DecidableEq B]

theorem Conveyed.next (fits : PortCore.Fits P C) (steps : Steps core obs effects core')
    (inv' : Inv core') (hfifo : fifo' → fifo) (seen : Seen put raw last hist core id)
    (hconnected : ∀ id, put (.connected id) = none ∧ raw (.connected id) = none)
    (hraw : ∀ {obs}, raw obs = none → get obs = none)
    (hused : ∀ {c}, On core' c → (core'.connections c).state ≠ .free)
    (hput : ∀ a, put obs = some a → ∃ c, On core' c ∧ core'.connectionId c = id)
    (hget : ∀ a, get obs = some a → ∃ c, On core' c ∧ core'.connectionId c = id)
    (hon : ∀ c, On core' c → core'.connectionId c = id →
      Conveys put get On At fifo fifo' core core' obs c)
    (hdone : Done (hist ++ [obs]) → (∀ c, On core' c → core'.connectionId c ≠ id) ∧
      (Done hist ∨ ∃ c, On core c ∧ core.connectionId c = id ∧
        ∀ ch, Channel.Reachable fifo ch → At fifo core c ch → ch.puts = ch.takes))
    (h : Conveyed put get Done On At fifo hist core id ch) :
    ∃ ch', Conveyed put get Done On At fifo' (hist ++ [obs]) core' id ch' := by
  have hC := fits.connections.2
  by_cases hlv : ∃ c, On core' c ∧ core'.connectionId c = id
  · obtain ⟨c, on, hid⟩ := hlv
    suffices hch : ∃ ch', Channel.Reachable fifo' ch' ∧ At fifo' core' c ch' ∧
        ch'.puts = (hist ++ [obs]).filterMap put ∧ ch'.takes = (hist ++ [obs]).filterMap get by
      obtain ⟨ch', hrc, hat, hpt, htk⟩ := hch
      refine ⟨ch', hrc, hpt, htk, fun d hd hdid => ?_, fun hno => absurd hid (hno c on),
        fun hdn => absurd hid ((hdone hdn).1 c on)⟩
      obtain rfl : d = c := by
        by_contra hne
        exact inv'.connectionId_ne hC (hused on) (hused hd) hne (hid.trans hdid.symm)
      exact hat
    cases hon c on hid with
    | opened connected new =>
      rw [hid] at connected
      obtain ⟨hps, hrs⟩ := seen.fresh (steps.connected_fresh hC connected)
      have htk : hist.filterMap get = [] := List.filterMap_eq_nil_iff.2 fun obs hobs =>
        hraw (List.filterMap_eq_nil_iff.1 hrs obs hobs)
      refine ⟨.new, .new, new, ?_, ?_⟩
      · rw [filterMap_snoc, hps, connected, (hconnected id).1]
        rfl
      · rw [filterMap_snoc, htk, connected, hraw (hconnected id).2]
        rfl
    | stayed before hsm flow =>
      obtain ⟨ch', hrc, hat, hpt, htk⟩ :=
        flow ch h.reachable (h.queued c before (hsm.symm.trans hid))
      refine ⟨ch', hrc, hat, ?_, ?_⟩
      · rw [filterMap_snoc, hpt, h.puts]
      · rw [filterMap_snoc, htk, h.takes]
  · have hps : put obs = none := Option.eq_none_iff_forall_ne_some.2 fun a ha => hlv (hput a ha)
    have htk : get obs = none := Option.eq_none_iff_forall_ne_some.2 fun a ha => hlv (hget a ha)
    refine ⟨_, (h.reachable.imp hfifo).step .shut, ?_, ?_,
      fun c on hid => absurd ⟨c, on, hid⟩ hlv, fun _ => .inl rfl, fun hdn => ?_⟩
    · rw [filterMap_snoc, hps, Option.toList_none, List.append_nil]
      exact h.puts
    · rw [filterMap_snoc, htk, Option.toList_none, List.append_nil]
      exact h.takes
    · rcases (hdone hdn).2 with hbf | ⟨c, on, hid, hall⟩
      · exact h.complete hbf
      · exact hall ch h.reachable (h.queued c on hid)

end

end CleanSlate.ServicePort
