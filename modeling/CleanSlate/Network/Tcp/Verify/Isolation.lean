import CleanSlate.Network.Tcp.Verify.States
import CleanSlate.Network.Tcp.Verify.Table

/-!
# Owners of connections

A connection that ends is freed in the call in which it ends, so `on_holder_exit`, which passes over
ended connections, leaves none to its owner. And a call for one owner neither changes nor depends on
a connection of another.
-/

namespace CleanSlate.Network.Tcp

open Lib Function

namespace TcpTransport

variable {s t : TcpTransport} {owner : TrustedCaller} {i : Fin maxTcpConnections}

/-! ## No ended connection -/

/-- A connection that is left in a slot has not ended. -/
def SlotsCoherent (s : TcpTransport) : Prop := ∀ i c, s.table.slots i = some c → c.Coherent

theorem SlotsCoherent.step (h : s.SlotsCoherent) (op : TcpOp × List (Except NetworkError Unit)) :
    (s.step op).2.SlotsCoherent := by
  intro i
  rcases s.step_slot i op with ⟨ops, hrun, -⟩ | ⟨-, o, hop⟩
  · rw [hrun]
    refine run_invariant TcpConnection.step
      (P := fun slot => ∀ c, slot = some c → c.Coherent) (h i) ?_ ops
    intro slot op hsl c' hc'
    cases slot with
    | none => cases hc'
    | some c => exact ((hsl c rfl).step hc').coherent (hsl c rfl)
  · intro c hc
    rw [hop] at hc
    exact Option.some.inj hc ▸ o.coherent

/-! ## Exits -/

theorem exitSlot_slots (acc : Nat × TcpTransport × Link) (j : Fin maxTcpConnections) :
    (exitSlot owner acc j).2.1.table.slots i =
      if i = j then (acc.2.1.table.slots i).filter fun c => !(c.owner = owner ∧ !c.state.isTerminal)
      else acc.2.1.table.slots i := by
  obtain ⟨count, s, link⟩ := acc
  dsimp only [exitSlot]
  by_cases hij : i = j
  · rw [if_pos hij, hij]
    cases hsl : s.table.slots j with
    | none => exact hsl
    | some c =>
      dsimp only
      split <;> rename_i hex
      · rw [slots_set, if_pos rfl, Option.filter_some, if_neg (by simp [hex])]
      · rw [hsl, Option.filter_some, if_pos (by simpa [imp_iff_not_or] using hex)]
  · rw [if_neg hij]
    split
    · rfl
    · split
      · rw [slots_set, if_neg hij]
      · rfl

theorem onHolderExit_slots (h : s.SlotsCoherent) (link : Link) :
    (s.onHolderExit owner link).2.1.table.slots i =
      (s.table.slots i).filter fun c => c.owner ≠ owner := by
  have hlp := Slots.foldl_induction (exitSlot owner) (fun k acc => acc.2.1.table.slots i =
      if i.val < k then (s.table.slots i).filter fun c => !(c.owner = owner ∧ !c.state.isTerminal)
      else s.table.slots i) (0, s, link) rfl (by
    intro j acc ih
    rw [exitSlot_slots, ih]
    by_cases hij : i = j
    · rw [if_pos hij, if_neg (by omega), if_pos (by omega)]
    · have hiff : i.val < j.val + 1 ↔ i.val < j.val := by
        omega
      simp only [if_neg hij, hiff])
  rw [if_pos i.isLt] at hlp
  refine hlp.trans ?_
  cases hsl : s.table.slots i with
  | none => rfl
  | some c => simp [Option.filter, (h i c hsl).live]

/-! ## Other owners -/

theorem step_other (h : s.SlotsCoherent) (op : TcpOp × List (Except NetworkError Unit))
    (hcl : op.1.caller = some owner) {c : TcpConnection} (hsl : s.table.slots i = some c)
    (hot : c.owner ≠ owner) : (s.step op).2.table.slots i = some c := by
  rcases step_call op hcl with hop | ⟨now, remote, hop⟩ | ⟨id, fail, reply, makes, -, hst⟩
  · unfold step
    rw [hop]
    refine (onHolderExit_slots h _).trans ?_
    rw [hsl]
    simp [Option.filter, hot]
  · unfold step
    rw [hop]
    rcases s.connect_slot i now owner remote ⟨op.2, []⟩ with hsm | ⟨hnn, -⟩
    · exact hsm.trans hsl
    · cases hsl.symm.trans hnn
  · rw [hst]
    split
    · exact hsl
    · next j c' hid =>
      -- the connection the call found is the owner's
      refine (s.slots_set i j _).trans ?_
      rw [if_neg, hsl]
      rintro rfl
      obtain ⟨hfn, how⟩ := s.slots_of_checkId hid
      cases hsl.symm.trans hfn
      exact hot how

/-- Two transports that differ in connections of other owners only. -/
structure Alike (owner : TrustedCaller) (s t : TcpTransport) : Prop where
  ourIp : t.ourIp = s.ourIp
  generation : t.table.generation = s.table.generation
  issCounter : t.table.issCounter = s.table.issCounter
  slots : ∀ i, t.table.slots i = s.table.slots i ∨ ∃ c d, s.table.slots i = some c ∧
    t.table.slots i = some d ∧ c.owner ≠ owner ∧ d.owner ≠ owner

section
variable (h : Alike owner s t)
include h

theorem Alike.set (j : Fin maxTcpConnections) (conn : Option TcpConnection) :
    Alike owner (s.set j conn) (t.set j conn) := by
  refine ⟨h.ourIp, h.generation, h.issCounter, fun i => ?_⟩
  rw [slots_set, slots_set]
  split
  · exact .inl rfl
  · exact h.slots i

theorem Alike.checkId (id : SessionId) : t.table.checkId id owner = s.table.checkId id owner := by
  unfold TcpTable.checkId
  rw [h.generation]
  split
  · rfl
  split
  · next hlt =>
    rcases h.slots ⟨_, hlt⟩ with heq | ⟨c, d, hc, hd, hown, hown'⟩
    · rw [heq]
    · simp [hc, hd, hown, hown']
  · rfl

theorem Alike.onHolderExit (link : Link) :
    (t.onHolderExit owner link).1 = (s.onHolderExit owner link).1 ∧
      Alike owner (s.onHolderExit owner link).2.1 (t.onHolderExit owner link).2.1 := by
  have hlp : ∀ (indices : List (Fin maxTcpConnections)) count s t link, Alike owner s t →
      (indices.foldl (exitSlot owner) (count, t, link)).1 =
        (indices.foldl (exitSlot owner) (count, s, link)).1 ∧
      Alike owner (indices.foldl (exitSlot owner) (count, s, link)).2.1
        (indices.foldl (exitSlot owner) (count, t, link)).2.1 := by
    intro indices
    induction indices with
    | nil => exact fun _ _ _ _ h => ⟨rfl, h⟩
    | cons j indices ih =>
      intro count s t link h
      rw [List.foldl_cons, List.foldl_cons]
      rcases h.slots j with heq | ⟨c, d, hc, hd, hown, hown'⟩
      · unfold exitSlot
        dsimp only
        rw [heq]
        split
        · exact ih _ _ _ _ h
        · split
          · exact ih _ _ _ _ (h.set j none)
          · exact ih _ _ _ _ h
      · have hs : exitSlot owner (count, s, link) j = (count, s, link) := by
          simp [exitSlot, hc, hown]
        have ht : exitSlot owner (count, t, link) j = (count, t, link) := by
          simp [exitSlot, hd, hown']
        rw [hs, ht]
        exact ih _ _ _ _ h
  exact hlp _ _ _ _ _ h

theorem Alike.connect (now : Nat) (remote : SocketAddrV4) (link : Link) :
    (t.connect now owner remote link).1 = (s.connect now owner remote link).1 ∧
      Alike owner (s.connect now owner remote link).2.1 (t.connect now owner remote link).2.1 := by
  have hfr : Slots.position (·.isNone) t.table.slots = Slots.position (·.isNone) s.table.slots := by
    refine congrArg (List.find? · (List.finRange maxTcpConnections)) (funext fun i => ?_)
    rcases h.slots i with heq | ⟨c, d, hc, hd, -⟩
    · rw [heq]
    · rw [hc, hd]
      rfl
  unfold TcpTransport.connect TcpTable.allocSlot
  rw [hfr, h.ourIp, h.generation, h.issCounter]
  cases Slots.position (·.isNone) s.table.slots with
  | none => exact ⟨rfl, h⟩
  | some j =>
    refine ⟨by simp only [TcpTable.set, h.generation], rfl, h.generation, rfl, fun i => ?_⟩
    exact ((h.set j _).set j _).slots i

/-- A call does the same on both. -/
theorem Alike.step (op : TcpOp × List (Except NetworkError Unit)) (hcl : op.1.caller = some owner) :
    (t.step op).1 = (s.step op).1 ∧ Alike owner (s.step op).2 (t.step op).2 := by
  rcases step_call op hcl with hop | ⟨now, remote, hop⟩ | ⟨id, fail, reply, makes, -, hst⟩
  · obtain ⟨hrp, hnx⟩ := h.onHolderExit ⟨op.2, []⟩
    unfold TcpTransport.step
    rw [hop]
    exact ⟨congrArg TcpReply.exited hrp, hnx⟩
  · obtain ⟨hrp, hnx⟩ := h.connect now remote ⟨op.2, []⟩
    unfold TcpTransport.step
    rw [hop]
    exact ⟨congrArg TcpReply.connected hrp, hnx⟩
  · rw [hst, hst, h.checkId]
    split
    · exact ⟨rfl, h⟩
    · exact ⟨rfl, h.set _ _⟩

end

/-- What holds between two calls. -/
structure Isolated (s : TcpTransport) : Prop where
  live : ∀ i c, s.table.slots i = some c → c.state.isTerminal = false
  exit : ∀ owner answers i, (s.step (.onHolderExit owner, answers)).2.table.slots i =
    (s.table.slots i).filter fun c => c.owner ≠ owner
  changes : ∀ op owner, op.1.caller = some owner → ∀ i c, s.table.slots i = some c →
    c.owner ≠ owner → (s.step op).2.table.slots i = some c
  reads : ∀ op owner t, op.1.caller = some owner → Alike owner s t →
    (t.step op).1 = (s.step op).1 ∧ Alike owner (s.step op).2 (t.step op).2
  state : ∀ id owner t, Alike owner s t → t.state id owner = s.state id owner

/-- **Owners are isolated.** Whatever was called and received: no slot holds an ended connection, the
exit of an owner frees exactly the owner's slots, and no call for one owner changes or depends on the
connection of another. -/
theorem slots_isolated (ourIp : Ipv4Addr) (generation : SessionGeneration)
    (ops : List (TcpOp × List (Except NetworkError Unit))) :
    (run step (new ourIp generation) ops).Isolated := by
  have h : (run step (new ourIp generation) ops).SlotsCoherent :=
    run_invariant step (fun _ _ hc => by cases hc) (fun _ op h => h.step op) ops
  exact ⟨fun i c hc => (h i c hc).live, fun owner answers i => onHolderExit_slots h _,
    fun op owner hcl i c hsl hot => step_other h op hcl hsl hot,
    fun op owner t hcl hal => hal.step op hcl,
    fun id owner t hal => by rw [state, state, hal.checkId id]⟩

end TcpTransport

end CleanSlate.Network.Tcp
