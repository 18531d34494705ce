import CleanSlate.Kernel.ObjectQueue
import CleanSlate.Lib.Exchange
import CleanSlate.Lib.Run

/-!
# Histories of the object request queue

A `Ledger` is the queue with a ticket on every slot: the number of requests accepted before the
one in it. Request ids saturate and slots are reused, so tickets are what tells the requests of a
run apart. Every call is one event of the ledger (`Ledger.step_cases`), the events on requests form
a legal history of one-shot exchanges (`Ledger.Accounted`), and the service takes the requests of a
client in order exactly when submissions keep slot order and submission order in agreement
(`Ledger.Sorted`).
-/

namespace CleanSlate.Kernel

open Capability Lib Lib.Exchange Function Slots
open ObjectRequestQueue

variable {queue : ObjectRequestQueue} {j k : Fin objectRequestSlots}

/-! ## The ledger -/

/-- What a request is completed with. -/
structure Completion where
  status : UInt64
  payload : List UInt8
  deriving DecidableEq

variable {phase : Nat → Phase HolderId Completion}

/-- What the client gets to see of it: an error completion carries no payload. -/
def Completion.delivered (c : Completion) : Completion := if c.status ≠ 0 then ⟨c.status, []⟩ else c

structure Ledger where
  queue : ObjectRequestQueue
  ticket : Fin objectRequestSlots → Nat
  issued : Nat

def Ledger.new : Ledger := ⟨.new, fun _ => 0, 0⟩

/-- What a call does to the requests of the queue. -/
inductive QueueEvent where
  | deal (deal : Deal Nat HolderId Completion)
  | taken (ticket : Nat) (client : HolderId)
  | none

namespace Ledger

/-- The event of a call, read off the reply and the slot the call worked on. -/
def observe (self : Ledger) : QueueOp → QueueEvent
  | .submit client op objectId payload =>
    match (self.queue.submit client op objectId payload).1 with
    | .ok _ => .deal (.opened self.issued client)
    | .error _ => .none
  | .poll client requestId outLen =>
    match self.queue.requestIndex requestId, (self.queue.poll client requestId outLen).1 with
    | some i, .ok (.copied bytes) => .deal (.collected (self.ticket i) client ⟨0, bytes⟩)
    | some i, .error (.completionStatus status) =>
      .deal (.collected (self.ticket i) client ⟨status, []⟩)
    | _, _ => .none
  | .serviceNext =>
    match self.queue.pendingIndex with
    | some i => .taken (self.ticket i) (self.queue.slots i).client
    | Option.none => .none
  | .serviceComplete requestId status payload =>
    match self.queue.inServiceIndex requestId,
        (self.queue.serviceComplete requestId status payload).1 with
    | some i, .ok () =>
      .deal (.answered (self.ticket i) (Completion.delivered ⟨status, payload⟩))
    | _, _ => .none
  | .requeueInService | .reclaimForHolder _ => .none

/-- The ledger after a call: an accepted request gets the next ticket. -/
def after (self : Ledger) (op : QueueOp) : Ledger :=
  match op, self.queue.freeIndex with
  | .submit .., some i =>
    ⟨self.queue.after op, update self.ticket i self.issued, self.issued + 1⟩
  | _, _ => ⟨self.queue.after op, self.ticket, self.issued⟩

end Ledger

def ledgerStep (ledger : Ledger) (op : QueueOp) : QueueEvent × Ledger :=
  (ledger.observe op, ledger.after op)

/-! ## What a call can do -/

/-- The slot holds a request the service has not completed. -/
def ObjectRequestSlot.Open (slot : ObjectRequestSlot) : Prop :=
  slot.state = .pending ∨ slot.state = .inService
deriving Decidable

/-- A submission goes to a slot behind all slots of its client that the service has not completed. -/
def WellPlaced (l : Ledger) : QueueOp → Prop
  | .submit client _ _ _ => ∀ i, l.queue.freeIndex = some i →
    ∀ j, (l.queue.slots j).Open → (l.queue.slots j).client = client → j < i
  | _ => True

instance (l : Ledger) : (op : QueueOp) → Decidable (WellPlaced l op)
  | .submit client _ _ _ => inferInstanceAs (Decidable (∀ i, l.queue.freeIndex = some i →
      ∀ j, (l.queue.slots j).Open → (l.queue.slots j).client = client → j < i))
  | .poll .. | .serviceNext | .serviceComplete .. | .requeueInService | .reclaimForHolder _ =>
    isTrue trivial

/-- What the client of a completed request gets. -/
def ObjectRequestSlot.answer (slot : ObjectRequestSlot) : Completion :=
  Completion.delivered ⟨slot.status, slot.payload.take slot.len⟩

namespace Ledger

/-- The ledger with another request record in a slot, under the same ticket. -/
def withSlot (self : Ledger) (i : Fin objectRequestSlots) (slot : ObjectRequestSlot) : Ledger :=
  { self with queue := self.queue.setSlot i slot }

section

variable (self : Ledger) (i : Fin objectRequestSlots) (slot : ObjectRequestSlot)

@[simp] theorem withSlot_ticket : (self.withSlot i slot).ticket = self.ticket := rfl

@[simp] theorem withSlot_slots :
    (self.withSlot i slot).queue.slots = update self.queue.slots i slot := rfl

end

/-- The ledger with a new request in slot `i`. -/
def accept (self : Ledger) (i : Fin objectRequestSlots) (slot : ObjectRequestSlot) : Ledger where
  queue := ⟨update self.queue.slots i slot, saturatingSucc self.queue.nextRequestId⟩
  ticket := update self.ticket i self.issued
  issued := self.issued + 1

/-- The calls of the queue, their events and the ledgers they lead to. -/
inductive Moves (l : Ledger) : QueueOp → QueueEvent → Ledger → Prop where
  | idle {op : QueueOp} : Moves l op .none l
  | accept {client : HolderId} {op objectId : UInt64} {payload : ObjectPayload}
      {i : Fin objectRequestSlots} {slot : ObjectRequestSlot} (free : l.queue.freeIndex = some i)
      (pending : slot.state = .pending) (owner : slot.client = client)
      (id : slot.requestId = l.queue.nextRequestId) :
      Moves l (.submit client op objectId payload) (.deal (.opened l.issued client))
        (l.accept i slot)
  | take {i : Fin objectRequestSlots} (pending : l.queue.pendingIndex = some i) :
      Moves l .serviceNext (.taken (l.ticket i) (l.queue.slots i).client)
        (l.withSlot i { l.queue.slots i with state := .inService })
  | complete {requestId status : UInt64} {payload : List UInt8} {i : Fin objectRequestSlots}
      {slot : ObjectRequestSlot} (inService : (l.queue.slots i).state = .inService)
      (done : slot.state = .done) (owner : slot.client = (l.queue.slots i).client)
      (id : slot.requestId = (l.queue.slots i).requestId) :
      Moves l (.serviceComplete requestId status payload)
        (.deal (.answered (l.ticket i) slot.answer)) (l.withSlot i slot)
  | collect {client : HolderId} {requestId : UInt64} {outLen : Nat} {i : Fin objectRequestSlots}
      (done : (l.queue.slots i).state = .done) (owner : (l.queue.slots i).client = client) :
      Moves l (.poll client requestId outLen)
        (.deal (.collected (l.ticket i) client (l.queue.slots i).answer)) (l.withSlot i .free)
  | requeue : Moves l .requeueInService .none { l with queue := l.queue.requeueInService.2 }
  | reclaim (holder : HolderId) : Moves l (.reclaimForHolder holder) .none
        { l with queue := (l.queue.reclaimForHolder holder).2 }

/-- What the exit of a process does to a slot. -/
inductive Swept (slot slot' : ObjectRequestSlot) : Prop where
  | kept (same : slot' = slot)
  | freed (free : slot' = .free)
  | requeued (service : slot.state = .inService) (pending : slot' = { slot with state := .pending })

theorem requeueInService_swept (queue : ObjectRequestQueue) (i : Fin objectRequestSlots) :
    Swept (queue.slots i) (queue.requeueInService.2.slots i) := by
  simp only [requeueInService]
  split
  · next hsr => exact .requeued hsr rfl
  · exact .kept rfl

theorem reclaimForHolder_swept (queue : ObjectRequestQueue) (holder : HolderId)
    (i : Fin objectRequestSlots) :
    Swept (queue.slots i) ((queue.reclaimForHolder holder).2.slots i) := by
  simp only [reclaimForHolder]
  split
  · exact .freed rfl
  · exact .kept rfl

theorem step_submit (l : Ledger) (client : HolderId) (op objectId : UInt64)
    (payload : ObjectPayload) :
    l.Moves (.submit client op objectId payload) (l.observe (.submit client op objectId payload))
      (l.after (.submit client op objectId payload)) := by
  cases hfr : l.queue.freeIndex with
  | none =>
    simp only [observe, after, ObjectRequestQueue.after, submit, hfr]
    exact .idle
  | some i =>
    simp only [observe, after, ObjectRequestQueue.after, submit, hfr]
    exact .accept hfr rfl rfl rfl

theorem step_poll (l : Ledger) (client : HolderId) (requestId : UInt64) (outLen : Nat) :
    l.Moves (.poll client requestId outLen) (l.observe (.poll client requestId outLen))
      (l.after (.poll client requestId outLen)) := by
  simp only [observe, after, ObjectRequestQueue.after, poll]
  cases l.queue.requestIndex requestId with
  | none => exact .idle
  | some i =>
    by_cases how : (l.queue.slots i).client = client
    · simp only [how, ne_eq]
      cases hst : (l.queue.slots i).state with
      | free | pending | inService => exact .idle
      | done =>
        have hcl := @Moves.collect l client requestId outLen i hst how
        unfold ObjectRequestSlot.answer Completion.delivered at hcl
        by_cases hss : (l.queue.slots i).status = 0
        · simp only [hss, not_true_eq_false] at hcl ⊢
          by_cases hlen : outLen < (l.queue.slots i).len
          · simp only [hlen, if_true]
            exact .idle
          · simp only [hlen, if_false]
            exact hcl
        · simp only [hss, ne_eq, not_false_eq_true] at hcl ⊢
          exact hcl
    · simp only [how, ne_eq, not_false_eq_true]
      exact .idle

theorem step_serviceNext (l : Ledger) :
    l.Moves .serviceNext (l.observe .serviceNext) (l.after .serviceNext) := by
  cases hpn : l.queue.pendingIndex with
  | none =>
    simp only [observe, after, ObjectRequestQueue.after, serviceNext, hpn]
    exact .idle
  | some i =>
    simp only [observe, after, ObjectRequestQueue.after, serviceNext, hpn]
    exact .take hpn

theorem step_serviceComplete (l : Ledger) (requestId status : UInt64) (payload : List UInt8) :
    l.Moves (.serviceComplete requestId status payload)
      (l.observe (.serviceComplete requestId status payload))
      (l.after (.serviceComplete requestId status payload)) := by
  cases hin : l.queue.inServiceIndex requestId with
  | none =>
    simp only [observe, after, ObjectRequestQueue.after, serviceComplete, hin]
    exact .idle
  | some i =>
    by_cases hlen : payload.length > Store.objectMaxPayloadBytes
    · simp only [observe, after, ObjectRequestQueue.after, serviceComplete, hin, hlen]
      exact .idle
    simp only [observe, after, ObjectRequestQueue.after, serviceComplete, hin, hlen]
    have hfn := position_some hin
    simp only [Bool.and_eq_true, decide_eq_true_eq] at hfn
    -- the bytes in use of the slot written are the payload of the call
    have han : ∀ slot : ObjectRequestSlot, slot.status = status →
        slot.len = payload.length → slot.payload = splice (l.queue.slots i).payload 0 payload →
        slot.answer = Completion.delivered ⟨status, payload⟩ := by
      intro slot hs hl hp
      unfold ObjectRequestSlot.answer
      rw [hs, hl, hp]
      simp [splice]
    rw [← han { l.queue.slots i with
      state := .done
      status
      len := payload.length
      payload := splice (l.queue.slots i).payload 0 payload } rfl rfl rfl]
    exact .complete hfn.2 rfl rfl rfl

theorem step_cases (l : Ledger) (op : QueueOp) : l.Moves op (l.observe op) (l.after op) := by
  cases op with
  | submit client op objectId payload => exact step_submit l client op objectId payload
  | poll client requestId outLen => exact step_poll l client requestId outLen
  | serviceNext => exact step_serviceNext l
  | serviceComplete requestId status payload =>
    exact step_serviceComplete l requestId status payload
  | requeueInService => exact .requeue
  | reclaimForHolder holder => exact .reclaim holder

/-! ### Slot by slot -/

variable {slot : ObjectRequestSlot} {i : Fin objectRequestSlots} {l l' : Ledger} {op : QueueOp}
  {event : QueueEvent}

theorem open_used (h : slot.Open) : slot.state ≠ .free := by
  intro hfr
  rcases h with h | h <;> rw [hfr] at h <;> cases h

/-- What a call does to a slot and its ticket. -/
inductive Becomes (l l' : Ledger) (op : QueueOp) (i : Fin objectRequestSlots) : Prop where
  | kept (slot : l'.queue.slots i = l.queue.slots i) (ticket : l'.ticket i = l.ticket i)
  | moved (used : (l.queue.slots i).state ≠ .free) (used' : (l'.queue.slots i).state ≠ .free)
      (opens : (l'.queue.slots i).Open → (l.queue.slots i).Open)
      (client : (l'.queue.slots i).client = (l.queue.slots i).client)
      (id : (l'.queue.slots i).requestId = (l.queue.slots i).requestId)
      (ticket : l'.ticket i = l.ticket i)
  | freed (slot : l'.queue.slots i = .free)
  | fresh (free : l.queue.freeIndex = some i) (pending : (l'.queue.slots i).state = .pending)
      (id : (l'.queue.slots i).requestId = l.queue.nextRequestId)
      (ticket : l'.ticket i = l.issued)
      (placed : WellPlaced l op → ∀ j, (l.queue.slots j).Open →
        (l.queue.slots j).client = (l'.queue.slots i).client → j < i)

theorem Becomes.withSlot (used : (l.queue.slots i).state ≠ .free) (used' : slot.state ≠ .free)
    (opens : slot.Open → (l.queue.slots i).Open) (client : slot.client = (l.queue.slots i).client)
    (id : slot.requestId = (l.queue.slots i).requestId) (j : Fin objectRequestSlots) :
    Becomes l (l.withSlot i slot) op j := by
  by_cases hji : j = i
  · subst hji
    rw [← update_self j slot l.queue.slots] at used' opens client id
    exact .moved used used' opens client id rfl
  · exact .kept (update_of_ne hji _ _) rfl

theorem Swept.becomes (h : Swept (l.queue.slots i) (queue.slots i)) (op : QueueOp) :
    Becomes l { l with queue } op i := by
  cases h with
  | kept same => exact .kept same rfl
  | freed free => exact .freed free
  | requeued service pending =>
    refine .moved (by rw [service]; decide) ?_ (fun _ => .inr service) ?_ ?_ rfl <;> dsimp only <;>
      rw [pending]
    exact fun h => SlotState.noConfusion h

theorem Moves.becomes (h : l.Moves op event l') (j : Fin objectRequestSlots) :
    Becomes l l' op j := by
  cases h with
  | idle => exact .kept rfl rfl
  | @accept _ _ _ _ i slot free pending owner id =>
    by_cases hji : j = i
    · subst hji
      rw [← update_self j slot l.queue.slots] at pending owner id
      exact .fresh free pending id (update_self ..) fun hpl k hk hcl =>
        hpl j free k hk (hcl.trans owner)
    · exact .kept (update_of_ne hji _ _) (update_of_ne hji _ _)
  | take pending =>
    have hpn := position_some pending
    simp only [decide_eq_true_eq] at hpn
    refine .withSlot (by rw [hpn]; decide) ?_ (fun _ => .inl hpn) ?_ ?_ j
    · exact fun h => SlotState.noConfusion h
    · rfl
    · rfl
  | complete inService done owner id =>
    exact .withSlot (by rw [inService]; decide) (by rw [done]; decide) (fun _ => .inr inService)
      owner id j
  | @collect _ _ _ i done owner =>
    by_cases hji : j = i
    · exact .freed (hji ▸ update_self ..)
    · exact .kept (update_of_ne hji _ _) rfl
  | requeue => exact (requeueInService_swept l.queue j).becomes _
  | reclaim holder => exact (reclaimForHolder_swept l.queue holder j).becomes _

/-- A slot in use was in use before, or is the one that was free. -/
theorem Becomes.of_used (h : Becomes l l' op i) (hus : (l'.queue.slots i).state ≠ .free) :
    ((l.queue.slots i).state ≠ .free ∧ l'.ticket i = l.ticket i) ∨
      (l.queue.freeIndex = some i ∧ l'.ticket i = l.issued) := by
  cases h with
  | kept slot ticket => exact .inl ⟨slot ▸ hus, ticket⟩
  | moved used _ _ _ _ ticket => exact .inl ⟨used, ticket⟩
  | freed slot => exact absurd (slot ▸ rfl) hus
  | fresh free _ _ ticket => exact .inr ⟨free, ticket⟩

/-! ## Requests are one-shot exchanges -/

/-- The slot holds a request in the given phase. -/
def Agrees (slot : ObjectRequestSlot) (phase : Phase HolderId Completion) : Prop :=
  match slot.state with
  | .free => True
  | .pending | .inService => phase = .waiting slot.client
  | .done => phase = .answered slot.client slot.answer

theorem agrees_free (h : slot.state = .free) (phase : Phase HolderId Completion) :
    Agrees slot phase := by
  simp only [Agrees, h]

/-- The ledger tracks the phases of all exchanges. -/
structure Tracks (l : Ledger) (phase : Nat → Phase HolderId Completion) : Prop where
  unissued : ∀ t, l.issued ≤ t → phase t = .absent
  agrees : ∀ i, Agrees (l.queue.slots i) (phase (l.ticket i))
  distinct : ∀ i j, (l.queue.slots i).state ≠ .free → (l.queue.slots j).state ≠ .free →
    l.ticket i = l.ticket j → i = j

section

variable (h : l.Tracks phase)
include h

theorem Tracks.ticket_lt (hi : (l.queue.slots i).state ≠ .free) : l.ticket i < l.issued := by
  by_contra hge
  have hag := h.agrees i
  rw [h.unissued _ (Nat.le_of_not_lt hge)] at hag
  cases hst : (l.queue.slots i).state <;> simp_all [Agrees]

theorem Tracks.distinct_next (hbc : ∀ i, Becomes l l' op i) (i j : Fin objectRequestSlots)
    (hi : (l'.queue.slots i).state ≠ .free) (hj : (l'.queue.slots j).state ≠ .free)
    (hij : l'.ticket i = l'.ticket j) : i = j := by
  rcases (hbc i).of_used hi with ⟨hus, hti⟩ | ⟨hfr, hti⟩ <;>
    rcases (hbc j).of_used hj with ⟨hus', htj⟩ | ⟨hfr', htj⟩ <;> rw [hti, htj] at hij
  · exact h.distinct i j hus hus' hij
  · exact absurd hij (h.ticket_lt hus).ne
  · exact absurd hij (h.ticket_lt hus').ne'
  · exact Option.some.inj (hfr.symm.trans hfr')

theorem Tracks.withSlot {phase' : Nat → Phase HolderId Completion}
    (hbc : ∀ j, Becomes l (l.withSlot i slot) op j)
    (hi : (l.queue.slots i).state ≠ .free) (hsl : Agrees slot (phase' (l.ticket i)))
    (hot : ∀ t, t ≠ l.ticket i → phase' t = phase t) : (l.withSlot i slot).Tracks phase' := by
  refine ⟨fun t ht => ?_, fun j => ?_, h.distinct_next hbc⟩
  · have hlt := h.ticket_lt hi
    have ht : l.issued ≤ t := ht
    rw [hot t (by omega)]
    exact h.unissued t ht
  · by_cases hji : j = i
    · rw [hji, withSlot_slots, update_self]
      exact hsl
    rw [withSlot_slots, update_of_ne hji]
    by_cases hfr : (l.queue.slots j).state = .free
    · exact agrees_free hfr _
    · rw [withSlot_ticket, hot _ fun he => hji (h.distinct j i hfr hi he)]
      exact h.agrees j

theorem Tracks.sweep (hsw : ∀ i, Swept (l.queue.slots i) (queue.slots i)) :
    ({ l with queue } : Ledger).Tracks phase := by
  refine ⟨h.unissued, fun i => ?_, h.distinct_next fun i => (hsw i).becomes .requeueInService⟩
  have hag := h.agrees i
  cases hsw i with
  | kept heq => exact heq ▸ hag
  | freed heq => exact agrees_free (heq ▸ rfl) _
  | requeued hsr heq => rw [heq]; simpa only [Agrees, hsr] using hag

theorem Tracks.accept (hbc : ∀ j, Becomes l (l.accept i slot) op j) (hpn : slot.state = .pending) :
    (l.accept i slot).Tracks (update phase l.issued (.waiting slot.client)) := by
  refine ⟨fun t ht => ?_, fun j => ?_, h.distinct_next hbc⟩
  · have ht : l.issued + 1 ≤ t := ht
    rw [update_of_ne (by omega)]
    exact h.unissued t (by omega)
  · by_cases hji : j = i
    · subst hji
      simp only [accept, update_self, Agrees, hpn]
    · simp only [Ledger.accept, update_of_ne hji]
      by_cases hfr : (l.queue.slots j).state = .free
      · exact agrees_free hfr _
      · rw [update_of_ne (h.ticket_lt hfr).ne]
        exact h.agrees j

end

/-- The events on requests, in order. -/
def deals (log : List (Event Ledger QueueOp QueueEvent)) : List (Deal Nat HolderId Completion) :=
  log.filterMap fun e =>
    match e.output with
    | .deal deal => some deal
    | _ => none

/-- The events so far are a legal history of exchanges, and the ledger tracks them. -/
def Accounted (log : List (Event Ledger QueueOp QueueEvent)) (l : Ledger) : Prop :=
  ∃ phase, Legal (deals log) phase ∧ l.Tracks phase

theorem deals_snoc (log : List (Event Ledger QueueOp QueueEvent)) (l : Ledger) (op : QueueOp) :
    deals (log ++ [Event.of ledgerStep l op]) = deals log ++ (match l.observe op with
        | .deal deal => [deal]
        | _ => []) := by
  unfold deals
  rw [filterMap_snoc]
  simp only [Event.of, ledgerStep]
  cases l.observe op <;> rfl

theorem Accounted.step {log : List (Event Ledger QueueOp QueueEvent)} (h : Accounted log l)
    (op : QueueOp) : Accounted (log ++ [Event.of ledgerStep l op]) (ledgerStep l op).2 := by
  obtain ⟨phase, hlg, htr⟩ := h
  have hmv := step_cases l op
  unfold Accounted
  rw [deals_snoc]
  simp only [ledgerStep]
  generalize l.observe op = event at hmv ⊢
  generalize l.after op = l' at hmv ⊢
  have hbc := hmv.becomes
  cases hmv with
  | idle => exact ⟨phase, by simpa using hlg, htr⟩
  | accept free pending owner id =>
    refine ⟨_, hlg.snoc (htr.unissued _ le_rfl), ?_⟩
    rw [← owner]
    exact htr.accept hbc pending
  | @take i pending =>
    have hpn := position_some pending
    simp only [decide_eq_true_eq] at hpn
    have hag := htr.agrees i
    simp only [Agrees, hpn] at hag
    exact ⟨phase, by simpa using hlg, htr.withSlot hbc (by rw [hpn]; decide) hag fun _ _ => rfl⟩
  | @complete _ _ _ i slot inService done owner id =>
    have hag := htr.agrees i
    simp only [Agrees, inService] at hag
    refine ⟨_, hlg.snoc ⟨_, hag⟩, ?_⟩
    rw [advance_answered hag]
    refine htr.withSlot hbc (by rw [inService]; decide) ?_ fun t ht => update_of_ne ht _ _
    simp only [Agrees, done, owner, update_self]
  | @collect _ _ _ i done owner =>
    have hag := htr.agrees i
    simp only [Agrees, done, owner] at hag
    exact ⟨_, hlg.snoc hag, htr.withSlot hbc (by rw [done]; decide)
      (agrees_free rfl _) fun t ht => update_of_ne ht _ _⟩
  | requeue => exact ⟨phase, by simpa using hlg, htr.sweep (requeueInService_swept _)⟩
  | reclaim holder =>
    exact ⟨phase, by simpa using hlg, htr.sweep (reclaimForHolder_swept _ holder)⟩

theorem accounted_new : Accounted [] Ledger.new :=
  ⟨_, .nil, fun _ _ => rfl, fun _ => agrees_free rfl _, fun _ _ hi => absurd rfl hi⟩

theorem run_accounted (ops : List QueueOp) :
    Accounted (trace ledgerStep Ledger.new ops) (run ledgerStep Ledger.new ops) :=
  run_induction ledgerStep accounted_new (fun _ _ op h => h.step op) ops

end Ledger

/-! ## Request ids -/

/-- The id of the request with the given ticket: ids start at one and stay at the largest `u64`
once they reach it. -/
def requestNumber (ticket : Nat) : Nat := min (ticket + 1) (2 ^ 64 - 1)

theorem toNat_saturatingSucc {id : UInt64} {t : Nat} (h : id.toNat = requestNumber t) :
    (saturatingSucc id).toNat = requestNumber (t + 1) := by
  unfold saturatingSucc requestNumber at *
  split
  · next hlt =>
    have hadd : (id + 1).toNat = (id.toNat + 1) % 2 ^ 64 := by simp [UInt64.toNat_add]
    rw [hadd]
    omega
  · omega

namespace Ledger

/-- Slots in use carry the id of their ticket; the others are blank. -/
structure Numbered (l : Ledger) : Prop where
  next : l.queue.nextRequestId.toNat = requestNumber l.issued
  blank : ∀ i, (l.queue.slots i).state = .free → (l.queue.slots i).requestId = 0
  id : ∀ i, (l.queue.slots i).state ≠ .free →
    (l.queue.slots i).requestId.toNat = requestNumber (l.ticket i)

variable {i : Fin objectRequestSlots} {l : Ledger}

theorem Numbered.step (h : l.Numbered) (op : QueueOp) : (ledgerStep l op).2.Numbered := by
  have hmv := step_cases l op
  simp only [ledgerStep]
  generalize l.observe op = event at hmv
  generalize l.after op = l' at hmv ⊢
  refine ⟨?_, fun i hi => ?_, fun i hi => ?_⟩
  · cases hmv with
    | accept => exact toNat_saturatingSucc h.next
    | _ => exact h.next
  · cases hmv.becomes i with
    | kept slot => rw [slot] at hi ⊢; exact h.blank i hi
    | moved _ used' => exact absurd hi used'
    | freed slot => rw [slot]; rfl
    | fresh _ pending => rw [pending] at hi; cases hi
  · cases hmv.becomes i with
    | kept slot ticket => rw [slot] at hi ⊢; rw [ticket]; exact h.id i hi
    | moved used _ _ _ id ticket => rw [id, ticket]; exact h.id i used
    | freed slot => rw [slot] at hi; exact absurd rfl hi
    | fresh _ _ id ticket => rw [id, ticket]; exact h.next

theorem run_numbered (ops : List QueueOp) : (run ledgerStep Ledger.new ops).Numbered :=
  run_invariant ledgerStep (P := Numbered)
    ⟨by decide, fun _ _ => rfl, fun _ hi => absurd rfl hi⟩ (fun _ op h => h.step op) ops

/-- Until the ids saturate, the id of a request leads to its own slot. -/
theorem requestIndex_of_used (htr : l.Tracks phase)
    (hnm : l.Numbered) (hids : l.issued < 2 ^ 64) (hi : (l.queue.slots i).state ≠ .free) :
    l.queue.requestIndex (l.queue.slots i).requestId = some i := by
  obtain ⟨j, hj⟩ := position_isSome
    (p := fun slot => decide (slot.requestId = (l.queue.slots i).requestId))
    (f := l.queue.slots) (i := i) (by simp)
  have hsm : (l.queue.slots j).requestId = (l.queue.slots i).requestId := by
    simpa using position_some hj
  have hidi := hnm.id i hi
  have hus : (l.queue.slots j).state ≠ .free := by
    intro hfr
    rw [← hsm, hnm.blank j hfr] at hidi
    unfold requestNumber at hidi
    simp only [UInt64.toNat_zero] at hidi
    omega
  have hidj := hnm.id j hus
  rw [hsm, hidi] at hidj
  have hlti := htr.ticket_lt hi
  have hltj := htr.ticket_lt hus
  have hji : j = i := by
    refine htr.distinct j i hus hi ?_
    unfold requestNumber at hidj
    omega
  unfold requestIndex
  rw [hj, hji]

/-- Polling a completed request by its id hands out its result to the client it belongs to, and to
no other, as soon as the client's buffer holds it. -/
def PollsExactly (l : Ledger) : Prop := ∀ i, (l.queue.slots i).state = .done → ∀ client outLen,
    l.observe (.poll client (l.queue.slots i).requestId outLen) =
        .deal (.collected (l.ticket i) client (l.queue.slots i).answer) ↔
      client = (l.queue.slots i).client ∧
        ((l.queue.slots i).status ≠ 0 ∨ (l.queue.slots i).len ≤ outLen)

theorem pollsExactly (htr : l.Tracks phase) (hnm : l.Numbered) (hids : l.issued < 2 ^ 64) :
    l.PollsExactly := by
  intro i hdn client outLen
  have hin := requestIndex_of_used htr hnm hids (by rw [hdn]; decide)
  simp only [observe, poll, hin]
  by_cases how : (l.queue.slots i).client = client
  · subst how
    simp only [hdn]
    unfold ObjectRequestSlot.answer Completion.delivered
    by_cases hst : (l.queue.slots i).status = 0
    · by_cases hlen : outLen < (l.queue.slots i).len
      · simp [hst, hlen]
      · simp [hst, hlen, Nat.le_of_not_lt hlen]
    · simp [hst]
  · simp only [ne_eq, how, not_false_eq_true, if_true, reduceCtorEq, false_iff]
    exact fun h => how h.1.symm

end Ledger

/-! ## The order in which requests are taken -/

/-- When the service takes a request, no older request of its client is pending. -/
def TakenInOrder (e : Event Ledger QueueOp QueueEvent) : Prop :=
  ∀ t client, e.output = .taken t client → ∀ j, (e.pre.queue.slots j).state = .pending →
    (e.pre.queue.slots j).client = client → t ≤ e.pre.ticket j

/-- The call is not a submission. -/
def QueueOp.Serves : QueueOp → Prop
  | .submit .. => False
  | _ => True

namespace Ledger

/-- Slot order is submission order among the uncompleted requests of each client. -/
def Sorted (l : Ledger) : Prop := ∀ i j, (l.queue.slots i).Open → (l.queue.slots j).Open →
    (l.queue.slots i).client = (l.queue.slots j).client → i < j → l.ticket i < l.ticket j

variable {op : QueueOp} {l : Ledger} {slot : ObjectRequestSlot} {i : Fin objectRequestSlots}

theorem wellPlaced_of_serves (l : Ledger) (h : op.Serves) : WellPlaced l op := by
  cases op <;> first | exact trivial | cases h

theorem Sorted.step (h : l.Sorted) (htr : l.Tracks phase) (hpl : WellPlaced l op) :
    (ledgerStep l op).2.Sorted := by
  have hbc := (step_cases l op).becomes
  simp only [ledgerStep]
  generalize l.after op = l' at hbc ⊢
  have hop : ∀ i, (l'.queue.slots i).Open →
      ((l.queue.slots i).Open ∧ (l'.queue.slots i).client = (l.queue.slots i).client ∧
        l'.ticket i = l.ticket i) ∨
      (l.queue.freeIndex = some i ∧ l'.ticket i = l.issued ∧ ∀ j, (l.queue.slots j).Open →
        (l.queue.slots j).client = (l'.queue.slots i).client → j < i) := fun i hi => by
    cases hbc i with
    | kept slot ticket => exact .inl ⟨slot ▸ hi, by rw [slot], ticket⟩
    | moved _ _ opens client _ ticket => exact .inl ⟨opens hi, client, ticket⟩
    | freed slot => exact absurd rfl (open_used (slot ▸ hi))
    | fresh free _ _ ticket placed => exact .inr ⟨free, ticket, placed hpl⟩
  intro i j hi hj hcl hij
  rcases hop i hi with ⟨hi, hci, hti⟩ | ⟨hfr, hti, hbh⟩ <;>
    rcases hop j hj with ⟨hj, hcj, htj⟩ | ⟨hfr', htj, -⟩ <;> rw [hti, htj]
  · exact h i j hi hj (by rw [← hci, ← hcj, hcl]) hij
  · exact htr.ticket_lt (open_used hi)
  · -- nothing of the client is open behind the new request
    have hbk := hbh j hj (by rw [← hcj, hcl])
    omega
  · obtain rfl := Option.some.inj (hfr.symm.trans hfr')
    omega

/-- On a sorted ledger the first pending slot has the oldest pending request of its client. -/
theorem Sorted.takenInOrder (h : l.Sorted) (op : QueueOp) :
    TakenInOrder (Event.of ledgerStep l op) := by
  intro t client hot j hj hcl
  have hmv := step_cases l op
  simp only [Event.of, ledgerStep] at hot hj hcl ⊢
  rw [hot] at hmv
  generalize l.after op = l' at hmv
  cases hmv with
  | @take i pending =>
    have hi : (l.queue.slots i).state = .pending := by simpa using position_some pending
    rcases lt_trichotomy i j with hij | rfl | hji
    · exact Nat.le_of_lt (h i j (.inl hi) (.inl hj) hcl.symm hij)
    · exact le_rfl
    · have hfr := position_first pending hji
      simp [hj] at hfr

variable {ops : List QueueOp}

section

variable (h : ∀ e ∈ trace ledgerStep Ledger.new ops, WellPlaced e.pre e.input)
include h

theorem run_sorted : (run ledgerStep Ledger.new ops).Sorted := by
  induction ops using List.reverseRecOn with
  | nil => exact fun _ _ hi => absurd rfl (open_used hi)
  | append_singleton ops op ih =>
    rw [trace_snoc] at h
    obtain ⟨phase, -, htr⟩ := run_accounted ops
    rw [run_snoc]
    exact (ih fun e he => h e (List.mem_append_left _ he)).step htr (h _ List.mem_concat_self)

theorem run_takenInOrder : ∀ e ∈ trace ledgerStep Ledger.new ops, TakenInOrder e := by
  intro e he
  obtain ⟨past, op, rest, rfl, rfl⟩ := mem_trace ledgerStep he
  rw [trace_append] at h
  exact (run_sorted fun e he => h e (List.mem_append_left _ he)).takenInOrder op

end

/-! ### A misplaced submission breaks the order -/

/-- The ledger holds a request that will be taken before an older one of its client. -/
structure Overtakes (l : Ledger) (i j : Fin objectRequestSlots) : Prop where
  before : i < j
  fst : (l.queue.slots i).state = .pending
  snd : (l.queue.slots j).state = .pending
  client : (l.queue.slots i).client = (l.queue.slots j).client
  younger : l.ticket j < l.ticket i

/-- Taking a request in front of the pair leaves the pair as it is. -/
theorem Overtakes.withSlot (h : l.Overtakes i j) (hk : k < i) (slot : ObjectRequestSlot) :
    (l.withSlot k slot).Overtakes i j := by
  have hkj : k < j := hk.trans h.before
  constructor
  · exact h.before
  · simpa only [withSlot_slots, update_of_ne hk.ne'] using h.fst
  · simpa only [withSlot_slots, update_of_ne hkj.ne'] using h.snd
  · simpa only [withSlot_slots, update_of_ne hk.ne', update_of_ne hkj.ne'] using h.client
  · exact h.younger

/-- The first pending slot, when nothing before it is pending. -/
theorem pendingIndex_eq (hi : (l.queue.slots i).state = .pending)
    (hbf : ∀ k, k < i → (l.queue.slots k).state ≠ .pending) : l.queue.pendingIndex = some i := by
  obtain ⟨k, hk⟩ : ∃ k, l.queue.pendingIndex = some k := position_isSome (by simpa using hi)
  have hpn : (l.queue.slots k).state = .pending := by simpa using position_some hk
  rcases lt_trichotomy k i with hki | rfl | hik
  · exact absurd hpn (hbf k hki)
  · exact hk
  · have hnn := position_first hk hik
    simp [hi] at hnn

theorem ledgerStep_serviceNext (hk : l.queue.pendingIndex = some k) :
    ledgerStep l .serviceNext = (.taken (l.ticket k) (l.queue.slots k).client,
      l.withSlot k { l.queue.slots k with state := .inService }) := by
  simp only [ledgerStep, observe, after, ObjectRequestQueue.after, serviceNext, hk]
  rfl

/-- The service taking one request after the other comes to the younger one first. The induction is
on how many slots before `i` can still be pending. -/
theorem Overtakes.taken (d : Nat) (h : l.Overtakes i j)
    (hrs : ∀ k, k.val + d < i.val → (l.queue.slots k).state ≠ .pending) :
    ∃ n, ∃ e ∈ trace ledgerStep l (List.replicate n .serviceNext), ¬TakenInOrder e := by
  induction d generalizing l with
  | zero =>
    have hfr : l.queue.pendingIndex = some i := pendingIndex_eq h.fst hrs
    refine ⟨1, Event.of ledgerStep l .serviceNext, List.mem_singleton.2 rfl, fun hor => ?_⟩
    have hle := hor (l.ticket i) (l.queue.slots i).client
      (by simp only [Event.of, ledgerStep_serviceNext hfr]) j h.snd h.client.symm
    exact absurd h.younger (Nat.not_lt_of_le hle)
  | succ d ih =>
    by_cases hsl : ∃ k, k.val + (d + 1) = i.val ∧ (l.queue.slots k).state = .pending
    · -- the slot at the edge is the first pending one, and is taken now
      obtain ⟨m, hmi, hpn⟩ := hsl
      have hm := pendingIndex_eq hpn fun k hk => hrs k (by omega)
      obtain ⟨n, e, he, hbad⟩ := ih
        (h.withSlot (k := m) (by omega) { l.queue.slots m with state := .inService }) (by
        intro k hk
        by_cases hkm : k = m
        · subst hkm
          rw [withSlot_slots, update_self]
          exact fun hs => SlotState.noConfusion hs
        · rw [withSlot_slots, update_of_ne hkm]
          exact hrs k (by omega))
      refine ⟨n + 1, e, List.mem_cons_of_mem _ ?_, hbad⟩
      rw [ledgerStep_serviceNext hm]
      exact he
    · refine ih h fun k hk hpn => ?_
      by_cases hed : k.val + (d + 1) = i.val
      · exact hsl ⟨k, hed, hpn⟩
      · exact hrs k (by omega) hpn

/-- After a misplaced submission the service can come to take requests out of order, without a
further submission. -/
theorem misplaced_overtakes (htr : l.Tracks phase) (h : ¬WellPlaced l op) :
    ∃ i j, (run ledgerStep l [op, .requeueInService]).Overtakes i j := by
  cases op with
  | submit client opcode objectId payload =>
    simp only [WellPlaced, not_forall] at h
    obtain ⟨i, hfr, j, hop, hcl, hji⟩ := h
    have hij : i < j := by
      refine lt_of_le_of_ne (Fin.not_lt.1 hji) ?_
      rintro rfl
      exact open_used hop (by simpa using position_some hfr)
    obtain ⟨slot, hac, hpn, how⟩ : ∃ slot,
        (ledgerStep l (.submit client opcode objectId payload)).2 = l.accept i slot ∧
          slot.state = .pending ∧ slot.client = client := by
      simp only [ledgerStep, after, ObjectRequestQueue.after, submit, hfr]
      exact ⟨_, rfl, rfl, rfl⟩
    have hot : (l.accept i slot).queue.slots j = l.queue.slots j := by
      simp only [accept, update_of_ne hij.ne']
    have hsl : (l.accept i slot).queue.slots i = slot := by
      simp only [accept, update_self]
    refine ⟨i, j, ?_⟩
    change Overtakes { (ledgerStep l (.submit client opcode objectId payload)).2 with
      queue := (ledgerStep l (.submit client opcode objectId payload)).2.queue.requeueInService.2 }
      i j
    rw [hac]
    constructor
    · exact hij
    · simp [requeueInService, hsl, hpn]
    · simp only [requeueInService, hot]
      rcases hop with hs | hs <;> simp [hs]
    · simp only [requeueInService, hsl, hot]
      rcases hop with hs | hs <;> simp [hs, hpn, hcl, how]
    · simpa only [accept, update_self, update_of_ne hij.ne'] using htr.ticket_lt (open_used hop)
  | poll | serviceNext | serviceComplete | requeueInService | reclaimForHolder =>
    exact absurd trivial h

/-- Requests are taken in order, whatever the service and the clients do from any point on without
a further submission, exactly when every submission was well placed. -/
theorem takenInOrder_iff (ops : List QueueOp) :
    (∀ past, past <+: ops → ∀ served, (∀ op ∈ served, QueueOp.Serves op) →
        ∀ e ∈ trace ledgerStep Ledger.new (past ++ served), TakenInOrder e) ↔
      ∀ e ∈ trace ledgerStep Ledger.new ops, WellPlaced e.pre e.input := by
  constructor
  · intro h e he
    obtain ⟨past, op, rest, rfl, rfl⟩ := mem_trace ledgerStep he
    by_contra hbad
    obtain ⟨phase, -, htr⟩ := run_accounted past
    obtain ⟨i, j, hov⟩ := misplaced_overtakes htr hbad
    obtain ⟨n, e, he, hor⟩ := hov.taken i.val (fun k hk => absurd hk (by omega))
    refine hor (h (past ++ [op]) (by simp) (.requeueInService :: List.replicate n .serviceNext)
      ?_ e ?_)
    · intro op hop
      rcases List.mem_cons.1 hop with rfl | hop
      · trivial
      · rw [List.eq_of_mem_replicate hop]
        trivial
    · have hsp : past ++ [op] ++ .requeueInService :: List.replicate n .serviceNext =
          past ++ ([op, .requeueInService] ++ List.replicate n .serviceNext) := by simp
      rw [hsp, trace_append, trace_append]
      exact List.mem_append_right _ (List.mem_append_right _ he)
  · rintro h past ⟨rest, rfl⟩ served hsr
    refine run_takenInOrder fun e he => ?_
    rw [trace_append] at he h
    rcases List.mem_append.1 he with he | he
    · exact h e (List.mem_append_left _ he)
    · obtain ⟨js, op, ks, rfl, rfl⟩ := mem_trace ledgerStep he
      exact wellPlaced_of_serves _ (hsr op (by simp))

end Ledger

/-! ## Every history of the queue -/

/-- **Requests are completed once, polled by their client, and taken in order when well placed.**
In every history of the queue: no request is completed twice and no result is handed out twice; a
result is handed out only to the holder that submitted the request, and is the one the service
completed it with; while fewer than `2 ^ 64` requests have been accepted, the poll of a completed
request hands out its result exactly to that holder; and the service takes the requests of every
client in the order of their submission, after every part of the history and whatever happens then
without a new submission, exactly when every submission goes to a slot behind all slots of its
client that are pending or in service. -/
theorem object_requests_served (ops : List QueueOp) :
    let log := Ledger.deals (trace ledgerStep Ledger.new ops)
    let ledger := run ledgerStep Ledger.new ops
    (answers log).Nodup ∧ (collections log).Nodup ∧
      (∀ t client answer, .collected t client answer ∈ log →
        .opened t client ∈ log ∧ .answered t answer ∈ log) ∧
      (ledger.issued < 2 ^ 64 → ledger.PollsExactly) ∧
      ((∀ past, past <+: ops → ∀ served, (∀ op ∈ served, QueueOp.Serves op) →
          ∀ e ∈ trace ledgerStep Ledger.new (past ++ served), TakenInOrder e) ↔
        ∀ e ∈ trace ledgerStep Ledger.new ops, WellPlaced e.pre e.input) := by
  obtain ⟨phase, hlg, htr⟩ := Ledger.run_accounted ops
  exact ⟨hlg.answers_nodup, hlg.collections_nodup, fun _ _ _ => hlg.collected,
    Ledger.pollsExactly htr (Ledger.run_numbered ops), Ledger.takenInOrder_iff ops⟩

/-- Two reads of holder 1, both taken, the first completed. -/
def twoReads : List QueueOp :=
  [.submit ⟨1⟩ 1 10 ⟨[], by decide⟩, .submit ⟨1⟩ 1 11 ⟨[], by decide⟩, .serviceNext, .serviceNext,
    .serviceComplete 1 0 [7]]

theorem object_requests_served_two_reads :
    (run ledgerStep Ledger.new twoReads).observe (.poll ⟨1⟩ 1 1) =
        .deal (.collected 0 ⟨1⟩ ⟨0, [7]⟩) ∧
      ∀ e ∈ trace ledgerStep Ledger.new twoReads, TakenInOrder e := by
  obtain ⟨-, -, -, hpl, hor⟩ := object_requests_served twoReads
  have hpo := (hpl (by decide) ⟨0, by decide⟩ (by decide) ⟨1⟩ 1).2 ⟨by decide, .inr (by decide)⟩
  have hor := hor.2 (by decide) twoReads List.prefix_rfl [] (by simp)
  exact ⟨hpo, hor⟩

/-- Holder 1 submits three requests, the third after it has polled the result of the first, which
frees slot 0. -/
def reusedSlot : List QueueOp :=
  [.submit ⟨1⟩ 1 10 ⟨[], by decide⟩, .submit ⟨1⟩ 1 11 ⟨[], by decide⟩, .serviceNext,
    .serviceComplete 1 0 [], .poll ⟨1⟩ 1 0, .submit ⟨1⟩ 1 12 ⟨[], by decide⟩]

theorem Ledger.run_queue (l : Ledger) (ops : List QueueOp) :
    (run ledgerStep l ops).queue = ops.foldl ObjectRequestQueue.after l.queue := by
  induction ops generalizing l with
  | nil => rfl
  | cons op ops ih =>
    have hst : (ledgerStep l op).2.queue = l.queue.after op := by
      simp only [ledgerStep, Ledger.after]
      split <;> rfl
    rw [List.foldl_cons, ← hst, ← ih]
    rfl

/-- A holder submits a request and exits, so many times over that the request ids saturate. -/
def manyExits (n : Nat) : List QueueOp :=
  (List.replicate n [.submit ⟨1⟩ 1 10 ⟨[], by decide⟩, .reclaimForHolder ⟨1⟩]).flatten

theorem run_manyExits (n : Nat) :
    (run ledgerStep Ledger.new (manyExits n)).queue.slots = (fun _ => .free) ∧
      (run ledgerStep Ledger.new (manyExits n)).issued = n := by
  induction n with
  | zero => exact ⟨rfl, rfl⟩
  | succ n ih =>
    obtain ⟨hsl, his⟩ := ih
    have hmn : manyExits (n + 1) =
        manyExits n ++ [.submit ⟨1⟩ 1 10 ⟨[], by decide⟩, .reclaimForHolder ⟨1⟩] := by
      unfold manyExits
      rw [List.replicate_succ', List.flatten_append]
      rfl
    rw [hmn, run_append]
    generalize run ledgerStep Ledger.new (manyExits n) = l at hsl his ⊢
    have hfr : l.queue.freeIndex = some ⟨0, by decide⟩ := by
      unfold freeIndex
      rw [hsl]
      rfl
    simp only [run, ledgerStep, Ledger.after, hfr, after, submit,
      allocRequestId, setSlot, reclaimForHolder, hsl, his, and_true]
    funext i
    by_cases hi : i = ⟨0, by decide⟩
    · subst hi
      simp
    · simp only [update_of_ne hi]
      rfl

/-- Holders 1 and 2 each submit a request, and both are completed, by the last id there is. -/
def lastIds : List QueueOp :=
  [.submit ⟨1⟩ 1 10 ⟨[], by decide⟩, .submit ⟨2⟩ 1 10 ⟨[], by decide⟩, .serviceNext, .serviceNext,
    .serviceComplete 0xffffffffffffffff 0 [], .serviceComplete 0xffffffffffffffff 0 []]

/-- Once the ids have saturated, two holders have requests under one id, and the second is refused
the result of its completed request. -/
theorem Ledger.not_pollsExactly_lastIds {n : Nat} (hn : 2 ^ 64 ≤ n + 1) :
    ¬(run ledgerStep Ledger.new (manyExits n ++ lastIds)).PollsExactly := by
  obtain ⟨hsl, his⟩ := run_manyExits n
  have hnx := (Ledger.run_numbered (manyExits n)).next
  rw [his] at hnx
  rw [run_append]
  generalize run ledgerStep Ledger.new (manyExits n) = l at hsl hnx ⊢
  have hid : l.queue.nextRequestId = 0xffffffffffffffff :=
    UInt64.toNat_inj.1 (by rw [hnx, requestNumber, Nat.min_eq_right (by omega)]; rfl)
  have hqu := Ledger.run_queue l lastIds
  rw [show l.queue = ⟨fun _ => .free, 0xffffffffffffffff⟩ by rw [← hsl, ← hid]] at hqu
  generalize run ledgerStep l lastIds = l' at hqu ⊢
  intro h
  have hid' : (l'.queue.slots ⟨1, by decide⟩).requestId = 0xffffffffffffffff := by
    rw [hqu]
    decide +kernel
  have hpl := (h ⟨1, by decide⟩ (by rw [hqu]; decide +kernel) ⟨2⟩ 0).2 (by rw [hqu]; decide +kernel)
  rw [hid'] at hpl
  have hrp : (l'.queue.poll ⟨2⟩ 0xffffffffffffffff 0).1 = .error .unauthorizedHolder := by
    rw [hqu]
    decide +kernel
  simp only [Ledger.observe, hrp] at hpl
  split at hpl
  · next heq => cases heq
  · next heq => cases heq
  · cases hpl

/-- The service takes the third request of a client while the second, in slot 1, is still pending.
Once the ids have saturated, two holders have requests under one id, and the second is refused the
result of its completed request. -/
theorem requests_overtake_and_share_ids :
    ¬(∀ e ∈ trace ledgerStep Ledger.new (reusedSlot ++ [.serviceNext]), TakenInOrder e) ∧
      ¬(run ledgerStep Ledger.new (manyExits (2 ^ 64) ++ lastIds)).PollsExactly := by
  constructor
  · intro h
    have hor := h (Event.of ledgerStep (run ledgerStep Ledger.new reusedSlot) .serviceNext)
      (by rw [trace_snoc]; exact List.mem_concat_self)
    exact absurd (hor 2 ⟨1⟩ rfl ⟨1, by decide⟩ (by decide) (by decide)) (by decide)
  · exact Ledger.not_pollsExactly_lastIds (Nat.le_succ _)

end CleanSlate.Kernel
