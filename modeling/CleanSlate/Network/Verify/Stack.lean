import Mathlib.Data.Fintype.EquivFin
import CleanSlate.Network.Stack

/-!
# Requests for unknown neighbours

A neighbour waits from the request for it that a send hands to the link until it answers, is entered
in the cache, or the stack is reset; time alone ends no wait. The pending requests are those of the
neighbours that wait, and there is room for four. So a send to a neighbour that is not cached asks
for it exactly when it waits already, or fewer than four wait.
-/

namespace CleanSlate.Network

open Lib Slots Function

abbrev L3Event := Event L3Stack L3Op L3Output

/-- The call is a send to a neighbour that is not cached. -/
def SendsUncached (stack : L3Stack) (op : L3Op) (dst : Ipv4Addr) : Prop :=
  ∃ now transmit, op = .sendIpv4 now transmit dst ∧ sameSubnet stack.ourIp dst ∧
    stack.arp.lookup dst now = none

/-- A request for the neighbour is handed to the link. -/
def L3Output.Asks (output : L3Output) (ip : Ipv4Addr) : Prop :=
  ∃ packet ∈ output.packets, packet.op = .request ∧ packet.targetIp = ip

/-- The call ends the wait for the neighbour: it receives a frame that tells its address, enters it
in the cache, or resets the stack. -/
def Ends (ip : Ipv4Addr) (e : L3Event) : Prop :=
  match e.input with
  | .poll _ _ (.ok (.arp packet)) => packet.op = .reply ∧ packet.senderIp = ip
  | .poll _ _ (.ok (.ipv4 _ src dst _)) => dst = e.pre.ourIp ∧ src = ip
  | .insert ip' _ _ => ip' = ip
  | .reset _ => True
  | _ => False

/-- The neighbour was asked for, and its wait has not ended since. -/
def Waits (log : List L3Event) (ip : Ipv4Addr) : Prop :=
  Since (fun e => e.output.Asks ip) (Ends ip) log

/-! ## The pending requests -/

section Pending
variable {pending : Fin 4 → Option Ipv4Addr} {asks ends : Ipv4Addr → Prop}

def Pending (pending : Fin 4 → Option Ipv4Addr) (ip : Ipv4Addr) : Prop := ∃ i, pending i = some ip

/-- No neighbour has two of the requests. -/
def Once (pending : Fin 4 → Option Ipv4Addr) : Prop :=
  ∀ i j ip, pending i = some ip → pending j = some ip → i = j

/-- What was asked for becomes pending, and the waits that ended do not stay so. -/
structure Moves (asks ends : Ipv4Addr → Prop) (pending pending' : Fin 4 → Option Ipv4Addr) :
    Prop where
  once : Once pending → Once pending'
  iff : ∀ ip, Pending pending' ip ↔ asks ip ∨ Pending pending ip ∧ ¬ends ip

theorem Moves.keep (ha : ∀ ip, ¬asks ip) (he : ∀ ip, ¬ends ip) :
    Moves asks ends pending pending :=
  ⟨id, fun ip => by simp [ha, he]⟩

theorem Moves.clear (cache : ArpCache) {ip : Ipv4Addr} (mac : MacAddr) (now : Nat)
    (ha : ∀ ip', ¬asks ip') (he : ∀ ip', ends ip' ↔ ip = ip') :
    Moves asks ends cache.pending (cache.insert ip mac now).pending := by
  have hcl : ∀ i ip', (cache.insert ip mac now).pending i = some ip' ↔
      cache.pending i = some ip' ∧ ¬ends ip' := by
    intro i ip'
    change (if cache.pending i = some ip then none else cache.pending i) = _ ↔ _
    rw [he]
    split
    · next h => simp [h]
    · next h => exact (and_iff_left_of_imp fun h' (heq : ip = ip') => h (heq ▸ h')).symm
  refine ⟨fun h i j ip' hi hj => h i j ip' ((hcl i ip').1 hi).1 ((hcl j ip').1 hj).1, fun ip' => ?_⟩
  simp only [Pending, hcl, ha, false_or, exists_and_right]

/-- A request is tracked if it is pending already or there is room for it. -/
theorem trackPending_moves (cache : ArpCache) (ip : Ipv4Addr) :
    ((cache.trackPending ip).1 ↔ Pending cache.pending ip ∨ ∃ i, cache.pending i = none) ∧
    Moves (fun ip' => (cache.trackPending ip).1 ∧ ip = ip') (fun _ => False) cache.pending
      (cache.trackPending ip).2.pending := by
  unfold ArpCache.trackPending
  split
  · next h =>
    exact ⟨iff_of_true rfl (.inl h), id, fun ip' => by simpa using fun heq => heq ▸ h⟩
  next hnew =>
  cases hfr : position Option.isNone cache.pending with
  | none =>
    refine ⟨iff_of_false nofun (not_or.2 ⟨hnew, fun ⟨i, hi⟩ => ?_⟩), .keep (by simp) (by simp)⟩
    have := position_none.1 hfr i
    simp [hi] at this
  | some k =>
    have hk : cache.pending k = none := Option.isNone_iff_eq_none.1 (position_some hfr)
    have hat : ∀ i ip', update cache.pending k (some ip) i = some ip' ↔
        i = k ∧ ip = ip' ∨ cache.pending i = some ip' := fun i ip' => by
      by_cases hik : i = k <;> simp [hik, hk]
    refine ⟨iff_of_true rfl (.inr ⟨k, hk⟩), fun h i j ip' hi hj => ?_, fun ip' => ?_⟩
    · dsimp only at hi hj
      rw [hat] at hi hj
      rcases hi with ⟨rfl, rfl⟩ | hi <;> rcases hj with ⟨rfl, hij⟩ | hj
      · rfl
      · exact absurd ⟨j, hj⟩ hnew
      · exact absurd ⟨i, hij ▸ hi⟩ hnew
      · exact h i j ip' hi hj
    · refine (exists_congr fun i => hat i ip').trans ?_
      simp [exists_or, Pending]

/-- There is room unless four neighbours have a request. -/
theorem free_iff (h : Once pending) : (∃ i, pending i = none) ↔
    ¬∃ hosts : Fin 4 → Ipv4Addr, Injective hosts ∧ ∀ i, Pending pending (hosts i) := by
  constructor
  · rintro ⟨k, hk⟩ ⟨hosts, hinj, hpd⟩
    choose slot hsl using hpd
    have hsi : Injective slot := fun i j hij =>
      hinj (Option.some.inj ((hsl i).symm.trans (hij ▸ hsl j)))
    obtain ⟨i, rfl⟩ := Finite.injective_iff_surjective.1 hsi k
    rw [hsl i] at hk
    cases hk
  · intro hno
    by_contra hfl
    have hal : ∀ i, ∃ ip, pending i = some ip := fun i =>
      Option.ne_none_iff_exists'.1 fun hi => hfl ⟨i, hi⟩
    choose hosts hh using hal
    exact hno ⟨hosts, fun i j hij => h i j _ (hh i) (hij ▸ hh j), fun i => ⟨i, hh i⟩⟩

end Pending

/-! ## Steps and runs -/

theorem not_asks_nil {result : Except NetworkError Unit} (ip : Ipv4Addr) :
    ¬L3Output.Asks ⟨result, []⟩ ip :=
  fun ⟨_, hp, _⟩ => nomatch hp

theorem step_moves (stack : L3Stack) (op : L3Op) :
    Moves (l3Step stack op).1.Asks (fun ip => Ends ip (.of l3Step stack op)) stack.arp.pending
      (l3Step stack op).2.arp.pending := by
  cases op with
  | sendIpv4 now transmit dst =>
    simp only [l3Step, L3Stack.sendIpv4]
    split
    · exact .keep not_asks_nil fun _ => id
    split
    · exact .keep not_asks_nil fun _ => id
    have hmv := (trackPending_moves stack.arp dst).2
    generalize stack.arp.trackPending dst = result at hmv ⊢
    obtain ⟨asked, arp⟩ := result
    cases asked <;> refine ⟨hmv.once, fun ip => (hmv.iff ip).trans ?_⟩ <;>
      simp [L3Output.Asks, ArpPacket.request, Ends, Event.of]
  | poll now transmit received =>
    cases received with
    | error => exact .keep not_asks_nil fun _ => id
    | ok frame =>
      cases frame with
      | dropped => exact .keep not_asks_nil fun _ => id
      | arp packet =>
        simp only [l3Step, L3Stack.poll, L3Stack.dispatchFrame]
        split
        · next hop =>
          split <;> refine .keep (fun ip => ?_) fun ip => ?_ <;>
            simp [L3Output.Asks, ArpPacket.replyTo, Ends, Event.of, hop]
        · next hop =>
          refine .clear (stack.arp.expire now) _ _ not_asks_nil fun ip => ?_
          simp [Ends, Event.of, hop]
      | ipv4 source src dst handled =>
        simp only [l3Step, L3Stack.poll, L3Stack.dispatchFrame]
        split
        · next hdst =>
          refine .clear (stack.arp.expire now) _ _ not_asks_nil fun ip => ?_
          simp [Ends, Event.of, hdst]
        · next hdst => exact .keep not_asks_nil fun ip h => hdst h.1
  | insert ip mac now => exact .clear stack.arp mac now not_asks_nil fun ip' => Iff.rfl
  | reset link =>
    constructor
    · exact fun _ _ _ _ h => nomatch h
    · simp [l3Step, L3Output.Asks, Ends, Event.of, Pending, ArpCache.new]

/-- The pending requests are those of the neighbours that wait. -/
theorem run_pending (mac : MacAddr) (ourIp : Ipv4Addr) (ttl : Nat) (ops : List L3Op) :
    Once (run l3Step (.new mac ourIp ttl) ops).arp.pending ∧ ∀ ip,
      Pending (run l3Step (.new mac ourIp ttl) ops).arp.pending ip ↔
        Waits (trace l3Step (.new mac ourIp ttl) ops) ip := by
  refine run_induction l3Step (P := fun log stack => Once stack.arp.pending ∧ ∀ ip,
    Pending stack.arp.pending ip ↔ Waits log ip) ⟨?_, fun ip => ?_⟩ ?_ ops
  · exact fun _ _ _ h => nomatch h
  · exact iff_of_false (fun ⟨_, h⟩ => nomatch h) not_since_nil
  rintro log stack op ⟨honce, hpd⟩
  have hmv := step_moves stack op
  refine ⟨hmv.once honce, fun ip => (hmv.iff ip).trans ?_⟩
  change _ ↔ Since _ _ _
  rw [since_snoc, hpd]
  rfl

/-- After any run, a send to a neighbour that is not cached fails, and asks for it exactly when the
neighbour waits already or fewer than four wait. -/
theorem uncached_asked_iff (mac : MacAddr) (ourIp : Ipv4Addr) (ttl : Nat) (ops : List L3Op)
    (op : L3Op) (dst : Ipv4Addr) :
    let stack := run l3Step (.new mac ourIp ttl) ops
    let log := trace l3Step (.new mac ourIp ttl) ops
    SendsUncached stack op dst → (l3Step stack op).1.result = .error .unreachable ∧
      ((l3Step stack op).1.Asks dst ↔ Waits log dst ∨
        ¬∃ hosts : Fin 4 → Ipv4Addr, Injective hosts ∧ ∀ i, Waits log (hosts i)) := by
  rintro stack log ⟨now, transmit, rfl, hsub, hlk⟩
  have hpd : Once stack.arp.pending ∧ ∀ ip, Pending stack.arp.pending ip ↔ Waits log ip :=
    run_pending mac ourIp ttl ops
  have hrm := (trackPending_moves stack.arp dst).1
  rw [free_iff hpd.1] at hrm
  simp only [hpd.2] at hrm
  rw [← hrm]
  simp only [l3Step, L3Stack.sendIpv4, hsub, hlk]
  rcases stack.arp.trackPending dst with ⟨asked, arp⟩
  cases asked <;> simp [L3Output.Asks, ArpPacket.request]

/-- A stack at 10.0.0.1 and a send to a host of its network. -/
def sampleStack : L3Stack := .new ⟨.replicate 6 2⟩ (.new 10 0 0 1) 60

def sampleSend (now : Nat) (host : UInt8) : L3Op := .sendIpv4 now (.ok ()) (.new 10 0 0 host)

/-- A host that waits is asked for again. -/
theorem uncached_asked_iff_again :
    (l3Step (run l3Step sampleStack [sampleSend 0 2, sampleSend 0 3]) (sampleSend 9 2)).1.Asks
      (.new 10 0 0 2) := by
  refine (uncached_asked_iff ⟨.replicate 6 2⟩ (.new 10 0 0 1) 60 [sampleSend 0 2, sampleSend 0 3]
    (sampleSend 9 2) (.new 10 0 0 2) ⟨9, .ok (), rfl, rfl, rfl⟩).2.2 (.inl ?_)
  exact ⟨[], _, _, rfl, ⟨_, List.mem_singleton_self _, rfl, rfl⟩, List.forall_mem_singleton.2 id⟩

/-- After sends to four hosts that do not answer, a fifth is not asked for, however late. -/
theorem fifth_host_not_asked :
    let stack := run l3Step sampleStack
      ([2, 3, 4, 5].map (sampleSend 0) ++ [.poll 1000 (.ok ()) (.ok .dropped)])
    SendsUncached stack (sampleSend 1000 6) (.new 10 0 0 6) ∧
      ¬(l3Step stack (sampleSend 1000 6)).1.Asks (.new 10 0 0 6) := by
  refine ⟨⟨1000, .ok (), rfl, rfl, rfl⟩, ?_⟩
  rintro ⟨packet, hp, -⟩
  cases hp

end CleanSlate.Network
