import CleanSlate.ServicePort.Verify.Preservation
import CleanSlate.ServicePort.Verify.Wrap

/-!
# A SEND that fails

A SEND that returns an error changes nothing but revoked slots, which it may have reclaimed for the
child it could not install. The exception is a client that lost its connect capability: its
connection closes, and the requests it had queued are dropped with their children.
-/

namespace CleanSlate.ServicePort

open Lib
open Capability
open CapabilityTable

variable {P C N : Nat} {B : Type} {p : Fin P} {c : Fin C} {table table' : CapabilityTable N}
  {H : CapabilityHandle → Prop}

/-- The children carried by the queued requests of the connection `id`. -/
def undelivered (core : PortCore P C B) (p : Fin P) (id : ConnectionId)
    (handle : CapabilityHandle) : Prop :=
  ∃ entry child, Carries core p entry child ∧ ((core.ports p).requests entry).connection = id ∧
    CapabilityHandle.decode child.handle = .ok handle

/-- What a failed SEND leaves of `s`. -/
inductive SendFailed (s : PortSystem P C N B) (caller : Caller) (connection : UInt64)
    (s' : PortSystem P C N B) : Prop
  /-- At most revoked slots were reclaimed. -/
  | refused (core : s'.core = s.core) (table : s.table.Releases s'.table)
  /-- The client's capability is revoked or stale: the connection closes. -/
  | closed {p : Fin P} {c : Fin C} {error : CapabilityError}
      (client : s.core.clientConnection caller connection = .ok c)
      (on : OpenOn s.core p c)
      (authorize : s.table.authorize (s.core.connections c).client
        (s.core.connections c).clientCap (s.core.ports p).resource
        (s.core.ports p).rights.connect = .error error)
      (lost : error = .revoked ∨ error = .staleHandle)
      (core : s'.core = s.core.endConnection p c (.closePending .clientRevoked 0)
        (s.core.connections c).events.clear)
      (table : Drops s.table s'.table (undelivered s.core p (s.core.connectionId c)))

/-- The end of a connection drops its own requests and keeps the others. -/
theorem carries_endConnection {core : PortCore P C B} {q : Fin P}
    {state : ConnState} {events : Ring QueuedEvent portMaxEventQueueDepth}
    {entry : Fin portMaxRequestQueueDepth} {child : TransferredCap} :
    Carries (core.endConnection p c state events) q entry child ↔ Carries core q entry child ∧
        ¬(q = p ∧ ((core.ports q).requests entry).connection = core.connectionId c) := by
  by_cases hq : q = p
  · subst hq
    have hpr : ((core.endConnection q c state events).ports q).requests entry =
        if ((core.ports q).requests entry).heldBy (core.connectionId c) then .empty
        else (core.ports q).requests entry := by
      unfold PortCore.endConnection
      rw [PortCore.setConnection_ports, PortCore.setPort_ports, Function.update_self]
      exact Port.purged_requests (core.ports q) (core.connectionId c) entry
    unfold Carries
    rw [hpr]
    split
    · next hhl =>
      have hid := (Request.heldBy_iff.1 hhl).2
      constructor
      · rintro ⟨hlv, -⟩
        cases hlv
      · rintro ⟨-, hne⟩
        exact absurd ⟨rfl, hid⟩ hne
    · next hhl =>
      refine ⟨fun h => ⟨h, fun hid => hhl (Request.heldBy_iff.2 ⟨h.1, hid.2⟩)⟩, fun h => h.1⟩
  · have hpr : (core.endConnection p c state events).ports q = core.ports q :=
      Function.update_of_ne hq ..
    unfold Carries
    rw [hpr]
    exact ⟨fun h => ⟨h, fun hn => hq hn.1⟩, fun h => h.1⟩

theorem Drops.congr {H' : CapabilityHandle → Prop}
    (h : Drops table table' H) (hiff : ∀ handle, H handle ↔ H' handle) : Drops table table' H' := by
  have heq : H = H' := funext fun handle => propext (hiff handle)
  rwa [← heq]

/-- Closing a connection drops exactly the children of its queued requests. -/
theorem closePending_drops [DecidableEq B] (hP : P ≤ 255) {state : CallState P C N B}
    (on : OpenOn state.core p c) (kind : RecvKind) (reason : UInt32) :
    Drops state.table (closePending state c kind reason).table
      (undelivered state.core p (state.core.connectionId c)) := by
  obtain ⟨H, hpr⟩ := closePending_unloads state c kind reason
  have hcr := (closePending_eq (on.port ▸ PortCore.portIndex_key hP on.live) kind reason).1
  refine hpr.table.congr fun handle => ⟨fun hh => ?_, ?_⟩
  · obtain ⟨q, entry, child, hc, hno, hdc⟩ := hpr.only handle hh
    change ¬Carries (closePending state c kind reason).core q entry child at hno
    rw [hcr, carries_endConnection, not_and_not_right] at hno
    obtain ⟨rfl, hid⟩ := hno hc
    exact ⟨entry, child, hc, hid, hdc⟩
  · rintro ⟨entry, child, hc, hid, hdc⟩
    rcases hpr.dropped p entry child hc with hkp | hdr
    · change Carries (closePending state c kind reason).core p entry child at hkp
      rw [hcr, carries_endConnection] at hkp
      exact absurd ⟨rfl, hid⟩ hkp.2
    · exact hdr handle hdc

theorem Drops.live (h : Drops table table' H) {i : Fin N} (hlv : table'.Live i) :
    table'.slots i = table.slots i := by
  rcases h i with ⟨heq, -⟩ | ⟨-, heq⟩
  · exact heq
  · have hocc := hlv.occupied
    rw [heq] at hocc
    exact absurd hocc (release_not_occupied _)

/-- **A failed SEND undoes itself.** On a table whose slots a handle can name, a SEND that returns
an error leaves the port core and the table alone, up to reclaiming slots that were revoked; unless
the client's connect capability was revoked or is stale, when its connection becomes the server's
notice, its queued requests are dropped and exactly their children are revoked and released. In
no case is a capability live afterwards that was not live before, with the same record. -/
theorem send_failed [DecidableEq B] (hN : N ≤ 65536) (fits : PortCore.Fits P C)
    (s : PortSystem P C N B) (caller : Caller) (connection : UInt64) (frame : Frame)
    (transfer : Option Transfer) (error : PortError)
    (herror : (send s.call caller connection frame transfer).1 = .error error) :
    SendFailed s caller connection (send s.call caller connection frame transfer).2.system ∧
      ∀ i, (send s.call caller connection frame transfer).2.table.Live i →
        (send s.call caller connection frame transfer).2.table.slots i = s.table.slots i := by
  have hot := send_outcome fits.ports.2 s.call caller connection frame transfer
  generalize send s.call caller connection frame transfer = result at hot herror ⊢
  cases hot with
  | refused => exact ⟨.refused rfl ⟨fun _ => .inl rfl⟩, fun _ _ => rfl⟩
  | @revoked p c error client on authorize lost =>
    have hdr := closePending_drops fits.ports.2 on .clientRevoked 0
    have hcr := (closePending_eq (on.port ▸ PortCore.portIndex_key fits.ports.2 on.live)
      .clientRevoked 0).1
    exact ⟨.closed client on authorize lost hcr hdr, fun i hlv => hdr.live hlv⟩
  | childFailed child =>
    have hrl := sendChild_error hN child
    exact ⟨.refused rfl hrl, fun i hlv => hrl.slot_of_live ((hrl.live_iff i).1 hlv)⟩
  | accepted => cases herror

/-! ## A client that loses its capability with a child queued -/

/-- The shared buffer the client shares. -/
def soleBuffer : SharedBufferId := ⟨0, 1⟩

/-- The client's buffer capability, attested. -/
def soleTransfer : Transfer := ⟨⟨2, 1⟩, .ok (soleBuffer, 4096)⟩

/-- A session in which the client has a shared buffer, on a table with one more slot. -/
def sharingSession : List (PortOp Unit) :=
  openSession ++ [.table (.grant ⟨2⟩ ⟨.sharedBuffer, soleBuffer.encode, 0⟩
    (Rights.read.union .delegate) (.root ⟨2⟩))]

def sharingStart : PortSystem 1 1 4 Unit := ⟨⟨fun _ => .empty, fun _ => .empty⟩, .new⟩

/-- The client sent its buffer, then lost its connect capability. -/
def carryingState : PortSystem 1 1 4 Unit := run portStep sharingStart (sharingSession ++
  [.send soleClient soleConnection zeroFrame (some soleTransfer), .table (.revoke ⟨1, 1⟩)])

theorem send_failed_carrying :
    (send carryingState.call soleClient soleConnection zeroFrame none).1 = .error .stale ∧
      SendFailed carryingState soleClient soleConnection
        (send carryingState.call soleClient soleConnection zeroFrame none).2.system := by
  have her : (send carryingState.call soleClient soleConnection zeroFrame none).1 =
      .error .stale := by decide
  exact ⟨her, (send_failed (by decide) (by decide) carryingState soleClient soleConnection
    zeroFrame none .stale her).1⟩

/-- The failing SEND of a client that lost its capability takes a live capability away: the child
of its queued request. -/
theorem send_failure_revokes_child :
    (send carryingState.call soleClient soleConnection zeroFrame none).1 = .error .stale ∧
      carryingState.table.Live 3 ∧
      ¬(send carryingState.call soleClient soleConnection zeroFrame none).2.table.Live 3 :=
  ⟨by decide, by decide, by decide +kernel⟩

end CleanSlate.ServicePort
