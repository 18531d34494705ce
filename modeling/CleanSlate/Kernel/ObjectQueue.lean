import CleanSlate.Capability.Basic
import CleanSlate.Lib.Slots
import CleanSlate.Store.Service

/-!
# The object request queue

`ObjectRequestQueue` of `kernel/src/capability/object.rs`: the slots through which clients hand
object requests to the storage service and get their results back. Waking the threads that wait on
the queue is outside the model.
-/

namespace CleanSlate.Kernel

open Capability Lib
open Store (ObjectServiceRequest objectMaxPayloadBytes)

def objectRequestSlots : Nat := 4

inductive SlotState where
  | free
  | pending
  | inService
  | done
  deriving DecidableEq, Repr

/-- A queue slot. `payload` is the whole array, of which the first `len` bytes are in use. -/
structure ObjectRequestSlot where
  state : SlotState
  client : HolderId
  requestId : UInt64
  op : UInt64
  objectId : UInt64
  len : Nat
  payload : List UInt8
  status : UInt64

def ObjectRequestSlot.free : ObjectRequestSlot where
  state := .free
  client := ⟨0⟩
  requestId := 0
  op := 0
  objectId := 0
  len := 0
  payload := List.replicate objectMaxPayloadBytes 0
  status := 0

inductive SyscallQueueError where
  | queueFull
  | invalidRequest
  | unauthorizedHolder
  | bufferTooSmall
  | payloadTooLarge
  | completionStatus (status : UInt64)
  deriving DecidableEq, Repr

/-- The payload of a submitted request: the system call has checked its length. -/
abbrev ObjectPayload : Type := { bytes : List UInt8 // bytes.length ≤ objectMaxPayloadBytes }

/-- What a successful `poll` returns: `OBJECT_STATUS_PENDING`, or the length of the payload after
copying it to the caller's buffer. -/
inductive PollReply where
  | pending
  | copied (bytes : List UInt8)
  deriving DecidableEq, Repr

/-- A request as the service takes it, with the id it completes it by. -/
structure TakenRequest extends ObjectServiceRequest where
  requestId : UInt64

structure ObjectRequestQueue where
  slots : Fin objectRequestSlots → ObjectRequestSlot
  nextRequestId : UInt64

namespace ObjectRequestQueue

def new : ObjectRequestQueue where
  slots := fun _ => .free
  nextRequestId := 1

/-- `u64::saturating_add(1)`. -/
def saturatingSucc (id : UInt64) : UInt64 := if id.toNat + 1 < 2 ^ 64 then id + 1 else id

variable (self : ObjectRequestQueue)

def allocRequestId : UInt64 × ObjectRequestQueue :=
  (self.nextRequestId, { self with nextRequestId := saturatingSucc self.nextRequestId })

/-! The slot each call works on. -/

def freeIndex : Option (Fin objectRequestSlots) :=
  Slots.position (fun slot => decide (slot.state = .free)) self.slots

def requestIndex (requestId : UInt64) : Option (Fin objectRequestSlots) :=
  Slots.position (fun slot => decide (slot.requestId = requestId)) self.slots

def pendingIndex : Option (Fin objectRequestSlots) :=
  Slots.position (fun slot => decide (slot.state = .pending)) self.slots

def inServiceIndex (requestId : UInt64) : Option (Fin objectRequestSlots) := Slots.position
    (fun slot => decide (slot.requestId = requestId) && decide (slot.state = .inService)) self.slots

/-- `self.slots[index] = slot`. -/
def setSlot (index : Fin objectRequestSlots) (slot : ObjectRequestSlot) : ObjectRequestQueue :=
  { self with slots := Function.update self.slots index slot }

def submit (client : HolderId) (op objectId : UInt64)
    (payload : ObjectPayload) : Except SyscallQueueError UInt64 × ObjectRequestQueue :=
  match self.freeIndex with
  | none => (.error .queueFull, self)
  | some slotIndex =>
    let (requestId, queue) := self.allocRequestId
    let slot : ObjectRequestSlot := { ObjectRequestSlot.free with
        state := .pending
        client
        requestId
        op
        objectId
        len := payload.val.length
        payload := splice ObjectRequestSlot.free.payload 0 payload.val }
    (.ok requestId, queue.setSlot slotIndex slot)

def poll (client : HolderId) (requestId : UInt64) (outLen : Nat) :
    Except SyscallQueueError PollReply × ObjectRequestQueue :=
  match self.requestIndex requestId with
  | none => (.error .invalidRequest, self)
  | some index =>
    let slot := self.slots index
    if slot.client ≠ client then (.error .unauthorizedHolder, self)
    else match slot.state with
      | .pending | .inService => (.ok .pending, self)
      | .done =>
        -- an error completion is consumed as well, so that it cannot fill the queue
        if slot.status ≠ 0 then
          (.error (.completionStatus slot.status), self.setSlot index .free)
        else if outLen < slot.len then (.error .bufferTooSmall, self)
        else (.ok (.copied (slot.payload.take slot.len)), self.setSlot index .free)
      | .free => (.error .invalidRequest, self)

def serviceNext : Option TakenRequest × ObjectRequestQueue :=
  match self.pendingIndex with
  | none => (none, self)
  | some index =>
    let slot := self.slots index
    let request : TakenRequest :=
      { requestId := slot.requestId
        op := slot.op
        objectId := slot.objectId
        len := UInt64.ofNat slot.len
        payload := splice (List.replicate objectMaxPayloadBytes 0) 0 (slot.payload.take slot.len) }
    (some request, self.setSlot index { slot with state := .inService })

/-- Frees every slot of `holder`, in any state. -/
def reclaimForHolder (holder : HolderId) : Nat × ObjectRequestQueue :=
  let owned (slot : ObjectRequestSlot) : Bool :=
    decide (slot.state ≠ .free) && decide (slot.client = holder)
  (Slots.count owned self.slots,
    { self with slots := fun i => if owned (self.slots i) then .free else self.slots i })

/-- Returns the requests in service to the pending ones, when the service has exited. -/
def requeueInService : Nat × ObjectRequestQueue :=
  (Slots.count (fun slot => decide (slot.state = .inService)) self.slots, { self with
      slots := fun i =>
        if (self.slots i).state = .inService then { self.slots i with state := .pending }
        else self.slots i })

def serviceComplete (requestId status : UInt64)
    (payload : List UInt8) : Except SyscallQueueError Unit × ObjectRequestQueue :=
  match self.inServiceIndex requestId with
  | none => (.error .invalidRequest, self)
  | some index =>
    if payload.length > objectMaxPayloadBytes then (.error .payloadTooLarge, self)
    else
      let slot := self.slots index
      (.ok (), self.setSlot index { slot with
          state := .done
          status
          len := payload.length
          payload := splice slot.payload 0 payload })

end ObjectRequestQueue

/-- A call on the queue. -/
inductive QueueOp where
  | submit (client : HolderId) (op objectId : UInt64) (payload : ObjectPayload)
  | poll (client : HolderId) (requestId : UInt64) (outLen : Nat)
  | serviceNext
  | serviceComplete (requestId status : UInt64) (payload : List UInt8)
  | requeueInService
  | reclaimForHolder (holder : HolderId)

/-- The queue after a call. -/
def ObjectRequestQueue.after (self : ObjectRequestQueue) : QueueOp → ObjectRequestQueue
  | .submit client op objectId payload => (self.submit client op objectId payload).2
  | .poll client requestId outLen => (self.poll client requestId outLen).2
  | .serviceNext => self.serviceNext.2
  | .serviceComplete requestId status payload => (self.serviceComplete requestId status payload).2
  | .requeueInService => self.requeueInService.2
  | .reclaimForHolder holder => (self.reclaimForHolder holder).2

end CleanSlate.Kernel
