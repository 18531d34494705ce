import CleanSlate.Store.Ops

/-!
# The object service

The request loop of `run_object_service` in `store/src/bin/userspace.rs`: a service that holds a
mounted store, answers reads from it, and stages and commits every write. Requests are those
`ObjectServiceRequest::decode` has accepted.
-/

namespace CleanSlate.Store

variable {g : BlockGeometry}

def objectOpRead : UInt64 := 1
def objectOpWrite : UInt64 := 2
def objectMaxPayloadBytes : Nat := 512

/-- The `OBJECT_STATUS_*` codes of a completed request. -/
inductive ObjectStatus where
  | ok
  | notFound
  | storeError
  | tooLarge
  deriving DecidableEq, Repr

structure ObjectServiceRequest where
  op : UInt64
  objectId : UInt64
  len : UInt64
  payload : List UInt8

/-- What a request is completed with. -/
structure ObjectServiceReply where
  status : ObjectStatus
  payload : List UInt8
  deriving DecidableEq

/-- The name every object of the service has. -/
def objectName : String := "object"

/-- The store the service starts from: the one on the device, or a new one where none is. -/
def openStore (device : Device g) : Except StoreError (ObjectStore g) :=
  match ObjectStore.mount device with
  | .ok store => .ok store
  | .error (.incompatible .badMagic) => ObjectStore.format device
  | .error error => .error error

/-- One turn of the loop. -/
def serve (store : ObjectStore g) (request : ObjectServiceRequest) :
    ObjectServiceReply × ObjectStore g :=
  let len := request.len.toNat
  if len > objectMaxPayloadBytes then (⟨.tooLarge, []⟩, store)
  else if request.op = objectOpRead then
    match store.readObjectById request.objectId with
    | .ok payload =>
      if payload.length > objectMaxPayloadBytes then (⟨.tooLarge, []⟩, store)
      else (⟨.ok, payload⟩, store)
    | .error .notFound => (⟨.notFound, []⟩, store)
    | .error _ => (⟨.storeError, []⟩, store)
  else if request.op = objectOpWrite then
    if len > objectMaxPayloadBytes then (⟨.tooLarge, []⟩, store)
    else match store.writeObject request.objectId objectName (request.payload.take len) with
      | (.ok (), store) =>
        match store.commit with
        | (.ok (), store) => (⟨.ok, []⟩, store)
        | (.error _, store) => (⟨.storeError, []⟩, store)
      | (.error .notFound, store) => (⟨.notFound, []⟩, store)
      | (.error _, store) => (⟨.storeError, []⟩, store)
  else (⟨.storeError, []⟩, store)

end CleanSlate.Store
