import CleanSlate.Graphics.Types
import CleanSlate.Lib.Run
import CleanSlate.Lib.Slots

/-!
# Protocol objects of the connections

`GenSlotTable` of `graphics/src/ids.rs`, and the object tables and the compositor-wide budget of
`graphics/src/objects.rs`. An array over the kinds of objects is a function of the kind.
-/

namespace CleanSlate.Graphics

open Lib Function

inductive LimitError where
  | exhausted
  deriving DecidableEq, Repr

/-! ## Limits -/

def maxSurfacesPerClient : Nat := 8
def maxSurfaces : Nat := 32
def maxWindowsPerClient : Nat := 4
def maxWindows : Nat := 16
def maxBuffersPerClient : Nat := 8
def maxRegisteredBuffers : Nat := 16
def maxObjectsPerClient : Nat := maxSurfacesPerClient + maxWindowsPerClient + maxBuffersPerClient

/-! ## Minting identities -/

def maxPackedGeneration : UInt32 := 0x00FFFFFF

def encodeIndexGeneration (index : UInt8) (generation : UInt32) : Except LookupError UInt32 :=
  if generation = 0 ∨ generation > maxPackedGeneration then .error .invalid
  else .ok (index.toUInt32 ||| (generation <<< 8))

section

variable {index : UInt8} {generation raw : UInt32}
  (h : encodeIndexGeneration index generation = .ok raw)
include index generation h

theorem toNat_encodeIndexGeneration :
    raw.toNat = generation.toNat * 256 + index.toNat ∧ 0 < generation.toNat ∧
      generation.toNat ≤ 0x00FFFFFF := by
  obtain ⟨hrn, hraw⟩ := ite_error_eq_ok.1 h
  rw [not_or, ← UInt32.toNat_inj] at hrn
  have hpos : ¬generation.toNat = 0 := hrn.1
  have hmax : ¬0x00FFFFFF < generation.toNat := hrn.2
  have hin := index.toNat_lt
  refine ⟨?_, by omega, by omega⟩
  cases hraw
  rw [UInt32.toNat_or, UInt32.toNat_shiftLeft]
  simp only [UInt8.toNat_toUInt32, UInt32.reduceToNat, Nat.reduceMod]
  rw [Nat.mod_eq_of_lt (by rw [Nat.shiftLeft_eq]; omega), Nat.or_comm,
    ← Nat.shiftLeft_add_eq_or_of_lt hin, Nat.shiftLeft_eq]

theorem isIdentity_encodeIndexGeneration : IsIdentity raw := by
  obtain ⟨hraw, hpos, hmax⟩ := toNat_encodeIndexGeneration h
  have hin := index.toNat_lt
  have hsh : (raw >>> 8).toNat = generation.toNat := by
    rw [UInt32.toNat_shiftRight]
    simp only [UInt32.reduceToNat, Nat.reduceMod, Nat.shiftRight_eq_div_pow]
    omega
  refine ⟨_, if_neg ?_⟩
  rw [not_or, ← UInt32.toNat_inj, gt_iff_lt, UInt32.lt_iff_toNat_lt, hsh]
  exact ⟨Nat.ne_of_gt hpos, Nat.not_lt.2 hmax⟩

end

namespace ObjectId

def new (slot : UInt8) (generation : UInt32) : Except LookupError ObjectId :=
  match h : encodeIndexGeneration slot generation with
  | .ok raw => .ok ⟨raw, isIdentity_encodeIndexGeneration h⟩
  | .error error => .error error

def slot (self : ObjectId) : UInt8 := (self.raw &&& 0xFF).toUInt8

def generation (self : ObjectId) : UInt32 := self.raw >>> 8

end ObjectId

/-! ## Generational tables -/

structure Slot (T : Type) where
  value : Option T
  /-- the live generation, or the next one to issue when vacant; `0` before the first -/
  generation : UInt32
  retired : Bool

def nextGeneration (current : UInt32) : Option UInt32 :=
  if current ≥ maxPackedGeneration then none else some (current + 1)

namespace Slot

variable {T : Type}

def vacant : Slot T := ⟨none, 0, false⟩

def matchLive (slot : Slot T) (id : ObjectId) : Except LookupError Unit :=
  if slot.retired then .error .retired
  else if slot.value.isNone then
    if slot.generation = 0 then .error .invalid else .error .stale
  else if slot.generation ≠ id.generation then .error .stale
  else .ok ()

/-- The slot after its value was taken. -/
def release (slot : Slot T) : Slot T :=
  match nextGeneration slot.generation with
  | some next => { slot with value := none, generation := next }
  | none => { slot with value := none, retired := true }

end Slot

structure GenSlotTable (T : Type) (N : Nat) where
  slots : Fin N → Slot T

namespace GenSlotTable

variable {T : Type} {N : Nat}

def new : GenSlotTable T N := ⟨fun _ => .vacant⟩

variable (self : GenSlotTable T N) (id : ObjectId)

def set (i : Fin N) (slot : Slot T) : GenSlotTable T N := ⟨update self.slots i slot⟩

/-- The rest of the loop of `insert`. -/
def insertFrom (self : GenSlotTable T N) (value : T) :
    List (Fin N) → Except LimitError ObjectId × GenSlotTable T N
  | [] => (.error .exhausted, self)
  | index :: rest =>
    let slot := self.slots index
    if slot.retired || slot.value.isSome then insertFrom self value rest
    else if UInt8.size ≤ index.val then (.error .exhausted, self)
    else
      let generation := if slot.generation = 0 then 1 else slot.generation
      match ObjectId.new (UInt8.ofNat index) generation with
      | .error _ => insertFrom self value rest
      | .ok id => (.ok id, self.set index { slot with value := some value, generation })

def insert (value : T) : Except LimitError ObjectId × GenSlotTable T N :=
  self.insertFrom value (List.finRange N)

def slotIndex : Except LookupError (Fin N) :=
  if h : id.slot.toNat < N then .ok ⟨id.slot.toNat, h⟩ else .error .invalid

/-- The live slot that `id` names, and its value. -/
def lookup : Except LookupError (Fin N × T) := do
  let index ← slotIndex id
  (self.slots index).matchLive id
  let value ← okOr (self.slots index).value .stale
  pure (index, value)

def get : Except LookupError T := (self.lookup id).map Prod.snd

/-- A change made through `get_mut`. -/
def modify (change : T → T) : Except LookupError Unit × GenSlotTable T N :=
  match self.lookup id with
  | .error error => (.error error, self)
  | .ok (index, value) =>
    (.ok (), self.set index { self.slots index with value := some (change value) })

/-- The checks are those of `lookup`. -/
def remove : Except LookupError T × GenSlotTable T N :=
  match self.lookup id with
  | .error error => (.error error, self)
  | .ok (index, taken) => (.ok taken, self.set index (self.slots index).release)

/-- The loop of `clear_in_place`. -/
def clearInPlace : GenSlotTable T N :=
  (List.finRange N).foldl (fun table index => table.set index .vacant) self

end GenSlotTable

/-! ## Kinds of objects -/

inductive ObjectKind where
  | surface
  | window
  | buffer
  deriving DecidableEq, Repr

namespace ObjectKind

def perClientLimit : ObjectKind → Nat
  | surface => maxSurfacesPerClient
  | window => maxWindowsPerClient
  | buffer => maxBuffersPerClient

def globalLimit : ObjectKind → Nat
  | surface => maxSurfaces
  | window => maxWindows
  | buffer => maxRegisteredBuffers

end ObjectKind

def lookupErrorCode : LookupError → ProtocolError
  | .invalid => .invalidObject
  | .stale | .retired => .staleObject

inductive Entry (S W B : Type) where
  | surface (value : S)
  | window (value : W)
  | buffer (value : B)

namespace Entry

variable {S W B : Type}

def kind : Entry S W B → ObjectKind
  | surface _ => .surface
  | window _ => .window
  | buffer _ => .buffer

def asSurface : Entry S W B → Except ProtocolError S
  | surface value => .ok value
  | _ => .error .wrongObjectKind

def asWindow : Entry S W B → Except ProtocolError W
  | window value => .ok value
  | _ => .error .wrongObjectKind

def asBuffer : Entry S W B → Except ProtocolError B
  | buffer value => .ok value
  | _ => .error .wrongObjectKind

end Entry

/-! ## The budget -/

structure GlobalBudget where
  used : ObjectKind → Nat

namespace GlobalBudget

def new : GlobalBudget := ⟨fun _ => 0⟩

def set (self : GlobalBudget) (kind : ObjectKind) (n : Nat) : GlobalBudget :=
  ⟨update self.used kind n⟩

end GlobalBudget

/-- The subtraction saturates; a debug build asserts that it does not. -/
def releaseBudget (budget : GlobalBudget) (kind : ObjectKind) (n : Nat) : GlobalBudget :=
  budget.set kind (budget.used kind - n)

/-! ## The objects of one connection -/

structure ObjectTable (S W B : Type) where
  table : GenSlotTable (Entry S W B) maxObjectsPerClient
  counts : ObjectKind → Nat

namespace ObjectTable

variable {S W B : Type}

def new : ObjectTable S W B := ⟨.new, fun _ => 0⟩

def insert (self : ObjectTable S W B) (budget : GlobalBudget) (entry : Entry S W B) :
    Except ProtocolError ObjectId × ObjectTable S W B × GlobalBudget :=
  let kind := entry.kind
  if self.counts kind ≥ kind.perClientLimit ∨ budget.used kind ≥ kind.globalLimit then
    (.error .limitExceeded, self, budget)
  else
    match self.table.insert entry with
    | (.error _, table) => (.error .limitExceeded, { self with table }, budget)
    | (.ok id, table) =>
      (.ok id, ⟨table, update self.counts kind (self.counts kind + 1)⟩,
        budget.set kind (budget.used kind + 1))

variable (self : ObjectTable S W B) (budget : GlobalBudget)

def insertSurface (value : S) : Except ProtocolError SurfaceId × ObjectTable S W B × GlobalBudget :=
  let (result, after) := self.insert budget (.surface value)
  (result.map SurfaceId.mk, after)

def insertWindow (value : W) : Except ProtocolError WindowId × ObjectTable S W B × GlobalBudget :=
  let (result, after) := self.insert budget (.window value)
  (result.map WindowId.mk, after)

def insertBuffer (value : B) :
    Except ProtocolError ClientBufferId × ObjectTable S W B × GlobalBudget :=
  let (result, after) := self.insert budget (.buffer value)
  (result.map ClientBufferId.mk, after)

def entry (id : ObjectId) : Except ProtocolError (Entry S W B) :=
  (self.table.get id).mapError lookupErrorCode

def kindOf (id : ObjectId) : Except ProtocolError ObjectKind := (self.entry id).map Entry.kind

/-- A change of a value through `surface_mut`, `window_mut` or `buffer_mut`: `read` and `write` are
the pattern of the kind. -/
def modify {α : Type} (self : ObjectTable S W B) (id : ObjectId)
    (read : Entry S W B → Except ProtocolError α) (write : α → Entry S W B) (change : α → α) :
    Except ProtocolError Unit × ObjectTable S W B :=
  match self.entry id >>= read with
  | .error error => (.error error, self)
  | .ok value =>
    (.ok (), { self with table := (self.table.modify id fun _ => write (change value)).2 })

def surfaceMut (id : SurfaceId) (change : S → S) : Except ProtocolError Unit × ObjectTable S W B :=
  self.modify id.object Entry.asSurface Entry.surface change

def windowMut (id : WindowId) (change : W → W) : Except ProtocolError Unit × ObjectTable S W B :=
  self.modify id.object Entry.asWindow Entry.window change

def bufferMut (id : ClientBufferId) (change : B → B) :
    Except ProtocolError Unit × ObjectTable S W B :=
  self.modify id.object Entry.asBuffer Entry.buffer change

def remove (self : ObjectTable S W B) (budget : GlobalBudget) (id : ObjectId) (kind : ObjectKind) :
    Except ProtocolError (Entry S W B) × ObjectTable S W B × GlobalBudget :=
  match self.kindOf id with
  | .error error => (.error error, self, budget)
  | .ok found =>
    if found ≠ kind then (.error .wrongObjectKind, self, budget)
    else
      match self.table.remove id with
      | (.error error, table) => (.error (lookupErrorCode error), { self with table }, budget)
      | (.ok entry, table) =>
        (.ok entry, ⟨table, update self.counts kind (self.counts kind - 1)⟩,
          releaseBudget budget kind 1)

def removeSurface (id : SurfaceId) : Except ProtocolError S × ObjectTable S W B × GlobalBudget :=
  let (result, after) := self.remove budget id.object .surface
  (result >>= Entry.asSurface, after)

def removeWindow (id : WindowId) : Except ProtocolError W × ObjectTable S W B × GlobalBudget :=
  let (result, after) := self.remove budget id.object .window
  (result >>= Entry.asWindow, after)

def removeBuffer (id : ClientBufferId) :
    Except ProtocolError B × ObjectTable S W B × GlobalBudget :=
  let (result, after) := self.remove budget id.object .buffer
  (result >>= Entry.asBuffer, after)

/-- What `close` returns for one kind. -/
def closeKind (kind : ObjectKind) : GlobalBudget :=
  let count := self.counts kind
  if count > 0 then releaseBudget budget kind count else budget

def close : ObjectTable S W B × GlobalBudget := (⟨self.table.clearInPlace, fun _ => 0⟩,
    [ObjectKind.surface, .window, .buffer].foldl self.closeKind budget)

end ObjectTable

/-! ## Any number of connections -/

/-- The tables of the connections `κ` and the budget they share. -/
structure Connections (κ S W B : Type) where
  budget : GlobalBudget
  tables : κ → ObjectTable S W B

inductive ObjectOp (S W B : Type) where
  | insertSurface (value : S)
  | insertWindow (value : W)
  | insertBuffer (value : B)
  | surfaceMut (id : SurfaceId) (change : S → S)
  | windowMut (id : WindowId) (change : W → W)
  | bufferMut (id : ClientBufferId) (change : B → B)
  | removeSurface (id : SurfaceId)
  | removeWindow (id : WindowId)
  | removeBuffer (id : ClientBufferId)
  | close

inductive ObjectReply (S W B : Type) where
  | insertedSurface (result : Except ProtocolError SurfaceId)
  | insertedWindow (result : Except ProtocolError WindowId)
  | insertedBuffer (result : Except ProtocolError ClientBufferId)
  | changed (result : Except ProtocolError Unit)
  | removedSurface (result : Except ProtocolError S)
  | removedWindow (result : Except ProtocolError W)
  | removedBuffer (result : Except ProtocolError B)
  | closed

/-- Why the operation was refused, if it was. -/
def ObjectReply.error {S W B : Type} : ObjectReply S W B → Option ProtocolError
  | insertedSurface result => err result
  | insertedWindow result => err result
  | insertedBuffer result => err result
  | changed result => err result
  | removedSurface result => err result
  | removedWindow result => err result
  | removedBuffer result => err result
  | closed => none

/-- One operation of a connection on its table and the budget. -/
def ObjectTable.apply {S W B : Type} (self : ObjectTable S W B) (budget : GlobalBudget) :
    ObjectOp S W B → ObjectReply S W B × ObjectTable S W B × GlobalBudget
  | .insertSurface value =>
    let (result, after) := self.insertSurface budget value
    (.insertedSurface result, after)
  | .insertWindow value =>
    let (result, after) := self.insertWindow budget value
    (.insertedWindow result, after)
  | .insertBuffer value =>
    let (result, after) := self.insertBuffer budget value
    (.insertedBuffer result, after)
  | .surfaceMut id change =>
    let (result, self') := self.surfaceMut id change
    (.changed result, self', budget)
  | .windowMut id change =>
    let (result, self') := self.windowMut id change
    (.changed result, self', budget)
  | .bufferMut id change =>
    let (result, self') := self.bufferMut id change
    (.changed result, self', budget)
  | .removeSurface id =>
    let (result, after) := self.removeSurface budget id
    (.removedSurface result, after)
  | .removeWindow id =>
    let (result, after) := self.removeWindow budget id
    (.removedWindow result, after)
  | .removeBuffer id =>
    let (result, after) := self.removeBuffer budget id
    (.removedBuffer result, after)
  | .close => (.closed, self.close budget)

namespace Connections

variable {κ S W B : Type} [DecidableEq κ]

def new : Connections κ S W B := ⟨.new, fun _ => .new⟩

def step (self : Connections κ S W B) (op : κ × ObjectOp S W B) :
    ObjectReply S W B × Connections κ S W B :=
  let (reply, table, budget) := (self.tables op.1).apply self.budget op.2
  (reply, ⟨budget, update self.tables op.1 table⟩)

end Connections

end CleanSlate.Graphics
