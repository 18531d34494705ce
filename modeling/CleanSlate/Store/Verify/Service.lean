import CleanSlate.Store.Verify.Objects

/-!
# Reads and writes of the object service

A read is to return the last payload acknowledged for its id. The service gives every object the
same name, and the store replaces an object of the same name: a write takes the place of whatever
other object there is. And a write whose commit fails is answered with an error but stays staged.
What the service does right is what is left when neither happens.
-/

namespace CleanSlate.Store

open Lib Function List ObjectStore

variable {g : BlockGeometry}

/-! ## What the objects say -/

/-- The payload of an id. -/
def lookup (objects : List StoredObject) (id : UInt64) : Option (List UInt8) :=
  (objects.find? (·.id = id)).map (·.data)

variable {id : UInt64} {objects : List StoredObject} {request : ObjectServiceRequest}
  {store store' : ObjectStore g}

theorem lookup_eq_none_iff : lookup objects id = none ↔ ∀ o ∈ objects, o.id ≠ id := by
  simp [lookup]

theorem lookup_eq_some_iff (h : Staged objects) {data : List UInt8} :
    lookup objects id = some data ↔ ∃ o ∈ objects, o.id = id ∧ o.data = data := by
  unfold lookup
  simp only [Option.map_eq_some_iff, find_key_iff StoredObject.id h.ids, and_assoc]

section Writes
variable {objects objects' : List StoredObject} {object : StoredObject}

/-- A write of an object that is there changes nothing. -/
theorem Writes.eq_of_mem (h : Writes objects object objects') (hmem : object ∈ objects) :
    objects' = objects := by
  cases h with
  | @replaces i lt same others =>
    obtain ⟨j, hj, rfl⟩ := getElem_of_mem hmem
    by_cases hji : j = i
    · subst hji
      exact set_getElem_self hj
    · exact absurd rfl (others j hj hji).1
  | adds room others => exact absurd rfl (others object hmem).1

section

variable (hstaged : Staged objects) (h : Writes objects object objects')
include hstaged h

theorem Writes.lookup_self : lookup objects' object.id = some object.data :=
  (lookup_eq_some_iff (h.staged hstaged)).2 ⟨object, h.mem_iff.2 (.inl rfl), rfl, rfl⟩

theorem Writes.lookup_other (hnm : ∀ o ∈ objects, o.name = object.name → o.id = object.id)
    {id : UInt64} (hid : id ≠ object.id) : lookup objects' id = lookup objects id := by
  refine Option.ext fun data => ?_
  rw [lookup_eq_some_iff (h.staged hstaged), lookup_eq_some_iff hstaged]
  refine exists_congr fun o => ?_
  rw [h.mem_iff]
  constructor
  · rintro ⟨rfl | ⟨hmem, -⟩, rfl, hdt⟩
    · exact absurd rfl hid
    · exact ⟨hmem, rfl, hdt⟩
  · rintro ⟨hmem, rfl, hdt⟩
    exact ⟨Or.inr ⟨hmem, hid, fun heq => hid (hnm o hmem heq)⟩, rfl, hdt⟩

theorem Writes.lookup_displaced {o : StoredObject} (hmem : o ∈ objects)
    (hnm : o.name = object.name) (hid : o.id ≠ object.id) : lookup objects' o.id = none := by
  refine lookup_eq_none_iff.2 fun o' hmem' heq => ?_
  rcases h.mem_iff.1 hmem' with rfl | ⟨hold, hdf⟩
  · exact hid heq.symm
  · rw [inj_on_of_nodup_map hstaged.ids hold hmem heq] at hdf
    exact hdf.2 hnm

end

end Writes

/-! ## One request -/

/-- The payload of a request. -/
def ObjectServiceRequest.data (self : ObjectServiceRequest) : List UInt8 :=
  self.payload.take self.len.toNat

/-- The object a write stages. -/
def ObjectServiceRequest.object (self : ObjectServiceRequest) : StoredObject :=
  ⟨self.objectId, objectName, self.data⟩

structure ObjectServiceRequest.IsRead (request : ObjectServiceRequest) : Prop where
  op : request.op = objectOpRead
  len : request.len.toNat ≤ objectMaxPayloadBytes

/-- The answer to a read of an id with this payload. -/
def answer : Option (List UInt8) → ObjectServiceReply
  | some payload =>
    if payload.length > objectMaxPayloadBytes then ⟨.tooLarge, []⟩ else ⟨.ok, payload⟩
  | none => ⟨.notFound, []⟩

theorem answer_eq_ok_iff {payload : Option (List UInt8)} {data : List UInt8}
    (h : data.length ≤ objectMaxPayloadBytes) :
    answer payload = ⟨.ok, data⟩ ↔ payload = some data := by
  cases payload with
  | none => simp [answer]
  | some payload =>
    unfold answer
    by_cases hlen : payload.length > objectMaxPayloadBytes
    · simp only [if_pos hlen]
      refine iff_of_false (by simp) fun heq => ?_
      cases heq
      omega
    · simp [if_neg hlen]

theorem answer_eq_notFound_iff {payload : Option (List UInt8)} :
    answer payload = ⟨.notFound, []⟩ ↔ payload = none := by
  cases payload with
  | none => simp [answer]
  | some payload =>
    simp only [answer]
    split <;> simp

theorem serve_read (store : ObjectStore g) (h : request.IsRead) :
    serve store request = (answer (lookup store.objects request.objectId), store) := by
  have hlen := h.len
  unfold serve
  simp only [h.op, if_true]
  rw [if_neg (by omega)]
  unfold readObjectById lookup
  cases store.objects.find? (·.id = request.objectId) with
  | none => rfl
  | some object =>
    simp only [answer, Option.map_some]
    split <;> rfl

/-- The request stages an object, after which the store is `store'`. -/
structure Stages (store : ObjectStore g) (request : ObjectServiceRequest) (store' : ObjectStore g) :
    Prop where
  op : request.op = objectOpWrite
  len : request.len.toNat ≤ objectMaxPayloadBytes
  wrote : store.writeObject request.objectId objectName request.data = (.ok (), store')

theorem Stages.unique {store store'' : ObjectStore g} (h : Stages store request store')
    (h' : Stages store request store'') : store' = store'' := by
  have hwr := h.wrote
  rw [h'.wrote] at hwr
  cases hwr
  rfl

/-- What a write is answered once the store has committed. -/
def afterCommit : Except StoreError Unit × ObjectStore g → ObjectServiceReply × ObjectStore g
  | (.ok (), store) => (⟨.ok, []⟩, store)
  | (.error _, store) => (⟨.storeError, []⟩, store)

theorem serve_of_stages (h : Stages store request store') :
    serve store request = afterCommit store'.commit := by
  have hlen := h.len
  have hrd : request.op ≠ objectOpRead := by
    rw [h.op]
    decide
  unfold serve
  rw [if_neg (by omega), if_neg hrd, if_pos h.op, if_neg (by omega), ← ObjectServiceRequest.data,
    h.wrote]
  rfl

/-- A request that stages nothing leaves the store; one that does commits it. -/
inductive Served (store : ObjectStore g) (request : ObjectServiceRequest) :
    ObjectServiceReply × ObjectStore g → Prop
  | kept {reply : ObjectServiceReply} (unacked : request.op = objectOpWrite → reply.status ≠ .ok)
      (unstaged : ∀ store', ¬Stages store request store') : Served store request (reply, store)
  | wrote {store' : ObjectStore g} {reply : ObjectServiceReply} (stages : Stages store request store')
      (status : reply.status = .ok ↔ store'.commit.1 = .ok ()) :
      Served store request (reply, store'.commit.2)

theorem serve_served (store : ObjectStore g) (request : ObjectServiceRequest) :
    Served store request (serve store request) := by
  unfold serve
  by_cases hlen : request.len.toNat > objectMaxPayloadBytes
  · rw [if_pos hlen]
    exact .kept (fun _ => by simp) fun _ h => absurd h.len (by omega)
  rw [if_neg hlen]
  by_cases hwr : request.op = objectOpWrite
  · have hrd : request.op ≠ objectOpRead := by
      rw [hwr]
      decide
    rw [if_neg hrd, if_pos hwr, if_neg hlen, ← ObjectServiceRequest.data]
    cases hrs : store.writeObject request.objectId objectName request.data with
    | mk result store' =>
      cases result with
      | error error =>
        have hsm := writeObject_error hrs
        subst hsm
        have hun : ∀ store'', ¬Stages store' request store'' := by
          intro store'' h
          have hwt := h.wrote
          rw [hrs] at hwt
          cases hwt
        split
        · next heq => cases heq
        case h_2 heq | h_3 heq =>
          cases heq
          exact .kept (fun _ => by simp) hun
      | ok =>
        have hst : Stages store request store' := ⟨hwr, Nat.not_lt.1 hlen, hrs⟩
        simp only
        cases hcm : store'.commit with
        | mk result committed =>
          have hct : committed = store'.commit.2 := by rw [hcm]
          cases result with
          | error | ok =>
            rw [hct]
            exact .wrote hst (by simp [hcm])
  · have hun : ∀ store', ¬Stages store request store' := fun _ h => hwr h.op
    have huc : ∀ reply : ObjectServiceReply,
        request.op = objectOpWrite → reply.status ≠ .ok := fun _ h => absurd h hwr
    split_ifs
    · split
      · split
        · exact .kept (huc _) hun
        · exact .kept (huc _) hun
      · exact .kept (huc _) hun
      · exact .kept (huc _) hun
    · exact .kept (huc _) hun

theorem commit_objects (store : ObjectStore g) : store.commit.2.objects = store.objects := by
  have hot := commit_outcome store
  generalize store.commit = result at hot ⊢
  cases hot with
  | rejected | failed | committed => rfl

theorem Stages.writes (h : Stages store request store') (hstaged : Staged store.objects) :
    Writes store.objects request.object store'.objects := by
  rcases writeObject_cases store hstaged request.objectId objectName request.data with
    ⟨error, heq⟩ | ⟨-, -, objects, hwr, heq⟩
  · have hwt := h.wrote
    rw [heq] at hwt
    cases hwt
  · have hwt := h.wrote
    rw [heq] at hwt
    cases hwt
    exact hwr

/-! ## Runs -/

abbrev ServiceEvent (g : BlockGeometry) :=
  Event (ObjectStore g) ObjectServiceRequest ObjectServiceReply

/-- The write an event has acknowledged. -/
def acked (e : ServiceEvent g) : Option StoredObject :=
  if e.input.op = objectOpWrite ∧ e.output.status = .ok then some e.input.object else none

/-- The payload of every id, after an event. -/
def follow (last : UInt64 → Option (List UInt8)) (e : ServiceEvent g) :
    UInt64 → Option (List UInt8) :=
  match acked e with
  | some object => update last object.id (some object.data)
  | none => last

/-- The payload last acknowledged for every id, from those at the start. -/
def latest (start : UInt64 → Option (List UInt8)) (log : List (ServiceEvent g)) :
    UInt64 → Option (List UInt8) :=
  log.foldl follow start

theorem latest_snoc (start : UInt64 → Option (List UInt8)) (log : List (ServiceEvent g))
    (e : ServiceEvent g) : latest start (log ++ [e]) = follow (latest start log) e := by
  simp [latest]

/-- In every state of the run, a read is answered with the payload last acknowledged. -/
def ReadsLatest (store : ObjectStore g) (requests : List ObjectServiceRequest) : Prop :=
  ∀ before after, requests = before ++ after → ∀ read : ObjectServiceRequest, read.IsRead →
    (serve (run serve store before) read).1 =
      answer (latest (lookup store.objects) (trace serve store before) read.objectId)

/-- A write takes the place of no other object, and is committed, unless it changes nothing. -/
def Clean (store : ObjectStore g) (request : ObjectServiceRequest) : Prop :=
  ∀ store', Stages store request store' →
    (∀ o ∈ store.objects, o.name = objectName → o.id = request.objectId) ∧
    (store'.commit.1 = .ok () ∨ lookup store.objects request.objectId = some request.data)

theorem serve_staged (h : Staged store.objects) (request : ObjectServiceRequest) :
    Staged (serve store request).2.objects := by
  have hsr := serve_served store request
  generalize serve store request = result at hsr ⊢
  cases hsr with
  | kept => exact h
  | wrote stages =>
    rw [commit_objects]
    exact (stages.writes h).staged h

theorem follow_of (last : UInt64 → Option (List UInt8)) (store : ObjectStore g)
    (request : ObjectServiceRequest) :
    follow last (Event.of serve store request) =
      if request.op = objectOpWrite ∧ (serve store request).1.status = .ok then
        update last request.objectId (some request.data) else last := by
  unfold follow acked Event.of
  split_ifs <;> rfl

/-- What a clean request makes of the payloads is what it acknowledges. -/
theorem serve_lookup (h : Staged store.objects) (hcl : Clean store request) :
    lookup (serve store request).2.objects =
      follow (lookup store.objects) (Event.of serve store request) := by
  rw [follow_of]
  have hsr := serve_served store request
  generalize serve store request = result at hsr ⊢
  cases hsr with
  | kept unacked => rw [if_neg fun hac => unacked hac.1 hac.2]
  | @wrote store' reply stages status =>
    obtain ⟨hnm, hcm⟩ := hcl store' stages
    have hwr := stages.writes h
    have hlk : lookup store'.objects =
        update (lookup store.objects) request.objectId (some request.data) := by
      funext id
      by_cases hid : id = request.objectId
      · rw [hid, update_self]
        exact hwr.lookup_self h
      · rw [update_of_ne hid]
        exact hwr.lookup_other h hnm hid
    rw [commit_objects, hlk]
    split_ifs with hac
    · rfl
    · have hfl : store'.commit.1 ≠ .ok () := fun hok => hac ⟨stages.op, status.2 hok⟩
      rw [← hcm.resolve_left hfl, update_eq_self]

section Runs
variable {requests : List ObjectServiceRequest}

theorem run_staged (h : Staged store.objects) (requests : List ObjectServiceRequest) :
    Staged (run serve store requests).objects :=
  run_invariant serve (P := fun s => Staged s.objects) h
    (fun _ request h => serve_staged h request) requests

/-- Along clean requests the objects have the payloads last acknowledged. -/
theorem run_lookup (h : Staged store.objects)
    (hcl : ∀ e ∈ trace serve store requests, Clean e.pre e.input) :
    lookup (run serve store requests).objects =
      latest (lookup store.objects) (trace serve store requests) := by
  induction requests using reverseRecOn with
  | nil => rfl
  | append_singleton requests request ih =>
    rw [trace_snoc] at hcl ⊢
    rw [run_snoc, latest_snoc, ← ih fun e he => hcl e (mem_append_left _ he)]
    exact serve_lookup (run_staged h requests) (hcl _ (mem_append_right _ (mem_singleton_self _)))

/-- A read of an id, with no payload. -/
def readRequest (id : UInt64) : ObjectServiceRequest := ⟨objectOpRead, id, 0, []⟩

theorem readRequest_isRead (id : UInt64) : (readRequest id).IsRead :=
  ⟨rfl, show (0 : UInt64).toNat ≤ 512 by decide⟩

/-- Reads around one request tell whether it was clean. -/
theorem clean_of_reads (h : Staged store.objects) {last : UInt64 → Option (List UInt8)}
    {request : ObjectServiceRequest}
    (hbf : ∀ id, answer (lookup store.objects id) = answer (last id))
    (haf : ∀ id, answer (lookup (serve store request).2.objects id) =
      answer (follow last (Event.of serve store request) id)) : Clean store request := by
  intro store' hst
  have hwr := hst.writes h
  rw [follow_of] at haf
  have hsr := serve_served store request
  generalize serve store request = result at hsr haf
  cases hsr with
  | kept _ unstaged => exact absurd hst (unstaged store')
  | @wrote store'' reply stages status =>
    have hsm := stages.unique hst
    subst hsm
    simp only [commit_objects] at haf
    refine ⟨fun o hmem hnm => ?_, ?_⟩
    · by_contra hid
      have hgn := haf o.id
      rw [hwr.lookup_displaced h hmem hnm hid] at hgn
      -- its read was answered before
      have hfn := (lookup_eq_some_iff h).2 ⟨o, hmem, rfl, rfl⟩
      have hls : answer (last o.id) = ⟨.notFound, []⟩ := by
        rw [apply_ite (fun f : UInt64 → Option (List UInt8) => f o.id),
          update_of_ne hid, ite_self] at hgn
        exact hgn.symm
      rw [← hbf, hfn, answer_eq_notFound_iff] at hls
      cases hls
    · by_contra hot
      obtain ⟨hfl, hdf⟩ := not_or.1 hot
      have hrd := haf request.objectId
      have hlen : request.data.length ≤ objectMaxPayloadBytes :=
        Nat.le_trans (length_take_le _ _) hst.len
      rw [if_neg fun hac => hfl (status.1 hac.2), ← hbf,
        show lookup store''.objects request.objectId = some request.data from
          hwr.lookup_self h] at hrd
      exact hdf ((answer_eq_ok_iff hlen).1 (hrd.symm.trans ((answer_eq_ok_iff hlen).2 rfl)))

/-- **Reads of the service.** From an opened store, for any requests and any faults of the device:
in every state each read is answered with the payload last acknowledged for its id, or the one at
the start if there is none, exactly if no write takes the place of an object of another id, and
none changes a payload without its commit succeeding. -/
theorem reads_latest_iff {device : Device g} (hopen : openStore device = .ok store)
    (requests : List ObjectServiceRequest) :
    ReadsLatest store requests ↔ ∀ e ∈ trace serve store requests, Clean e.pre e.input := by
  obtain ⟨superblock, hst⟩ := openStore_opens hopen
  have hstaged := hst.staged
  constructor
  · intro hrd e he
    obtain ⟨before, request, after, rfl, rfl⟩ := mem_trace serve he
    have her : ∀ id, answer (lookup (run serve store before).objects id) =
        answer (latest (lookup store.objects) (trace serve store before) id) := by
      intro id
      have hre := hrd before (request :: after) rfl (readRequest id) (readRequest_isRead id)
      rwa [serve_read _ (readRequest_isRead id)] at hre
    refine clean_of_reads (run_staged hstaged before) her fun id => ?_
    have hre := hrd (before ++ [request]) after (by simp) (readRequest id) (readRequest_isRead id)
    rwa [serve_read _ (readRequest_isRead id), run_snoc, trace_snoc, latest_snoc] at hre
  · rintro hcl before after rfl read hre
    rw [trace_append] at hcl
    rw [serve_read _ hre, run_lookup hstaged fun e he => hcl e (mem_append_left _ he)]

end Runs

/-! ### Two writes -/

/-- A write of one byte. -/
def writeRequest (id : UInt64) (byte : UInt8) : ObjectServiceRequest :=
  ⟨objectOpWrite, id, 1, byte :: List.replicate 511 0⟩

theorem decodeSuperblock_zero (slot a : Nat) :
    decodeSuperblock sixBlocks slot (Medium.peek (fun _ => 0) a 512) =
      .error (.incompatible .badMagic) := by
  have hmg : readU32 (Medium.peek (fun _ => 0) a 512) 0 = 0 := by
    unfold readU32
    rw [Medium.slice_peek _ _ (by decide)]
    rfl
  unfold decodeSuperblock
  rw [hmg, if_pos (by decide)]

theorem openStore_blank (flushes : List (Option BlockIoError)) :
    openStore (blank (none :: flushes)) = .ok (formatted flushes) := by
  have hsl : ∀ slot < 2, readSuperblockSlot (blank (none :: flushes)) slot =
      (.error (.decode (.incompatible .badMagic)), blank (none :: flushes)) := by
    intro slot hsl
    have hdc : decodeSuperblock sixBlocks slot ((blank (none :: flushes)).visible.peek
        (slot * sixBlocks.logicalBlockSize) sixBlocks.logicalBlockSize) = _ :=
      decodeSuperblock_zero slot _
    rw [readSuperblockSlot_eq sixBlocks_usable rfl hsl, hdc]
  have hmn : mount (blank (none :: flushes)) = .error (.incompatible .badMagic) := by
    unfold mount selectCommittedState
    rw [hsl 0 (by decide)]
    simp only
    rw [hsl 1 (by decide)]
    rfl
  unfold openStore
  rw [hmn]
  exact format_blank flushes

theorem commit_one_byte {store : ObjectStore sixBlocks} {byte : UInt8}
    (hfl : store.device.faults = .none) (hob : store.objects = [⟨id, "object", [byte]⟩])
    (hgn : store.generation + 1 < 2 ^ 64) :
    ∃ device, store.commit =
        (.ok (), ⟨device, store.generation + 1, store.nextSlot, store.objects⟩) ∧
      device.faults = .none := by
  have hly := buildObjectLayout_one store.nextSlot_lt id
    (show [byte].length ≤ 1024 from Nat.succ_le_succ (Nat.zero_le _))
  rw [← hob] at hly
  have hstaged : Staged store.objects := by
    rw [hob]
    exact ⟨pairwise_singleton _ _, Nat.succ_le_succ (Nat.zero_le _)⟩
  rw [← hfl]
  exact commit_ok sixBlocks_usable rfl (by rw [hfl]; rfl) (by rw [hfl]; rfl) hstaged hly hgn

theorem formatted_stages (flushes : List (Option BlockIoError)) (byte : UInt8) :
    Stages (formatted flushes) (writeRequest 1 byte) (withOne flushes [byte]) :=
  ⟨rfl, show (1 : UInt64).toNat ≤ 512 by decide, rfl⟩

theorem formatted_commits {store' : ObjectStore sixBlocks}
    (h : Stages (formatted []) (writeRequest 1 7) store') : store'.commit.1 = .ok () := by
  obtain ⟨device, hcm, -⟩ := commit_one_byte rfl (show (withOne [] [7]).objects = _ from rfl)
    (by decide)
  rw [h.unique (formatted_stages [] 7), hcm]

theorem reads_latest_one_write : ReadsLatest (formatted []) [writeRequest 1 7] := by
  refine (reads_latest_iff (openStore_blank []) _).2 fun e he => ?_
  rw [mem_singleton.1 he]
  exact fun store' hst => ⟨fun o ho => (by cases ho), .inl (formatted_commits hst)⟩

/-- An acknowledged write of one id takes the object of another. -/
theorem write_displaces_other_id :
    ∃ store first second, openStore (blank [none]) = .ok store ∧
      serve store (writeRequest 1 7) = (⟨.ok, []⟩, first) ∧
      serve first (writeRequest 2 8) = (⟨.ok, []⟩, second) ∧
      (serve first (readRequest 1)).1 = ⟨.ok, [7]⟩ ∧
      (serve second (readRequest 1)).1 = ⟨.notFound, []⟩ := by
  obtain ⟨device, hcm, hfl⟩ := commit_one_byte rfl
    (show (withOne [] [7]).objects = _ from rfl) (by decide)
  have hfr := serve_of_stages (formatted_stages [] 7)
  rw [hcm] at hfr
  have hst : Stages ⟨device, 1, 1, [⟨1, "object", [7]⟩]⟩ (writeRequest 2 8)
      ⟨device, 1, 1, [⟨2, "object", [8]⟩]⟩ :=
    ⟨rfl, show (1 : UInt64).toNat ≤ 512 by decide, rfl⟩
  obtain ⟨device', hcm', -⟩ := commit_one_byte hfl
    (show (⟨device, 1, 1, [⟨2, "object", [8]⟩]⟩ : ObjectStore sixBlocks).objects = _ from rfl)
    (show 1 + 1 < 2 ^ 64 by decide)
  have hsc := serve_of_stages hst
  rw [hcm'] at hsc
  exact ⟨_, _, _, openStore_blank [], hfr, hsc, rfl, rfl⟩

/-! ## Writes answered with an error -/

variable {superblock : Superblock}

/-- The objects after an event, had only acknowledged writes been made. -/
def stageAcked (objects : List StoredObject) (e : ServiceEvent g) : List StoredObject :=
  match acked e with
  | some object =>
    match ObjectStore.targetIndex objects object.id object.name with
    | .ok (some index) => objects.set index object
    | .ok none => objects ++ [object]
    | .error _ => objects
  | none => objects

/-- The objects that acknowledged writes alone lead to. -/
def ackedObjects (start : List StoredObject) (log : List (ServiceEvent g)) : List StoredObject :=
  log.foldl stageAcked start

/-- A write that is staged is committed, or its object was there before. -/
def Kept (store : ObjectStore g) (request : ObjectServiceRequest) : Prop :=
  ∀ store', Stages store request store' →
    store'.commit.1 = .ok () ∨ request.object ∈ store.objects

/-- The service shows nothing of the writes it answered with an error: reads are answered from the
objects that the acknowledged writes lead to, and so are those that the next commit persists. -/
structure Invisible (start : List StoredObject) (store : ObjectStore g)
    (log : List (ServiceEvent g)) : Prop where
  reads : ∀ read : ObjectServiceRequest, read.IsRead →
    (serve store read).1 = answer (lookup (ackedObjects start log) read.objectId)
  persists : ∀ write : ObjectServiceRequest, write.op = objectOpWrite →
    (serve store write).1.status = .ok → ∃ mounted,
      ObjectStore.mount (Device.ofImage (g := g) (serve store write).2.device.durable) =
          .ok mounted ∧
        mounted.objects = ackedObjects start (log ++ [Event.of serve store write])

theorem ackedObjects_snoc (start : List StoredObject) (log : List (ServiceEvent g))
    (e : ServiceEvent g) :
    ackedObjects start (log ++ [e]) = stageAcked (ackedObjects start log) e := by
  simp [ackedObjects]

/-- A write that was staged is where the store puts it. -/
theorem Stages.objects_eq (h : Stages store request store') :
    store'.objects = match targetIndex store.objects request.object.id request.object.name with
      | .ok (some index) => store.objects.set index request.object
      | .ok none => store.objects ++ [request.object]
      | .error _ => store.objects := by
  have hwr := h.wrote
  unfold writeObject at hwr
  unfold ObjectServiceRequest.object
  split at hwr
  · cases hwr
  split at hwr
  · cases hwr
  split at hwr
  · cases hwr
  · next htr =>
    rw [htr]
    cases hwr
    rfl
  · next htr =>
    rw [htr]
    split at hwr
    · cases hwr
    · cases hwr
      rfl

theorem serve_stageAcked (hst : Staged store.objects) (h : Kept store request) :
    (serve store request).2.objects = stageAcked store.objects (Event.of serve store request) := by
  unfold stageAcked acked Event.of
  have hsr := serve_served store request
  generalize serve store request = result at hsr ⊢
  cases hsr with
  | kept unacked => rw [if_neg fun hac => unacked hac.1 hac.2]
  | @wrote store' reply stages status =>
    rw [commit_objects]
    split_ifs with hac
    · exact stages.objects_eq
    · have hfl : store'.commit.1 ≠ .ok () := fun hok => hac ⟨stages.op, status.2 hok⟩
      exact (stages.writes hst).eq_of_mem ((h store' stages).resolve_left hfl)

theorem Stages.opens (h : Stages store request store') (hop : Open store superblock) :
    Open store' superblock := by
  have hnx := hop.writeObject request.objectId objectName request.data
  rwa [h.wrote] at hnx

theorem serve_opens (h : Open store superblock) (request : ObjectServiceRequest) :
    ∃ superblock', Open (serve store request).2 superblock' := by
  have hsr := serve_served store request
  generalize serve store request = result at hsr ⊢
  cases hsr with
  | kept => exact ⟨superblock, h⟩
  | wrote stages => exact ((stages.opens h).step .commit).1

theorem stages_of_acked (hop : request.op = objectOpWrite)
    (h : (serve store request).1.status = .ok) :
    ∃ store', Stages store request store' ∧ store'.commit.1 = .ok () ∧
      (serve store request).2 = store'.commit.2 := by
  have hsr := serve_served store request
  generalize serve store request = result at hsr h ⊢
  cases hsr with
  | kept unacked => exact absurd h (unacked hop)
  | wrote stages status => exact ⟨_, stages, status.1 h, rfl⟩

/-- Reads around one write tell whether it was kept, where every object has the service's name. -/
theorem kept_of_reads (h : Staged store.objects)
    (hnm : ∀ o ∈ store.objects, o.name = objectName) {acks : List StoredObject}
    (hbf : ∀ id, answer (lookup store.objects id) = answer (lookup acks id))
    (haf : ∀ id, answer (lookup (serve store request).2.objects id) =
      answer (lookup (stageAcked acks (Event.of serve store request)) id)) : Kept store request := by
  intro store' hst
  by_cases hac : request.op = objectOpWrite ∧ (serve store request).1.status = .ok
  · obtain ⟨_, hst', hcm, -⟩ := stages_of_acked hac.1 hac.2
    rw [hst.unique hst']
    exact .inl hcm
  have hno : acked (Event.of serve store request) = none := if_neg hac
  have hcl : Clean store request := clean_of_reads h hbf fun id => by
    rw [haf, stageAcked, follow, hno]
  refine (hcl store' hst).2.imp_right fun hlk => ?_
  obtain ⟨⟨_, _, _⟩, hmem, rfl, rfl⟩ := (lookup_eq_some_iff h).1 hlk
  cases hnm _ hmem
  exact hmem

theorem run_named (h : Staged store.objects) (hnm : ∀ o ∈ store.objects, o.name = objectName)
    (requests : List ObjectServiceRequest) :
    ∀ o ∈ (run serve store requests).objects, o.name = objectName := by
  refine (run_invariant serve (P := fun s => Staged s.objects ∧ ∀ o ∈ s.objects, o.name = objectName)
    ⟨h, hnm⟩ (fun s request hs => ⟨serve_staged hs.1 request, ?_⟩) requests).2
  have hsr := serve_served s request
  generalize serve s request = result at hsr ⊢
  cases hsr with
  | kept => exact hs.2
  | wrote stages =>
    rw [commit_objects]
    intro o ho
    rcases (stages.writes hs.1).mem_iff.1 ho with rfl | ⟨ho, -⟩
    · rfl
    · exact hs.2 o ho

theorem Invisible.lookup_eq {start : List StoredObject} {log : List (ServiceEvent g)}
    (h : Invisible start store log) (id : UInt64) :
    answer (lookup store.objects id) = answer (lookup (ackedObjects start log) id) := by
  have hrd := h.reads (readRequest id) (readRequest_isRead id)
  rwa [serve_read _ (readRequest_isRead id)] at hrd

/-- **Failed writes.** From an opened store, for any requests and any faults of the device: if every
write that was staged is committed, or was there before, then in every state the service shows
nothing of the writes it answered with an error. Where all objects have the service's name, it does
so only then. -/
theorem failed_writes_invisible {device : Device g} (hopen : openStore device = .ok store)
    (requests : List ObjectServiceRequest) :
    ((∀ e ∈ trace serve store requests, Kept e.pre e.input) →
      Invisible store.objects (run serve store requests) (trace serve store requests)) ∧
    ((∀ o ∈ store.objects, o.name = objectName) →
      (∀ before, before <+: requests →
        Invisible store.objects (run serve store before) (trace serve store before)) →
      ∀ e ∈ trace serve store requests, Kept e.pre e.input) := by
  obtain ⟨superblock, hop⟩ := openStore_opens hopen
  have hst := run_staged hop.staged
  refine ⟨fun hkept => ?_, fun hnm hiv e he => ?_⟩
  swap
  · obtain ⟨before, request, after, rfl, rfl⟩ := mem_trace serve he
    refine kept_of_reads (hst before) (run_named hop.staged hnm before)
      (hiv before (prefix_append ..)).lookup_eq fun id => ?_
    have hlk := (hiv (before ++ [request]) ⟨after, by simp⟩).lookup_eq id
    rwa [run_snoc, trace_snoc, ackedObjects_snoc] at hlk
  have hob : (run serve store requests).objects =
      ackedObjects store.objects (trace serve store requests) := by
    induction requests using reverseRecOn with
    | nil => rfl
    | append_singleton requests request ih =>
      rw [trace_snoc] at hkept ⊢
      rw [run_snoc, ackedObjects_snoc, ← ih fun e he => hkept e (mem_append_left _ he)]
      exact serve_stageAcked (hst requests) (hkept _ (mem_append_right _ (mem_singleton_self _)))
  obtain ⟨_, hrun⟩ := run_invariant serve (P := fun s => ∃ superblock, Open s superblock)
    ⟨_, hop⟩ (fun _ request h => h.elim fun _ h => serve_opens h request) requests
  refine ⟨fun read hrd => ?_, fun write hop hok => ?_⟩
  · rw [serve_read _ hrd, hob]
  · obtain ⟨store', hst, hcm, hsr⟩ := stages_of_acked hop hok
    have hkept : Kept (run serve store requests) write := by
      intro store'' hst'
      rw [hst'.unique hst]
      exact .inl hcm
    rw [ackedObjects_snoc, ← hob, ← serve_stageAcked hrun.staged hkept, hsr]
    have hrs : store'.commit = (.ok (), store'.commit.2) := Prod.ext hcm rfl
    have hfl := Flushed.commit (hst.opens hrun) hrs
    exact ⟨_, hfl.mounted, rfl⟩

/-- A write that is too long is refused, then one is acknowledged. -/
theorem failed_writes_invisible_refused :
    let refused : ObjectServiceRequest := { writeRequest 1 9 with len := 513 }
    let requests := [refused, writeRequest 1 7]
    (serve (formatted []) refused).1 = ⟨.tooLarge, []⟩ ∧
      (serve (formatted []) (writeRequest 1 7)).1 = ⟨.ok, []⟩ ∧
      Invisible [] (run serve (formatted []) requests) (trace serve (formatted []) requests) := by
  intro refused requests
  refine ⟨rfl, ?_, (failed_writes_invisible (openStore_blank []) requests).1 fun e he => ?_⟩
  · have hcm := formatted_commits (formatted_stages [] 7)
    rw [serve_of_stages (formatted_stages [] 7)]
    generalize (withOne [] [7]).commit = result at hcm ⊢
    obtain ⟨_, _⟩ := result
    cases hcm
    rfl
  · rcases mem_pair.1 he with rfl | rfl
    · exact fun store' hst => absurd hst.len (by decide)
    · exact fun store' hst => .inl (formatted_commits hst)

/-- A write whose flush failed is answered with an error, and then read. -/
theorem failed_write_is_read :
    ∃ store failed, openStore (blank [none, some (.transport .deviceFault)]) = .ok store ∧
      serve store (writeRequest 1 7) = (⟨.storeError, []⟩, failed) ∧
      (serve failed (readRequest 1)).1 = ⟨.ok, [7]⟩ := by
  have hsr := serve_of_stages (formatted_stages [some (.transport .deviceFault)] 7)
  rw [commit_flush_fails sixBlocks_usable rfl rfl (withOne_staged _ [7])
    (buildObjectLayout_withOne _ (by decide)) (by decide)] at hsr
  exact ⟨_, _, openStore_blank _, hsr, rfl⟩

end CleanSlate.Store
