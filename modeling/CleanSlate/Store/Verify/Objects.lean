import CleanSlate.Store.Verify.Opening

/-!
# The objects of a store

An object has two keys, its id and its name. Whatever is written to a store that was mounted or
formatted, no two of its objects share a key, so the table of a superblock it writes is accepted
when it is read back.
-/

namespace CleanSlate.Store

open Lib List

variable {g : BlockGeometry} {device : Device g} {store : ObjectStore g}

/-- Every store that calls reach is open, whatever the device does. -/
theorem reached_open
    (h : ObjectStore.mount device = .ok store ∨ ObjectStore.format device = .ok store)
    (ops : List StoreOp) : ∃ superblock, Open (run storeStep store ops) superblock := by
  refine run_invariant storeStep (P := fun s => ∃ superblock, Open s superblock) ?_ ?_ ops
  · rcases h with hmn | hfr
    · exact mount_opens hmn
    · exact ⟨_, (format_open hfr).1⟩
  · rintro s op ⟨superblock, hop⟩
    exact (hop.step op).1

/-! ## Two keys -/

variable {objects objects' : List StoredObject} {object : StoredObject}

section Keys

theorem Staged.ids (h : Staged objects) : (objects.map StoredObject.id).Nodup :=
  pairwise_map.2 (h.distinct.imp And.left)

theorem Staged.names (h : Staged objects) : (objects.map StoredObject.name).Nodup :=
  pairwise_map.2 (h.distinct.imp And.right)

/-- The object found under a key is the one that has it. -/
theorem find_key_iff {κ : Type} [DecidableEq κ] (key : StoredObject → κ)
    (hnd : (objects.map key).Nodup) {k : κ} :
    objects.find? (key · = k) = some object ↔ object ∈ objects ∧ key object = k := by
  constructor
  · intro hfn
    exact ⟨mem_of_find?_eq_some hfn, by simpa using find?_some hfn⟩
  · rintro ⟨hmem, rfl⟩
    cases hfn : objects.find? (key · = key object) with
    | none => exact absurd (decide_eq_true rfl) (find?_eq_none.1 hfn object hmem)
    | some found =>
      have hkey : key found = key object := by simpa using find?_some hfn
      rw [inj_on_of_nodup_map hnd (mem_of_find?_eq_some hfn) hmem hkey]

/-- A write leaves the objects that differ from it in id and name. -/
theorem Writes.mem_iff (h : Writes objects object objects') {o : StoredObject} :
    o ∈ objects' ↔ o = object ∨ o ∈ objects ∧ o.Differs object := by
  cases h with
  | @replaces i lt same others =>
    constructor
    · intro hmem
      obtain ⟨k, hk, rfl⟩ := mem_iff_getElem.1 hmem
      rw [getElem_set]
      rw [length_set] at hk
      by_cases hik : i = k
      · rw [if_pos hik]
        exact .inl rfl
      · rw [if_neg hik]
        exact .inr ⟨getElem_mem hk, others k hk (Ne.symm hik)⟩
    · rintro (rfl | ⟨hmem, hdf⟩)
      · exact mem_set lt _
      · obtain ⟨k, hk, rfl⟩ := mem_iff_getElem.1 hmem
        have hik : i ≠ k := by
          rintro rfl
          exact same.elim hdf.1 hdf.2
        exact mem_iff_getElem.2 ⟨k, by rwa [length_set], by rw [getElem_set, if_neg hik]⟩
  | adds room others =>
    rw [mem_append, mem_singleton]
    constructor
    · rintro (hmem | rfl)
      · exact .inr ⟨hmem, others o hmem⟩
      · exact .inl rfl
    · rintro (rfl | ⟨hmem, -⟩)
      · exact .inr rfl
      · exact .inl hmem

end Keys

/-- A store whose objects have ids and names of their own, and what a write does to it. -/
structure ObjectStore.Keyed (self : ObjectStore g) : Prop where
  ids : (self.objects.map StoredObject.id).Nodup
  names : (self.objects.map StoredObject.name).Nodup
  capacity : self.objects.length ≤ maxObjects
  /-- The object with the id or the name is replaced, or one is added; the others stay. -/
  written : ∀ id name data store', self.writeObject id name data = (.ok (), store') →
    Writes self.objects ⟨id, name, data⟩ store'.objects ∧
      store' = { self with objects := store'.objects } ∧
      store'.readObjectById id = .ok data ∧ store'.readObjectByName name = .ok data
  rejected : ∀ id name data error store',
    self.writeObject id name data = (.error error, store') → store' = self

theorem Staged.keyed (h : Staged store.objects) : store.Keyed := by
  refine ⟨h.ids, h.names, h.capacity, fun id name data store' hwr => ?_,
    fun id name data error store' => writeObject_error⟩
  rcases writeObject_cases store h id name data with ⟨error, heq⟩ | ⟨-, -, objects, hwt, heq⟩
  · cases heq.symm.trans hwr
  cases heq.symm.trans hwr
  have hst := hwt.staged h
  have hmem := hwt.mem_iff.2 (.inl rfl)
  refine ⟨hwt, rfl, ?_, ?_⟩
  · rw [ObjectStore.readObjectById, (find_key_iff StoredObject.id hst.ids).2 ⟨hmem, rfl⟩]
  · rw [ObjectStore.readObjectByName, (find_key_iff StoredObject.name hst.names).2 ⟨hmem, rfl⟩]

/-- **Keys.** After any calls on a mounted or formatted store, accepted or rejected, its objects
have ids and names of their own, and a write changes the one object it is for. -/
theorem reached_keyed
    (h : ObjectStore.mount device = .ok store ∨ ObjectStore.format device = .ok store)
    (ops : List StoreOp) : (run storeStep store ops).Keyed := by
  obtain ⟨superblock, hop⟩ := reached_open h ops
  exact hop.staged.keyed

/-- A rename of the only object. -/
theorem reached_keyed_renamed :
    (run storeStep (formatted []) [.writeObject 1 "a" [7], .writeObject 1 "b" [8]]).Keyed :=
  reached_keyed (.inr (format_blank [])) _

/-! ## Superblocks -/

/-- **Superblocks.** A block that is accepted as a superblock has a table whose objects have keys
and blocks of their own, in the arena of the slot. And what a store writes for its objects is
accepted, as what was written. -/
theorem superblocks_wellFormed {slot : Nat} (hslot : slot < superblockSlots) :
    (∀ bytes superblock, decodeSuperblock g slot bytes = .ok superblock →
      Table g slot superblock.objects) ∧
    ∀ (device : Device g) (store : ObjectStore g),
      ObjectStore.mount device = .ok store ∨ ObjectStore.format device = .ok store →
      ∀ (ops : List StoreOp) (layouts : List ObjectLayout) (generation : Nat),
        generation < 2 ^ 64 →
        buildObjectLayout g slot (run storeStep store ops).objects = .ok layouts →
        decodeSuperblock g slot (encodeSuperblock g ⟨generation, layouts.length, layouts⟩) =
          .ok ⟨generation, layouts.length, layouts.map ObjectLayout.stripped⟩ := by
  have har : (slotDataArena g slot).2 < 2 ^ 64 := arena_lt hslot
  refine ⟨fun bytes superblock hdc => ?_, ?_⟩
  · exact validateLayouts_ok (decodeSuperblock_ok_iff.1 hdc).layouts har
  · intro device store h ops layouts generation hgn hly
    obtain ⟨superblock, hop⟩ := reached_open h ops
    obtain ⟨stop, hst, hld⟩ := buildObjectLayout_ok hly
    exact decodeSuperblock_encodeSuperblock hop.usable (superblock_encodable hop.staged hly hgn)
      (hld.validateLayouts hop.staged le_rfl hst har)

/-- One object of one byte in the first slot. -/
theorem superblocks_wellFormed_one : ∃ layouts, layouts.length = 1 ∧
    decodeSuperblock sixBlocks 0 (encodeSuperblock sixBlocks ⟨3, layouts.length, layouts⟩) =
      .ok ⟨3, layouts.length, layouts.map ObjectLayout.stripped⟩ := by
  have hly : buildObjectLayout sixBlocks 0
      (run storeStep (formatted []) [.writeObject 1 "object" [7]]).objects =
      .ok [layoutOf sixBlocks 2 ⟨1, "object", [7]⟩] := by
    exact buildObjectLayout_one (by decide) 1 (by decide)
  exact ⟨_, rfl, (superblocks_wellFormed (by decide)).2 _ _ (.inr (format_blank [])) _ _ 3
    (by decide) hly⟩

end CleanSlate.Store
