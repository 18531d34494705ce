import CleanSlate.Store.Verify.Commit

/-!
# Staging

`write_object` replaces the object with its id or its name, or adds one. It keeps ids and names
apart, and touches nothing but the objects in memory.
-/

namespace CleanSlate.Store

open Lib List ObjectStore

variable {g : BlockGeometry}

/-- Two objects with different ids and names. -/
def StoredObject.Differs (left right : StoredObject) : Prop :=
  left.id ≠ right.id ∧ left.name ≠ right.name

theorem StoredObject.Differs.symm {left right : StoredObject} (h : left.Differs right) :
    right.Differs left :=
  ⟨Ne.symm h.1, Ne.symm h.2⟩

variable {objects : List StoredObject} {name : String} {id : UInt64}

theorem Staged.differs (h : Staged objects) {i j : Nat} (hi : i < objects.length)
    (hj : j < objects.length) (hne : i ≠ j) : objects[i].Differs objects[j] := by
  rcases Nat.lt_or_gt_of_ne hne with hlt | hgt
  · exact pairwise_iff_getElem.1 h.distinct i j hi hj hlt
  · exact StoredObject.Differs.symm (pairwise_iff_getElem.1 h.distinct j i hj hi hgt)

/-- What a successful `write_object` makes of the objects. -/
inductive Writes (objects : List StoredObject) (object : StoredObject) : List StoredObject → Prop
  | replaces {i : Nat} (lt : i < objects.length)
      (same : objects[i].id = object.id ∨ objects[i].name = object.name)
      (others : ∀ j (hj : j < objects.length), j ≠ i → objects[j].Differs object) :
      Writes objects object (objects.set i object)
  | adds (room : objects.length < maxObjects) (others : ∀ o ∈ objects, o.Differs object) :
      Writes objects object (objects ++ [object])

theorem targetIndex_some (h : Staged objects) {i : Nat}
    (htr : targetIndex objects id name = .ok (some i)) :
    ∃ hi, (objects[i].id = id ∨ objects[i].name = name) ∧
      ∀ j hj, j ≠ i → objects[j].id ≠ id ∧ objects[j].name ≠ name := by
  unfold targetIndex at htr
  split at htr
  · next left right hlf hrg =>
    split_ifs at htr with heq
    cases htr
    subst heq
    obtain ⟨hi, hid, -⟩ := findIdx?_eq_some_iff_getElem.1 hlf
    obtain ⟨_, hnm, -⟩ := findIdx?_eq_some_iff_getElem.1 hrg
    simp only [decide_eq_true_eq] at hid hnm
    refine ⟨hi, .inl hid, fun j hj hne => ?_⟩
    have hdf := h.differs hj hi hne
    rw [StoredObject.Differs, hid, hnm] at hdf
    exact hdf
  · next index hlf hrg =>
    cases htr
    obtain ⟨hi, hid, -⟩ := findIdx?_eq_some_iff_getElem.1 hlf
    have hnn := findIdx?_eq_none_iff.1 hrg
    simp only [decide_eq_true_eq, decide_eq_false_iff_not] at hid hnn
    refine ⟨hi, .inl hid, fun j hj hne => ⟨?_, hnn _ (getElem_mem hj)⟩⟩
    have hdf := h.differs hj hi hne
    rw [StoredObject.Differs, hid] at hdf
    exact hdf.1
  · next index hlf hrg =>
    cases htr
    obtain ⟨hi, hnm, -⟩ := findIdx?_eq_some_iff_getElem.1 hrg
    have hnn := findIdx?_eq_none_iff.1 hlf
    simp only [decide_eq_true_eq, decide_eq_false_iff_not] at hnm hnn
    refine ⟨hi, .inr hnm, fun j hj hne => ⟨hnn _ (getElem_mem hj), ?_⟩⟩
    have hdf := h.differs hj hi hne
    rw [StoredObject.Differs, hnm] at hdf
    exact hdf.2
  · cases htr

theorem targetIndex_none (htr : targetIndex objects id name = .ok none) :
    ∀ o ∈ objects, o.id ≠ id ∧ o.name ≠ name := by
  unfold targetIndex at htr
  split at htr
  · split at htr
    · cases htr
    · cases htr
  · cases htr
  · cases htr
  · next hlf hrg =>
    have hid := findIdx?_eq_none_iff.1 hlf
    have hnm := findIdx?_eq_none_iff.1 hrg
    simp only [decide_eq_false_iff_not] at hid hnm
    exact fun o ho => ⟨hid o ho, hnm o ho⟩

/-- `write_object` fails and changes nothing, or it writes the object among the staged ones. -/
theorem writeObject_cases (store : ObjectStore g) (hst : Staged store.objects) (id : UInt64)
    (name : String) (data : List UInt8) :
    (∃ error, store.writeObject id name data = (.error error, store)) ∨
    (validateObjectName name = .ok () ∧ data.length ≤ u32Max ∧
      ∃ objects, Writes store.objects ⟨id, name, data⟩ objects ∧
        store.writeObject id name data = (.ok (), { store with objects := objects })) := by
  unfold writeObject
  split
  · exact .inl ⟨_, rfl⟩
  next hnm =>
  by_cases hlen : data.length > u32Max
  · rw [if_pos hlen]
    exact .inl ⟨_, rfl⟩
  rw [if_neg hlen]
  have hlen := Nat.not_lt.1 hlen
  split
  · exact .inl ⟨_, rfl⟩
  · next index htr =>
    obtain ⟨hi, hsm, hot⟩ := targetIndex_some hst htr
    exact .inr ⟨hnm, hlen, _, .replaces hi hsm hot, rfl⟩
  · next htr =>
    by_cases hfl : store.objects.length = maxObjects
    · rw [if_pos hfl]
      exact .inl ⟨_, rfl⟩
    rw [if_neg hfl]
    have hrm : store.objects.length < maxObjects := by
      have := hst.capacity
      omega
    exact .inr ⟨hnm, hlen, _, .adds hrm (targetIndex_none htr), rfl⟩

/-- `write_object` touches nothing but the objects. -/
theorem writeObject_frame (store : ObjectStore g) (id : UInt64) (name : String)
    (data : List UInt8) :
    ∃ objects, (store.writeObject id name data).2 = { store with objects := objects } := by
  unfold writeObject
  split
  · exact ⟨_, rfl⟩
  split
  · exact ⟨_, rfl⟩
  split
  · exact ⟨_, rfl⟩
  · exact ⟨_, rfl⟩
  · split
    · exact ⟨_, rfl⟩
    · exact ⟨_, rfl⟩

theorem writeObject_error {store store' : ObjectStore g} {data : List UInt8} {error : StoreError}
    (h : store.writeObject id name data = (.error error, store')) : store' = store := by
  unfold writeObject at h
  split at h
  · cases h
    rfl
  split at h
  · cases h
    rfl
  split at h
  · cases h
    rfl
  · cases h
  · split at h
    · cases h
      rfl
    · cases h

theorem writeObject_device (store : ObjectStore g) (id : UInt64) (name : String)
    (data : List UInt8) : (store.writeObject id name data).2.device = store.device := by
  obtain ⟨objects, hfr⟩ := writeObject_frame store id name data
  rw [hfr]

theorem Writes.staged {objects' : List StoredObject} {object : StoredObject}
    (hst : Staged objects) (h : Writes objects object objects') : Staged objects' := by
  cases h with
  | @replaces i lt same others =>
    refine ⟨?_, by rw [length_set]; exact hst.capacity⟩
    refine pairwise_iff_getElem.2 fun a b ha hb hab => ?_
    have ha' : a < objects.length := by simpa using ha
    have hb' : b < objects.length := by simpa using hb
    rw [getElem_set, getElem_set]
    by_cases hai : i = a
    · have hbi : i ≠ b := by omega
      rw [if_pos hai, if_neg hbi]
      exact StoredObject.Differs.symm (others b hb' (Ne.symm hbi))
    · rw [if_neg hai]
      by_cases hbi : i = b
      · rw [if_pos hbi]
        exact others a ha' (Ne.symm hai)
      · rw [if_neg hbi]
        exact hst.differs ha' hb' (by omega)
  | adds room others =>
    refine ⟨?_, by rw [length_append, length_singleton]; omega⟩
    refine pairwise_append.2 ⟨hst.distinct, pairwise_singleton _ _, ?_⟩
    intro o ho o' ho'
    rw [mem_singleton.1 ho']
    exact others o ho

theorem Decodes.staged {image : Medium UInt8} {slot : Nat} (hsl : slot < 2)
    {superblock : Superblock} (h : Decodes g image slot superblock) :
    Staged (contents g image superblock) := by
  have hac := decodeSuperblock_ok_iff.1 h
  refine ⟨?_, ?_⟩
  · unfold contents
    rw [pairwise_map]
    exact (h.table hsl).distinct
  · rw [contents, length_map, hac.length]
    exact hac.capacity

end CleanSlate.Store
