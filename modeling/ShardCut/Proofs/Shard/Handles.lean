import Mathlib.Data.List.Induction
import ShardCut.Proofs.Shard

/-!
Handles. A shard calls its vertices by the numbers below some bound, the inner ones first. Three
tables lead from an id back to a handle: the fields of the id itself, the place of the id among the
outer ones, and the index of the outer handles. They agree: an id has a handle just when the handle
has this id, so no two handles have the same one.

Main definitions: `IsLocal`. Main results: `Holds.exists_handle_iff_mem_outerEnds`,
`Holds.handle?_eq_some_iff`, `Holds.idOfHandle_inj`.
-/

namespace ShardCut

namespace Shard

variable {shard : Shard} {r : Registry} {index handle : Nat} {id : GlobalId}
  {edges : List (GlobalId × GlobalId)}

/-- A handle calls some vertex of the shard, an inner or an outer one. -/
def IsLocal (shard : Shard) (handle : Nat) : Prop := handle < shard.innerNum + shard.outerNum

/-- An id is packed from the shard that owns it and its slot. -/
theorem pack_slotOf_of_owns {layout : IdLayout} (owns : Owns layout index id) :
    layout.pack index (layout.slotOf id) = id := by
  rw [← show layout.shardOf id = index from owns, layout.pack_shardOf_slotOf]

/-! ### From handles to ids -/

/-- Exactly the handles that call a vertex have an id. -/
theorem isLocal_iff_idOfHandle : shard.IsLocal handle ↔ ∃ id, shard.idOfHandle handle = .ok id := by
  unfold idOfHandle
  split
  · next inner =>
    exact iff_of_true (Nat.lt_of_lt_of_le inner (Nat.le_add_right _ _)) ⟨_, rfl⟩
  · next outside =>
    have le : shard.innerNum ≤ handle := Nat.le_of_not_lt outside
    have place : shard.IsLocal handle ↔ handle - shard.innerNum < shard.outer.size :=
      (Nat.sub_lt_iff_lt_add' le).symm
    rw [place]
    split
    · next id hid =>
      exact iff_of_true (Array.getElem?_eq_some_iff.mp hid).choose ⟨id, rfl⟩
    · next none =>
      apply iff_of_false (Nat.not_lt_of_le (Array.getElem?_eq_none_iff.mp none))
      rintro ⟨id, hid⟩
      cases hid

/-- The id of a handle behind the inner ones is the one at its place among the outer ids. -/
theorem idOfHandle_eq_ok_iff_of_le (le : shard.innerNum ≤ handle) :
    shard.idOfHandle handle = .ok id ↔ shard.outer[handle - shard.innerNum]? = some id := by
  have outside : ¬shard.IsInner handle := Nat.not_lt_of_le le
  rw [idOfHandle, if_neg outside]
  cases shard.outer[handle - shard.innerNum]? with
  | none => simp only [reduceCtorEq]
  | some id' => rw [Except.ok.injEq, Option.some_inj]

/-- The id of an inner handle is packed from the shard and the handle, and can be read back. -/
theorem Holds.fields_of_isInner (h : shard.Holds r index edges) (room : r.Fits)
    (inner : shard.IsInner handle) :
    Owns r.layout index (r.layout.pack index handle) ∧
      r.layout.slotOf (r.layout.pack index handle) = handle := by
  obtain ⟨name, hat⟩ := Registry.exists_at (h.isInner_iff.mp inner)
  exact hat.fields_pack room.shards (Nat.le_succ_of_le (room.slots index))

/-- An inner handle stands for the id packed from it. -/
theorem Holds.idOfHandle_of_isInner (h : shard.Holds r index edges) (inner : shard.IsInner handle) :
    shard.idOfHandle handle = .ok (r.layout.pack index handle) := by
  rw [idOfHandle, if_pos inner, h.registry, h.index]

/-- Inner handles have ids that the shard owns. -/
theorem Holds.owns_of_isInner (h : shard.Holds r index edges) (room : r.Fits)
    (inner : shard.IsInner handle) (hid : shard.idOfHandle handle = .ok id) :
    Owns r.layout index id := by
  rw [h.idOfHandle_of_isInner inner] at hid
  obtain rfl := Except.ok.inj hid
  exact (h.fields_of_isInner room inner).1

/-- A shard owns none of its outer vertices. -/
theorem not_owns_of_mem_outerEnds {layout : IdLayout} (h : id ∈ outerEnds layout index edges) :
    ¬Owns layout index id := by
  obtain ⟨edge, -, ⟨-, foreign, rfl⟩ | ⟨foreign, -, rfl⟩⟩ := mem_outerEnds.mp h
  · exact foreign
  · exact foreign

/-- The outer list holds the outer vertices. -/
theorem Holds.mem_outer (h : shard.Holds r index edges) :
    id ∈ shard.outer ↔ id ∈ outerEnds r.layout index edges := by
  rw [h.outer, mem_outerIds]

/-- The handles behind the inner ones call the outer ends of the edges. -/
theorem Holds.exists_handle_iff_mem_outerEnds (h : shard.Holds r index edges) :
    (∃ handle, shard.innerNum ≤ handle ∧ shard.idOfHandle handle = .ok id) ↔
      id ∈ outerEnds r.layout index edges := by
  rw [← h.mem_outer, Array.mem_iff_getElem?]
  constructor
  · rintro ⟨handle, le, hid⟩
    exact ⟨_, (idOfHandle_eq_ok_iff_of_le le).mp hid⟩
  · rintro ⟨k, hk⟩
    refine ⟨shard.innerNum + k, Nat.le_add_right _ _, ?_⟩
    apply (idOfHandle_eq_ok_iff_of_le (Nat.le_add_right _ _)).mpr
    rwa [Nat.add_sub_cancel_left]

/-- The ids of the outer vertices ascend with their handles. -/
theorem Holds.idOfHandle_lt (h : shard.Holds r index edges) {handle' : Nat} {id' : GlobalId}
    (le : shard.innerNum ≤ handle) (lt : handle < handle')
    (hid : shard.idOfHandle handle = .ok id) (hid' : shard.idOfHandle handle' = .ok id') :
    id < id' := by
  have le' : shard.innerNum ≤ handle' := Nat.le_trans le (Nat.le_of_lt lt)
  obtain ⟨inside, rfl⟩ :=
    Array.getElem?_eq_some_iff.mp ((idOfHandle_eq_ok_iff_of_le le).mp hid)
  obtain ⟨inside', rfl⟩ :=
    Array.getElem?_eq_some_iff.mp ((idOfHandle_eq_ok_iff_of_le le').mp hid')
  have sorted : shard.outer.toList.Pairwise (· < ·) := by
    rw [h.outer]
    exact pairwise_outerIds _ _ _
  exact List.pairwise_iff_getElem.mp sorted _ _ inside inside' (Nat.sub_lt_sub_right le lt)

/-! ### From ids to handles -/

theorem handlesFrom_concat (innerNum : Nat) (outer : List GlobalId) (id : GlobalId) :
    handlesFrom innerNum (outer ++ [id]) =
      (handlesFrom innerNum outer).insert id (innerNum + outer.length) := by
  simp [handlesFrom, List.zipIdx_append, List.foldl_append]

/-- The index of the outer handles leads an id to its place, behind the inner handles. -/
theorem getElem?_handlesFrom {outer : List GlobalId} (nodup : outer.Nodup) (innerNum : Nat) :
    (handlesFrom innerNum outer)[id]? = some handle ↔
      innerNum ≤ handle ∧ outer[handle - innerNum]? = some id := by
  induction outer using List.reverseRecOn with
  | nil => simp [handlesFrom]
  | append_singleton outer last ih =>
    rw [handlesFrom_concat, Std.HashMap.getElem?_insert]
    split
    · next same =>
      obtain rfl := eq_of_beq same
      have behind : (outer ++ [last])[outer.length]? = some last := List.getElem?_concat_length
      have place (k : Nat) : (outer ++ [last])[k]? = some last ↔ outer.length = k := by
        constructor
        · intro hk
          exact (List.getElem?_inj (by simp) nodup).mp (behind.trans hk.symm)
        · rintro rfl
          exact behind
      rw [place, Option.some_inj]
      omega
    · next other =>
      rw [ih (List.nodup_append.mp nodup).1, List.getElem?_append]
      apply and_congr_right
      intro le
      split
      · rfl
      · next outside =>
        rw [List.getElem?_eq_none (Nat.le_of_not_lt outside)]
        apply iff_of_false nofun
        intro hk
        obtain rfl := List.mem_singleton.mp (List.mem_of_getElem? hk)
        exact other (beq_self_eq_true _)

theorem Holds.outerHandles_eq_some_iff (h : shard.Holds r index edges) :
    shard.outerHandles[id]? = some handle ↔
      shard.innerNum ≤ handle ∧ shard.idOfHandle handle = .ok id := by
  have nodup : shard.outer.toList.Nodup := by
    rw [h.outer]
    exact (pairwise_outerIds _ _ _).imp fun lt => UInt64.ne_of_lt lt
  rw [h.outerHandles, getElem?_handlesFrom nodup, Array.getElem?_toList]
  exact and_congr_right fun le => (idOfHandle_eq_ok_iff_of_le le).symm

/-- An inner handle is found from the fields of its id. -/
theorem Holds.innerHandle?_eq_some_iff_idOfHandle (h : shard.Holds r index edges) (room : r.Fits) :
    shard.innerHandle? id = some handle ↔
      shard.IsInner handle ∧ shard.idOfHandle handle = .ok id := by
  rw [innerHandle?_eq_some_iff, h.registry, h.index]
  constructor
  · rintro ⟨owns, inner, rfl⟩
    refine ⟨inner, ?_⟩
    rw [h.idOfHandle_of_isInner inner, pack_slotOf_of_owns owns]
  · rintro ⟨inner, hid⟩
    rw [h.idOfHandle_of_isInner inner] at hid
    obtain rfl := Except.ok.inj hid
    obtain ⟨owns, slot⟩ := h.fields_of_isInner room inner
    rw [slot]
    exact ⟨owns, inner, rfl⟩

/-- An id has a handle just when the handle has the id. -/
theorem Holds.handle?_eq_some_iff (h : shard.Holds r index edges) (room : r.Fits) :
    shard.handle? id = some handle ↔ shard.idOfHandle handle = .ok id := by
  rw [handle?, Option.or_eq_some_iff, h.innerHandle?_eq_some_iff_idOfHandle room,
    h.outerHandles_eq_some_iff]
  constructor
  · rintro (⟨-, hid⟩ | ⟨-, -, hid⟩)
    · exact hid
    · exact hid
  · intro hid
    rcases Nat.lt_or_ge handle shard.innerNum with inner | le
    · exact .inl ⟨inner, hid⟩
    · refine .inr ⟨?_, le, hid⟩
      -- The id is one of an outer vertex, which no field of the shard can call.
      have foreign : ¬Owns r.layout index id :=
        not_owns_of_mem_outerEnds (h.exists_handle_iff_mem_outerEnds.mp ⟨handle, le, hid⟩)
      rw [Option.eq_none_iff_forall_ne_some]
      intro handle' found
      obtain ⟨inner, hid'⟩ := (h.innerHandle?_eq_some_iff_idOfHandle room).mp found
      exact foreign (h.owns_of_isInner room inner hid')

/-- No two handles stand for one id. -/
theorem Holds.idOfHandle_inj (h : shard.Holds r index edges) (room : r.Fits) {handle' : Nat}
    (hid : shard.idOfHandle handle = .ok id) (hid' : shard.idOfHandle handle' = .ok id) :
    handle = handle' := by
  rw [← h.handle?_eq_some_iff room] at hid hid'
  exact Option.some.inj (hid.symm.trans hid')

/-! ### Along edges -/

/-- A neighbour is the far end of an edge that the shard owns. -/
theorem mem_valuesIn_neighbours {layout : IdLayout} {toHandle : GlobalId → Nat} {neighbour : Nat}
    (mem : neighbour ∈ Buckets.valuesIn (neighbours layout index toHandle edges) handle) :
    ∃ edge ∈ edges, Owns layout index edge.1 ∧ neighbour = toHandle edge.2 := by
  obtain ⟨pair, hpair, rfl⟩ := List.mem_map.mp mem
  obtain ⟨edge, hedge, owns, rfl⟩ := mem_neighbours.mp (List.mem_filter.mp hpair).1
  exact ⟨edge, hedge, owns, rfl⟩

/-- Whatever handle is kept along an edge has the id of an end of that edge. -/
theorem Holds.idOfHandle_of_mem_neighbours (h : shard.Holds r index edges) (coherent : r.Coherent)
    (room : r.Fits) (called : ∀ edge ∈ edges, r.Calls edge.1 ∧ r.Calls edge.2) {neighbour : Nat}
    (mem : neighbour ∈ shard.successors handle ∨ neighbour ∈ shard.predecessors handle) :
    ∃ id, r.Calls id ∧ shard.idOfHandle neighbour = .ok id := by
  rw [Shard.successors, Shard.predecessors, h.outgoing.bucket, h.incoming.bucket] at mem
  rcases mem with out | into
  · obtain ⟨edge, hedge, owns, rfl⟩ := mem_valuesIn_neighbours out
    obtain ⟨-, calls⟩ := called edge hedge
    exact ⟨edge.2, calls, h.idOfHandle_handleIn coherent room calls (target_near hedge owns)⟩
  · obtain ⟨turned, hturned, owns, rfl⟩ := mem_valuesIn_neighbours into
    obtain ⟨edge, hedge, rfl⟩ := List.mem_map.mp hturned
    obtain ⟨calls, -⟩ := called edge hedge
    exact ⟨edge.1, calls, h.idOfHandle_handleIn coherent room calls (source_near hedge owns)⟩

end Shard

end ShardCut
