import Mathlib.Data.List.Forall2
import ShardCut.Proofs.Buckets
import ShardCut.Proofs.Registry
import ShardCut.Shard

/-!
What a shard holds. Built from edges between ids of the registry, a shard finds every end of its
edges again: an inner vertex by its slot, and an outer one by bisection in the ascending list of the
outer ids. So the handles that are kept along the edges of an inner vertex translate back into the
ids that these edges had.

Main definitions: `Holds`. Main results: `build_eq_ok`, `Holds.successors`, `Holds.predecessors`.
-/

namespace ShardCut

/-- A computation on every entry that never fails gives back all its values. -/
theorem mapM_eq_ok {α β : Type} {f : α → Except Failure β} {g : α → β} {xs : List α}
    (h : ∀ x ∈ xs, f x = .ok (g x)) : xs.mapM f = .ok (xs.map g) := by
  induction xs with
  | nil => rfl
  | cons x xs ih =>
    rw [List.mapM_cons, h x (List.mem_cons_self ..), ih fun y hy => h y (List.mem_cons_of_mem _ hy)]
    rfl

/-- A computation that works on every entry gives a list with one result for each entry. -/
theorem exists_mapM_eq_ok {α β : Type} {f : α → Except Failure β} {P : α → β → Prop} (xs : List α)
    (h : ∀ x ∈ xs, ∃ y, f x = .ok y ∧ P x y) :
    ∃ ys, xs.mapM f = .ok ys ∧ List.Forall₂ P xs ys := by
  induction xs with
  | nil => exact ⟨[], rfl, .nil⟩
  | cons x xs ih =>
    obtain ⟨y, hy, hp⟩ := h x (List.mem_cons_self ..)
    obtain ⟨ys, hys, hps⟩ := ih fun x' hx' => h x' (List.mem_cons_of_mem _ hx')
    refine ⟨y :: ys, ?_, .cons hp hps⟩
    rw [List.mapM_cons, hy, hys]
    rfl

namespace Shard

variable {r : Registry} {layout : IdLayout} {index innerNum : Nat} {id : GlobalId}
  {edges : List (GlobalId × GlobalId)}

/-! ### Outer vertices -/

/-- An outer vertex is the far end of an edge that starts or ends in the shard. -/
theorem mem_outerEnds : id ∈ outerEnds layout index edges ↔
    ∃ edge ∈ edges, (Owns layout index edge.1 ∧ ¬Owns layout index edge.2 ∧ id = edge.2) ∨
      (¬Owns layout index edge.1 ∧ Owns layout index edge.2 ∧ id = edge.1) := by
  rw [outerEnds, List.mem_filterMap]
  apply exists_congr
  intro edge
  apply and_congr_right
  intro _
  by_cases hs : Owns layout index edge.1 <;> by_cases ht : Owns layout index edge.2 <;>
    simp [hs, ht, eq_comm]

/-- The target of an edge that starts in the shard is inner or outer. -/
theorem target_near {edge : GlobalId × GlobalId} (h : edge ∈ edges)
    (owns : Owns layout index edge.1) :
    Owns layout index edge.2 ∨ edge.2 ∈ outerEnds layout index edges := by
  by_cases owned : Owns layout index edge.2
  · exact .inl owned
  · exact .inr (mem_outerEnds.mpr ⟨edge, h, .inl ⟨owns, owned, rfl⟩⟩)

/-- The source of an edge that ends in the shard is inner or outer. -/
theorem source_near {edge : GlobalId × GlobalId} (h : edge ∈ edges)
    (owns : Owns layout index edge.2) :
    Owns layout index edge.1 ∨ edge.1 ∈ outerEnds layout index edges := by
  by_cases owned : Owns layout index edge.1
  · exact .inl owned
  · exact .inr (mem_outerEnds.mpr ⟨edge, h, .inr ⟨owned, owns, rfl⟩⟩)

theorem mem_outerIds :
    id ∈ outerIds layout index edges ↔ id ∈ outerEnds layout index edges := by
  rw [outerIds, ← Array.mem_toList_iff, Std.TreeSet.toList_toArray, Std.TreeSet.mem_toList,
    IdSet.mem_ofList]

/-- The outer ids stand in ascending order. -/
theorem pairwise_outerIds (layout : IdLayout) (index : Nat) (edges : List (GlobalId × GlobalId)) :
    (outerIds layout index edges).toList.Pairwise (· < ·) := by
  rw [outerIds, Std.TreeSet.toList_toArray]
  exact Std.TreeSet.ordered_toList.imp fun h => Std.compare_eq_lt.mp h

/-- In an ascending list bisection finds the place of an id that is in it. -/
theorem lowerBound_eq {ids : Array GlobalId} (sorted : ids.toList.Pairwise (· < ·)) {k : Nat}
    (hk : ids[k]? = some id) (lo hi : Nat) (hlo : lo ≤ k) (hhi : k ≤ hi) (size : hi ≤ ids.size) :
    lowerBound ids id lo hi = k := by
  obtain ⟨inside, rfl⟩ := Array.getElem?_eq_some_iff.mp hk
  have ordered {i j : Nat} (hij : i < j) (hj : j < ids.size) : ids[i] < ids[j] := by
    have := List.pairwise_iff_getElem.mp sorted i j (by simp; omega) (by simpa using hj) hij
    simpa using this
  fun_induction lowerBound ids ids[k] lo hi with
  | case1 lo hi hlt mid hmid ih =>
    have fits : mid < ids.size := by omega
    refine ih ?_ hhi size ordered
    by_contra hge
    rw [Array.getD, dif_pos fits] at hmid
    rcases Nat.lt_or_eq_of_le (Nat.le_of_not_lt hge) with h | h
    · exact UInt64.lt_asymm hmid (ordered h fits)
    · subst h
      exact UInt64.lt_irrefl _ hmid
  | case2 lo hi hlt mid hmid ih =>
    have fits : mid < ids.size := by omega
    refine ih hlo ?_ (by omega) ordered
    by_contra hge
    rw [Array.getD, dif_pos fits] at hmid
    exact hmid (ordered (Nat.lt_of_not_le hge) inside)
  | case3 lo hi hge => omega

/-! ### Building -/

theorem mem_neighbours {handle : GlobalId → Nat} {pair : Nat × Nat} :
    pair ∈ neighbours layout index handle edges ↔
      ∃ edge ∈ edges, Owns layout index edge.1 ∧ pair = (layout.slotOf edge.1, handle edge.2) := by
  rw [neighbours, List.mem_filterMap]
  apply exists_congr
  intro edge
  apply and_congr_right
  intro _
  by_cases hs : Owns layout index edge.1 <;> simp [hs, eq_comm]

theorem neighbours_cons_of_owns {edge : GlobalId × GlobalId} (h : Owns layout index edge.1)
    (handle : GlobalId → Nat) (edges : List (GlobalId × GlobalId)) :
    neighbours layout index handle (edge :: edges) =
      (layout.slotOf edge.1, handle edge.2) :: neighbours layout index handle edges := by
  simp [neighbours, h]

theorem neighbours_cons_of_not_owns {edge : GlobalId × GlobalId} (h : ¬Owns layout index edge.1)
    (handle : GlobalId → Nat) (edges : List (GlobalId × GlobalId)) :
    neighbours layout index handle (edge :: edges) = neighbours layout index handle edges := by
  simp [neighbours, h]

/-- As many neighbours are kept as edges start in the shard. -/
theorem length_neighbours (layout : IdLayout) (index : Nat) (handle : GlobalId → Nat)
    (edges : List (GlobalId × GlobalId)) :
    (neighbours layout index handle edges).length =
      edges.countP fun edge => layout.shardOf edge.1 = index := by
  induction edges with
  | nil => rfl
  | cons edge edges ih =>
    by_cases hs : layout.shardOf edge.1 = index
    · rw [neighbours_cons_of_owns hs, List.length_cons, ih, List.countP_cons, decide_eq_true hs,
        if_pos rfl]
    · rw [neighbours_cons_of_not_owns hs, ih, List.countP_cons]
      simp [hs]

/-- The neighbours of an inner vertex are the other ends of its edges, in their order. -/
theorem valuesIn_neighbours (owns : Owns layout index id) (handle : GlobalId → Nat)
    (edges : List (GlobalId × GlobalId)) :
    Buckets.valuesIn (neighbours layout index handle edges) (layout.slotOf id) =
      ((edges.filter fun edge => edge.1 = id).map Prod.snd).map handle := by
  induction edges with
  | nil => rfl
  | cons edge edges ih =>
    have same : Owns layout index edge.1 ∧ layout.slotOf edge.1 = layout.slotOf id ↔
        edge.1 = id := by
      constructor
      · intro given
        rcases given with ⟨hs, hl⟩
        rw [← layout.pack_shardOf_slotOf edge.1, ← layout.pack_shardOf_slotOf id, hl,
          show layout.shardOf edge.1 = layout.shardOf id from hs.trans owns.symm]
      · intro h
        exact ⟨h ▸ owns, by rw [h]⟩
    by_cases hs : Owns layout index edge.1
    · rw [neighbours_cons_of_owns hs, Buckets.valuesIn_cons, ih]
      by_cases hid : edge.1 = id
      · simp [hid]
      · have hl : layout.slotOf edge.1 ≠ layout.slotOf id := fun hl => hid (same.mp ⟨hs, hl⟩)
        simp [hid, hl]
    · have hid : edge.1 ≠ id := fun h => hs (same.mpr h).1
      rw [neighbours_cons_of_not_owns hs, ih]
      simp [hid]

/-- A shard holds its part of the edges. -/
structure Holds (shard : Shard) (r : Registry) (index : Nat) (edges : List (GlobalId × GlobalId)) :
    Prop where
  registry : shard.registry = r
  innerNum : shard.innerNum = r.count index
  outer : shard.outer = outerIds r.layout index edges
  outerHandles : shard.outerHandles = handlesFrom shard.innerNum shard.outer.toList
  outgoing : shard.outgoing.Holds shard.innerNum
    (neighbours r.layout index (handleIn r.layout index shard.innerNum shard.outer) edges)
  incoming : shard.incoming.Holds shard.innerNum
    (neighbours r.layout index (handleIn r.layout index shard.innerNum shard.outer)
      (edges.map Prod.swap))
  index : shard.index = index

/-- Between ids of the registry every shard can be built. -/
theorem build_eq_ok (coherent : r.Coherent) (room : r.Fits)
    (called : ∀ edge ∈ edges, r.Calls edge.1 ∧ r.Calls edge.2) (index : Nat) :
    ∃ shard, build index r edges = .ok shard ∧ shard.Holds r index edges := by
  have bound {edges : List (GlobalId × GlobalId)} (sources : ∀ edge ∈ edges, r.Calls edge.1)
      (handle : GlobalId → Nat) :
      ∀ pair ∈ neighbours r.layout index handle edges, pair.1 < r.count index := by
    intro pair hpair
    obtain ⟨edge, hedge, owns, rfl⟩ := mem_neighbours.mp hpair
    have inside := (coherent.fields_of_calls room (sources edge hedge)).2
    rwa [show r.layout.shardOf edge.1 = index from owns] at inside
  have swapped : ∀ edge ∈ edges.map Prod.swap, r.Calls edge.1 := by
    intro edge hedge
    obtain ⟨edge', hedge', rfl⟩ := List.mem_map.mp hedge
    exact (called edge' hedge').2
  obtain ⟨outgoing, out, hout⟩ := Buckets.ofPairs?_eq_some
    (bound (fun edge hedge => (called edge hedge).1) (handleIn r.layout index (r.count index)
      (outerIds r.layout index edges)))
  obtain ⟨incoming, into, hinto⟩ := Buckets.ofPairs?_eq_some
    (bound swapped (handleIn r.layout index (r.count index)
      (outerIds r.layout index edges)))
  refine ⟨⟨index, r, r.count index, outerIds r.layout index edges,
    handlesFrom (r.count index) (outerIds r.layout index edges).toList, outgoing, incoming⟩,
    ?_, rfl, rfl, rfl, rfl, hout, hinto, rfl⟩
  simp only [build, out, into]

/-! ### Looking up -/

variable {shard : Shard}

/-- The inner handles are the slots of the registry. -/
theorem Holds.isInner_iff (h : shard.Holds r index edges) {handle : Nat} :
    shard.IsInner handle ↔ handle < r.count index := by
  rw [IsInner, h.innerNum]

theorem innerHandle?_eq_some_iff {handle : Nat} :
    shard.innerHandle? id = some handle ↔
      Owns shard.registry.layout shard.index id ∧
        shard.registry.layout.slotOf id < shard.innerNum ∧
        handle = shard.registry.layout.slotOf id := by
  simp only [innerHandle?, Option.ite_none_right_eq_some, Option.some_inj, and_assoc]
  exact and_congr_right fun _ => and_congr_right fun _ => eq_comm

/-- A name has an inner handle, its slot, on the shard where it stands, and on no other one. -/
theorem Holds.innerHandle?_pack (h : shard.Holds r index edges) (room : r.Fits)
    {owner slot : Nat} {name : VertexName} (hat : r.At owner slot name) :
    shard.innerHandle? (r.layout.pack owner slot) = if index = owner then some slot else none := by
  obtain ⟨hs, hl⟩ := hat.fields_pack room.shards (Nat.le_succ_of_le (room.slots owner))
  apply Option.ext
  intro handle
  rw [innerHandle?_eq_some_iff, h.registry, h.index, h.innerNum, Owns, hs, hl]
  by_cases same : index = owner
  · subst same
    simp [hat.slot_lt, eq_comm]
  · simp [same, Ne.symm same]

/-- The handle that is kept for an end of an edge translates back into its id. -/
theorem Holds.idOfHandle_handleIn (h : shard.Holds r index edges) (coherent : r.Coherent)
    (room : r.Fits) (calls : r.Calls id)
    (near : Owns r.layout index id ∨ id ∈ outerEnds r.layout index edges) :
    shard.idOfHandle (handleIn r.layout index shard.innerNum shard.outer id) = .ok id := by
  by_cases owns : Owns r.layout index id
  · have inside := (coherent.fields_of_calls room calls).2
    rw [show r.layout.shardOf id = index from owns, ← h.isInner_iff] at inside
    rw [handleIn, if_pos owns, idOfHandle, if_pos inside, h.registry, h.index]
    exact congrArg Except.ok
      ((congrArg (r.layout.pack · _) owns.symm).trans (r.layout.pack_shardOf_slotOf id))
  · have mem : id ∈ shard.outer := by
      rw [h.outer, mem_outerIds]
      exact near.resolve_left owns
    obtain ⟨k, hk⟩ := Array.mem_iff_getElem?.mp mem
    have inside : k < shard.outer.size := (Array.getElem?_eq_some_iff.mp hk).choose
    have sorted : shard.outer.toList.Pairwise (· < ·) := by
      rw [h.outer]
      exact pairwise_outerIds _ _ _
    have place := lowerBound_eq sorted hk 0 shard.outer.size (Nat.zero_le _)
      (Nat.le_of_lt inside) (Nat.le_refl _)
    have outside : ¬shard.IsInner (shard.innerNum + k) := by
      unfold IsInner
      omega
    rw [handleIn, if_neg owns, place, idOfHandle, if_neg outside, Nat.add_sub_cancel_left, hk]

/-- The handles that are kept for ends of edges translate back into their ids. -/
theorem Holds.mapM_idOfHandle (h : shard.Holds r index edges) (coherent : r.Coherent)
    (room : r.Fits) {ids : List GlobalId}
    (ends : ∀ id ∈ ids, r.Calls id ∧
      (Owns r.layout index id ∨ id ∈ outerEnds r.layout index edges)) :
    (ids.map (handleIn r.layout index shard.innerNum shard.outer)).mapM shard.idOfHandle =
      .ok ids := by
  rw [List.mapM_map, mapM_eq_ok (g := fun id => id), List.map_id']
  intro id hid
  obtain ⟨calls, near⟩ := ends id hid
  exact h.idOfHandle_handleIn coherent room calls near

/-- The successors of an inner vertex are the targets of its edges, in their order. -/
theorem Holds.successors (h : shard.Holds r index edges) (coherent : r.Coherent) (room : r.Fits)
    (called : ∀ edge ∈ edges, r.Calls edge.1 ∧ r.Calls edge.2) {handle : Nat}
    (inner : shard.innerHandle? id = some handle) :
    (shard.successors handle).mapM shard.idOfHandle =
      .ok ((edges.filter fun edge => edge.1 = id).map Prod.snd) := by
  obtain ⟨owns, -, rfl⟩ := innerHandle?_eq_some_iff.mp inner
  rw [h.registry, h.index] at owns
  rw [Shard.successors, h.outgoing.bucket, h.registry, valuesIn_neighbours owns]
  apply h.mapM_idOfHandle coherent room
  intro target htarget
  obtain ⟨edge, hedge, rfl⟩ := List.mem_map.mp htarget
  obtain ⟨hedge, hsource⟩ := List.mem_filter.mp hedge
  exact ⟨(called edge hedge).2, target_near hedge (of_decide_eq_true hsource ▸ owns)⟩

/-- To go back along edges is to go along the edges turned around. -/
theorem map_fst_filter_snd {α : Type} [DecidableEq α] (edges : List (α × α)) (x : α) :
    (edges.filter fun edge => edge.2 = x).map Prod.fst =
      ((edges.map Prod.swap).filter fun edge => edge.1 = x).map Prod.snd := by
  simp [List.filter_map, Function.comp_def]

/-- The predecessors of an inner vertex are the sources of its edges, in their order. -/
theorem Holds.predecessors (h : shard.Holds r index edges) (coherent : r.Coherent) (room : r.Fits)
    (called : ∀ edge ∈ edges, r.Calls edge.1 ∧ r.Calls edge.2) {handle : Nat}
    (inner : shard.innerHandle? id = some handle) :
    (shard.predecessors handle).mapM shard.idOfHandle =
      .ok ((edges.filter fun edge => edge.2 = id).map Prod.fst) := by
  obtain ⟨owns, -, rfl⟩ := innerHandle?_eq_some_iff.mp inner
  rw [h.registry, h.index] at owns
  rw [Shard.predecessors, h.incoming.bucket, h.registry, valuesIn_neighbours owns,
    ← map_fst_filter_snd]
  apply h.mapM_idOfHandle coherent room
  intro source hsource
  obtain ⟨edge, hedge, rfl⟩ := List.mem_map.mp hsource
  obtain ⟨hedge, htarget⟩ := List.mem_filter.mp hedge
  exact ⟨(called edge hedge).1, source_near hedge (of_decide_eq_true htarget ▸ owns)⟩

end Shard

end ShardCut
