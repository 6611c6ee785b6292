import ShardCut.Proofs.Boundary.Merge
import ShardCut.Proofs.Registry.Calls
import ShardCut.Proofs.ShardedGraph

/-!
What a matrix tells of the set of edges that it was made from. Ids can be any words. If each of them
calls a vertex, the rows lead back to the edges, in ascending order, so nothing is lost. If not, the
first one that calls no vertex is reported, in the order in which the edges are read, and there is
no matrix.

Main definitions: `FirstUnknown`, `edgeOf?`. Main results: `encode_cases`, `encode_of_reached`.
-/

namespace ShardCut

namespace ShardedGraph

/-- The registry of a split graph is one that a run leaves. -/
theorem reached_of_build {p : Placement} {g : Digraph} {graph : ShardedGraph}
    (built : build p g = .ok graph) : graph.registry.Reached p.shardNum := by
  obtain ⟨-, bound, registered, -⟩ := parts_of_build built
  obtain ⟨calls, run⟩ := Registry.exists_calls_of_registerAll registered
  refine ⟨⟨_, calls, if_pos bound, run⟩, fun shard => ?_⟩
  exact Nat.le_succ_of_le ((splits_of_build built).fits.slots shard)

end ShardedGraph

namespace Boundary

variable {r : Registry} {shards : Nat} {shard : Shard} {id : GlobalId} {ids : List GlobalId}
  {edge : GlobalId × GlobalId} {edges : List (GlobalId × GlobalId)}

/-- The ends of edges in the order in which they are read. -/
def endsOf (edges : List (GlobalId × GlobalId)) : List GlobalId :=
  edges.flatMap fun edge => [edge.1, edge.2]

/-- The first of some ids that calls no vertex. -/
def FirstUnknown (r : Registry) (ids : List GlobalId) (id : GlobalId) : Prop :=
  ∃ before behind, ids = before ++ id :: behind ∧ (∀ other ∈ before, r.Calls other) ∧ ¬r.Calls id

namespace FirstUnknown

theorem append_left (h : FirstUnknown r ids id) (more : List GlobalId) :
    FirstUnknown r (ids ++ more) id := by
  obtain ⟨before, behind, rfl, known, unknown⟩ := h
  exact ⟨before, behind ++ more, by simp, known, unknown⟩

theorem append_right {front : List GlobalId} (called : ∀ other ∈ front, r.Calls other)
    (h : FirstUnknown r ids id) : FirstUnknown r (front ++ ids) id := by
  obtain ⟨before, behind, rfl, known, unknown⟩ := h
  refine ⟨front ++ before, behind, by simp, fun other hother => ?_, unknown⟩
  rcases List.mem_append.mp hother with hfront | hbefore
  · exact called other hfront
  · exact known other hbefore

theorem mem (h : FirstUnknown r ids id) : id ∈ ids := by
  obtain ⟨before, behind, rfl, -, -⟩ := h
  exact List.mem_append_right before List.mem_cons_self

theorem not_calls (h : FirstUnknown r ids id) : ¬r.Calls id := by
  obtain ⟨-, -, -, -, unknown⟩ := h
  exact unknown

/-- Only one id is the first: the ids before either of two such ids are called. -/
theorem unique {id' : GlobalId} (h : FirstUnknown r ids id) (h' : FirstUnknown r ids id') :
    id = id' := by
  obtain ⟨before, behind, rfl, known, unknown⟩ := h
  obtain ⟨before', behind', split, known', unknown'⟩ := h'
  induction before generalizing before' with
  | nil =>
    cases before' with
    | nil => exact (List.cons.inj split).1
    | cons first before' =>
      obtain ⟨rfl, -⟩ := List.cons.inj split
      exact (unknown (known' _ List.mem_cons_self)).elim
  | cons first before ih =>
    cases before' with
    | nil =>
      obtain ⟨rfl, -⟩ := List.cons.inj split
      exact (unknown' (known _ List.mem_cons_self)).elim
    | cons first' before' =>
      obtain ⟨-, split⟩ := List.cons.inj split
      exact ih (fun other h => known other (List.mem_cons_of_mem _ h)) before' split
        fun other h => known' other (List.mem_cons_of_mem _ h)

end FirstUnknown

/-! ### One id, one edge, all edges -/

theorem nameOf_eq_ok (exact : r.Exact) (hr : shard.registry = r) {name : VertexName}
    (hn : r.id? name = some id) : nameOf shard id = .ok name := by
  rw [nameOf, Shard.nameOfId?, hr, (exact.id?_iff_name? name id).mp hn]

/-- An id that calls no vertex is reported. -/
theorem nameOf_eq_error (exact : r.Exact) (hr : shard.registry = r) (unknown : ¬r.Calls id) :
    nameOf shard id = .error (.unknownId id) := by
  have none : r.name? id = none := by
    rw [Option.eq_none_iff_forall_ne_some]
    intro name named
    exact unknown ⟨name, (exact.id?_iff_name? name id).mpr named⟩
  rw [nameOf, Shard.nameOfId?, hr, none]

/-- The row of an edge names its ends, or the first end without a name is reported. -/
theorem rowOf_cases (exact : r.Exact) (hr : shard.registry = r) (edge : GlobalId × GlobalId) :
    (∃ row, rowOf shard edge = .ok row ∧ Names r edge row) ∨
      ∃ id, rowOf shard edge = .error (.unknownId id) ∧ FirstUnknown r [edge.1, edge.2] id := by
  by_cases hs : r.Calls edge.1
  · obtain ⟨source, hsource⟩ := hs
    by_cases ht : r.Calls edge.2
    · obtain ⟨target, htarget⟩ := ht
      refine .inl ⟨(source, target), ?_, hsource, htarget⟩
      rw [rowOf, nameOf_eq_ok exact hr hsource, nameOf_eq_ok exact hr htarget]
      rfl
    · refine .inr ⟨edge.2, ?_, [edge.1], [], rfl, ?_, ht⟩
      · rw [rowOf, nameOf_eq_ok exact hr hsource, nameOf_eq_error exact hr ht]
        rfl
      · intro other hother
        obtain rfl := List.mem_singleton.mp hother
        exact ⟨source, hsource⟩
  · refine .inr ⟨edge.1, ?_, [], [edge.2], rfl, fun _ h => (List.not_mem_nil h).elim, hs⟩
    rw [rowOf, nameOf_eq_error exact hr hs]
    rfl

/-- All ends of edges that rows name call vertices. -/
theorem calls_of_names {rows : List (VertexName × VertexName)}
    (each : List.Forall₂ (Names r) edges rows) : ∀ id ∈ endsOf edges, r.Calls id := by
  induction each with
  | nil => exact fun _ h => (List.not_mem_nil h).elim
  | cons named each ih =>
    intro id hid
    rcases List.mem_append.mp hid with here | later
    · rcases List.mem_pair.mp here with rfl | rfl
      · exact ⟨_, named.1⟩
      · exact ⟨_, named.2⟩
    · exact ih id later

/-- The rows of edges name them one by one, or the first end without a name is reported. -/
theorem mapM_rowOf_cases (exact : r.Exact) (hr : shard.registry = r)
    (edges : List (GlobalId × GlobalId)) :
    (∃ rows, edges.mapM (rowOf shard) = .ok rows ∧ List.Forall₂ (Names r) edges rows) ∨
      ∃ id, edges.mapM (rowOf shard) = .error (.unknownId id) ∧
        FirstUnknown r (endsOf edges) id := by
  induction edges with
  | nil => exact .inl ⟨[], rfl, .nil⟩
  | cons edge edges ih =>
    rcases rowOf_cases exact hr edge with ⟨row, here, named⟩ | ⟨id, here, first⟩
    · rcases ih with ⟨rows, later, each⟩ | ⟨id, later, first⟩
      · refine .inl ⟨row :: rows, ?_, .cons named each⟩
        rw [List.mapM_cons, here, later]
        rfl
      · refine .inr ⟨id, ?_, first.append_right (calls_of_names (.cons named .nil))⟩
        rw [List.mapM_cons, here, later]
        rfl
    · refine .inr ⟨id, ?_, first.append_left (endsOf edges)⟩
      rw [List.mapM_cons, here]
      rfl

/-- A set is encoded as the rows that name its edges, or its first unknown end is reported. -/
theorem encode_cases (exact : r.Exact) (hr : shard.registry = r) (edges : IdPairSet) :
    (∃ rows, encode shard edges = .ok (.ofRows rows) ∧
        List.Forall₂ (Names r) edges.toList rows) ∨
      ∃ id, encode shard edges = .error (.unknownId id) ∧
        FirstUnknown r (endsOf edges.toList) id := by
  unfold encode
  rcases mapM_rowOf_cases exact hr edges.toList with ⟨rows, named, each⟩ | ⟨id, failed, first⟩
  · refine .inl ⟨rows, ?_, each⟩
    rw [named]
    rfl
  · refine .inr ⟨id, ?_, first⟩
    rw [failed]
    rfl

/-! ### The way back -/

/-- The edge between the ids of the names in a row. -/
def edgeOf? (shard : Shard) (row : VertexName × VertexName) :
    Option GlobalId × Option GlobalId :=
  (shard.idOfName? row.1, shard.idOfName? row.2)

theorem map_edgeOf? (hr : shard.registry = r) {rows : List (VertexName × VertexName)}
    (each : List.Forall₂ (Names r) edges rows) :
    rows.map (edgeOf? shard) = edges.map (Prod.map some some) := by
  induction each with
  | nil => rfl
  | cons named each ih =>
    have same := congrArg₂ Prod.mk named.1 named.2
    rw [← hr] at same
    rw [List.map_cons, List.map_cons, ih]
    exact congrArg (· :: _) same

theorem mem_endsOf : id ∈ endsOf edges ↔ ∃ edge ∈ edges, id = edge.1 ∨ id = edge.2 := by
  simp only [endsOf, List.mem_flatMap, List.mem_pair]

/-- Rows that lead back to different edges are different. -/
theorem nodup_of_map_edgeOf? {rows : List (VertexName × VertexName)} (nodup : edges.Nodup)
    (back : rows.map (edgeOf? shard) = edges.map (Prod.map some some)) : rows.Nodup := by
  have injective : Function.Injective (Prod.map (some : GlobalId → _) (some : GlobalId → _)) :=
    (Option.some_injective _).prodMap (Option.some_injective _)
  apply List.Nodup.of_map (edgeOf? shard)
  rw [back]
  exact nodup.map injective

/-- A set of edges between any words has a matrix just when all of them are ids of vertices. Its
    rows lead back to the edges of the set, which are listed in ascending order, each one once.
    Otherwise the first word that calls no vertex is reported, sources before targets. -/
theorem encode_of_reached (reached : r.Reached shards) (hr : shard.registry = r)
    (edges : IdPairSet) :
    ((∃ matrix, encode shard edges = .ok matrix) ↔
      ∀ edge ∈ edges, r.Calls edge.1 ∧ r.Calls edge.2) ∧
    edges.toList.Pairwise (fun a b => a.1 < b.1 ∨ a.1 = b.1 ∧ a.2 < b.2) ∧
    (∀ matrix, encode shard edges = .ok matrix →
      matrix.rows.map (edgeOf? shard) = edges.toList.map (Prod.map some some) ∧
      matrix.rows.Nodup ∧ matrix.WellFormed ∧ matrix.shape = (edges.size, 2)) ∧
    ∀ failure, encode shard edges = .error failure ↔
      ∃ id, FirstUnknown r (endsOf edges.toList) id ∧ failure = .unknownId id := by
  have called : (∀ edge ∈ edges, r.Calls edge.1 ∧ r.Calls edge.2) ↔
      ∀ id ∈ endsOf edges.toList, r.Calls id := by
    simp only [mem_endsOf, Std.TreeSet.mem_toList]
    constructor
    · rintro all id ⟨edge, hedge, rfl | rfl⟩
      · exact (all edge hedge).1
      · exact (all edge hedge).2
    · intro all edge hedge
      exact ⟨all _ ⟨edge, hedge, .inl rfl⟩, all _ ⟨edge, hedge, .inr rfl⟩⟩
  rw [called]
  refine ⟨?_, pairwise_toList edges, ?_⟩
  all_goals
    rcases encode_cases reached.exact hr edges with ⟨rows, encoded, each⟩ | ⟨id, failed, first⟩
  · exact ⟨fun _ => calls_of_names each, fun _ => ⟨_, encoded⟩⟩
  · refine ⟨fun given => ?_, fun all => (first.not_calls (all id first.mem)).elim⟩
    obtain ⟨matrix, given⟩ := given
    cases failed.symm.trans given
  · have back := map_edgeOf? hr each
    refine ⟨fun matrix given => ?_, fun failure => ⟨fun failed => ?_, fun given => ?_⟩⟩
    · obtain rfl := Except.ok.inj (encoded.symm.trans given)
      rw [PairMatrix.rows_ofRows]
      refine ⟨back, nodup_of_map_edgeOf? (nodup_toList edges) back,
        PairMatrix.wellFormed_ofRows rows, ?_⟩
      rw [PairMatrix.ofRows, ← each.length_eq, Std.TreeSet.length_toList]
    · cases encoded.symm.trans failed
    · obtain ⟨id, first, -⟩ := given
      exact (first.not_calls (calls_of_names each id first.mem)).elim
  · refine ⟨fun matrix given => ?_, fun failure => ⟨fun given => ?_, fun given => ?_⟩⟩
    · cases failed.symm.trans given
    · exact ⟨id, first, (Except.error.inj (failed.symm.trans given)).symm⟩
    · obtain ⟨id', first', rfl⟩ := given
      rw [failed, first.unique first']

/-- Two vertices on two shards, whose ids are the least words with their shard fields. Of the words
    that call nothing `7` is read first, although `5` is less. -/
theorem encode_of_reached_two_shards :
    let p : Placement := .listed 2 [(.number 1, 1), (.text "a", 0)]
    let g : Digraph := ⟨[], [(.number 1, .text "a")]⟩
    ∃ graph, ShardedGraph.build p g = .ok graph ∧ graph.registry.Reached 2 ∧
      ∀ shard, shard.registry = graph.registry →
        (∃ matrix, encode shard (.ofList [(0x8000000000000000, 0), (0, 0)]) = .ok matrix ∧
          matrix.shape = (2, 2)) ∧
        encode shard (.ofList [(0x8000000000000000, 0), (0x8000000000000000, 5), (0, 7), (0, 0)]) =
          .error (.unknownId 7) := by
  intro p g
  obtain ⟨graph, built⟩ :=
    ShardedGraph.exists_build (p := p) (g := g) (by decide) (by decide) (by decide)
  have reached := ShardedGraph.reached_of_build built
  obtain ⟨-, -, registered, -⟩ := ShardedGraph.parts_of_build built
  obtain ⟨one, a, seven⟩ : graph.registry.id? (.number 1) = some 0x8000000000000000 ∧
      graph.registry.id? (.text "a") = some 0 ∧ graph.registry.name? 7 = none := by
    have computed : (((Registry.ofShards 2).registerAll p.owner g.mentions).map fun r =>
        (r.id? (.number 1), r.id? (.text "a"), r.name? 7)) =
          .ok (some 0x8000000000000000, some 0, none) := by
      have mentions : g.mentions = [.number 1, .text "a"] := rfl
      simp only [mentions, Registry.registerAll, List.foldlM_cons, List.foldlM_nil,
        Registry.registerNext_eq]
      cbv
    change (Registry.ofShards 2).registerAll _ _ = _ at registered
    rw [registered] at computed
    simpa [Except.map] using computed
  have first : graph.registry.Calls 0x8000000000000000 := ⟨_, one⟩
  have second : graph.registry.Calls 0 := ⟨_, a⟩
  have unknown : ¬graph.registry.Calls 7 := by
    rintro ⟨name, hn⟩
    rw [reached.exact.id?_iff_name?, seven] at hn
    cases hn
  refine ⟨graph, built, reached, fun shard hr => ⟨?_, ?_⟩⟩
  · obtain ⟨accepts, -, decodes, -⟩ :=
      encode_of_reached reached hr (.ofList [(0x8000000000000000, 0), (0, 0)])
    obtain ⟨matrix, encoded⟩ := accepts.mpr (by simp [first, second])
    exact ⟨matrix, encoded, (decodes matrix encoded).2.2.2⟩
  · obtain ⟨-, -, -, refuses⟩ := encode_of_reached reached hr
      (.ofList [(0x8000000000000000, 0), (0x8000000000000000, 5), (0, 7), (0, 0)])
    refine (refuses _).mpr ⟨7, ⟨[0, 0, 0], _, rfl, by simp [second], unknown⟩, rfl⟩

end Boundary

end ShardCut
