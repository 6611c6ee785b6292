import Mathlib.Data.List.Dedup
import ShardCut.Proofs.Boundary.Outcome

/-!
What a query gives back, in terms of the listed graph alone. The rows of the matrix are the boundary
edges of the graph, each one once. How the graph was split, who the coordinator is and how the
workers were interleaved shows in nothing but the order of the rows, which is that of the ids.

Main definitions: `Digraph.OnBoundary`, `Digraph.boundary`. Main results:
`Boundary.mem_rows_iff_mem_boundary`, `ShardedGraph.edgeBoundary_correct`,
`ShardedGraph.edgeBoundarySet_congr`.
-/

namespace ShardCut

namespace Digraph

/-- Those of the names that call a vertex. -/
def vertexNames (g : Digraph) (names : List VertexName) : List VertexName :=
  names.filter fun name => name ∈ g.mentions

/-- An edge lies on the boundary of two lists of names when its source is a vertex of the first
    list, and its target one of the second, or, if the second names no vertex, none of the first. -/
def OnBoundary (g : Digraph) (sources targets : List VertexName) (edge : VertexName × VertexName) :
    Prop :=
  edge.1 ∈ g.vertexNames sources ∧
    if g.vertexNames targets = [] then edge.2 ∉ g.vertexNames sources
    else edge.2 ∈ g.vertexNames targets

instance (g : Digraph) (sources targets : List VertexName) :
    DecidablePred (g.OnBoundary sources targets) := by
  intro edge
  unfold OnBoundary
  infer_instance

/-- The boundary edges of two lists of names, each one once. -/
def boundary (g : Digraph) (sources targets : List VertexName) :
    List (VertexName × VertexName) :=
  (g.edges.filter fun edge => g.OnBoundary sources targets edge).dedup

theorem mem_boundary {g : Digraph} {sources targets : List VertexName}
    {edge : VertexName × VertexName} :
    edge ∈ g.boundary sources targets ↔ edge ∈ g.edges ∧ g.OnBoundary sources targets edge := by
  rw [boundary, List.mem_dedup, List.mem_filter, decide_eq_true_eq]

/-- The vertices of a list are those of its names that the graph mentions. -/
theorem mem_vertexNames {g : Digraph} {names : List VertexName} {name : VertexName} :
    name ∈ g.vertexNames names ↔ name ∈ names ∧ name ∈ g.mentions := by
  rw [vertexNames, List.mem_filter, decide_eq_true_eq]

/-- Only which vertices there are, and which names are listed, counts for the boundary. -/
theorem onBoundary_congr {g g' : Digraph} {sources sources' targets targets' : List VertexName}
    (vertices : ∀ name, name ∈ g.mentions ↔ name ∈ g'.mentions)
    (sameSources : ∀ name, name ∈ sources ↔ name ∈ sources')
    (sameTargets : ∀ name, name ∈ targets ↔ name ∈ targets') {edge : VertexName × VertexName} :
    g.OnBoundary sources targets edge ↔ g'.OnBoundary sources' targets' edge := by
  have fromSources (name : VertexName) :
      name ∈ g.vertexNames sources ↔ name ∈ g'.vertexNames sources' := by
    rw [mem_vertexNames, mem_vertexNames, sameSources, vertices]
  have fromTargets (name : VertexName) :
      name ∈ g.vertexNames targets ↔ name ∈ g'.vertexNames targets' := by
    rw [mem_vertexNames, mem_vertexNames, sameTargets, vertices]
  have noTargets : g.vertexNames targets = [] ↔ g'.vertexNames targets' = [] := by
    simp only [List.eq_nil_iff_forall_not_mem, fromTargets]
  simp only [OnBoundary, fromSources, fromTargets, noTargets]

end Digraph

namespace Boundary

variable {graph : ShardedGraph} {g : Digraph} {shards : Nat} {sources targets : List VertexName}

/-- Ids stand for names: an id is in the set of a list when its name is in the list. -/
theorem mem_idsOf_iff (splits : graph.Splits g shards) {name : VertexName} {id : GlobalId}
    (hn : graph.registry.id? name = some id) (names : List VertexName) :
    id ∈ idsOf graph.registry names ↔ name ∈ g.vertexNames names := by
  have known : name ∈ g.mentions := (splits.known name).mp (by simp [hn])
  rw [mem_idsOf, Digraph.mem_vertexNames]
  constructor
  · intro given
    rcases given with ⟨name', hmem, hn'⟩
    obtain rfl := splits.coherent.id?_inj splits.fits hn hn'
    exact ⟨hmem, known⟩
  · intro given
    rcases given with ⟨hmem, -⟩
    exact ⟨name, hmem, hn⟩

/-- No id is found just when no name of the list calls a vertex. -/
theorem isEmpty_idsOf_iff (splits : graph.Splits g shards) (names : List VertexName) :
    (idsOf graph.registry names).isEmpty = true ↔ g.vertexNames names = [] := by
  rw [Std.TreeSet.isEmpty_iff_forall_not_mem, List.eq_nil_iff_forall_not_mem]
  constructor
  · intro none name hname
    obtain ⟨hmem, known⟩ := Digraph.mem_vertexNames.mp hname
    obtain ⟨id, hn⟩ := Option.isSome_iff_exists.mp ((splits.known name).mpr known)
    exact none id (mem_idsOf.mpr ⟨name, hmem, hn⟩)
  · intro none id hid
    obtain ⟨name, hmem, hn⟩ := mem_idsOf.mp hid
    exact none name (Digraph.mem_vertexNames.mpr ⟨hmem, (splits.known name).mp (by simp [hn])⟩)

/-- An edge between ids lies on the boundary when the edge between their names does. -/
theorem onBoundary_iff (splits : graph.Splits g shards) {edge : GlobalId × GlobalId}
    {row : VertexName × VertexName} (named : Names graph.registry edge row) :
    OnBoundary graph g sources targets edge ↔ row ∈ g.boundary sources targets := by
  obtain ⟨hs, ht⟩ := named
  have listed : edge ∈ graph.registry.edgesById g.edges ↔ row ∈ g.edges := by
    rw [← Prod.mk.eta (p := edge), Registry.mem_edgesById]
    constructor
    · intro given
      rcases given with ⟨row', hmem, hs', ht'⟩
      have same : row = row' := Prod.ext (splits.coherent.id?_inj splits.fits hs hs')
        (splits.coherent.id?_inj splits.fits ht ht')
      rwa [same]
    · intro hmem
      exact ⟨row, hmem, hs, ht⟩
  simp only [OnBoundary, Digraph.mem_boundary, Digraph.OnBoundary, Crosses, listed,
    mem_idsOf_iff splits hs, mem_idsOf_iff splits ht, isEmpty_idsOf_iff splits]
  exact and_left_comm

/-- The rows that name the boundary edges between ids are the boundary edges of the graph. -/
theorem mem_rows_iff_mem_boundary (splits : graph.Splits g shards) {edges : IdPairSet}
    {rows : List (VertexName × VertexName)}
    (each : List.Forall₂ (Names graph.registry) edges.toList rows)
    (found : ∀ edge, edge ∈ edges ↔ OnBoundary graph g sources targets edge)
    {row : VertexName × VertexName} :
    row ∈ rows ↔ row ∈ g.boundary sources targets := by
  rw [mem_rows_iff splits.coherent splits.fits each]
  constructor
  · intro given
    rcases given with ⟨edge, hedge, named⟩
    rw [Std.TreeSet.mem_toList, found] at hedge
    exact (onBoundary_iff splits named).mp hedge
  · intro hrow
    have known := Digraph.mem_mentions_of_mem_edges (Digraph.mem_boundary.mp hrow).1
    obtain ⟨source, hs⟩ := Option.isSome_iff_exists.mp ((splits.known _).mpr known.1)
    obtain ⟨target, ht⟩ := Option.isSome_iff_exists.mp ((splits.known _).mpr known.2)
    refine ⟨(source, target), ?_, hs, ht⟩
    rw [Std.TreeSet.mem_toList, found]
    exact (onBoundary_iff splits ⟨hs, ht⟩).mpr hrow

/-- No row stands twice, because no edge does. -/
theorem nodup_rows {r : Registry} (coherent : r.Coherent) (room : r.Fits)
    {edges : List (GlobalId × GlobalId)} {rows : List (VertexName × VertexName)}
    (each : List.Forall₂ (Names r) edges rows) (nodup : edges.Nodup) : rows.Nodup := by
  induction each with
  | nil => exact List.nodup_nil
  | @cons edge row edges rows named each ih =>
    obtain ⟨hnew, nodup⟩ := List.nodup_cons.mp nodup
    refine List.nodup_cons.mpr ⟨fun hrow => ?_, ih nodup⟩
    obtain ⟨edge', hedge', named'⟩ := (mem_rows_iff coherent room each).mp hrow
    have same : edge = edge' := Prod.ext
      (Option.some.inj (named.1.symm.trans named'.1))
      (Option.some.inj (named.2.symm.trans named'.2))
    exact hnew (same ▸ hedge')

end Boundary

namespace ShardedGraph

variable {M : Type} {codec : Codec M IdPairs} {placement : Placement} {g : Digraph}
  {graph : ShardedGraph} {query : Boundary.Query} {coordinator : Nat}
  {sources targets : List VertexName}

/-- The boundary of a query between ids, with the rows that name it. -/
theorem exists_rows_of_build (built : build placement g = .ok graph)
    (carries : codec.Carries g.edges.length) (valid : coordinator < placement.shardNum)
    (lists : query.Lists sources targets) :
    ∃ rows,
      (∀ answer, graph.Answers codec query coordinator answer ↔ answer = .ok (.ofRows rows)) ∧
      (∀ row, row ∈ rows ↔ row ∈ g.boundary sources targets) ∧
      ∃ edges : IdPairSet, List.Forall₂ (Boundary.Names graph.registry) edges.toList rows := by
  have splits := splits_of_build built
  obtain ⟨rows, one, edges, each, found⟩ :=
    Boundary.exists_answer splits carries valid (Boundary.names_eq_ok_iff.mpr lists)
  exact ⟨rows, one, fun row => Boundary.mem_rows_iff_mem_boundary splits each found, edges, each⟩

/-- As a set, the answer holds the boundary edges of the graph. -/
theorem exists_edgeBoundarySet (built : build placement g = .ok graph)
    (carries : codec.Carries g.edges.length) (valid : coordinator < placement.shardNum)
    (lists : query.Lists sources targets) :
    ∃ pairs, graph.edgeBoundarySet codec query coordinator = .ok pairs ∧
      ∀ pair, pair ∈ pairs ↔ pair ∈ g.edges ∧ g.OnBoundary sources targets pair := by
  obtain ⟨rows, one, listed, -⟩ := exists_rows_of_build built carries valid lists
  refine ⟨.ofList rows comparePairs, ?_, fun pair => ?_⟩
  · rw [edgeBoundarySet, (one _).mp (graph.answers_edgeBoundary codec query coordinator)]
    exact congrArg (fun rows => Except.ok (Std.TreeSet.ofList rows comparePairs))
      (PairMatrix.rows_ofRows rows)
  · rw [Std.TreeSet.mem_ofList, List.contains_iff_mem, listed, Digraph.mem_boundary]

/-- A query of a graph that was split, whose texts list names, gives back a matrix in every
    interleaving, and it is the same in all of them. Its rows are the boundary edges of the graph,
    each one once, in the order of the ids of their ends. -/
theorem edgeBoundary_correct (built : build placement g = .ok graph)
    (carries : codec.Carries g.edges.length) (valid : coordinator < placement.shardNum)
    (lists : query.Lists sources targets) :
    ∃ matrix,
      (∀ answer, graph.Answers codec query coordinator answer ↔ answer = .ok matrix) ∧
      graph.edgeBoundary codec query coordinator = .ok matrix ∧
      matrix.rows.Perm (g.boundary sources targets) ∧
      (∃ edges : List (GlobalId × GlobalId),
        edges.Pairwise (fun a b => a.1 < b.1 ∨ a.1 = b.1 ∧ a.2 < b.2) ∧
        List.Forall₂ (fun edge row => graph.registry.id? row.1 = some edge.1 ∧
          graph.registry.id? row.2 = some edge.2) edges matrix.rows) ∧
      matrix.WellFormed ∧ matrix.shape = ((g.boundary sources targets).length, 2) ∧
      ∃ pairs, graph.edgeBoundarySet codec query coordinator = .ok pairs ∧
        ∀ pair, pair ∈ pairs ↔ pair ∈ g.edges ∧ g.OnBoundary sources targets pair := by
  have splits := splits_of_build built
  obtain ⟨rows, one, listed, edges, each⟩ := exists_rows_of_build built carries valid lists
  have perm : rows.Perm (g.boundary sources targets) :=
    (List.perm_ext_iff_of_nodup
      (Boundary.nodup_rows splits.coherent splits.fits each (Boundary.nodup_toList edges))
      (List.nodup_dedup _)).mpr listed
  refine ⟨.ofRows rows, one, (one _).mp (graph.answers_edgeBoundary codec query coordinator), ?_,
    ⟨edges.toList, Boundary.pairwise_toList edges, ?_⟩, PairMatrix.wellFormed_ofRows rows, ?_,
    exists_edgeBoundarySet built carries valid lists⟩
  · rwa [PairMatrix.rows_ofRows]
  · rw [PairMatrix.rows_ofRows]
    exact each
  · rw [← perm.length_eq]
    rfl

/-- Two vertices on two shards, asked for the edges from one vertex to itself. Without the second
    list the answer would be the other edge. The edges travel as bytes. -/
theorem edgeBoundary_correct_two_shards :
    let g : Digraph := ⟨[.number 1], [(.number 1, .text "a"), (.text "a", .number 1),
      (.number 1, .number 1), (.number 1, .text "a"), (.number 1, .number 1)]⟩
    let query : Boundary.Query := ⟨"[1, 7]", some " [\"b\", 1]"⟩
    let placement : Placement := .listed 2 [(.number 1, 1), (.text "a", 0)]
    query.Lists [.number 1, .number 7] [.text "b", .number 1] ∧
    g.boundary [.number 1, .number 7] [] = [(.number 1, .text "a")] ∧
    Codec.edges.Carries g.edges.length ∧ 1 < placement.shardNum ∧
    ∃ graph, build placement g = .ok graph ∧
      ∃ matrix, (∀ answer, graph.Answers .edges query 1 answer ↔ answer = .ok matrix) ∧
        matrix.rows.Perm [(.number 1, .number 1)] ∧ matrix.shape = (1, 2) := by
  intro g query placement
  have lists : query.Lists [.number 1, .number 7] [.text "b", .number 1] :=
    Boundary.names_eq_ok_iff.mp (by decide +kernel)
  have inside : g.boundary [.number 1, .number 7] [.text "b", .number 1] =
    [(.number 1, .number 1)] := by decide
  have carries : Codec.edges.Carries g.edges.length := Codec.carries_edges (by decide)
  have valid : 1 < placement.shardNum := by decide
  obtain ⟨graph, built⟩ :=
    exists_build (p := placement) (g := g) (by decide) (by decide) (by decide)
  obtain ⟨matrix, one, -, perm, -, -, shape, -⟩ := edgeBoundary_correct built carries valid lists
  rw [inside] at perm shape
  exact ⟨lists, by decide, carries, valid, graph, built, matrix, one, perm, shape⟩

/-- How a graph is split, which worker coordinates, how edges travel, and how often and in which
    order vertices, edges and names are listed makes no difference to the set of the boundary
    edges. -/
theorem edgeBoundarySet_congr {M' : Type} {codec' : Codec M' IdPairs} {placement' : Placement}
    {g' : Digraph} {graph' : ShardedGraph} {query' : Boundary.Query} {coordinator' : Nat}
    {sources' targets' : List VertexName}
    (built : build placement g = .ok graph) (built' : build placement' g' = .ok graph')
    (carries : codec.Carries g.edges.length) (carries' : codec'.Carries g'.edges.length)
    (valid : coordinator < placement.shardNum) (valid' : coordinator' < placement'.shardNum)
    (lists : query.Lists sources targets) (lists' : query'.Lists sources' targets')
    (vertices : ∀ name, name ∈ g.mentions ↔ name ∈ g'.mentions)
    (edges : ∀ edge, edge ∈ g.edges ↔ edge ∈ g'.edges)
    (sameSources : ∀ name, name ∈ sources ↔ name ∈ sources')
    (sameTargets : ∀ name, name ∈ targets ↔ name ∈ targets') :
    (graph.edgeBoundarySet codec query coordinator).map Std.TreeSet.toList =
      (graph'.edgeBoundarySet codec' query' coordinator').map Std.TreeSet.toList := by
  obtain ⟨pairs, answer, found⟩ := exists_edgeBoundarySet built carries valid lists
  obtain ⟨pairs', answer', found'⟩ := exists_edgeBoundarySet built' carries' valid' lists'
  have same : pairs.Equiv pairs' := by
    apply Std.TreeSet.Equiv.of_forall_mem_iff
    intro pair
    rw [found, found', edges, Digraph.onBoundary_congr vertices sameSources sameTargets]
  rw [answer, answer']
  exact congrArg Except.ok same.toList_eq

end ShardedGraph

end ShardCut
