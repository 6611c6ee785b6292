import Mathlib.Data.List.Perm.Subperm
import ShardCut.Boundary
import ShardCut.Proofs.Boundary.Part
import ShardCut.Proofs.Boundary.Query
import ShardCut.Proofs.Boundary.Scan
import ShardCut.Proofs.Boundary.Union
import ShardCut.Proofs.ShardedGraph

/-!
The outcome of a query. The lists of a query are decoded by every worker, before it sends anything,
and decoding does not depend on the shard. So either all workers stop before the one collective,
with one failure; or all of them take part in it, and nothing can fail any more. Both are cases of
the verdict on workers that do their parts.

Main definitions: `idsOf`, `OnBoundary`, `parts`, `outputOf`. Main results: `exists_contributions`,
`exists_rows`, `outcome_of_malformed`, `exists_outcome`, `answers_of_malformed`, `exists_answer`.
-/

namespace ShardCut

namespace Boundary

variable {M : Type} {codec : Codec M IdPairs} {graph : ShardedGraph} {g : Digraph} {shards : Nat}
  {query : Query} {coordinator : Nat} {sources targets : List VertexName} {failure : Failure}

/-- The ids of the names that call a vertex. -/
def idsOf (r : Registry) (names : List VertexName) : IdSet := .ofList (names.filterMap r.id?)

/-- The ids of a list are those of its names that call a vertex. -/
theorem mem_idsOf {r : Registry} {names : List VertexName} {id : GlobalId} :
    id ∈ idsOf r names ↔ ∃ name ∈ names, r.id? name = some id := by
  rw [idsOf, IdSet.mem_ofList, List.mem_filterMap]

/-- An edge between ids lies on the boundary. -/
def OnBoundary (graph : ShardedGraph) (g : Digraph) (sources targets : List VertexName)
    (edge : GlobalId × GlobalId) : Prop :=
  edge.1 ∈ idsOf graph.registry sources ∧ edge ∈ graph.registry.edgesById g.edges ∧
    Crosses (idsOf graph.registry sources) (idsOf graph.registry targets) edge.2

theorem resolveNames_eq {shard : Shard} {r : Registry} {index : Nat}
    {edges : List (GlobalId × GlobalId)} (h : shard.Holds r index edges)
    (names : List VertexName) : resolveNames shard names = idsOf r names := by
  rw [← h.registry]
  rfl

/-- Every worker has something to contribute, and together they contribute the boundary. -/
theorem exists_contributions (splits : graph.Splits g shards) (sources targets : List VertexName) :
    ∃ own : Fin graph.shards.length → IdPairSet,
      (∀ i, scan (graph.shards.get i) (resolveNames (graph.shards.get i) sources)
        (resolveNames (graph.shards.get i) targets) = .ok (own i)) ∧
      ∀ edge, (∃ i, edge ∈ own i) ↔ OnBoundary graph g sources targets edge := by
  have holds (i : Fin graph.shards.length) : (graph.shards.get i).Holds graph.registry i
      (graph.registry.edgesById g.edges) := splits.holds i i.isLt
  obtain ⟨own, scanned, -, found⟩ :=
    exists_scans splits (idsOf graph.registry sources) (idsOf graph.registry targets)
  refine ⟨own, fun i => ?_, fun edge => ⟨?_, ?_⟩⟩
  · rw [resolveNames_eq (holds i), resolveNames_eq (holds i)]
    exact scanned i
  · intro given
    rcases given with ⟨i, hi⟩
    obtain ⟨hs, hedge, -, crosses⟩ := (found i edge).mp hi
    exact ⟨hs, hedge, crosses⟩
  · intro given
    rcases given with ⟨hs, hedge, crosses⟩
    have calls := (Registry.calls_of_mem_edgesById hedge).1
    have owner : graph.registry.layout.shardOf edge.1 < graph.shards.length := by
      rw [← ShardedGraph.shardNum, splits.shardNum, ← splits.registry_shardNum]
      exact (splits.coherent.fields_of_calls splits.fits calls).1
    exact ⟨⟨_, owner⟩, (found _ edge).mpr ⟨hs, hedge, rfl, crosses⟩⟩

/-- The coordinator can encode what all workers contributed. -/
theorem exists_rows (splits : graph.Splits g shards) {own : Fin graph.shards.length → IdPairSet}
    (found : ∀ edge, (∃ i, edge ∈ own i) ↔ OnBoundary graph g sources targets edge)
    (coordinator : Nat) :
    ∃ rows, ∀ c : Fin graph.shards.length, c = coordinator →
      encode (graph.shards.get c) (unite coordinator (own c)
        ((List.finRange graph.shards.length).map fun i => (own i).toList)) = .ok (.ofRows rows) ∧
      ∃ edges : IdPairSet, List.Forall₂ (Names graph.registry) edges.toList rows ∧
        ∀ edge, edge ∈ edges ↔ OnBoundary graph g sources targets edge := by
  by_cases hc : coordinator < graph.shards.length
  · have union (edge : GlobalId × GlobalId) :
        edge ∈ unite coordinator (own ⟨coordinator, hc⟩)
            ((List.finRange graph.shards.length).map fun i => (own i).toList) ↔
          OnBoundary graph g sources targets edge :=
      (mem_unite own ⟨coordinator, hc⟩).trans (found edge)
    obtain ⟨rows, encoded, each⟩ := exists_encode (splits.holds coordinator hc).registry
      splits.coherent splits.fits _
      fun edge hedge => Registry.calls_of_mem_edgesById ((union edge).mp hedge).2.1
    refine ⟨rows, ?_⟩
    rintro c rfl
    exact ⟨encoded, _, each, union⟩
  · refine ⟨[], ?_⟩
    rintro c rfl
    exact (hc c.isLt).elim

/-! ### Parts -/

def parts (codec : Codec M IdPairs) (query : Query) (coordinator : Nat) (graph : ShardedGraph) :
    Fin graph.shards.length → (edgeTraffic codec).Part (Option PairMatrix) :=
  fun i => part codec query coordinator i (graph.shards.get i)

theorem contribution_of_ok {shard : Shard} {own : IdPairSet}
    (names : query.names = .ok (sources, targets))
    (scanned : scan shard (resolveNames shard sources) (resolveNames shard targets) = .ok own) :
    contribution query shard = .ok own := by
  have resolved : query.resolve shard =
      .ok (resolveNames shard sources, resolveNames shard targets) := by
    rw [Query.resolve, names]
    rfl
  rw [contribution, resolved]
  exact scanned

/-- With malformed lists a worker contributes nothing, and fails as decoding did. -/
theorem contribution_of_malformed (shard : Shard) (names : query.names = .error failure) :
    contribution query shard = .error failure := by
  rw [contribution, Query.resolve, names]
  rfl

theorem contributed_of_ok {shard : Shard} {own : IdPairSet}
    (contributes : contribution query shard = .ok own) : contributed query shard = own := by
  rw [contributed, contributes]

/-- A worker has no more edges to send than the graph has. -/
theorem length_contributed_le (splits : graph.Splits g shards) (query : Query)
    (i : Fin graph.shards.length) :
    (contributed query (graph.shards.get i)).toList.length ≤ g.edges.length := by
  cases names : query.names with
  | error failure =>
    rw [contributed, contribution_of_malformed _ names]
    exact Nat.zero_le _
  | ok lists =>
    obtain ⟨own, scanned, found⟩ := exists_contributions splits lists.1 lists.2
    rw [contributed_of_ok (contribution_of_ok names (scanned i))]
    have listed : (own i).toList ⊆ graph.registry.edgesById g.edges := by
      intro edge hedge
      exact ((found edge).mp ⟨i, Std.TreeSet.mem_toList.mp hedge⟩).2.1
    calc (own i).toList.length
        ≤ (graph.registry.edgesById g.edges).length :=
          (List.subperm_of_subset (nodup_toList (own i)) listed).length_le
      _ ≤ g.edges.length := List.length_filterMap_le ..

/-- The workers of a query have one outcome, which is what their parts say. -/
theorem exists_verdict (splits : graph.Splits g shards) (carries : codec.Carries g.edges.length)
    (query : Query) (coordinator : Nat) :
    (∀ mesh, (graph.meshOf (app codec query coordinator)).Reaches mesh → ¬mesh.Stuck) ∧
      ∃ outcome, Traffic.Verdict (parts codec query coordinator graph) 1 outcome ∧
        ∀ other, graph.Outcome (app codec query coordinator) other ↔ other = outcome := by
  obtain ⟨unstuck, outcome, verdict, one, -⟩ :=
    graph.verdict_of_parts (app codec query coordinator) (edgeTraffic codec) 1
      (parts codec query coordinator graph) (fun i => program_eq_part i _)
      fun i _ _ => carries _ (length_contributed_le splits query i)
  exact ⟨unstuck, outcome, verdict, one⟩

/-- The output of a worker: the coordinator has the matrix. -/
def outputOf (coordinator : Nat) (matrix : PairMatrix) (worker : Nat) : Option PairMatrix :=
  if worker = coordinator then some matrix else none

section Decoded

variable {own : Fin graph.shards.length → IdPairSet} {matrix : PairMatrix}
  (contributes : ∀ i, contribution query (graph.shards.get i) = .ok (own i))
  (encoded : ∀ i : Fin graph.shards.length, i = coordinator →
    encode (graph.shards.get i) (unite coordinator (own i)
      ((List.finRange graph.shards.length).map fun i => (own i).toList)) = .ok matrix)

include contributes in
theorem gathered_parts :
    Traffic.gathered (parts codec query coordinator graph) 1 0 =
      (List.finRange graph.shards.length).map fun i => (own i).toList := by
  change ((List.finRange graph.shards.length).map fun i =>
    (contributed query (graph.shards.get i)).toList) = _
  exact congrArg (List.map · _) (funext fun i => by rw [contributed_of_ok (contributes i)])

include contributes encoded

/-- Once all have contributed, every worker has its output. -/
theorem outputFrom_gathered (i : Fin graph.shards.length) :
    outputFrom query coordinator i (graph.shards.get i)
      (Traffic.gathered (parts codec query coordinator graph) 1 0) =
        .ok (outputOf coordinator matrix i) := by
  unfold outputFrom mergedAt outputOf
  rw [contributed_of_ok (contributes i), gathered_parts contributes]
  split
  · next same => rw [encodeMerged, encoded i same]; rfl
  · rfl

/-- Nobody stops by itself, and the outputs are those of the merged edges. -/
theorem verdict_of_decoded :
    Traffic.Verdict (parts codec query coordinator graph) 1
      (.ok ((List.finRange graph.shards.length).map
        fun i : Fin graph.shards.length => outputOf coordinator matrix i)) := by
  have computed (i : Fin graph.shards.length) :
      outputFrom query coordinator i (graph.shards.get i)
        (Traffic.gathered (parts codec query coordinator graph) 1 0) =
          .ok (outputOf coordinator matrix i) := outputFrom_gathered contributes encoded i
  have outputs :
      ((List.finRange graph.shards.length).map fun i =>
        (parts codec query coordinator graph i).output
          (Traffic.gathered (parts codec query coordinator graph) 1)) =
      (List.finRange graph.shards.length).map fun i : Fin graph.shards.length =>
        outputOf coordinator matrix i :=
    congrArg (List.map · _) (funext fun i => by simp only [parts, part]; rw [computed i])
  rw [← outputs]
  refine .outputs fun i round stop stops => ?_
  obtain ⟨le, stops⟩ := stops
  match round, le with
  | 0, _ =>
    change stopOf? (contribution query (graph.shards.get i)) = some stop at stops
    rw [contributes i] at stops
    cases stops
  | 1, _ =>
    change stopOf? (outputFrom query coordinator i (graph.shards.get i)
      (Traffic.gathered (parts codec query coordinator graph) 1 0)) = some stop at stops
    rw [computed i] at stops
    cases stops

end Decoded

/-- Every worker stops at once, and the first one is to blame. -/
theorem verdict_of_malformed {fault : Json.Fault} (splits : graph.Splits g shards)
    (names : query.names = .error (.malformedList fault)) :
    Traffic.Verdict (parts codec query coordinator graph) 1 (.error (.malformedList fault)) := by
  have some_worker : 0 < graph.shards.length := by
    rw [← ShardedGraph.shardNum, splits.shardNum]
    exact splits.positive
  have stops (i : Fin graph.shards.length) :
      Traffic.Stops (parts codec query coordinator graph) 1 i 0
        (.failing (.malformedList fault) id) := by
    refine ⟨Nat.zero_le 1, ?_⟩
    change stopOf? (contribution query (graph.shards.get i)) = _
    rw [contribution_of_malformed _ names]
    rfl
  refine .blame (stops ⟨0, some_worker⟩) fun j round stop _ => ?_
  rcases Nat.eq_zero_or_pos round with rfl | later
  · exact .inr ⟨rfl, Nat.zero_le _⟩
  · exact .inl later

/-! ### Outcomes -/

/-- With malformed lists the one outcome is the failure to decode them. -/
theorem outcome_of_malformed (splits : graph.Splits g shards)
    (carries : codec.Carries g.edges.length) (names : query.names = .error failure) :
    (∀ mesh, (graph.meshOf (app codec query coordinator)).Reaches mesh → ¬mesh.Stuck) ∧
      ∀ outcome, graph.Outcome (app codec query coordinator) outcome ↔
        outcome = .error failure := by
  obtain ⟨fault, rfl⟩ := malformed_of_names names
  obtain ⟨unstuck, outcome, verdict, one⟩ := exists_verdict splits carries query coordinator
  rw [verdict.unique (verdict_of_malformed splits names)] at one
  exact ⟨unstuck, one⟩

/-- With decoded lists the one outcome is a list of outputs: the coordinator has a matrix that names
    the boundary edges, and the others have none. -/
theorem exists_outcome (splits : graph.Splits g shards) (carries : codec.Carries g.edges.length)
    (coordinator : Nat) (names : query.names = .ok (sources, targets)) :
    (∀ mesh, (graph.meshOf (app codec query coordinator)).Reaches mesh → ¬mesh.Stuck) ∧
      ∃ rows, (∀ outcome, graph.Outcome (app codec query coordinator) outcome ↔
          outcome = .ok ((List.finRange graph.shards.length).map
            fun i : Fin graph.shards.length => outputOf coordinator (.ofRows rows) i)) ∧
        (coordinator < shards → ∃ edges : IdPairSet,
          List.Forall₂ (Names graph.registry) edges.toList rows ∧
            ∀ edge, edge ∈ edges ↔ OnBoundary graph g sources targets edge) := by
  obtain ⟨own, scanned, found⟩ := exists_contributions splits sources targets
  obtain ⟨rows, encoded⟩ := exists_rows splits found coordinator
  obtain ⟨unstuck, outcome, verdict, one⟩ := exists_verdict splits carries query coordinator
  have contributes (i : Fin graph.shards.length) :
      contribution query (graph.shards.get i) = .ok (own i) := contribution_of_ok names (scanned i)
  rw [verdict.unique (verdict_of_decoded contributes fun c hc => (encoded c hc).1)] at one
  refine ⟨unstuck, rows, one, fun hc => ?_⟩
  rw [← splits.shardNum] at hc
  exact (encoded ⟨coordinator, hc⟩ rfl).2

/-! ### Answers -/

/-- A coordinator among the workers has returned the matrix. -/
theorem resultOf_outputs {n : Nat} (hc : coordinator < n) (matrix : PairMatrix) :
    resultOf coordinator ((List.finRange n).map fun i : Fin n => outputOf coordinator matrix i) =
      .ok matrix := by
  have output :
      ((List.finRange n).map fun i : Fin n => outputOf coordinator matrix i)[coordinator]? =
        some (some matrix) := by
    simp [hc, outputOf]
  rw [resultOf, output]

/-- A coordinator that is no worker is refused before anything runs. -/
theorem answers_of_outOfRange (h : graph.shardNum ≤ coordinator)
    {answer : Except Failure PairMatrix} :
    graph.Answers codec query coordinator answer ↔
      answer = .error (.invalidSetting (.coordinatorOutOfRange coordinator graph.shardNum)) := by
  constructor
  · intro answers
    cases answers with
    | refused _ => rfl
    | ran hc _ => exact (Nat.not_lt_of_le h hc).elim
  · rintro rfl
    exact .refused h

/-- With a coordinator among the workers, the one outcome decides the one answer. -/
theorem answers_of_outcome (hc : coordinator < graph.shardNum)
    {expected : Except Failure (List (Option PairMatrix))}
    (one : ∀ outcome, graph.Outcome (app codec query coordinator) outcome ↔ outcome = expected)
    {answer : Except Failure PairMatrix} :
    graph.Answers codec query coordinator answer ↔
      answer = expected.bind (resultOf coordinator) := by
  constructor
  · intro answers
    cases answers with
    | refused h => exact (Nat.not_lt_of_le h hc).elim
    | ran _ run => rw [(one _).mp run]
  · rintro rfl
    exact .ran hc ((one _).mpr rfl)

/-- With malformed lists the one answer is the failure to decode them. -/
theorem answers_of_malformed (splits : graph.Splits g shards)
    (carries : codec.Carries g.edges.length) (hc : coordinator < shards)
    (names : query.names = .error failure) {answer : Except Failure PairMatrix} :
    graph.Answers codec query coordinator answer ↔ answer = .error failure := by
  rw [← splits.shardNum] at hc
  exact answers_of_outcome hc (outcome_of_malformed splits carries names).2

/-- With decoded lists and a coordinator among the workers the answer is a matrix, which names the
    boundary edges in the order of their ids. -/
theorem exists_answer (splits : graph.Splits g shards) (carries : codec.Carries g.edges.length)
    (hc : coordinator < shards) (names : query.names = .ok (sources, targets)) :
    ∃ rows, (∀ answer, graph.Answers codec query coordinator answer ↔ answer = .ok (.ofRows rows)) ∧
      ∃ edges : IdPairSet, List.Forall₂ (Names graph.registry) edges.toList rows ∧
        ∀ edge, edge ∈ edges ↔ OnBoundary graph g sources targets edge := by
  obtain ⟨-, rows, one, named⟩ := exists_outcome splits carries coordinator names
  refine ⟨rows, fun answer => ?_, named hc⟩
  rw [← splits.shardNum] at hc
  rw [answers_of_outcome hc one, ← resultOf_outputs hc]
  rfl

end Boundary

end ShardCut
