import ShardCut.Proofs.Boundary.Outcome

/-!
When a query is refused. Nothing but the coordinator and the two lists decides: a coordinator that
is no worker comes first, then the first list, then the second one unless it is absent or blank. No
other failure comes out of a graph that was split, whichever way the workers are interleaved.

Main definitions: `Query.refusal?`. Main results: `ShardedGraph.exists_answer_of_splits`,
`ShardedGraph.edgeBoundary_refused_iff`.
-/

namespace ShardCut

namespace Boundary

variable {query : Query} {shards coordinator : Nat} {failure : Failure}

/-- Why a query is refused, if it is. -/
def Query.refusal? (query : Query) (shards coordinator : Nat) : Option Failure :=
  if shards ≤ coordinator then
    some (.invalidSetting (.coordinatorOutOfRange coordinator shards))
  else
    match Json.parseNames query.sources with
    | .error fault => some (.malformedList fault)
    | .ok _ =>
      match query.targets? with
      | none => none
      | some text =>
        if Text.allBlank text.toList then none
        else
          match Json.parseNames text with
          | .error fault => some (.malformedList fault)
          | .ok _ => none

/-- With a coordinator among the workers only the decoding of the lists can fail. -/
theorem refusal?_eq (hc : coordinator < shards) :
    query.refusal? shards coordinator =
      match query.names with
      | .ok _ => none
      | .error failure => some failure := by
  unfold Query.refusal? Query.names parseNames
  rw [if_neg (Nat.not_le_of_lt hc), statedTargets?_eq]
  cases Json.parseNames query.sources with
  | error fault => rfl
  | ok sources =>
    cases query.targets? with
    | none => rfl
    | some text =>
      simp only
      split
      · rfl
      · cases ht : Json.parseNames text with
        | error fault =>
          simp only [ht]
          rfl
        | ok targets =>
          simp only [ht]
          rfl

theorem refusal?_eq_none {names : List VertexName × List VertexName} (hc : coordinator < shards)
    (decoded : query.names = .ok names) : query.refusal? shards coordinator = none := by
  rw [refusal?_eq hc, decoded]

theorem refusal?_eq_some (hc : coordinator < shards) (malformed : query.names = .error failure) :
    query.refusal? shards coordinator = some failure := by
  rw [refusal?_eq hc, malformed]

/-- The coordinator is looked at before the lists. -/
theorem refusal?_of_outOfRange (h : shards ≤ coordinator) :
    query.refusal? shards coordinator =
      some (.invalidSetting (.coordinatorOutOfRange coordinator shards)) := by
  rw [Query.refusal?, if_pos h]

/-- A query is refused for its coordinator or for one of its lists. -/
theorem cause_of_refusal? (h : query.refusal? shards coordinator = some failure) :
    failure = .invalidSetting (.coordinatorOutOfRange coordinator shards) ∨
      ∃ fault, failure = .malformedList fault := by
  by_cases hc : coordinator < shards
  · rw [refusal?_eq hc] at h
    cases hn : query.names with
    | ok names =>
      rw [hn] at h
      cases h
    | error failure' =>
      rw [hn] at h
      cases h
      exact .inr (malformed_of_names hn)
  · rw [refusal?_of_outOfRange (Nat.le_of_not_lt hc)] at h
    exact .inl (Option.some.inj h).symm

end Boundary

namespace ShardedGraph

variable {M : Type} {codec : Codec M IdPairs} {placement : Placement} {g : Digraph}
  {graph : ShardedGraph}

/-- The answer to a query of a graph that was split is the same in all interleavings. It is a
    failure just when the query is refused, and then it is that failure. -/
theorem exists_answer_of_splits {shards : Nat} (splits : graph.Splits g shards)
    (carries : codec.Carries g.edges.length) (query : Boundary.Query) (coordinator : Nat) :
    ∃ answer, (∀ other, graph.Answers codec query coordinator other ↔ other = answer) ∧
      ∀ failure, answer = .error failure ↔ query.refusal? shards coordinator = some failure := by
  by_cases hc : coordinator < shards
  · cases names : query.names with
    | ok lists =>
      obtain ⟨rows, one, -⟩ := Boundary.exists_answer splits carries hc names
      refine ⟨.ok (.ofRows rows), one, fun failure => ?_⟩
      rw [Boundary.refusal?_eq_none hc names]
      simp
    | error failure' =>
      refine ⟨.error failure', fun other => Boundary.answers_of_malformed splits carries hc names,
        fun failure => ?_⟩
      rw [Boundary.refusal?_eq_some hc names, Except.error.injEq, Option.some.injEq]
  · have outside : shards ≤ coordinator := Nat.le_of_not_lt hc
    refine ⟨_, fun other => Boundary.answers_of_outOfRange (splits.shardNum ▸ outside),
      fun failure => ?_⟩
    rw [Boundary.refusal?_of_outOfRange outside, splits.shardNum, Except.error.injEq,
      Option.some.injEq]

/-- A query of a graph that was split is refused for its coordinator, for its first list or for its
    second one, in this order, and otherwise it is answered. Neither an unknown id nor a lost peer
    nor an aborted worker is ever reported. If the coordinator is not checked, the workers return
    just the same, and one of them has a matrix if it is the coordinator. -/
theorem edgeBoundary_refused_iff (built : build placement g = .ok graph)
    (carries : codec.Carries g.edges.length) (query : Boundary.Query) (coordinator : Nat) :
    (∀ mesh, (graph.meshOf (Boundary.app codec query coordinator)).Reaches mesh → ¬mesh.Stuck) ∧
      (∃ answer, (∀ other, graph.Answers codec query coordinator other ↔ other = answer) ∧
        graph.edgeBoundary codec query coordinator = answer ∧
        (∀ failure, answer = .error failure ↔
          query.refusal? placement.shardNum coordinator = some failure) ∧
        (∀ id, answer ≠ .error (.unknownId id)) ∧
        (∀ worker fault, answer ≠ .error (.communication worker fault)) ∧
        ∀ worker, answer ≠ .error (.workerAborted worker)) ∧
      ∀ sources targets, query.Lists sources targets → ∃ outputs : List (Option PairMatrix),
        (∀ outcome, graph.Outcome (Boundary.app codec query coordinator) outcome ↔
          outcome = .ok outputs) ∧
        graph.runApp (Boundary.app codec query coordinator) = .ok outputs ∧
        outputs.length = placement.shardNum ∧
        ∀ i < placement.shardNum, ∃ output, outputs[i]? = some output ∧
          (output.isSome ↔ i = coordinator) := by
  have splits := splits_of_build built
  refine ⟨(Boundary.exists_verdict splits carries query coordinator).1, ?_,
    fun sources targets lists => ?_⟩
  · obtain ⟨answer, one, refused⟩ := exists_answer_of_splits splits carries query coordinator
    have cause (failure : Failure) (h : answer = .error failure) :=
      Boundary.cause_of_refusal? ((refused failure).mp h)
    refine ⟨answer, one, (one _).mp (graph.answers_edgeBoundary codec query coordinator), refused,
      fun id h => ?_, fun worker fault h => ?_, fun worker h => ?_⟩
    all_goals
      rcases cause _ h with own | ⟨fault', own⟩
      · cases own
      · cases own
  · obtain ⟨-, rows, one, -⟩ := Boundary.exists_outcome splits carries coordinator
      (Boundary.names_eq_ok_iff.mpr lists)
    refine ⟨_, one, (one _).mp (graph.outcome_runApp _), ?_, fun i hi => ?_⟩
    · rw [List.length_map, List.length_finRange]
      exact splits.shardNum
    · rw [← splits.shardNum] at hi
      refine ⟨Boundary.outputOf coordinator (.ofRows rows) i, ?_, ?_⟩
      · simp [show i < graph.shards.length from hi]
      · unfold Boundary.outputOf
        split
        · next same => simp [same]
        · next other => simp [other]

/-- The second list holds something else than names, and there is no third worker. The edges travel
    as bytes. -/
theorem edgeBoundary_refused_iff_two_shards :
    let g : Digraph := ⟨[.number 1], []⟩
    let query : Boundary.Query := ⟨"[1]", some "[true]"⟩
    Codec.edges.Carries g.edges.length ∧ ∃ graph, build (.hashed 2) g = .ok graph ∧
      graph.edgeBoundary .edges query 0 = .error (.malformedList .notAName) ∧
      graph.edgeBoundary .edges query 2 =
        .error (.invalidSetting (.coordinatorOutOfRange 2 2)) := by
  intro g query
  have carries : Codec.edges.Carries g.edges.length := Codec.carries_edges (by decide)
  obtain ⟨graph, built⟩ := exists_build (p := .hashed 2) (g := g)
    (by decide) (by decide) (by decide)
  obtain ⟨-, ⟨answer, -, rfl, refused, -⟩, -⟩ := edgeBoundary_refused_iff built carries query 0
  obtain ⟨-, ⟨answer, -, rfl, refused', -⟩, -⟩ := edgeBoundary_refused_iff built carries query 2
  exact ⟨carries, graph, built, (refused _).mpr (by decide +kernel),
    (refused' _).mpr (by decide +kernel)⟩

end ShardedGraph

end ShardCut
