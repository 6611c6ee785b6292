import Mathlib.Data.List.Perm.Subperm
import ShardCut.Proofs.Boundary.Correct
import ShardCut.Proofs.Cli.Settings
import ShardCut.Proofs.Digraph.Lines
import ShardCut.Proofs.PairMatrix.Json

/-!
What a run prints. With settings and a graph that could be split, the lists decide: if both are
decoded, the run prints the boundary of the graph that the lines of its file state, in a form that
is read back as this boundary; if one of them is not, nothing is printed. Over how many shards the
graph was split, and which of the workers coordinates, shows in the order of the rows only.

Main results: `valid_of_settingsOf`, `run_eq`, `run_answers`.
-/

namespace ShardCut

namespace Cli

variable {M : Type} {codec : Codec M IdPairs} {options : Options} {file? : Option String}
  {settings : Settings} {bytes : List UInt8} {g : Digraph} {graph : ShardedGraph}
  {sources targets : List VertexName} {failure : Failure}

theorem valid_of_validate {settings' : Settings} (h : settings.validate = .ok settings') :
    settings'.Valid := by
  by_cases valid : settings.Valid
  · rw [Settings.validate_of_valid valid] at h
    obtain rfl := Except.ok.inj h
    exact valid
  · rcases Settings.validate_of_not_valid valid with ⟨fault, refused⟩
    rw [refused] at h
    cases h

/-- The settings of a run are valid, wherever they come from. -/
theorem valid_of_settingsOf (h : settingsOf options file? = .ok settings) : settings.Valid := by
  cases file? with
  | none => exact valid_of_validate h
  | some text =>
    cases hf : Settings.ofFile text with
    | error failure =>
      rw [settingsOf, hf] at h
      cases h
    | ok base =>
      rw [settingsOf, hf] at h
      exact valid_of_validate h

/-- With a graph that could be split, the query decides about the answer. -/
theorem answer_eq (accepted : Digraph.read bytes = .ok g)
    (built : ShardedGraph.build (.hashed settings.shards) g = .ok graph) :
    answer codec options settings bytes =
      (graph.edgeBoundary codec (queryOf options) settings.coordinator).map
        fun matrix => matrix.toJson ++ "\n" := by
  have split : ShardedGraph.ofFile bytes settings.shards = .ok graph := by
    rw [ShardedGraph.ofFile, accepted]
    exact built
  rw [answer, split]
  change (graph.edgeBoundary codec (queryOf options) settings.coordinator >>= _) = _
  cases graph.edgeBoundary codec (queryOf options) settings.coordinator <;> rfl

/-- What a run ends with once its settings are found and its graph file is. -/
theorem run_eq {m : Type → Type} [Monad m] [LawfulMonad m] {manual : Manual} {files : Files m}
    {args : List String} (understood : Request.ofArgs? args = some (.answer options))
    (configured : readSettings files options = pure (.ok file?))
    (settled : settingsOf options file? = .ok settings)
    (located : readGraph files options = pure (.ok bytes)) :
    run manual codec files args = pure (outcomeOf (answer codec options settings bytes)) := by
  have settle : (Except.ok file? >>= settingsOf options) = .ok settings := settled
  rw [run, understood]
  change runOptions codec files options = _
  rw [runOptions, configured, pure_bind, settle]
  change (readGraph files options >>= _) = _
  rw [located, pure_bind]
  rfl

/-- A boundary has no more rows than the graph has edges. -/
theorem length_le_of_boundary {rows : List (VertexName × VertexName)} (nodup : rows.Nodup)
    (listed : ∀ row, row ∈ rows ↔ row ∈ g.boundary sources targets) :
    rows.length ≤ g.edges.length := by
  have subset : rows ⊆ g.edges := by
    intro row hrow
    exact (Digraph.mem_boundary.mp ((listed row).mp hrow)).1
  exact (List.Nodup.subperm nodup subset).length_le

/-- A run with settings and with a graph file that is accepted and can be split prints the boundary
    of the graph that the lines of the file state, if its texts list names. Every edge of the
    boundary is one row, and the settings make no difference to the rows. The line is read back as
    the matrix that was printed, as long as the edges of the file can be counted in a word, which
    those of a list in memory can. If the texts list no names, the run prints nothing and fails for
    this reason. -/
theorem run_answers {m : Type → Type} [Monad m] [LawfulMonad m] (manual : Manual) (files : Files m)
    {args : List String} (understood : Request.ofArgs? args = some (.answer options))
    (configured : readSettings files options = pure (.ok file?))
    (settled : settingsOf options file? = .ok settings)
    (located : readGraph files options = pure (.ok bytes))
    (accepted : Digraph.read bytes = .ok g)
    (built : ShardedGraph.build (.hashed settings.shards) g = .ok graph)
    (carries : codec.Carries (Digraph.stated bytes).edges.length) :
    (∀ sources targets, (queryOf options).Lists sources targets →
      ∃ matrix : PairMatrix,
        run manual codec files args = pure ⟨0, matrix.toJson ++ "\n"⟩ ∧
        (∀ answer, graph.Answers codec (queryOf options) settings.coordinator answer ↔
          answer = .ok matrix) ∧
        (∀ row, row ∈ matrix.rows ↔ row ∈ (Digraph.stated bytes).edges ∧
          (Digraph.stated bytes).OnBoundary sources targets row) ∧
        matrix.rows.Nodup ∧ matrix.WellFormed ∧ matrix.shape = (matrix.rows.length, 2) ∧
        ((Digraph.stated bytes).edges.length < UInt64.size →
          PairMatrix.parseJson (matrix.toJson ++ "\n") = .ok matrix)) ∧
      ((∀ sources targets, ¬(queryOf options).Lists sources targets) →
        ∃ fault, answer codec options settings bytes = .error (.malformedList fault) ∧
          run manual codec files args = pure ⟨1, ""⟩) := by
  have valid := valid_of_settingsOf settled
  have splits := ShardedGraph.splits_of_build built
  have answered : answer codec options settings bytes = _ := answer_eq accepted built
  have ran : run manual codec files args = _ := run_eq understood configured settled located
  obtain rfl := Digraph.eq_stated_of_read accepted
  constructor
  · intro sources targets lists
    obtain ⟨rows, one, listed, edges, each⟩ :=
      ShardedGraph.exists_rows_of_build built carries valid.2 lists
    have nodup : rows.Nodup :=
      Boundary.nodup_rows splits.coherent splits.fits each (Boundary.nodup_toList edges)
    rw [(one _).mp (graph.answers_edgeBoundary _ _ _)] at answered
    refine ⟨.ofRows rows, ?_, one, fun row => ?_, ?_, PairMatrix.wellFormed_ofRows rows, ?_,
      fun countable => ?_⟩
    · rw [ran, answered]
      rfl
    · rw [PairMatrix.rows_ofRows, listed, Digraph.mem_boundary]
    · rwa [PairMatrix.rows_ofRows]
    · rw [PairMatrix.rows_ofRows]
      rfl
    · apply PairMatrix.parseJson_toJson
      · exact Nat.lt_of_le_of_lt (length_le_of_boundary nodup listed) countable
      · exact (by decide : 2 < UInt64.size)
  · intro none
    obtain ⟨fault, malformed⟩ := Boundary.malformed_of_no_lists none
    have refused := (Boundary.answers_of_malformed splits carries valid.2 malformed).mp
      (graph.answers_edgeBoundary codec (queryOf options) settings.coordinator)
    rw [refused] at answered
    refine ⟨fault, answered, ?_⟩
    rw [ran, answered]
    rfl

/-- Five lines, of which the second one states an edge between a number with a sign and a text with
    a quote in it. The default settings are used, and the edges travel as bytes. The second list
    picks one of the two edges in the first run and is not decoded in the second one. -/
theorem run_answers_default :
    let file := "v 7\ne +1 a\"b tail\n# e 1 2\n\ne 1 7"
    let files : Files Id := fun path =>
      if path = "data/example.graph" then some file.toUTF8.toList else none
    let run := run ⟨"help", "version"⟩ .edges files
    ∃ matrix : PairMatrix, matrix.rows = [(.number 1, .text "a\"b")] ∧
      run ["--nbunch1", "[1, 5]", "--nbunch2=[\"a\\\"b\"]"] = ⟨0, matrix.toJson ++ "\n"⟩ ∧
      PairMatrix.parseJson (matrix.toJson ++ "\n") = .ok matrix ∧
      run ["--nbunch1", "[1, 5]", "--nbunch2", "[1.5]"] = ⟨1, ""⟩ := by
  intro file files run
  let bytes := file.toUTF8.toList
  let g : Digraph := ⟨[.number 7], [(.number 1, .text "a\"b"), (.number 1, .number 7)]⟩
  have accepted : Digraph.read bytes = .ok g := by
    rw [← toOption_eq_some_iff]
    decide +kernel
  obtain ⟨graph, built⟩ := ShardedGraph.exists_build (p := .hashed Settings.default.shards) (g := g)
    (by decide) (by decide) (by decide)
  have stated := Digraph.eq_stated_of_read accepted
  have carries : Codec.edges.Carries (Digraph.stated bytes).edges.length := by
    rw [← stated]
    exact Codec.carries_edges (by decide)
  -- The two command lines differ in the second list only.
  have answers (args : List String) (targets : String)
      (understood : Request.ofArgs? args =
        some (.answer ⟨"example", "[1, 5]", some targets, none, none, none⟩)) :=
    run_answers ⟨"help", "version"⟩ files understood rfl rfl rfl accepted built carries
  have listed := (answers ["--nbunch1", "[1, 5]", "--nbunch2=[\"a\\\"b\"]"] "[\"a\\\"b\"]"
    (by decide +kernel)).1 [.number 1, .number 5] [.text "a\"b"]
    (Boundary.names_eq_ok_iff.mp (by decide +kernel))
  have unlisted (sources targets : List VertexName) :
      ¬Boundary.Query.Lists ⟨"[1, 5]", some "[1.5]"⟩ sources targets := by
    intro lists
    have malformed : Boundary.Query.names ⟨"[1, 5]", some "[1.5]"⟩ =
      .error (.malformedList .notAName) := by decide +kernel
    cases malformed.symm.trans (Boundary.names_eq_ok_iff.mpr lists)
  obtain ⟨fault, -, refused⟩ :=
    (answers ["--nbunch1", "[1, 5]", "--nbunch2", "[1.5]"] "[1.5]" (by decide +kernel)).2 unlisted
  obtain ⟨matrix, printed, -, rows, nodup, -, -, readBack⟩ := listed
  rw [← stated] at rows readBack
  refine ⟨matrix, ?_, printed, readBack (by decide), refused⟩
  apply List.perm_singleton.mp
  rw [List.perm_ext_iff_of_nodup nodup (List.nodup_singleton _)]
  intro row
  rw [rows, ← Digraph.mem_boundary]
  have boundary : g.boundary [.number 1, .number 5] [.text "a\"b"] =
    [(.number 1, .text "a\"b")] := by decide
  rw [boundary]

end Cli

end ShardCut
