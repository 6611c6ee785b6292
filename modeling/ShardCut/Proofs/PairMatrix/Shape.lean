import ShardCut.Proofs.Boundary.Correct
import ShardCut.Proofs.PairMatrix.Json
import ShardCut.Proofs.Workers.Outputs

/-!
When the shape of a matrix tells the truth. The rows of a matrix are the pairs of its data, and the
shape has no part in them. Every matrix that is made of rows has the shape of its data, and so has
every one that comes out of a query, in any interleaving. A matrix that was read need not: its shape
is only held against the range of a word, so a text can state any shape for any data.

Main definitions: `Consistent`, `Computed`. Main results: `consistent_iff_wellFormed`,
`exists_parseJson_iff`, `consistent_iff_computed`, `consistent_fails_for_read`.
-/

namespace ShardCut

namespace PairMatrix

open ShardCut.Json

variable {m : PairMatrix}

/-! ### Rows and data -/

/-- The names of some rows, source before target, row after row. -/
def namesIn (rows : List (VertexName × VertexName)) : List VertexName :=
  rows.flatMap fun (source, target) => [source, target]

theorem length_pairUp : ∀ data : List VertexName, (pairUp data).length = data.length / 2
  | [] => rfl
  | [_] => by simp [pairUp]
  | source :: target :: rest => by
    simp only [pairUp, List.length_cons, length_pairUp rest]
    omega

/-- The rows hold the data up to an odd last name. -/
theorem namesIn_pairUp : ∀ data : List VertexName,
    namesIn (pairUp data) = data.take (2 * (data.length / 2))
  | [] => rfl
  | [_] => by simp [pairUp, namesIn]
  | source :: target :: rest => by
    have half : (source :: target :: rest).length / 2 = rest.length / 2 + 1 := by
      simp only [List.length_cons]
      omega
    rw [half, Nat.mul_succ, List.take_succ_cons, List.take_succ_cons, ← namesIn_pairUp rest]
    rfl

/-- What a matrix tells of itself agrees: its shape is `(n, 2)` and it holds `2 * n` names, so its
    rows are `n` pairs that cover the data, and it is empty if it has no rows. -/
structure Consistent (m : PairMatrix) : Prop where
  wellFormed : m.WellFormed
  rows_length : m.rows.length = m.edgeCount
  rows_cover : namesIn m.rows = m.data
  isEmpty_iff : m.isEmpty = true ↔ m.edgeCount = 0

/-- A matrix with the shape of its data is consistent. -/
theorem WellFormed.consistent (h : m.WellFormed) : m.Consistent where
  wellFormed := h
  rows_length := by
    rw [rows, length_pairUp, h.2, edgeCount]
    omega
  rows_cover := by
    rw [rows, namesIn_pairUp, h.2, Nat.mul_div_cancel_left _ Nat.two_pos]
    exact List.take_of_length_le (Nat.le_of_eq h.2)
  isEmpty_iff := by
    rw [isEmpty, List.isEmpty_iff_length_eq_zero, h.2, edgeCount]
    omega

/-- The consistent matrices are those with the shape of their data. -/
theorem consistent_iff_wellFormed : m.Consistent ↔ m.WellFormed :=
  ⟨Consistent.wellFormed, WellFormed.consistent⟩

/-- The consistent matrices are those that are made of their rows. -/
theorem consistent_iff_eq_ofRows : m.Consistent ↔ m = ofRows m.rows := by
  constructor
  · intro h
    calc m = ⟨m.data, m.edgeCount, m.shape.2⟩ := rfl
      _ = ⟨namesIn m.rows, m.rows.length, 2⟩ := by
        rw [h.rows_cover, h.rows_length, h.wellFormed.1]
      _ = ofRows m.rows := rfl
  · intro h
    rw [h]
    exact (wellFormed_ofRows m.rows).consistent

/-! ### Counts that are read -/

variable {s rest : List Char} {n depth fuel : Nat}

theorem eq_of_count? {number : Number} (h : count? number = .ok n) : number = .integer n := by
  cases number with
  | integer value =>
    rw [count?] at h
    split at h
    · next positive =>
      cases h
      rw [Int.toNat_of_nonneg positive]
    · cases h
  | decimal negative magnitude => cases h

/-- A number that is taken for a count fits a word. -/
theorem lt_of_counted {negative : Bool}
    (h : (do
      let (number, s) ← readNumber negative s
      let n ← count? number
      .ok (n, s)) = (.ok (n, rest) : Except Fault (Nat × List Char))) : n < UInt64.size := by
  obtain ⟨⟨number, t⟩, read, h⟩ := bind_eq_ok h
  obtain ⟨n', counted, same⟩ := bind_eq_ok h
  cases same
  rw [eq_of_count? counted] at read
  exact Int.ofNat_lt.mp (lt_of_readNumber read)

theorem lt_of_readCount (h : readCount s = .ok (n, rest)) : n < UInt64.size := by
  unfold readCount at h
  split at h
  · cases h
  · split at h
    · exact lt_of_counted h
    · split at h
      · exact lt_of_counted h
      · exact (wrongType_ne_ok h).elim

/-- Both elements of an array of two were read. -/
theorem exists_reads_of_readTwo {α β : Type} {expected : Expected} {one : Reader α}
    {two : Reader β} {x : α} {y : β} (h : readTwo expected one two s = .ok ((x, y), rest)) :
    (∃ t t', one t = .ok (x, t')) ∧ ∃ t t', two t = .ok (y, t') := by
  obtain ⟨next, -, h⟩ := bind_eq_ok h
  cases next with
  | closed => cases h
  | entry t =>
    obtain ⟨⟨x', t'⟩, readsOne, h⟩ := bind_eq_ok h
    obtain ⟨next, -, h⟩ := bind_eq_ok h
    cases next with
    | closed => cases h
    | entry u =>
      obtain ⟨⟨y', u'⟩, readsTwo, h⟩ := bind_eq_ok h
      obtain ⟨⟨⟨⟩, v⟩, -, same⟩ := bind_eq_ok h
      cases same
      exact ⟨⟨t, t', readsOne⟩, u, u', readsTwo⟩

/-- The counts of a shape fit a word. -/
def CountsFit (shape : Nat × Nat) : Prop := shape.1 < UInt64.size ∧ shape.2 < UInt64.size

/-- Both counts of a shape that is read fit a word. -/
theorem countsFit_of_readShape {shape : Nat × Nat} (h : readShape depth s = .ok (shape, rest)) :
    CountsFit shape := by
  unfold readShape at h
  split at h
  · cases h
  · split_ifs at h
    · obtain ⟨⟨t, t', first⟩, u, u', second⟩ := exists_reads_of_readTwo h
      exact ⟨lt_of_readCount first, lt_of_readCount second⟩
    · exact (wrongType_ne_ok h).elim

variable {data? : Option (List VertexName)} {shape? : Option (Nat × Nat)}

theorem shape_of_ofFields (h : ofFields data? shape? = .ok m) : m.shape ∈ shape? := by
  cases data? with
  | none => cases h
  | some data =>
    cases shape? with
    | none => cases h
    | some shape =>
      cases h
      rfl

/-- The shape that comes out of reading members is one that was read. -/
theorem countsFit_of_readFields {first : Bool}
    (h : readFields depth fuel first data? shape? s = .ok (m, rest))
    (stated : ∀ shape ∈ shape?, CountsFit shape) : CountsFit m.shape := by
  induction fuel generalizing first data? shape? s with
  | zero => cases h
  | succ fuel ih =>
    obtain ⟨next, -, h⟩ := bind_eq_ok h
    cases next with
    | closed t =>
      obtain ⟨m', fields, same⟩ := bind_eq_ok h
      cases same
      exact stated m.shape (shape_of_ofFields fields)
    | entry t =>
      obtain ⟨⟨key, t⟩, -, h⟩ := bind_eq_ok h
      dsimp only at h
      -- Of the data, the shape and an unknown field only the shape brings counts in.
      split_ifs at h
      · obtain ⟨⟨⟨⟩, t⟩, -, h⟩ := bind_eq_ok h
        obtain ⟨⟨names, t⟩, -, h⟩ := bind_eq_ok h
        exact ih h stated
      · obtain ⟨⟨⟨⟩, t⟩, -, h⟩ := bind_eq_ok h
        obtain ⟨⟨shape, t⟩, read, h⟩ := bind_eq_ok h
        refine ih h fun shape' same => ?_
        obtain rfl := Option.some.inj same
        exact countsFit_of_readShape read
      · obtain ⟨⟨⟨⟩, t⟩, -, h⟩ := bind_eq_ok h
        obtain ⟨t, -, h⟩ := bind_eq_ok h
        exact ih h stated

/-- Both counts of a matrix that is read fit a word. -/
theorem countsFit_of_readMatrix (h : readMatrix depth s = .ok (m, rest)) : CountsFit m.shape := by
  unfold readMatrix at h
  split at h
  · cases h
  · split_ifs at h
    · cases depth with
      | zero => cases h
      | succ depth =>
        obtain ⟨⟨⟨data, shape⟩, t⟩, read, same⟩ := bind_eq_ok h
        cases same
        obtain ⟨-, u, u', second⟩ := exists_reads_of_readTwo read
        exact countsFit_of_readShape second
    · cases depth with
      | zero => cases h
      | succ depth => exact countsFit_of_readFields h nofun
    · exact (wrongType_ne_ok h).elim

/-- Whatever data it holds, a matrix can be read from some text exactly if its counts fit a word. -/
theorem exists_parseJson_iff : (∃ text, parseJson text = .ok m) ↔ CountsFit m.shape := by
  constructor
  · intro given
    obtain ⟨text, given⟩ := given
    obtain ⟨⟨m', behind⟩, read, accepted⟩ := bind_eq_ok given
    dsimp only at accepted
    split_ifs at accepted
    cases accepted
    exact countsFit_of_readMatrix read
  · intro fit
    exact ⟨_, parseJson_toJson fit.1 fit.2⟩

end PairMatrix

/-! ### Matrices that are computed -/

namespace Boundary

variable {shard : Shard} {edges : IdPairSet} {matrix : PairMatrix}

theorem wellFormed_of_encode (h : encode shard edges = .ok matrix) : matrix.WellFormed := by
  unfold encode at h
  cases named : edges.toList.mapM (rowOf shard) with
  | error failure =>
    rw [named] at h
    cases h
  | ok rows =>
    rw [named] at h
    cases h
    exact PairMatrix.wellFormed_ofRows rows

variable {M : Type} {codec : Codec M IdPairs} {graph : ShardedGraph} {query : Query}
  {coordinator : Nat}

/-- The only matrix that a worker can return is the one that it has encoded. -/
theorem returns_worker {n : Nat} (self : Fin n) (shard : Shard) :
    (worker codec query coordinator self shard).Returns
      fun output => ∀ matrix, output = some matrix → matrix.WellFormed := by
  refine Program.returns_bind _ fun own => ?_
  refine Program.returns_bind _ fun merged? => ?_
  refine Program.returns_ofExcept fun output encoded matrix same => ?_
  subst same
  cases merged? with
  | none => cases encoded
  | some edges =>
    rw [encodeMerged] at encoded
    cases encodes : encode shard edges with
    | error failure =>
      rw [encodes] at encoded
      cases encoded
    | ok matrix' =>
      rw [encodes] at encoded
      cases encoded
      exact wellFormed_of_encode encodes

/-- Every matrix among the outputs of the workers has the shape of its data. -/
theorem wellFormed_of_outcome {outputs : List (Option PairMatrix)}
    (run : graph.Outcome (app codec query coordinator) (.ok outputs))
    (mem : some matrix ∈ outputs) : matrix.WellFormed := by
  have returns (i : Fin graph.shards.length) :
      ((app codec query coordinator).program i (graph.shards.get i)).Returns
        fun output => ∀ matrix, output = some matrix → matrix.WellFormed := by
    rw [program_eq_worker]
    exact returns_worker i (graph.shards.get i)
  exact run.of_returns returns (some matrix) mem matrix rfl

/-- Every answer that is a matrix has the shape of its data. -/
theorem wellFormed_of_answers {answer : Except Failure PairMatrix}
    (h : graph.Answers codec query coordinator answer) (answered : answer = .ok matrix) :
    matrix.WellFormed := by
  cases h with
  | refused => cases answered
  | @ran outcome _ run =>
    cases outcome with
    | error failure => cases answered
    | ok outputs =>
      change resultOf coordinator outputs = _ at answered
      unfold resultOf at answered
      split at answered
      · next found =>
        cases answered
        exact wellFormed_of_outcome run (List.mem_of_getElem? found)
      · cases answered

end Boundary

namespace PairMatrix

open ShardCut.Json

/-- The matrices that are not read from a text: the one without rows, those that are made of rows or
    encode a set of edges, the outputs of the workers of a query, and its answers. The graph can be
    any, the edges travel in any way, and the workers run in any interleaving. -/
inductive Computed : PairMatrix → Prop where
  | empty : Computed .empty
  | ofRows (rows : List (VertexName × VertexName)) : Computed (.ofRows rows)
  | encoded {shard : Shard} {edges : IdPairSet} {m : PairMatrix}
      (h : Boundary.encode shard edges = .ok m) : Computed m
  | output {M : Type} {codec : Codec M IdPairs} {graph : ShardedGraph} {query : Boundary.Query}
      {coordinator : Nat} {outputs : List (Option PairMatrix)} {m : PairMatrix}
      (run : graph.Outcome (Boundary.app codec query coordinator) (.ok outputs))
      (mem : some m ∈ outputs) : Computed m
  | answer {M : Type} {codec : Codec M IdPairs} {graph : ShardedGraph} {query : Boundary.Query}
      {coordinator : Nat} {m : PairMatrix}
      (h : graph.Answers codec query coordinator (.ok m)) : Computed m

/-- Matrices that are computed have the shape of their data. -/
theorem Computed.wellFormed {m : PairMatrix} (h : m.Computed) : m.WellFormed := by
  cases h with
  | empty => exact wellFormed_ofRows []
  | ofRows rows => exact wellFormed_ofRows rows
  | encoded h => exact Boundary.wellFormed_of_encode h
  | output run mem => exact Boundary.wellFormed_of_outcome run mem
  | answer h => exact Boundary.wellFormed_of_answers h rfl

/-- The computed matrices are the consistent ones, and those are the ones with the shape of their
    data. But a matrix can be read from some text as soon as its counts fit a word, consistent or
    not. The rows are the pairs of the data in any case. -/
theorem consistent_iff_computed (m : PairMatrix) :
    (m.Consistent ↔ m.Computed) ∧
      (m.Consistent ↔ m.shape.2 = 2 ∧ m.data.length = 2 * m.shape.1) ∧
      ((∃ text, parseJson text = .ok m) ↔ m.shape.1 < UInt64.size ∧ m.shape.2 < UInt64.size) ∧
      m.rows.length = m.data.length / 2 ∧
      namesIn m.rows = m.data.take (2 * (m.data.length / 2)) := by
  refine ⟨⟨fun h => ?_, fun h => h.wellFormed.consistent⟩, consistent_iff_wellFormed,
    exists_parseJson_iff, length_pairUp m.data, namesIn_pairUp m.data⟩
  rw [consistent_iff_eq_ofRows.mp h]
  exact .ofRows m.rows

/-- The answer to a query of two shards: it has a row, and its shape counts it. -/
theorem consistent_iff_computed_two_shards :
    ∃ graph, ShardedGraph.build (.hashed 2) ⟨[], [(.number 1, .text "a")]⟩ = .ok graph ∧
      ∃ m, graph.Answers .edges ⟨"[1]", none⟩ 1 (.ok m) ∧ (.number 1, .text "a") ∈ m.rows ∧
        m.Consistent ∧ m.shape.2 = 2 ∧ m.data.length = 2 * m.shape.1 := by
  obtain ⟨graph, built⟩ := ShardedGraph.exists_build (p := .hashed 2)
    (g := ⟨[], [(.number 1, .text "a")]⟩) (by decide) (by decide) (by decide)
  have lists : Boundary.Query.Lists ⟨"[1]", none⟩ [.number 1] [] :=
    Boundary.names_eq_ok_iff.mp (by decide +kernel)
  have valid : 1 < (Placement.hashed 2).shardNum := by decide
  obtain ⟨rows, one, listed, -⟩ :=
    ShardedGraph.exists_rows_of_build built (Codec.carries_edges (by decide)) valid lists
  have answers := (one _).mpr rfl
  have crossing : (.number 1, .text "a") ∈ (PairMatrix.ofRows rows).rows := by
    rw [rows_ofRows, listed]
    decide
  obtain ⟨computed, shaped, -⟩ := consistent_iff_computed (.ofRows rows)
  have consistent := computed.mpr (.answer answers)
  exact ⟨graph, built, _, answers, crossing, consistent, shaped.mp consistent⟩

/-- A text can state rows and columns for no data, and no rows for data. -/
theorem consistent_fails_for_read :
    (∃ m, parseJson "\x7b\"data\":[],\"shape\":[3,5]\x7d" = .ok m ∧ ¬m.Consistent ∧
      m.shape.2 ≠ 2 ∧ m.data.length ≠ 2 * m.shape.1 ∧ m.rows.length ≠ m.edgeCount ∧
      m.isEmpty = true ∧ m.edgeCount ≠ 0) ∧
    ∃ m, parseJson "\x7b\"data\":[7],\"shape\":[0,2]\x7d" = .ok m ∧ ¬m.Consistent ∧
      namesIn m.rows ≠ m.data ∧ m.isEmpty = false ∧ m.edgeCount = 0 := by
  refine ⟨⟨⟨[], (3, 5)⟩, by decide +kernel, fun h => ?_, by decide⟩,
    ⟨[.number 7], (0, 2)⟩, by decide +kernel, fun h => ?_, by decide⟩
  · exact absurd h.wellFormed (by decide)
  · exact absurd h.wellFormed (by decide)

end PairMatrix

end ShardCut
