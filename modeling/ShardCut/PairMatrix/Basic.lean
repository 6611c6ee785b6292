import ShardCut.Name

/-!
The result of a query: a flat, row-major matrix of names with two columns, the source and the target
of an edge. The shape is kept beside the data, and reading a written matrix accepts any shape, so
the two agree for matrices built by `ofRows` and need not agree for others.

Main definitions: `PairMatrix`, `PairMatrix.ofRows`, `PairMatrix.rows`, `PairMatrix.WellFormed`.
Main results: `PairMatrix.rows_ofRows`, `PairMatrix.wellFormed_ofRows`.
-/

namespace ShardCut

/-- A matrix of names with its shape. -/
structure PairMatrix where
  data : List VertexName
  shape : Nat × Nat
deriving DecidableEq, Repr

namespace PairMatrix

def empty : PairMatrix := ⟨[], (0, 2)⟩

/-- The matrix with these rows, in their order. -/
def ofRows (rows : List (VertexName × VertexName)) : PairMatrix :=
  ⟨rows.flatMap fun (source, target) => [source, target], (rows.length, 2)⟩

/-- The number of rows that the shape tells. -/
def edgeCount (m : PairMatrix) : Nat := m.shape.1

def isEmpty (m : PairMatrix) : Bool := m.data.isEmpty

/-- The data in pairs; an odd last name belongs to no row. -/
def pairUp : List VertexName → List (VertexName × VertexName)
  | source :: target :: rest => (source, target) :: pairUp rest
  | _ => []

def rows (m : PairMatrix) : List (VertexName × VertexName) := pairUp m.data

/-- A matrix is well formed when its shape is `(n, 2)` and it holds `2 * n` names. -/
def WellFormed (m : PairMatrix) : Prop := m.shape.2 = 2 ∧ m.data.length = 2 * m.shape.1

instance (m : PairMatrix) : Decidable m.WellFormed :=
  inferInstanceAs (Decidable (m.shape.2 = 2 ∧ m.data.length = 2 * m.shape.1))

/-- The rows of a matrix are those that it was made of. -/
@[simp] theorem rows_ofRows (rows : List (VertexName × VertexName)) :
    (ofRows rows).rows = rows := by
  simp only [PairMatrix.rows, ofRows]
  induction rows with
  | nil => rfl
  | cons row rows ih => simp [pairUp, ih]

theorem wellFormed_ofRows (rows : List (VertexName × VertexName)) : (ofRows rows).WellFormed := by
  refine ⟨rfl, ?_⟩
  induction rows with
  | nil => rfl
  | cons row rows ih =>
    simp only [ofRows, List.flatMap_cons, List.length_append, List.length_cons] at ih ⊢
    simp only [ih, List.length_nil]
    omega

end PairMatrix

end ShardCut
