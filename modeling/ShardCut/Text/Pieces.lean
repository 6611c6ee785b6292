/-!
Cutting a sequence at its separators. `pieces isSeparator s` are the runs between separators, so a
sequence with `n` separators has `n + 1` pieces, some of them empty. `lines` and `words` are the two
cuts of this library: a file into lines, and a line into tokens.

Main definitions: `pieces`, `lines`.
-/

namespace ShardCut.Text

variable {α : Type}

/-- Puts one more element in front of a cut sequence: a separator starts a new piece, anything else
    joins the first one. The pair holds the first piece and the later ones. -/
def cutStep (isSeparator : α → Bool) (a : α) : List α × List (List α) → List α × List (List α)
  | (first, later) => if isSeparator a then ([], first :: later) else (a :: first, later)

/-- The runs between separators, in order, empty ones included. -/
def pieces (isSeparator : α → Bool) (s : List α) : List (List α) :=
  let cut := s.foldr (cutStep isSeparator) ([], [])
  cut.1 :: cut.2

/-- A separator begins a new piece. -/
theorem pieces_cons_of_separator {p : α → Bool} {a : α} (h : p a = true) (s : List α) :
    pieces p (a :: s) = [] :: pieces p s := by
  simp [pieces, cutStep, h]

/-- An item that is no separator belongs to the piece that is there. -/
theorem pieces_cons_of_not_separator {p : α → Bool} {a : α} (h : p a = false) (s : List α) :
    ∃ q qs, pieces p s = q :: qs ∧ pieces p (a :: s) = (a :: q) :: qs := by
  exact ⟨_, _, rfl, by simp [pieces, cutStep, h]⟩

/-- The lines of a byte sequence: the runs between line feeds. What follows the last line feed is a
    line only if it is not empty, so a file may or may not end in a line feed. -/
def lines (bytes : List UInt8) : List (List UInt8) :=
  let cut := pieces (· == 0x0A) bytes
  if cut.getLast? = some [] then cut.dropLast else cut

end ShardCut.Text
