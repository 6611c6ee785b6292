import ShardCut.Text.Blank

/-!
Lines and words, from the front. What stands before the first separator is the first piece, and the
rest is cut for itself. So a file has one way to be cut into lines, in which no line holds a line
feed and only the last one may lack it.

Main definitions: `Cut`. Main results: `pieces_eq_splitOnP`, `cut_lines`, `words_eq`.
-/

namespace ShardCut

namespace Text

variable {α : Type} {isSeparator : α → Bool} {front : List α} {separator : α}

/-- The pieces of a sequence are those that the library splits it into. -/
theorem pieces_eq_splitOnP (isSeparator : α → Bool) (s : List α) :
    pieces isSeparator s = s.splitOnP isSeparator := by
  induction s with
  | nil => exact List.splitOnP_nil.symm
  | cons a s ih =>
    rw [List.splitOnP_cons_eq_if_modifyHead, ← ih]
    cases h : isSeparator a with
    | true => exact pieces_cons_of_separator h s
    | false =>
      obtain ⟨piece, later, cut, joined⟩ := pieces_cons_of_not_separator h s
      rw [joined, cut]
      rfl

theorem pieces_of_no_separator (free : ∀ a ∈ front, isSeparator a = false) :
    pieces isSeparator front = [front] := by
  rw [pieces_eq_splitOnP, List.splitOnP_eq_singleton free]

/-- A separator ends the piece in front of it. -/
theorem pieces_append (free : ∀ a ∈ front, isSeparator a = false)
    (separates : isSeparator separator = true) (rest : List α) :
    pieces isSeparator (front ++ separator :: rest) = front :: pieces isSeparator rest := by
  simp only [pieces_eq_splitOnP]
  rw [List.splitOnP_append_cons front rest separates, List.splitOnP_eq_singleton free]
  rfl

theorem pieces_ne_nil (s : List α) : pieces isSeparator s ≠ [] := List.cons_ne_nil _ _

/-! ### Lines -/

def lineFeed : UInt8 := 0x0A

/-- How a file is cut into lines: each ends at its line feed, and the last one may lack it. -/
inductive Cut : List UInt8 → List (List UInt8) → Prop where
  | done : Cut [] []
  | last {line : List UInt8} (whole : lineFeed ∉ line) (some_byte : line ≠ []) : Cut line [line]
  | line {line rest : List UInt8} {later : List (List UInt8)} (whole : lineFeed ∉ line)
      (cut : Cut rest later) : Cut (line ++ lineFeed :: rest) (line :: later)

variable {line bytes : List UInt8} {cut : List (List UInt8)}

theorem not_isLineFeed (whole : lineFeed ∉ line) : ∀ b ∈ line, (b == 0x0A) = false := by
  intro b hb
  rw [beq_eq_false_iff_ne]
  rintro rfl
  exact whole hb

theorem lines_of_whole (whole : lineFeed ∉ line) (some_byte : line ≠ []) : lines line = [line] := by
  have other : [line].getLast? ≠ some [] := by simpa using some_byte
  simp only [lines, pieces_of_no_separator (not_isLineFeed whole), if_neg other]

/-- A line feed ends the line in front of it. -/
theorem lines_append (whole : lineFeed ∉ line) (rest : List UInt8) :
    lines (line ++ lineFeed :: rest) = line :: lines rest := by
  have more : pieces (· == 0x0A) rest ≠ [] := pieces_ne_nil rest
  have cut : pieces (· == 0x0A) (line ++ lineFeed :: rest) = line :: pieces (· == 0x0A) rest :=
    pieces_append (not_isLineFeed whole) rfl rest
  simp only [lines, cut, List.getLast?_cons_of_ne_nil more, List.dropLast_cons_of_ne_nil more]
  split <;> rfl

/-- There is one way only to cut bytes into lines. -/
theorem Cut.eq_lines (h : Cut bytes cut) : cut = lines bytes := by
  induction h with
  | done => rfl
  | last whole some_byte => exact (lines_of_whole whole some_byte).symm
  | line whole _ ih => rw [lines_append whole, ih]

/-- Every file can be cut into lines. -/
theorem cut_lines (bytes : List UInt8) : Cut bytes (lines bytes) := by
  -- The induction is on the size of the file, since what is left after a line is shorter.
  induction hn : bytes.length using Nat.strongRecOn generalizing bytes with
  | _ n ih =>
    by_cases hbreak : lineFeed ∈ bytes
    · obtain ⟨line, rest, rfl, whole⟩ := List.eq_append_cons_of_mem hbreak
      rw [lines_append whole]
      refine .line whole (ih rest.length ?_ rest rfl)
      rw [← hn, List.length_append, List.length_cons]
      omega
    · by_cases hsome : bytes = []
      · rw [hsome]
        exact .done
      · rw [lines_of_whole hbreak hsome]
        exact .last hbreak hsome

/-- A file without its last, empty line states what it states with it. -/
theorem filterMap_lines {β : Type} (f : List UInt8 → Option β) (nothing : f [] = none)
    (bytes : List UInt8) :
    (lines bytes).filterMap f = (bytes.splitOn lineFeed).filterMap f := by
  have cut : pieces (· == 0x0A) bytes = bytes.splitOn lineFeed := pieces_eq_splitOnP _ bytes
  simp only [lines, cut]
  split
  · next empty =>
    obtain ⟨front, whole⟩ := List.getLast?_eq_some_iff.mp empty
    rw [whole, List.dropLast_concat, List.filterMap_append, List.filterMap_cons_none nothing]
    exact (List.append_nil _).symm
  · rfl

/-! ### Words -/

/-- The words of a text are its pieces between blank characters, empty ones left out. -/
theorem words_eq (s : List Char) :
    words s = (s.splitOnP isBlank).filter fun piece => piece ≠ [] := by
  rw [words, pieces_eq_splitOnP]
  apply List.filter_congr
  intro piece _
  cases piece <;> rfl

variable {word : List Char} {blank : Char}

/-- A blank ends the word in front of it. -/
theorem words_append (solid : ∀ c ∈ word, isBlank c = false) (some_char : word ≠ [])
    (h : isBlank blank = true) (s : List Char) :
    words (word ++ blank :: s) = word :: words s := by
  rw [words, pieces_append solid h, List.filter_cons_of_pos (by simpa using some_char)]
  rfl

theorem words_of_solid (solid : ∀ c ∈ word, isBlank c = false) (some_char : word ≠ []) :
    words word = [word] := by
  rw [words, pieces_of_no_separator solid, List.filter_cons_of_pos (by simpa using some_char)]
  rfl

end Text

end ShardCut
