import Mathlib.Data.List.TakeWhile
import ShardCut.Proofs.Json.Number

/-!
Which texts are read as arrays. A reader that reads the literals of its values, and nothing else,
reads the arrays of such literals, and nothing else, when it is used for their elements. The
brackets and commas decide where an element begins, since none begins with one of them.

Main definitions: `StartsValue`, `Reads`. Main results: `readArray_append`,
`exists_elements_of_readArray`.
-/

namespace ShardCut

namespace Json

open Text

variable {c : Char} {s rest space space' : List Char} {fuel : Nat} {first : Bool}

/-! ### Space -/

theorem isSpace_iff : isSpace c = true ↔ c ∈ [' ', '\t', '\n', '\r'] := by
  simp [isSpace, or_assoc]

theorem skipSpace_cons (h : isSpace c = false) (s : List Char) : skipSpace (c :: s) = c :: s := by
  rw [skipSpace, List.dropWhile_cons_of_neg]
  rw [h]
  exact Bool.false_ne_true

/-- White space in front of a text is passed over. -/
theorem skipSpace_append (h : IsSpaces space) (s : List Char) :
    skipSpace (space ++ s) = skipSpace s :=
  List.dropWhile_append_of_pos fun c hc => isSpace_iff.mpr (h c hc)

/-- What is skipped is space. -/
theorem exists_spaces (s : List Char) : ∃ space, s = space ++ skipSpace s ∧ IsSpaces space := by
  refine ⟨s.takeWhile isSpace, List.takeWhile_append_dropWhile.symm, fun c hc => ?_⟩
  exact isSpace_iff.mp (List.mem_takeWhile_imp hc)

theorem exists_spaces_of_skipSpace (h : skipSpace s = rest) :
    ∃ space, s = space ++ rest ∧ IsSpaces space := by
  subst h
  exact exists_spaces s

theorem isSpaces_nil : IsSpaces [] := nofun

theorem IsSpaces.skipSpace_eq (h : IsSpaces space) : skipSpace space = [] := by
  have skipped := skipSpace_append h []
  rwa [List.append_nil] at skipped

/-- A text is read if its value is, and nothing but space is left. -/
theorem readText_eq {α : Type} {reader : Reader α} {x : α} (read : reader s = .ok (x, space))
    (h : IsSpaces space) : readText reader s = .ok x := by
  simp only [readText, read, ok_bind, h.skipSpace_eq]
  rfl

theorem IsSpaces.append (h : IsSpaces space) (h' : IsSpaces space') : IsSpaces (space ++ space') :=
  List.forall_mem_append.mpr ⟨h, h'⟩

/-! ### What comes next -/

/-- A character that starts a value: it is no space, and no array ends with it. -/
structure StartsValue (c : Char) : Prop where
  space : isSpace c = false
  closed : c ≠ ']'

/-- A bracket behind white space closes the array. -/
theorem element?_closed (h : IsSpaces space) (s : List Char) :
    element? first (space ++ ']' :: s) = .ok (.closed s) := by
  rw [element?, skipSpace_append h, skipSpace_cons (by decide)]
  exact if_pos rfl

/-- The first value stands behind white space. -/
theorem StartsValue.element?_first (h : StartsValue c) (before : IsSpaces space) (s : List Char) :
    element? true (space ++ c :: s) = .ok (.entry (c :: s)) := by
  rw [element?, skipSpace_append before, skipSpace_cons h.space]
  exact if_neg h.closed

/-- Every value but the first stands behind a comma. -/
theorem StartsValue.element?_next (h : StartsValue c) (before : IsSpaces space)
    (behind : IsSpaces space') (s : List Char) :
    element? false (space ++ ',' :: (space' ++ c :: s)) = .ok (.entry (c :: s)) := by
  have comma : skipSpace (space ++ ',' :: (space' ++ c :: s)) = ',' :: (space' ++ c :: s) := by
    rw [skipSpace_append before, skipSpace_cons (by decide)]
  have value : skipSpace (space' ++ c :: s) = c :: s := by
    rw [skipSpace_append behind, skipSpace_cons h.space]
  simp only [element?, comma, value, if_neg h.closed]
  rfl

/-- Where an array ends, space and its closing bracket stand. -/
theorem exists_spaces_of_closed (h : element? first s = .ok (.closed rest)) :
    ∃ space, s = space ++ ']' :: rest ∧ IsSpaces space := by
  rw [element?] at h
  cases hs : skipSpace s with
  | nil => simp [hs] at h
  | cons c s' =>
    simp only [hs] at h
    by_cases closed : c = ']'
    · rw [if_pos closed] at h
      cases h
      subst closed
      exact exists_spaces_of_skipSpace hs
    · rw [if_neg closed] at h
      cases first with
      | true => cases h
      | false =>
        change (if c = ',' then _ else _) = _ at h
        -- Behind a comma the array goes on or there is a fault.
        repeat' split at h
        all_goals cases h

/-- Before its first element an array holds nothing but space. -/
theorem exists_spaces_of_first (h : element? true s = .ok (.entry rest)) :
    ∃ space, s = space ++ rest ∧ IsSpaces space := by
  rw [element?] at h
  cases hs : skipSpace s with
  | nil => simp [hs] at h
  | cons c s' =>
    simp only [hs, if_true] at h
    by_cases closed : c = ']'
    · rw [if_pos closed] at h
      cases h
    · rw [if_neg closed] at h
      cases h
      exact exists_spaces_of_skipSpace hs

/-- Before every other element an array holds a comma, with space around it. -/
theorem exists_spaces_of_next (h : element? false s = .ok (.entry rest)) :
    ∃ space space', s = space ++ ',' :: (space' ++ rest) ∧ IsSpaces space ∧ IsSpaces space' := by
  rw [element?] at h
  cases hs : skipSpace s with
  | nil => simp [hs] at h
  | cons c s' =>
    obtain ⟨space, rfl, before⟩ := exists_spaces_of_skipSpace hs
    simp only [hs, Bool.false_eq_true, if_false] at h
    by_cases closed : c = ']'
    · rw [if_pos closed] at h
      cases h
    rw [if_neg closed] at h
    by_cases comma : c = ','
    · rw [if_pos comma] at h
      subst comma
      cases hs' : skipSpace s' with
      | nil => simp [hs'] at h
      | cons d s'' =>
        obtain ⟨space', rfl, behind⟩ := exists_spaces_of_skipSpace hs'
        simp only [hs'] at h
        by_cases trailing : d = ']'
        · rw [if_pos trailing] at h
          cases h
        · rw [if_neg trailing] at h
          cases h
          exact ⟨space, space', rfl, before, behind⟩
    · rw [if_neg comma] at h
      cases h

/-! ### Elements -/

/-- A reader of the literals of its values: it reads every one of them, wherever nothing follows
    that could continue a numeral, and it reads nothing else. Space may stand before a literal, and
    no literal starts with space or with the end of an array. -/
structure Reads {α : Type} (item : Reader α) (literal : α → List Char → Prop) : Prop where
  starts : ∀ {x lit}, literal x lit → ∃ c cs, lit = c :: cs ∧ StartsValue c
  complete : ∀ {x lit rest}, literal x lit → EndsNumeral rest → item (lit ++ rest) = .ok (x, rest)
  sound : ∀ {s x rest}, item s = .ok (x, rest) →
    ∃ space lit, s = space ++ (lit ++ rest) ∧ IsSpaces space ∧ literal x lit

section Arrays

variable {α : Type} {item : Reader α} {literal : α → List Char → Prop} {x : α} {xs read : List α}
  {lit body : List Char}

/-- No numeral goes on with what follows a value of an array. -/
theorem MoreElements.endsNumeral (h : MoreElements literal xs body) (rest : List Char) :
    EndsNumeral (body ++ ']' :: rest) := by
  cases h with
  | done spaces => exact (endsNumeral_closed rest).space spaces
  | comma before =>
    rw [List.append_assoc]
    exact (endsNumeral_comma _).space before

/-- Every element behind the first one has a comma of its own. -/
theorem MoreElements.length_le (h : MoreElements literal xs body) : xs.length ≤ body.length := by
  induction h with
  | done => exact Nat.zero_le _
  | comma before behind element more ih =>
    simp only [List.length_cons, List.length_append]
    omega

/-- A value that is read is put to those before it. -/
theorem readElements_entry (goesOn : element? first s = .ok (.entry lit))
    (reads : item lit = .ok (x, rest)) :
    readElements item (fuel + 1) first read s = readElements item fuel false (x :: read) rest := by
  simp only [readElements, goesOn, reads, ok_bind]

theorem readElements_closed (ends : element? first s = .ok (.closed rest)) :
    readElements item (fuel + 1) first read s = .ok (read.reverse, rest) := by
  simp only [readElements, ends, ok_bind]

/-- A round of the loop over the elements: the array ends, or one more element is read. -/
theorem readElements_eq_ok (h : readElements item (fuel + 1) first read s = .ok (xs, rest)) :
    (xs = read.reverse ∧ element? first s = .ok (.closed rest)) ∨
      ∃ lit x left, element? first s = .ok (.entry lit) ∧ item lit = .ok (x, left) ∧
        readElements item fuel false (x :: read) left = .ok (xs, rest) := by
  obtain ⟨next, found, later⟩ := bind_eq_ok h
  cases next with
  | closed left =>
    cases later
    exact .inl ⟨rfl, found⟩
  | entry lit =>
    obtain ⟨⟨x, left⟩, element, later⟩ := bind_eq_ok later
    exact .inr ⟨lit, x, left, found, element, later⟩

namespace Reads

/-- The elements behind the first one are read, in order. -/
theorem readElements_append (h : Reads item literal) (more : MoreElements literal xs body)
    (enough : xs.length < fuel) :
    readElements item fuel false read (body ++ ']' :: rest) =
      .ok (read.reverse ++ xs, rest) := by
  induction more generalizing fuel read with
  | done spaces =>
    obtain ⟨fuel, rfl⟩ := Nat.exists_eq_succ_of_ne_zero (Nat.ne_zero_of_lt enough)
    rw [List.append_nil]
    exact readElements_closed (element?_closed spaces rest)
  | comma before behind element more ih =>
    obtain ⟨fuel, rfl⟩ := Nat.exists_eq_succ_of_ne_zero (Nat.ne_zero_of_lt enough)
    obtain ⟨c, cs, rfl, starts⟩ := h.starts element
    have reads := h.complete element (more.endsNumeral rest)
    simp only [List.append_assoc, List.cons_append] at reads ⊢
    rw [readElements_entry (starts.element?_next before behind _) reads,
      ih (Nat.lt_of_succ_lt_succ enough), List.reverse_cons, List.append_assoc]
    rfl

/-- An array is read, from behind its opening bracket. -/
theorem readArray_append (h : Reads item literal) (elements : Elements literal xs body)
    (rest : List Char) : readArray item (body ++ ']' :: rest) = .ok (xs, rest) := by
  cases elements with
  | none spaces => exact readElements_closed (element?_closed spaces rest)
  | @some x xs space lit body before element more =>
    obtain ⟨c, cs, rfl, starts⟩ := h.starts element
    have reads := h.complete element (more.endsNumeral rest)
    have enough : xs.length < (space ++ (c :: cs ++ body) ++ ']' :: rest).length := by
      have := more.length_le
      simp only [List.length_append, List.length_cons]
      omega
    simp only [readArray, List.append_assoc, List.cons_append] at reads enough ⊢
    rw [readElements_entry (starts.element?_first before _) reads]
    exact h.readElements_append more enough

/-- What is read behind the first element are elements behind commas. -/
theorem exists_more_of_readElements (h : Reads item literal)
    (reads : readElements item fuel false read s = .ok (xs, rest)) :
    ∃ ys body, s = body ++ ']' :: rest ∧ MoreElements literal ys body ∧
      xs = read.reverse ++ ys := by
  induction fuel generalizing read s with
  | zero => cases reads
  | succ fuel ih =>
    rcases readElements_eq_ok reads with ⟨rfl, ends⟩ | ⟨entry, x, left, goesOn, element, later⟩
    · obtain ⟨space, rfl, spaces⟩ := exists_spaces_of_closed ends
      exact ⟨[], space, rfl, .done spaces, (List.append_nil _).symm⟩
    · obtain ⟨space, space', rfl, before, behind⟩ := exists_spaces_of_next goesOn
      obtain ⟨space'', lit, rfl, between, literal⟩ := h.sound element
      obtain ⟨ys, body, rfl, more, rfl⟩ := ih later
      refine ⟨x :: ys, space ++ ',' :: ((space' ++ space'') ++ (lit ++ body)), by simp, ?_, by simp⟩
      exact .comma before (behind.append between) literal more

/-- What is read as an array, from behind its opening bracket, is written as one. -/
theorem exists_elements_of_readArray (h : Reads item literal)
    (reads : readArray item s = .ok (xs, rest)) :
    ∃ body, s = body ++ ']' :: rest ∧ Elements literal xs body := by
  rcases readElements_eq_ok reads with ⟨rfl, ends⟩ | ⟨entry, x, left, goesOn, element, later⟩
  · obtain ⟨space, rfl, spaces⟩ := exists_spaces_of_closed ends
    exact ⟨space, rfl, .none spaces⟩
  · obtain ⟨space, rfl, before⟩ := exists_spaces_of_first goesOn
    obtain ⟨space', lit, rfl, between, literal⟩ := h.sound element
    obtain ⟨ys, body, rfl, more, rfl⟩ := h.exists_more_of_readElements later
    refine ⟨(space ++ space') ++ (lit ++ body), by simp, ?_⟩
    exact .some (before.append between) literal more

end Reads

end Arrays

end Json

end ShardCut
