import ShardCut.Proofs.Json.Array
import ShardCut.Proofs.Json.Quoted

/-!
Which texts are read as names and as lists of names. A name starts with a quote, a minus sign or a
digit; an element that is anything else is read as a value and then refused. A list of names that
was written is one of the texts that it can be read from.

Main definitions: `StartsScalar`, `ScalarRead`. Main results: `reads_name`, `parseNames_eq_ok_iff`,
`ListText.unique`, `listText_writeNames`.
-/

namespace ShardCut

namespace Json

open Text

variable {c : Char} {s rest lit body before : List Char} {depth : Nat} {name : VertexName}
  {names : List VertexName} {found : Found}

/-! ### How a scalar starts -/

/-- A character that starts a value, and neither an array nor an object. -/
structure StartsScalar (c : Char) : Prop extends StartsValue c where
  array : c ≠ '['
  object : c ≠ '{'

theorem startsScalar_of_isDigit (h : c.isDigit = true) : StartsScalar c where
  space := by simp [isSpace, ne_of_isDigit h]
  array := ne_of_isDigit h rfl
  object := ne_of_isDigit h rfl
  closed := ne_of_isDigit h rfl

/-- What begins like a scalar is read as a scalar. -/
theorem StartsScalar.readItem (h : StartsScalar c) (depth : Nat) (s : List Char) :
    readItem depth (c :: s) = readScalar (c :: s) := by
  rw [Json.readItem, skipSpace_cons h.space]
  exact (if_neg h.array).trans (if_neg h.object)

theorem IntegerLiteral.starts {v : Int} (h : IntegerLiteral v lit) :
    ∃ c cs, lit = c :: cs ∧ StartsScalar c := by
  cases h with
  | positive whole =>
    obtain ⟨c, cs, rfl⟩ := List.exists_cons_of_ne_nil whole.isDigits.some_digit
    exact ⟨c, cs, rfl, startsScalar_of_isDigit (whole.isDigits.digit c List.mem_cons_self)⟩
  | negative => exact ⟨'-', _, rfl, ⟨by decide, by decide⟩, by decide, by decide⟩

/-- The text of a name begins like a scalar. -/
theorem NameLiteral.starts (h : NameLiteral name lit) : ∃ c cs, lit = c :: cs ∧ StartsScalar c := by
  cases h with
  | number integer => exact integer.starts
  | text => exact ⟨'"', _, rfl, ⟨by decide, by decide⟩, by decide, by decide⟩

/-! ### Scalars that are names -/

theorem readScalar_of_isDigit (h : c.isDigit = true) (s : List Char) :
    readScalar (c :: s) = (readNumber false (c :: s)).map fun (value, s) => (.number value, s) := by
  rw [readScalar, if_neg (ne_of_isDigit h rfl), if_neg (ne_of_isDigit h rfl),
    if_neg (ne_of_isDigit h rfl), if_neg (ne_of_isDigit h rfl),
    if_pos (isSome_digit?_of_isDigit h)]
  cases readNumber false (c :: s) <;> rfl

theorem readScalar_minus (s : List Char) :
    readScalar ('-' :: s) = (readNumber true s).map fun (value, s) => (.number value, s) := by
  change (readNumber true s >>= _) = _
  cases readNumber true s <;> rfl

theorem readScalar_quote (s : List Char) :
    readScalar ('"' :: s) = (readString s).map fun (value, s) => (.string value, s) := by
  change (readString s >>= _) = _
  cases readString s <;> rfl

/-- An integer of 64 bits is read. -/
theorem readScalar_integer {v : Int} (h : IntegerLiteral v lit) (fits : FitsInt64 v)
    (ends : EndsNumeral rest) :
    readScalar (lit ++ rest) = .ok (.number (.integer v), rest) := by
  obtain ⟨least, greatest⟩ := fits
  change -2 ^ 63 ≤ v at least
  change v ≤ 2 ^ 63 - 1 at greatest
  cases h with
  | positive whole =>
    have word : valueOf lit < UInt64.size := by
      change valueOf lit < 2 ^ 64
      omega
    have read := readNumber_append whole word ends
    obtain ⟨c, cs, rfl⟩ := List.exists_cons_of_ne_nil whole.isDigits.some_digit
    rw [List.cons_append] at read ⊢
    rw [readScalar_of_isDigit (whole.isDigits.digit c List.mem_cons_self), read]
    rfl
  | @negative digits whole nonzero =>
    have word : valueOf digits ≤ Nat.pow 2 63 := by
      change valueOf digits ≤ 2 ^ 63
      omega
    rw [List.cons_append, readScalar_minus, readNumber_append_negative whole nonzero word ends]
    rfl

/-- However a name is written, it is read as a scalar that stands for this name. -/
theorem readScalar_nameLiteral (h : NameLiteral name lit) (ends : EndsNumeral rest) :
    ∃ found, readScalar (lit ++ rest) = .ok (found, rest) ∧ found.name? = some name := by
  cases h with
  | @number value lit integer =>
    have fits := fitsInt64_toInt value
    refine ⟨_, readScalar_integer integer fits ends, ?_⟩
    rw [Found.name?, if_pos fits, Int64.ofInt_toInt]
  | @text value body spelled =>
    refine ⟨.string value, ?_, rfl⟩
    have read := readString_append spelled rest
    rw [String.ofList_toList] at read
    rw [List.cons_append, List.append_assoc, readScalar_quote]
    exact congrArg _ read

/-- The numbers that stand for names are the integers of 64 bits. -/
theorem name?_number {number : Number} (h : (Found.number number).name? = some name) :
    ∃ value : Int64, number = .integer value.toInt ∧ name = .number value := by
  cases number with
  | integer v =>
    rw [Found.name?] at h
    split at h
    · next fits =>
      cases h
      exact ⟨Int64.ofInt v, by rw [toInt_ofInt_of_fits fits], rfl⟩
    · cases h
  | decimal negative magnitude => cases h

theorem eq_of_readWord {α : Type} {value x : α} {letters : List Char}
    (h : readWord value letters s = .ok (x, rest)) : x = value := by
  induction letters generalizing s with
  | nil =>
    cases h
    rfl
  | cons l letters ih =>
    cases s with
    | nil => cases h
    | cons c s =>
      rw [readWord] at h
      split at h
      · exact ih h
      · cases h

/-- The readers that a scalar is read by: it is a word, a number with or without a minus sign, or
    a string. -/
inductive ScalarRead : Found → List Char → List Char → Prop where
  | null {s rest : List Char} : ScalarRead .null s rest
  | bool {value : Bool} {s rest : List Char} : ScalarRead (.bool value) s rest
  | number {value : Number} {s rest : List Char} (read : readNumber false s = .ok (value, rest)) :
      ScalarRead (.number value) s rest
  | negative {value : Number} {s rest : List Char} (read : readNumber true s = .ok (value, rest)) :
      ScalarRead (.number value) ('-' :: s) rest
  | string {value : String} {s rest : List Char} (read : readString s = .ok (value, rest)) :
      ScalarRead (.string value) ('"' :: s) rest

theorem scalarRead_of_readScalar (h : readScalar s = .ok (found, rest)) :
    ScalarRead found s rest := by
  cases s with
  | nil => cases h
  | cons c s =>
    rw [readScalar] at h
    split_ifs at h with null yes no minus digit quote
    · obtain rfl := eq_of_readWord h
      exact .null
    · obtain rfl := eq_of_readWord h
      exact .bool
    · obtain rfl := eq_of_readWord h
      exact .bool
    · subst minus
      obtain ⟨⟨value, left⟩, read, same⟩ := bind_eq_ok h
      cases same
      exact .negative read
    · obtain ⟨⟨value, left⟩, read, same⟩ := bind_eq_ok h
      cases same
      exact .number read
    · subst quote
      obtain ⟨⟨value, left⟩, read, same⟩ := bind_eq_ok h
      cases same
      exact .string read

/-- A scalar that stands for a name is written as this name. -/
theorem exists_literal_of_readScalar (h : readScalar s = .ok (found, rest))
    (named : found.name? = some name) : ∃ lit, s = lit ++ rest ∧ NameLiteral name lit := by
  cases scalarRead_of_readScalar h with
  | null => cases named
  | bool => cases named
  | number read =>
    obtain ⟨value, rfl, rfl⟩ := name?_number named
    obtain ⟨digits, split, literal⟩ := exists_literal_of_readNumber read
    exact ⟨digits, split, .number literal⟩
  | negative read =>
    obtain ⟨value, rfl, rfl⟩ := name?_number named
    obtain ⟨digits, rfl, literal⟩ := exists_literal_of_readNumber read
    exact ⟨'-' :: digits, rfl, .number literal⟩
  | @string value s rest read =>
    cases named
    obtain ⟨form, rfl, spelled⟩ := exists_spelled_of_readString read
    exact ⟨'"' :: (form ++ ['"']), by simp, .text spelled⟩

/-! ### Names -/

/-- A value that stands for a name is written as this name, behind some space. -/
theorem exists_literal_of_readItem (h : readItem depth s = .ok (found, rest))
    (named : found.name? = some name) :
    ∃ space lit, s = space ++ (lit ++ rest) ∧ IsSpaces space ∧ NameLiteral name lit := by
  rw [readItem] at h
  cases hs : skipSpace s with
  | nil => simp [hs] at h
  | cons c s' =>
    obtain ⟨space, rfl, spaces⟩ := exists_spaces_of_skipSpace hs
    simp only [hs] at h
    split_ifs at h with array object
    · cases depth with
      | zero => cases h
      | succ depth =>
        obtain ⟨read, -, same⟩ := bind_eq_ok h
        cases same
        cases named
    · cases depth with
      | zero => cases h
      | succ depth =>
        obtain ⟨read, -, same⟩ := bind_eq_ok h
        cases same
        cases named
    · obtain ⟨lit, split, literal⟩ := exists_literal_of_readScalar h named
      exact ⟨space, lit, congrArg (space ++ ·) split, spaces, literal⟩

/-- The literals of names are read as names, and nothing else is, whatever brackets are open. -/
theorem reads_name (depth : Nat) : Reads (readName depth) NameLiteral where
  starts literal := by
    obtain ⟨c, cs, split, starts⟩ := literal.starts
    exact ⟨c, cs, split, starts.toStartsValue⟩
  complete literal ends := by
    obtain ⟨found, read, named⟩ := readScalar_nameLiteral literal ends
    obtain ⟨c, cs, rfl, starts⟩ := literal.starts
    rw [List.cons_append] at read ⊢
    simp only [readName, starts.readItem, read, ok_bind, named]
  sound {s name rest} reads := by
    obtain ⟨⟨found, left⟩, read, accepted⟩ := bind_eq_ok reads
    cases named : found.name? with
    | none =>
      simp only [named] at accepted
      cases accepted
    | some name =>
      simp only [named] at accepted
      cases accepted
      exact exists_literal_of_readItem read named

/-! ### Lists of names -/

/-- A list of names is read, and what follows it is left. -/
theorem readNames_append (depth : Nat) (spaces : IsSpaces before)
    (elements : Elements NameLiteral names body) (rest : List Char) :
    readNames (depth + 1) (before ++ '[' :: (body ++ ']' :: rest)) = .ok (names, rest) := by
  simp only [readNames, skipSpace_append spaces, skipSpace_cons (c := '[') (by decide), if_true]
  exact (reads_name depth).readArray_append elements rest

theorem wrongType_ne_ok {α : Type} {x : α} {expected : Expected} :
    wrongType expected s ≠ .ok x := by
  unfold wrongType
  split
  · nofun
  · nofun
  · cases readScalar s <;> nofun

/-- What is read as a list of names is written as an array of them, behind some space. -/
theorem exists_elements_of_readNames (h : readNames depth s = .ok (names, rest)) :
    ∃ before body, s = before ++ '[' :: (body ++ ']' :: rest) ∧ IsSpaces before ∧
      Elements NameLiteral names body := by
  rw [readNames] at h
  cases hs : skipSpace s with
  | nil => simp [hs] at h
  | cons c s' =>
    obtain ⟨before, rfl, spaces⟩ := exists_spaces_of_skipSpace hs
    simp only [hs] at h
    by_cases array : c = '['
    · subst array
      rw [if_pos rfl] at h
      cases depth with
      | zero => cases h
      | succ depth =>
        obtain ⟨body, rfl, elements⟩ := (reads_name depth).exists_elements_of_readArray h
        exact ⟨before, body, rfl, spaces, elements⟩
    · rw [if_neg array] at h
      exact (wrongType_ne_ok h).elim

/-- A text is read as a list of names exactly when it is one. -/
theorem parseNames_eq_ok_iff {text : String} :
    parseNames text = .ok names ↔ ListText names text.toList := by
  generalize hs : text.toList = s
  rw [parseNames, hs]
  constructor
  · intro h
    obtain ⟨⟨names', behind⟩, read, accepted⟩ := bind_eq_ok h
    by_cases space : (skipSpace behind).isEmpty
    · simp only [if_pos space] at accepted
      cases accepted
      obtain ⟨before, body, rfl, spaces, elements⟩ := exists_elements_of_readNames read
      obtain ⟨space', rfl, behind⟩ := exists_spaces_of_skipSpace (List.isEmpty_iff.mp space)
      rw [List.append_nil]
      exact .array spaces elements behind
    · simp only [if_neg space] at accepted
      cases accepted
  · rintro ⟨before, elements, behind⟩
    exact readText_eq (readNames_append 126 before elements _) behind

/-- A text is at most one list of names. -/
theorem ListText.unique {names' : List VertexName} (h : ListText names s)
    (h' : ListText names' s) : names = names' := by
  have read : parseNames (.ofList s) = .ok names :=
    parseNames_eq_ok_iff.mpr (by rwa [String.toList_ofList])
  have read' : parseNames (.ofList s) = .ok names' :=
    parseNames_eq_ok_iff.mpr (by rwa [String.toList_ofList])
  rw [read] at read'
  exact Except.ok.inj read'

/-! ### Lists that were written -/

/-- A number is written as one of its texts. -/
theorem integerLiteral_written (v : Int) : IntegerLiteral v (toString v).toList := by
  rcases Int.lt_or_le v 0 with negative | positive
  · have value := valueOf_toDigits (-v).toNat
    have literal := IntegerLiteral.negative (whole_toDigits (-v).toNat) (by omega)
    rw [value] at literal
    rw [toList_toString_of_neg negative]
    rwa [show -((-v).toNat : Int) = v by omega] at literal
  · have literal := IntegerLiteral.positive (whole_toDigits v.toNat)
    rw [toList_toString_of_nonneg positive]
    rwa [valueOf_toDigits, Int.toNat_of_nonneg positive] at literal

/-- A name is written as one of its texts. -/
theorem nameLiteral_writeName (name : VertexName) : NameLiteral name (writeName name) := by
  cases name with
  | number value => exact .number (integerLiteral_written value.toInt)
  | text value => exact .text (spelled_escaped value.toList)

/-- What stands between brackets is the first element and the others behind commas. -/
theorem flatten_intersperse (name : VertexName) (names : List VertexName) :
    (((name :: names).map writeName).intersperse [',']).flatten =
      writeName name ++ names.flatMap (',' :: writeName ·) := by
  induction names generalizing name with
  | nil => rfl
  | cons name' names ih =>
    rw [List.map_cons, List.map_cons, List.intersperse_cons_cons, List.flatten_cons,
      List.flatten_cons, ← List.map_cons, ih name']
    rfl

theorem moreElements_written (names : List VertexName) :
    MoreElements NameLiteral names (names.flatMap (',' :: writeName ·)) := by
  induction names with
  | nil => exact .done isSpaces_nil
  | cons name names ih => exact .comma isSpaces_nil isSpaces_nil (nameLiteral_writeName name) ih

/-- The names of a list are written with commas between them. -/
theorem elements_written (names : List VertexName) :
    Elements NameLiteral names ((names.map writeName).intersperse [',']).flatten := by
  cases names with
  | nil => exact .none isSpaces_nil
  | cons name names =>
    rw [flatten_intersperse]
    exact .some isSpaces_nil (nameLiteral_writeName name) (moreElements_written names)

/-- A list that is written is one in the grammar. -/
theorem listText_writeNames (names : List VertexName) : ListText names (writeNames names) :=
  .array isSpaces_nil (elements_written names) isSpaces_nil

/-- A list of names is read back. -/
theorem readNames_written (depth : Nat) (names : List VertexName) (rest : List Char) :
    readNames (depth + 1) (writeNames names ++ rest) = .ok (names, rest) := by
  have read := readNames_append depth isSpaces_nil (elements_written names) rest
  rwa [writeNames, List.cons_append, List.cons_append, List.append_assoc]

end Json

end ShardCut
