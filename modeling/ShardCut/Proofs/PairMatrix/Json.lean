import ShardCut.PairMatrix.Json
import ShardCut.Proofs.Json.Names

/-!
Matrices that are read back. The names of a matrix can be anything, and its counts have to fit a
word; then the object that is written for the matrix is read as the matrix again, field by field.
So are the object with the fields in the other order and the array of what they hold.

Main definitions: `writeAs`. Main results: `readMatrix_writeAs`, `parseJson_toJson`,
`ofRows_survives`.
-/

namespace ShardCut

namespace PairMatrix

open ShardCut.Json

variable {rest : List Char} {depth fuel : Nat}

/-! ### Shapes -/

theorem writeCount_eq (n : Nat) : writeCount n = Nat.toDigits 10 n := by
  rw [writeCount, Nat.toString_eq_ofList_toDigits, String.toList_ofList]

theorem exists_writeCount_eq_cons (n : Nat) :
    ∃ c s, writeCount n = c :: s ∧ c.isDigit = true := by
  have run := Text.isDigits_toDigits n
  obtain ⟨c, s, digits⟩ := List.exists_cons_of_ne_nil run.some_digit
  refine ⟨c, s, (writeCount_eq n).trans digits, run.digit c ?_⟩
  rw [digits]
  exact List.mem_cons_self

/-- A count that was written is read as itself. -/
theorem readCount_written {n : Nat} (fits : n < UInt64.size) (ends : EndsNumeral rest) :
    readCount (writeCount n ++ rest) = .ok (n, rest) := by
  have read : readNumber false (writeCount n ++ rest) = .ok (.integer n, rest) := by
    rw [writeCount_eq]
    exact readNumber_written fits ends
  have count : count? (.integer n) = .ok n := by
    rw [count?, if_pos (Int.natCast_nonneg n), Int.toNat_natCast]
  rcases exists_writeCount_eq_cons n with ⟨c, s, written, digit⟩
  rw [written, List.cons_append] at read ⊢
  simp only [readCount, skipSpace_cons (startsScalar_of_isDigit digit).space,
    if_neg (Text.ne_of_isDigit digit (d := '-') rfl),
    if_pos (Text.isSome_digit?_of_isDigit digit), read, ok_bind, count]

/-- An array of two elements is read back, from behind its opening bracket. -/
theorem readTwo_written {α β : Type} {one : Reader α} {two : Reader β} {expected : Expected}
    {x : α} {y : β} {c d : Char} {s t : List Char} (startsOne : StartsValue c)
    (startsTwo : StartsValue d) (readsOne : one (c :: s) = .ok (x, ',' :: d :: t))
    (readsTwo : two (d :: t) = .ok (y, ']' :: rest)) :
    readTwo expected one two (c :: s) = .ok ((x, y), rest) := by
  have closed : readArrayEnd (']' :: rest) = .ok ((), rest) := rfl
  have opens : element? true (c :: s) = .ok (.entry (c :: s)) :=
    startsOne.element?_first isSpaces_nil s
  have goesOn : element? false (',' :: d :: t) = .ok (.entry (d :: t)) :=
    startsTwo.element?_next isSpaces_nil isSpaces_nil t
  simp only [readTwo, opens, readsOne, goesOn, readsTwo, closed, ok_bind]

def writeShape (shape : Nat × Nat) : List Char :=
  '[' :: (writeCount shape.1 ++ ',' :: (writeCount shape.2 ++ [']']))

theorem readShape_cons (depth : Nat) (s : List Char) :
    readShape (depth + 1) ('[' :: s) = readTwo .pair readCount readCount s := rfl

/-- A shape that was written is read as itself. -/
theorem readShape_written {shape : Nat × Nat} (rows : shape.1 < UInt64.size)
    (columns : shape.2 < UInt64.size) (depth : Nat) (rest : List Char) :
    readShape (depth + 1) (writeShape shape ++ rest) = .ok (shape, rest) := by
  rcases exists_writeCount_eq_cons shape.1 with ⟨c, s, written, digit⟩
  rcases exists_writeCount_eq_cons shape.2 with ⟨d, t, written', digit'⟩
  have one := readCount_written rows (endsNumeral_comma (writeCount shape.2 ++ ']' :: rest))
  have two := readCount_written columns (endsNumeral_closed rest)
  have text : writeShape shape ++ rest =
      '[' :: (writeCount shape.1 ++ ',' :: (writeCount shape.2 ++ ']' :: rest)) := by
    simp [writeShape]
  rw [text, readShape_cons]
  rw [written, written'] at one ⊢
  rw [written'] at two
  exact readTwo_written (startsScalar_of_isDigit digit).toStartsValue
    (startsScalar_of_isDigit digit').toStartsValue one two

/-! ### Members -/

/-- A member of an object as JSON: its key and its value. -/
def writeMember (field : Field) (value : List Char) : List Char :=
  '"' :: (field.key.toList.flatMap Text.jsonEscape ++ '"' :: ':' :: value)

theorem readString_writeMember (field : Field) (value : List Char) :
    readString ((writeMember field value).drop 1) = .ok (field.key, ':' :: value) := by
  have read := readString_append (spelled_escaped field.key.toList) (':' :: value)
  rwa [String.ofList_toList] at read

theorem readColon_cons (value : List Char) : readColon (':' :: value) = .ok ((), value) := rfl

variable {first : Bool} {s : List Char} {names : List VertexName} {shape : Nat × Nat}

/-- A member of data is read and kept until the shape is there. -/
theorem readFields_data {shape? : Option (Nat × Nat)}
    (entry : member? first s = .ok (.entry (writeMember .data (writeNames names ++ rest)))) :
    readFields (depth + 1) (fuel + 1) first none shape? s =
      readFields (depth + 1) fuel false (some names) shape? rest := by
  simp only [readFields, entry, ok_bind, readString_writeMember, if_true, Option.isSome_none,
    Bool.false_eq_true, if_false, readColon_cons, readNames_written]

theorem readFields_shape {data? : Option (List VertexName)} (rows : shape.1 < UInt64.size)
    (columns : shape.2 < UInt64.size)
    (entry : member? first s = .ok (.entry (writeMember .shape (writeShape shape ++ rest)))) :
    readFields (depth + 1) (fuel + 1) first data? none s =
      readFields (depth + 1) fuel false data? (some shape) rest := by
  have other : Field.shape.key ≠ Field.data.key := by decide
  simp only [readFields, entry, ok_bind, readString_writeMember, if_neg other, if_true,
    Option.isSome_none, Bool.false_eq_true, if_false, readColon_cons,
    readShape_written rows columns]

theorem readFields_closed (closed : member? first s = .ok (.closed rest)) :
    readFields depth (fuel + 1) first (some names) (some shape) s = .ok (⟨names, shape⟩, rest) := by
  simp only [readFields, closed, ok_bind, ofFields]

/-! ### Matrices -/

/-- The ways to write a matrix: as an object with either field in front, or as an array of what its
    fields hold. -/
inductive Layout where
  | dataFirst
  | shapeFirst
  | array
deriving DecidableEq, Repr

/-- An object of two members as JSON. -/
def writeObject (field : Field) (value : List Char) (field' : Field) (value' : List Char) :
    List Char :=
  '\x7b' :: (writeMember field value ++ ',' :: (writeMember field' value' ++ ['\x7d']))

/-- A matrix as JSON in one of these ways, without any space. -/
def writeAs (m : PairMatrix) : Layout → List Char
  | .dataFirst => writeObject .data (writeNames m.data) .shape (writeShape m.shape)
  | .shapeFirst => writeObject .shape (writeShape m.shape) .data (writeNames m.data)
  | .array => '[' :: (writeNames m.data ++ ',' :: (writeShape m.shape ++ [']']))

/-- A matrix is written with its data first. -/
theorem toList_toJson (m : PairMatrix) : m.toJson.toList = m.writeAs .dataFirst := by
  have opened : "\x7b\"data\":".toList = ['\x7b', '"', 'd', 'a', 't', 'a', '"', ':'] := rfl
  have middle : ",\"shape\":[".toList = [',', '"', 's', 'h', 'a', 'p', 'e', '"', ':', '['] := rfl
  have closed : "]\x7d".toList = [']', '\x7d'] := rfl
  have data : Field.data.key.toList.flatMap Text.jsonEscape = ['d', 'a', 't', 'a'] := rfl
  have shape : Field.shape.key.toList.flatMap Text.jsonEscape = ['s', 'h', 'a', 'p', 'e'] := rfl
  unfold toJson
  simp [writeAs, writeObject, writeMember, writeShape, opened, middle, closed, data, shape]

theorem readMatrix_append {before : List Char} (spaces : IsSpaces before) (depth : Nat)
    (s : List Char) : readMatrix depth (before ++ s) = readMatrix depth s := by
  rw [readMatrix, readMatrix, skipSpace_append spaces]

theorem readMatrix_object (depth : Nat) (s : List Char) :
    readMatrix (depth + 1) ('\x7b' :: s) = readFields depth (s.length + 1) true none none s := rfl

theorem readMatrix_array (depth : Nat) (s : List Char) :
    readMatrix (depth + 1) ('[' :: s) = (do
      let ((data, shape), s) ← readTwo .matrix (readNames depth) (readShape depth) s
      .ok (⟨data, shape⟩, s)) := rfl

variable {m : PairMatrix}

/-- An object of two members is read member by member, with fuel for both and for its end. -/
theorem exists_readFields (depth : Nat) (field : Field) (value : List Char) (field' : Field)
    (value' rest : List Char) :
    ∃ fuel, readMatrix (depth + 1) (writeObject field value field' value' ++ rest) =
      readFields depth (fuel + 3) true none none
        (writeMember field (value ++ ',' :: writeMember field' (value' ++ '\x7d' :: rest))) := by
  have text : writeObject field value field' value' ++ rest =
      '\x7b' :: writeMember field
        (value ++ ',' :: writeMember field' (value' ++ '\x7d' :: rest)) := by
    simp [writeObject, writeMember]
  rw [text]
  generalize members : writeMember field _ = s
  have enough : 2 ≤ s.length := by
    rw [← members, writeMember, List.length_cons, List.length_append, List.length_cons]
    omega
  obtain ⟨fuel, length⟩ := Nat.exists_eq_add_of_le' enough
  exact ⟨fuel, by rw [readMatrix_object, length]⟩

/-- What is written for a matrix is read as this matrix, in whichever way it is written. -/
theorem readMatrix_writeAs (layout : Layout) (rows : m.shape.1 < UInt64.size)
    (columns : m.shape.2 < UInt64.size) (depth : Nat) (rest : List Char) :
    readMatrix (depth + 2) (m.writeAs layout ++ rest) = .ok (m, rest) := by
  cases layout with
  | dataFirst =>
    obtain ⟨fuel, opened⟩ := exists_readFields (depth + 1) .data (writeNames m.data) .shape
      (writeShape m.shape) rest
    rw [writeAs, opened, readFields_data rfl, readFields_shape rows columns rfl,
      readFields_closed rfl]
  | shapeFirst =>
    obtain ⟨fuel, opened⟩ := exists_readFields (depth + 1) .shape (writeShape m.shape) .data
      (writeNames m.data) rest
    rw [writeAs, opened, readFields_shape rows columns rfl, readFields_data rfl,
      readFields_closed rfl]
  | array =>
    have opens : StartsValue '[' := ⟨by decide, by decide⟩
    have names := readNames_written depth m.data (',' :: (writeShape m.shape ++ ']' :: rest))
    have shape := readShape_written rows columns depth (']' :: rest)
    obtain ⟨s, startNames⟩ : ∃ s, writeNames m.data = '[' :: s := ⟨_, rfl⟩
    obtain ⟨t, startShape⟩ : ∃ t, writeShape m.shape = '[' :: t := ⟨_, rfl⟩
    simp only [writeAs, List.cons_append, List.append_assoc, List.nil_append]
    rw [startNames, startShape, List.cons_append, List.cons_append] at names
    rw [startShape, List.cons_append] at shape
    rw [readMatrix_array, startNames, startShape, List.cons_append, List.cons_append,
      readTwo_written opens opens names shape, ok_bind]

/-- A text that holds a written matrix, with space around it, is read. -/
theorem parseJson_of_written {layout : Layout} {text : String} {before behind : List Char}
    (written : text.toList = before ++ (m.writeAs layout ++ behind))
    (rows : m.shape.1 < UInt64.size) (columns : m.shape.2 < UInt64.size)
    (spaces : IsSpaces before) (spaces' : IsSpaces behind) : parseJson text = .ok m := by
  rw [parseJson, written]
  apply readText_eq _ spaces'
  rw [readMatrix_append spaces]
  exact readMatrix_writeAs layout rows columns 125 behind

/-- The line that holds a written matrix can be decoded. -/
theorem parseJson_toJson (rows : m.shape.1 < UInt64.size) (columns : m.shape.2 < UInt64.size) :
    parseJson (m.toJson ++ "\n") = .ok m := by
  have newline : "\n".toList = ['\n'] := by decide
  have line : (m.toJson ++ "\n").toList = [] ++ (m.writeAs .dataFirst ++ ['\n']) := by
    rw [String.toList_append, toList_toJson, newline, List.nil_append]
  exact parseJson_of_written line rows columns isSpaces_nil
    (List.forall_mem_singleton.mpr (by decide))

/-! ### Matrices of rows -/

theorem isEmpty_ofRows (rows : List (VertexName × VertexName)) :
    (ofRows rows).isEmpty = true ↔ rows = [] := by
  cases rows with
  | nil => exact iff_of_true rfl rfl
  | cons row rows => exact iff_of_false Bool.false_ne_true (List.cons_ne_nil _ _)

/-- A matrix of rows tells these rows, how many there are and whether there are any, and it survives
    being written: whichever way it is written, and with whatever space around it, it is read as the
    same matrix. The rows have to be countable in a word, as those of a list in memory are. -/
theorem ofRows_survives (rows : List (VertexName × VertexName)) :
    let m := ofRows rows
    m.rows = rows ∧ m.shape = (rows.length, 2) ∧ (m.isEmpty = true ↔ rows = []) ∧
      m.toJson.toList = m.writeAs .dataFirst ∧
      (rows.length < UInt64.size → parseJson (m.toJson ++ "\n") = .ok m ∧
        ∀ layout before behind, IsSpaces before → IsSpaces behind →
          parseJson (.ofList (before ++ (m.writeAs layout ++ behind))) = .ok m) := by
  intro m
  have two : 2 < UInt64.size := by decide
  refine ⟨rows_ofRows rows, rfl, isEmpty_ofRows rows, toList_toJson m, fun countable =>
    ⟨parseJson_toJson countable two, fun layout before behind spaces spaces' => ?_⟩⟩
  exact parseJson_of_written (String.toList_ofList ..) countable two spaces spaces'

/-- A number and the text that looks like it are told apart by the quotes alone, and a quote, a
    backslash and a line feed in a text come back from their escapes. -/
theorem ofRows_survives_lookalikes :
    let m := ofRows [(.number 1, .text "1"), (.text "\"\\\n", .number Int64.minValue)]
    m.edgeCount < UInt64.size ∧ parseJson (m.toJson ++ "\n") = .ok m ∧
      parseJson " [[1,\"1\",\"\\\"\\\\\\n\",-9223372036854775808],[2,2]]" = .ok m := by
  intro m
  have countable : m.edgeCount < UInt64.size := by decide
  obtain ⟨-, -, -, -, survives⟩ :=
    ofRows_survives [(.number 1, .text "1"), (.text "\"\\\n", .number Int64.minValue)]
  obtain ⟨line, written⟩ := survives countable
  have array := written .array [' '] [] (List.forall_mem_singleton.mpr (by decide)) isSpaces_nil
  have text : String.ofList ([' '] ++ (m.writeAs .array ++ [])) =
      " [[1,\"1\",\"\\\"\\\\\\n\",-9223372036854775808],[2,2]]" := by decide +kernel
  rw [text] at array
  exact ⟨countable, line, array⟩

end PairMatrix

end ShardCut
