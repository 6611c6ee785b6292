import ShardCut.Json.Names
import ShardCut.Json.Skip
import ShardCut.PairMatrix.Basic

/-!
Matrices as JSON. A matrix is written as an object with its data and its shape. It is read from such
an object, with the fields in any order and other fields passed over, or from the array of the two.

Main definitions: `PairMatrix.toJson`, `PairMatrix.parseJson`.
-/

namespace ShardCut.PairMatrix

open ShardCut.Json

/-- The characters of a count. -/
def writeCount (n : Nat) : List Char := (toString n).toList

/-- The matrix as JSON, without any space. -/
def toJson (m : PairMatrix) : String :=
  String.ofList <|
    "\x7b\"data\":".toList ++ writeNames m.data ++ ",\"shape\":[".toList ++ writeCount m.shape.1 ++
      [','] ++ writeCount m.shape.2 ++ "]\x7d".toList

def count? : Number → Except Fault Nat
  | .integer value =>
    if 0 ≤ value then .ok value.toNat else .error (.negativeCount value)
  | number => .error (.wrongType (.number number) .count)

def readCount : Reader Nat := fun s =>
  match skipSpace s with
  | [] => .error .endInValue
  | c :: s =>
    if c = '-' then do
      let (number, s) ← readNumber true s
      let n ← count? number
      .ok (n, s)
    else if (Text.digit? 10 c).isSome then do
      let (number, s) ← readNumber false (c :: s)
      let n ← count? number
      .ok (n, s)
    else wrongType .count (c :: s)

/-- Reads the closing bracket of an array that has no more elements to give. -/
def readArrayEnd : Reader Unit := fun s =>
  match skipSpace s with
  | [] => .error .endInList
  | c :: s =>
    if c = ']' then .ok ((), s)
    else if c = ',' then
      match skipSpace s with
      | c :: _ => if c = ']' then .error .trailingComma else .error .trailingCharacters
      | [] => .error .trailingCharacters
    else .error .trailingCharacters

/-- Reads an array of exactly two elements, after its opening bracket. -/
def readTwo {α β : Type} (expected : Expected) (one : Reader α) (two : Reader β) :
    Reader (α × β) := fun s => do
  match ← element? true s with
  | .closed _ => .error (.tooShort 0 expected)
  | .entry s => do
    let (x, s) ← one s
    match ← element? false s with
    | .closed _ => .error (.tooShort 1 expected)
    | .entry s => do
      let (y, s) ← two s
      let ((), s) ← readArrayEnd s
      .ok ((x, y), s)

/-- Reads a shape, for which `depth` brackets may be opened. -/
def readShape (depth : Nat) : Reader (Nat × Nat) := fun s =>
  match skipSpace s with
  | [] => .error .endInValue
  | c :: s =>
    if c = '[' then
      if depth = 0 then .error .tooDeep else readTwo .pair readCount readCount s
    else wrongType .pair (c :: s)

/-- The matrix with the fields that were read; the data is missed before the shape. -/
def ofFields (data : Option (List VertexName)) (shape : Option (Nat × Nat)) :
    Except Fault PairMatrix :=
  match data, shape with
  | none, _ => .error (.missingField .data)
  | some _, none => .error (.missingField .shape)
  | some data, some shape => .ok ⟨data, shape⟩

/-- Reads the remaining members of a written matrix. A repeated field is a fault as soon as its key
    was read. -/
def readFields (depth : Nat) : (fuel : Nat) → (first : Bool) →
    (data : Option (List VertexName)) → (shape : Option (Nat × Nat)) → Reader PairMatrix
  | 0, _, _, _, _ => .error .endInObject
  | fuel + 1, first, data, shape, s => do
    match ← member? first s with
    | .closed s => do
      let m ← ofFields data shape
      .ok (m, s)
    | .entry s => do
      let (key, s) ← readString (s.drop 1)
      if key = Field.data.key then
        if data.isSome then .error (.repeatedField .data)
        else do
          let ((), s) ← readColon s
          let (names, s) ← readNames depth s
          readFields depth fuel false (some names) shape s
      else if key = Field.shape.key then
        if shape.isSome then .error (.repeatedField .shape)
        else do
          let ((), s) ← readColon s
          let (counts, s) ← readShape depth s
          readFields depth fuel false data (some counts) s
      else do
        let ((), s) ← readColon s
        let s ← skipValue s
        readFields depth fuel false data shape s

/-- Reads a matrix, in which `depth` brackets may be opened, its own included. -/
def readMatrix (depth : Nat) : Reader PairMatrix := fun s =>
  match skipSpace s with
  | [] => .error .endInValue
  | c :: s =>
    if c = '[' then
      match depth with
      | 0 => .error .tooDeep
      | depth + 1 => do
        let ((data, shape), s) ← readTwo .matrix (readNames depth) (readShape depth) s
        .ok (⟨data, shape⟩, s)
    else if c = '{' then
      match depth with
      | 0 => .error .tooDeep
      | depth + 1 => readFields depth (s.length + 1) true none none s
    else wrongType .matrix (c :: s)

/-- Reads a text that holds one matrix. -/
def parseJson (text : String) : Except Fault PairMatrix :=
  readText (readMatrix depthLimit) text.toList

example : (ofRows [(.number 1, .text "1")]).toJson =
    "\x7b\"data\":[1,\"1\"],\"shape\":[1,2]\x7d" := by decide

end ShardCut.PairMatrix
