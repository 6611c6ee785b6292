import ShardCut.Json.Scalar

/-!
Arrays and objects of JSON. `element?` and `member?` decide what comes next inside brackets; the
readers of whole arrays and objects are loops over them. `readItem` reads any value and keeps only
what a message or a name can need of it.

Nesting is limited: a reader takes the number of brackets that may still be opened, and opening one
more is a fault of its own.

Main definitions: `readArray`, `readItem`, `readText`.
-/

namespace ShardCut.Json

/-- How many brackets may be open at once. -/
def depthLimit : Nat := 127

/-- What comes next inside brackets: one more entry starts the text, or the closing bracket was read
    and the text after it is left. -/
inductive Next where
  | entry (rest : List Char)
  | closed (rest : List Char)

/-- Decides whether an array goes on. `first` says that nothing of it was read yet. -/
def element? (first : Bool) (s : List Char) : Except Fault Next :=
  match skipSpace s with
  | [] => .error .endInList
  | c :: s =>
    if c = ']' then .ok (.closed s)
    else if first then .ok (.entry (c :: s))
    else if c = ',' then
      match skipSpace s with
      | [] => .error .endInValue
      | c :: s => if c = ']' then .error .trailingComma else .ok (.entry (c :: s))
    else .error .expectedListEnd

/-- Decides whether an object goes on; an entry starts with the quote of its key. -/
def member? (first : Bool) (s : List Char) : Except Fault Next :=
  match skipSpace s with
  | [] => .error .endInObject
  | c :: s =>
    if c = '}' then .ok (.closed s)
    else if first then
      if c = '"' then .ok (.entry (c :: s)) else .error .expectedKey
    else if c = ',' then
      match skipSpace s with
      | [] => .error .endInValue
      | c :: s =>
        if c = '"' then .ok (.entry (c :: s))
        else if c = '}' then .error .trailingComma
        else .error .expectedKey
    else .error .expectedObjectEnd

/-- Reads the remaining elements of an array; `read` holds the earlier ones, the last one first.
    Each round reads at least one character. -/
def readElements {α : Type} (item : Reader α) :
    (fuel : Nat) → (first : Bool) → (read : List α) → Reader (List α)
  | 0, _, _, _ => .error .endInList
  | fuel + 1, first, read, s => do
    match ← element? first s with
    | .closed s => .ok (read.reverse, s)
    | .entry s => do
      let (x, s) ← item s
      readElements item fuel false (x :: read) s

def readArray {α : Type} (item : Reader α) : Reader (List α) := fun s =>
  readElements item (s.length + 1) true [] s

def readColon : Reader Unit := fun s =>
  match skipSpace s with
  | [] => .error .endInObject
  | c :: s => if c = ':' then .ok ((), s) else .error .expectedColon

/-- Reads a key, from its opening quote on, and the colon after it. -/
def readKey : Reader String := fun s => do
  let (key, s) ← readString (s.drop 1)
  let ((), s) ← readColon s
  .ok (key, s)

/-- Reads the remaining members of an object and forgets them. -/
def readMembers {α : Type} (item : Reader α) : (fuel : Nat) → (first : Bool) → Reader Unit
  | 0, _, _ => .error .endInObject
  | fuel + 1, first, s => do
    match ← member? first s with
    | .closed s => .ok ((), s)
    | .entry s => do
      let (_, s) ← readKey s
      let (_, s) ← item s
      readMembers item fuel false s

/-- Reads any value. -/
def readItem : (depth : Nat) → Reader Found
  | depth, s =>
    match skipSpace s with
    | [] => .error .endInValue
    | c :: s =>
      if c = '[' then
        match depth with
        | 0 => .error .tooDeep
        | depth + 1 => do
          let (_, s) ← readArray (readItem depth) s
          .ok (.array, s)
      else if c = '{' then
        match depth with
        | 0 => .error .tooDeep
        | depth + 1 => do
          let ((), s) ← readMembers (readItem depth) (s.length + 1) true s
          .ok (.object, s)
      else readScalar (c :: s)

/-- The fault of a value of the wrong type, of which the first character has been seen. A scalar is
    read first, and a fault inside it comes before. -/
def wrongType {α : Type} (expected : Expected) (s : List Char) : Except Fault α :=
  match s with
  | '[' :: _ => .error (.wrongType .array expected)
  | '{' :: _ => .error (.wrongType .object expected)
  | s =>
    match readScalar s with
    | .ok (found, _) => .error (.wrongType found expected)
    | .error fault => .error fault

/-- Reads a text that holds one value: only space may follow it. -/
def readText {α : Type} (reader : Reader α) (s : List Char) : Except Fault α := do
  let (x, rest) ← reader s
  if (skipSpace rest).isEmpty then .ok x else .error .trailingCharacters

end ShardCut.Json
