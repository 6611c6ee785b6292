import ShardCut.Json.Reader
import ShardCut.Name

/-!
Names in JSON. A name is written as an integer or as a string, without a tag. A list of names is an
array of them; every element is first read as a value, and only then has to be a name.

Main definitions: `parseNames`, `writeNames`.
-/

namespace ShardCut.Json

/-- The name that a value stands for. -/
def Found.name? : Found → Option VertexName
  | .number (.integer value) =>
    if Text.FitsInt64 value then some (.number (Int64.ofInt value)) else none
  | .string value => some (.text value)
  | _ => none

def readName (depth : Nat) : Reader VertexName := fun s => do
  let (found, s) ← readItem depth s
  match found.name? with
  | some name => .ok (name, s)
  | none => .error .notAName

/-- Reads a list of names, in which `depth` brackets may be opened, its own included. -/
def readNames (depth : Nat) : Reader (List VertexName) := fun s =>
  match skipSpace s with
  | [] => .error .endInValue
  | c :: s =>
    if c = '[' then
      match depth with
      | 0 => .error .tooDeep
      | depth + 1 => readArray (readName depth) s
    else wrongType .list (c :: s)

/-- Reads a text that holds one list of names. -/
def parseNames (text : String) : Except Fault (List VertexName) :=
  readText (readNames depthLimit) text.toList

def writeName : VertexName → List Char
  | .number value => (toString value.toInt).toList
  | .text value => Text.jsonQuoted value.toList

/-- A list of names as JSON, without any space. -/
def writeNames (names : List VertexName) : List Char :=
  '[' :: ((names.map writeName).intersperse [',']).flatten ++ [']']

end ShardCut.Json
