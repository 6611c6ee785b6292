import ShardCut.Capacity
import ShardCut.Digraph
import ShardCut.Failure
import ShardCut.Text.Blank

/-!
Graph files. A file is a sequence of lines and a line is a sequence of tokens; the first token says
what the line records:

* `v NAME ...` records a vertex,
* `e SOURCE TARGET ...` records an edge,
* `t VERTICES EDGES` announces how many are to come, on the first line only.

Further tokens of a vertex or edge line are ignored, and so are lines without tokens and lines whose
first token starts with `#`. A carriage return is a blank character, so it needs no rule of its own.
The first line that is not well formed decides the failure.

Main definitions: `Digraph.recordOf`, `Digraph.readLine`, `Digraph.read`.
-/

namespace ShardCut.Digraph

inductive Record where
  | nothing
  | counts (vertices edges : Nat)
  | vertex (name : VertexName)
  | edge (source target : VertexName)
deriving DecidableEq, Repr

/-- From here on a count announces more vertices than can be addressed: a name takes 24 bytes. -/
def vertexBound : Nat := recordBound 24

/-- From here on a count announces more edges than can be addressed: an edge takes two names. -/
def edgeBound : Nat := recordBound 48

/-- The name that a token stands for. -/
def nameOf (token : List Char) : VertexName := .ofToken (String.ofList token)

/-- The counts of a line of metadata. -/
def countsOf (vertices edges : List Char) : Except LineFault Record :=
  match Text.readCount? vertices, Text.readCount? edges with
  | none, _ => .error .vertexCountMalformed
  | some _, none => .error .edgeCountMalformed
  | some v, some e => .ok (.counts v e)

/-- What the tokens of a line record. -/
def recordOf (line : Nat) : List (List Char) → Except LineFault Record
  | [] => .ok .nothing
  | token :: rest =>
    if token.head? = some '#' then .ok .nothing
    else if token = ['t'] then
      match rest with
      | [vertices, edges] =>
        if line = 1 then countsOf vertices edges else .error .metadataMisplaced
      | _ => .error .metadataMisplaced
    else if token = ['v'] then
      match rest with
      | name :: _ => .ok (.vertex (nameOf name))
      | [] => .error .vertexWithoutName
    else if token = ['e'] then
      match rest with
      | source :: target :: _ => .ok (.edge (nameOf source) (nameOf target))
      | _ => .error .edgeWithoutEnds
    else .error (.unknownRecord (String.ofList token))

/-- The text of a line. -/
def textOf? (bytes : List UInt8) : Option String := String.fromUTF8? ⟨bytes.toArray⟩

/-- What a line records, by its number and its bytes. -/
def readLine (line : Nat) (bytes : List UInt8) : Except Failure Record :=
  match textOf? bytes with
  | none => .error .unreadable
  | some text =>
    match recordOf line (Text.words text.toList) with
    | .error fault => .error (.badLine line fault)
    | .ok (.counts v e) =>
      if v < vertexBound ∧ e < edgeBound then .ok (.counts v e)
      else .error (.abort .capacityOverflow)
    | .ok record => .ok record

/-- Reads the lines from the given number on. -/
def readLines (line : Nat) : List (List UInt8) → Except Failure (List Record)
  | [] => .ok []
  | bytes :: rest => do
    let record ← readLine line bytes
    let records ← readLines (line + 1) rest
    .ok (record :: records)

/-- The graph that a file records, in file order. -/
def ofRecords (records : List Record) : Digraph where
  vertices := records.filterMap fun
    | .vertex name => some name
    | _ => none
  edges := records.filterMap fun
    | .edge source target => some (source, target)
    | _ => none

def read (bytes : List UInt8) : Except Failure Digraph :=
  (readLines 1 (Text.lines bytes)).map ofRecords

end ShardCut.Digraph
