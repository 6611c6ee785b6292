import ShardCut.IdSet
import ShardCut.Mesh.Collective

/-!
Messages of bytes. A word is eight bytes, the lowest first. A text is its length in bytes as a word
and then its bytes; a list is its length as a word and then its elements, and a set travels as the
list of its elements; a pair is its two components; no bytes stand for the unit. Nothing in a
message tells the type of what it holds, and bytes that are left over are ignored.

Names are written without a mark of their kind. So a name can be encoded, but no message can be
decoded as one.

Main definitions: `Codec.ofReader`, `Codec.word`, `Codec.text`, `Codec.words`, `Codec.edges`,
`Codec.names`.
-/

namespace ShardCut

/-- A message as a sequence of bytes. -/
abbrev Bytes := List UInt8

namespace Bytes

/-- The `count` lowest bytes of a number, the lowest first. -/
def ofNat : (count : Nat) → Nat → Bytes
  | 0, _ => []
  | count + 1, value => UInt8.ofNat value :: ofNat count (value / 256)

/-- The number of which these are the bytes, the lowest first. -/
def toNat (bytes : Bytes) : Nat := bytes.foldr (fun byte value => byte.toNat + 256 * value) 0

/-- Cuts off as many bytes, if there are. -/
def take? (count : Nat) (bytes : Bytes) : Option (Bytes × Bytes) :=
  if bytes.length < count then none else some (bytes.splitAt count)

def ofWord (word : UInt64) : Bytes := ofNat 8 word.toNat

def readWord (bytes : Bytes) : Option (UInt64 × Bytes) := do
  let (word, bytes) ← bytes.take? 8
  return (UInt64.ofNat word.toNat, bytes)

def ofLength (length : Nat) : Bytes := ofNat 8 length

def readLength (bytes : Bytes) : Option (Nat × Bytes) := do
  let (length, bytes) ← bytes.take? 8
  return (length.toNat, bytes)

def ofText (text : String) : Bytes :=
  let content := text.toByteArray.data.toList
  ofLength content.length ++ content

def readText (bytes : Bytes) : Option (String × Bytes) := do
  let (length, bytes) ← readLength bytes
  let (content, bytes) ← bytes.take? length
  let text ← String.fromUTF8? ⟨content.toArray⟩
  return (text, bytes)

def ofEdge (edge : GlobalId × GlobalId) : Bytes := ofWord edge.1 ++ ofWord edge.2

def readEdge (bytes : Bytes) : Option ((GlobalId × GlobalId) × Bytes) := do
  let (source, bytes) ← readWord bytes
  let (target, bytes) ← readWord bytes
  return ((source, target), bytes)

def ofName : VertexName → Bytes
  | .number value => ofWord value.toUInt64
  | .text value => ofText value

def ofItems {α : Type} (item : α → Bytes) (items : List α) : Bytes :=
  ofLength items.length ++ items.flatMap item

def readItems {α : Type} (item : Bytes → Option (α × Bytes)) :
    (count : Nat) → Bytes → Option (List α × Bytes)
  | 0, bytes => some ([], bytes)
  | count + 1, bytes => do
    let (first, bytes) ← item bytes
    let (others, bytes) ← readItems item count bytes
    return (first :: others, bytes)

def readList {α : Type} (item : Bytes → Option (α × Bytes)) (bytes : Bytes) :
    Option (List α × Bytes) := do
  let (length, bytes) ← readLength bytes
  readItems item length bytes

end Bytes

namespace Codec

/-- The codec of a writer and a reader that ignores what is left over. -/
def ofReader {α : Type} (write : α → Bytes) (read : Bytes → Option (α × Bytes)) :
    Codec Bytes α := ⟨write, fun bytes => (read bytes).map Prod.fst⟩

def unit : Codec Bytes Unit := ⟨fun () => [], fun _ => some ()⟩

def word : Codec Bytes UInt64 := ofReader Bytes.ofWord Bytes.readWord

def text : Codec Bytes String := ofReader Bytes.ofText Bytes.readText

def words : Codec Bytes (List UInt64) :=
  ofReader (Bytes.ofItems Bytes.ofWord) (Bytes.readList Bytes.readWord)

def edges : Codec Bytes IdPairs :=
  ofReader (Bytes.ofItems Bytes.ofEdge) (Bytes.readList Bytes.readEdge)

/-- The codec of names, which never decodes. -/
def name : Codec Bytes VertexName := ⟨Bytes.ofName, fun _ => none⟩

/-- The codec of lists of names, which decodes the empty list only. -/
def names : Codec Bytes (List VertexName) :=
  ofReader (Bytes.ofItems Bytes.ofName) (Bytes.readList fun _ => none)

end Codec

example : Bytes.ofWord 0x0102 = [2, 1, 0, 0, 0, 0, 0, 0] := by decide
example : Codec.word.decode? (Bytes.ofWord 0xC000000000000005) = some 0xC000000000000005 := by
  decide
example : Codec.names.decode? (Codec.names.encode []) = some [] := by decide
example : Codec.names.decode? (Codec.names.encode [.number 1]) = none := by decide

end ShardCut
