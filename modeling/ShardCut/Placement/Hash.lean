import ShardCut.Name

/-!
The hash that spreads names over shards. It is unseeded, so a name always has the same hash. A state
of 64 bits takes up one word after the other: it is rotated by five bits, mixed with the word by
exclusive or, and multiplied by an odd constant.

A name is fed as a word for its kind and its content. A text is fed in little-endian words, as wide
as the bytes that are left allow, and closed by a word that is no byte of a text.

Main definitions: `hashName`.
-/

namespace ShardCut.Placement

/-- The multiplier: an odd word with its bits spread evenly. -/
def multiplier : UInt64 := 0x517CC1B727220A95

def rotateFive (w : UInt64) : UInt64 := (w <<< 5) ||| (w >>> 59)

/-- Takes up one word. -/
def mix (state word : UInt64) : UInt64 := (rotateFive state ^^^ word) * multiplier

/-- The number with these bytes, the least significant first. -/
def littleEndian (bytes : List UInt8) : UInt64 :=
  bytes.foldr (fun byte word => (word <<< 8) ||| byte.toUInt64) 0

/-- Takes up the bytes that are too few for a word of eight: at most one word each of four, two and
    one bytes. -/
def mixRest (state : UInt64) (bytes : List UInt8) : UInt64 :=
  let step (state : UInt64 × List UInt8) (width : Nat) : UInt64 × List UInt8 :=
    if width ≤ state.2.length then
      (mix state.1 (littleEndian (state.2.take width)), state.2.drop width)
    else state
  ([4, 2, 1].foldl step (state, bytes)).1

/-- Takes up bytes in words of eight. -/
def mixBytes (state : UInt64) (bytes : List UInt8) : UInt64 :=
  match bytes with
  | a :: b :: c :: d :: e :: f :: g :: h :: rest =>
    mixBytes (mix state (littleEndian [a, b, c, d, e, f, g, h])) rest
  | rest => mixRest state rest

/-- The hash of a name. -/
def hashName : VertexName → UInt64
  | .number value => mix (mix 0 0) value.toUInt64
  | .text value => mix (mixBytes (mix 0 1) value.toUTF8.data.toList) 0xFF

end ShardCut.Placement
