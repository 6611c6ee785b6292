import ShardCut.Yaml.Token
import ShardCut.Yaml.Cursor

/-!
Block scalars: the lines below a bar or a greater sign, as far as they are indented. The head may
say how far they are indented, and what happens to the line breaks at the end. Literal scalars keep
their line breaks, folded ones turn a break between two lines that start with no blank into a space.

Main definitions: `takeBlock`.
-/

namespace ShardCut.Yaml

/-- What happens to the line breaks at the end of a block scalar. -/
inductive Chomping where
  | strip
  | clip
  | keep
deriving DecidableEq, Repr

/-- Reads a sign of the head. -/
def takeChomping (c : Cursor) : Option Chomping × Cursor :=
  if c.sees '+' then (some .keep, c.skip 1)
  else if c.sees '-' then (some .strip, c.skip 1)
  else (none, c)

/-- Reads a digit of the head. Zero is refused. -/
def takeIncrement (c : Cursor) : Option (Option Nat × Cursor) :=
  match c.head? with
  | some char =>
    if char.isDigit then
      if char = '0' then none else some (some (char.toNat - '0'.toNat), c.skip 1)
    else some (none, c)
  | none => some (none, c)

/-- Reads the head: a sign and a digit, in either order, each of which may be missing. -/
def takeHead (c : Cursor) : Option (Chomping × Option Nat × Cursor) := do
  let (sign, c) := takeChomping c
  let (increment, c) ← takeIncrement c
  if sign.isNone && increment.isSome then
    let (sign, c) := takeChomping c
    return (sign.getD .clip, increment, c)
  return (sign.getD .clip, increment, c)

/-- Passes the blank lines up to the next content. While the indentation is not known, it is at
    least as wide as the widest of these lines. A tab is not allowed inside the indentation. -/
def takeBlankLines (indent? : Option Nat) :
    (fuel : Nat) → (widest : Nat) → Cursor → Option (List Char × Nat × Cursor)
  | 0, widest, c => some ([], widest, c)
  | fuel + 1, widest, c =>
    let spaces := (c.rest.takeWhile (· = ' ')).length
    let c := c.skip (indent?.elim spaces fun indent => min spaces (indent - c.column))
    let widest := max widest c.column
    if indent?.all (c.column < ·) && c.sees '\t' then none
    else match c.takeBreak with
    | (none, c) => some ([], widest, c)
    | (some char, c) =>
      (takeBlankLines indent? fuel widest c).map fun (others, widest, c) =>
        (char :: others, widest, c)

/-- What the break before a line stands for, with the blank lines after it. -/
def joinLines (style : Style) (break? : Option Char) (others : List Char)
    (blankBefore blankAfter : Bool) : List Char :=
  if style = .folded && break? == some '\n' && !blankBefore && !blankAfter then
    if others.isEmpty then [' '] else others
  else break?.toList ++ others

/-- Reads the lines of a block scalar, each with the breaks before it. Gives back the breaks at the
    end apart from the text: the one that ends the last line, and the blank lines. -/
def takeLines (style : Style) (indent : Nat) :
    (fuel : Nat) → (break? : Option Char) → (others : List Char) → (blankBefore : Bool) → Cursor →
      Option (List Char × Option Char × List Char × Cursor)
  | 0, break?, others, _, c => some ([], break?, others, c)
  | fuel + 1, break?, others, blankBefore, c =>
    if c.column ≠ indent || c.rest.isEmpty then some ([], break?, others, c)
    else do
      let blank := c.head?.any isGap
      let joined := joinLines style break? others blankBefore blank
      let (content, c) := c.takeWhile fun char => !isBreak char
      let (break?, c) := c.takeBreak
      let (others, _, c) ← takeBlankLines (some indent) c.bound 0 c
      let (text, break?, others, c) ← takeLines style indent fuel break? others blank c
      return (joined ++ content ++ text, break?, others, c)

/-- Reads a block scalar after its first character. The margin is the least column at which content
    of the current block may stand. -/
def takeBlock (style : Style) (margin : Nat) (c : Cursor) : Option (List Char × Cursor) := do
  let (chomping, increment, c) ← takeHead c
  let c ← c.skipLineRest
  let stated := increment.map fun increment => margin - 1 + increment
  let (others, widest, c) ← takeBlankLines stated c.bound 0 c
  let indent := stated.getD (max widest (max margin 1))
  let (text, break?, others, c) ← takeLines style indent c.bound none others false c
  let tail := match chomping with
    | .strip => []
    | .clip => break?.toList
    | .keep => break?.toList ++ others
  return (text ++ tail, c)

end ShardCut.Yaml
