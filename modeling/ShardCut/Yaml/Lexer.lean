import ShardCut.Yaml.BlockScalar
import ShardCut.Yaml.FlowScalar
import ShardCut.Yaml.Tag

/-!
From a text to its tokens. The lexer keeps the place in the text, how far the open blocks are
indented, how deep it is in brackets, and where a key may have started.

Only the colon after a key tells that it was one. So wherever a key may start, the lexer leaves a
gap in the tokens, and the colon fills the gap of the innermost open bracket. A key must end on the
line where it starts and be at most 1024 octets long. In block context a key is due where a line
is indented as far as the block; there it is a fault if the colon does not come.

Main definitions: `Lexer`, `Lexer.tokens?`.
-/

namespace ShardCut.Yaml

/-- A place where a key may have started: its gap among the tokens, and whether a key is due there.
    -/
structure KeyStart where
  gap : Nat
  due : Bool
  index : Nat
  line : Nat
  column : Nat
deriving DecidableEq, Repr

/-- The state of the lexer. The margin is the least column for what belongs to the innermost block:
    one more than its indentation, and zero if no block is open. -/
structure Lexer where
  cursor : Cursor
  groups : Array (List Token)
  margin : Nat
  margins : List Nat
  keyStart : Option KeyStart
  outerKeyStarts : List (Option KeyStart)
  keyAllowed : Bool
deriving Repr

namespace Lexer

/-- The state before a text. -/
def start (text : List Char) : Lexer where
  cursor := .start text
  groups := #[]
  margin := 0
  margins := []
  keyStart := none
  outerKeyStarts := []
  keyAllowed := true

def inFlow (l : Lexer) : Bool := !l.outerKeyStarts.isEmpty

def emit (l : Lexer) (token : Token) : Lexer := { l with groups := l.groups.push [token] }

/-- Appends a token and passes its characters. -/
def emitSkip (l : Lexer) (token : Token) (count : Nat) : Lexer :=
  { l.emit token with cursor := l.cursor.skip count }

/-- Appends a token that was read up to a place. -/
def emitRead (l : Lexer) (read : Token × Cursor) : Lexer :=
  { l.emit read.1 with cursor := read.2 }

/-! ### Keys -/

/-- A place cannot be the start of a key any more. This is a fault if a key is due there. -/
def giveUp : Option KeyStart → Option Unit
  | some start => if start.due then none else some ()
  | none => some ()

/-- Gives up the place where a key may have started. -/
def dropKey (l : Lexer) : Option Lexer := do
  giveUp l.keyStart
  return { l with keyStart := none }

/-- Remembers that a key may start here, if it may. -/
def markKey (l : Lexer) : Option Lexer :=
  if !l.keyAllowed then some l
  else do
    let c := l.cursor
    let start : KeyStart :=
      ⟨l.groups.size, !l.inFlow && l.margin = c.column + 1, c.index, c.line, c.column⟩
    let l ← l.dropKey
    return { l with keyStart := some start, groups := l.groups.push [] }

/-- Whether a key that started there may still end here. -/
def reaches (c : Cursor) (start : KeyStart) : Bool :=
  start.line = c.line && c.index ≤ start.index + 1024

/-- Gives up a place that is too far away. -/
def keepNear (c : Cursor) (start? : Option KeyStart) : Option (Option KeyStart) :=
  if start?.all (reaches c) then some start?
  else do
    giveUp start?
    return none

/-- Gives up the places that are too far away. -/
def dropFarKeys (l : Lexer) : Option Lexer := do
  let keyStart ← keepNear l.cursor l.keyStart
  let outerKeyStarts ← l.outerKeyStarts.mapM (keepNear l.cursor)
  return { l with keyStart, outerKeyStarts }

/-! ### Blocks -/

/-- Opens a block at a column if it is indented further than the block around it. -/
def openBlock (l : Lexer) (column : Nat) : Lexer × Bool :=
  if !l.inFlow && l.margin ≤ column then
    ({ l with margin := column + 1, margins := l.margin :: l.margins }, true)
  else (l, false)

/-- Opens a block here, where it needs to be opened. -/
def openBlockHere (l : Lexer) (token : Token) : Lexer :=
  match l.openBlock l.cursor.column with
  | (l, true) => l.emit token
  | (l, false) => l

/-- How many blocks end when a line has a smaller margin, and the margins that are left. -/
def blocksAbove (margin : Nat) (current : Nat) : List Nat → Nat × Nat × List Nat
  | [] => (0, current, [])
  | outer :: margins =>
    if margin < current then
      let (count, current, margins) := blocksAbove margin outer margins
      (count + 1, current, margins)
    else (0, current, outer :: margins)

/-- Closes the blocks that are indented further than the margin tells. -/
def closeBlocks (l : Lexer) (margin : Nat) : Lexer :=
  if l.inFlow then l
  else
    let (count, margin, margins) := blocksAbove margin l.margin l.margins
    { l with margin, margins, groups := l.groups ++ Array.replicate count [Token.blockEnd] }

/-! ### Tokens -/

/-- Passes blanks, comments and line breaks, and a byte order mark that opens a line, which takes a
    column like any character. A tab counts as a blank where no key may start. -/
def skipSpace : (fuel : Nat) → Lexer → Lexer
  | 0, l => l
  | fuel + 1, l =>
    let c := l.cursor
    let c := if c.column = 0 && c.sees byteOrderMark then c.skip 1 else c
    let c := c.skipWhile fun char => char = ' ' || (char = '\t' && (l.inFlow || !l.keyAllowed))
    let c := c.skipComment
    if c.atBreak then
      skipSpace fuel { l with cursor := c.skipBreak, keyAllowed := l.keyAllowed || !l.inFlow }
    else { l with cursor := c }

/-- Ends all blocks, at the end of the text, at a directive or at the mark of a document. -/
def endBlocks (l : Lexer) : Option Lexer := do
  let l ← (l.closeBlocks 0).dropKey
  return { l with keyAllowed := false }

def directive (l : Lexer) : Option Lexer := do
  let l ← l.endBlocks
  let read ← takeDirective (l.cursor.skip 1)
  return l.emitRead read

/-- Reads the mark at which a document starts or ends. -/
def documentMark (l : Lexer) (token : Token) : Option Lexer := do
  let l ← l.endBlocks
  return l.emitSkip token 3

/-- Reads an opening bracket. It may start a key, and a key may start after it. -/
def openFlow (l : Lexer) (token : Token) : Option Lexer := do
  let l ← l.markKey
  return { l.emitSkip token 1 with
    keyStart := none
    outerKeyStarts := l.keyStart :: l.outerKeyStarts
    keyAllowed := true }

/-- Reads a closing bracket. A key that is still open may be the one that it belongs to. -/
def closeFlow (l : Lexer) (token : Token) : Option Lexer := do
  let l ← l.dropKey
  let l := match l.outerKeyStarts with
    | [] => l
    | keyStart :: outerKeyStarts => { l with keyStart, outerKeyStarts }
  return { l.emitSkip token 1 with keyAllowed := false }

def flowEntry (l : Lexer) : Option Lexer := do
  let l ← l.dropKey
  return { l.emitSkip .flowEntry 1 with keyAllowed := true }

/-- Reads the hyphen before an item. -/
def blockEntry (l : Lexer) : Option Lexer := do
  if !l.inFlow && !l.keyAllowed then none
  let l ← (l.openBlockHere .blockSequenceStart).dropKey
  return { l.emitSkip .blockEntry 1 with keyAllowed := true }

/-- Reads the question mark before a key. -/
def explicitKey (l : Lexer) : Option Lexer := do
  if !l.inFlow && !l.keyAllowed then none
  let l ← (l.openBlockHere .blockMappingStart).dropKey
  return { l.emitSkip .key 1 with keyAllowed := !l.inFlow }

/-- Fills the gap at which a key has started, and opens a block there if need be. -/
def fillGap (l : Lexer) (start : KeyStart) : Lexer :=
  let (l, opened) := l.openBlock start.column
  let tokens := if opened then [.blockMappingStart, .key] else [.key]
  { l with groups := l.groups.setIfInBounds start.gap tokens, keyStart := none }

/-- Reads the colon before a value. If a key may have started, this tells that it has. -/
def value (l : Lexer) : Option Lexer :=
  match l.keyStart with
  | some start => some { (l.fillGap start).emitSkip .value 1 with keyAllowed := false }
  | none =>
    if !l.inFlow && !l.keyAllowed then none
    else
      some { (l.openBlockHere .blockMappingStart).emitSkip .value 1 with keyAllowed := !l.inFlow }

def anchor (l : Lexer) (token : String → Token) : Option Lexer := do
  let l ← l.markKey
  let (name, c) ← takeAnchorName (l.cursor.skip 1)
  return { l.emitRead (token name, c) with keyAllowed := false }

def tag (l : Lexer) : Option Lexer := do
  let l ← l.markKey
  let read ← takeTag l.inFlow l.cursor
  return { l.emitRead read with keyAllowed := false }

def blockScalar (l : Lexer) (style : Style) : Option Lexer := do
  let l ← l.dropKey
  let (text, c) ← takeBlock style l.margin (l.cursor.skip 1)
  return { l.emitRead (.scalar style (String.ofList text), c) with keyAllowed := true }

def quotedScalar (l : Lexer) (quote : Char) (style : Style) : Option Lexer := do
  let l ← l.markKey
  let c := l.cursor.skip 1
  let (text, c) ← takeQuoted quote c.bound c
  return { l.emitRead (.scalar style (String.ofList text), c) with keyAllowed := false }

/-- Reads a plain scalar. If it ends on a new line, a key may start there. -/
def plainScalar (l : Lexer) : Option Lexer := do
  let l ← l.markKey
  let (text, broken, c) ← takePlain l.inFlow l.margin l.cursor.bound [] false l.cursor
  return { l.emitRead (.scalar .plain (String.ofList text), c) with keyAllowed := broken }

/-- Characters with which no plain scalar starts, unless another character clings to them. -/
def isIndicator (c : Char) : Bool :=
  isGap c || isBreak c || "-?:,[]\x7b\x7d#&*!|>'\"%@\x60".toList.contains c

def startsPlain (l : Lexer) (char : Char) : Bool :=
  !isIndicator char || (char = '-' && !l.cursor.rest[1]?.any isGap) ||
    (!l.inFlow && (char = '?' || char = ':') && !l.cursor.clearAt 1)

/-- Reads the token that starts with a character. -/
def tokenFrom (l : Lexer) (char : Char) : Option Lexer :=
  let c := l.cursor
  if c.column = 0 && char = '%' then l.directive
  else if c.marks '-' then l.documentMark .documentStart
  else if c.marks '.' then l.documentMark .documentEnd
  else if char = '[' then l.openFlow .flowSequenceStart
  else if char = '{' then l.openFlow .flowMappingStart
  else if char = ']' then l.closeFlow .flowSequenceEnd
  else if char = '}' then l.closeFlow .flowMappingEnd
  else if char = ',' then l.flowEntry
  else if char = '-' && c.clearAt 1 then l.blockEntry
  else if char = '?' && (l.inFlow || c.clearAt 1) then l.explicitKey
  else if char = ':' && (l.inFlow || c.clearAt 1) then l.value
  else if char = '*' then l.anchor .alias
  else if char = '&' then l.anchor .anchor
  else if char = '!' then l.tag
  else if char = '|' && !l.inFlow then l.blockScalar .literal
  else if char = '>' && !l.inFlow then l.blockScalar .folded
  else if char = '\'' then l.quotedScalar '\'' .singleQuoted
  else if char = '"' then l.quotedScalar '"' .doubleQuoted
  else if l.startsPlain char then l.plainScalar
  else none

/-- Reads all tokens from here on. -/
def finish : (fuel : Nat) → Lexer → Option Lexer
  | 0, _ => none
  | fuel + 1, l => do
    let l ← (l.skipSpace l.cursor.bound).dropFarKeys
    let l := l.closeBlocks (l.cursor.column + 1)
    match l.cursor.head? with
    | none => l.endBlocks
    | some char =>
      let l ← l.tokenFrom char
      finish fuel l

end Lexer

/-- The tokens of a text. There are none if a character is not allowed, or if the text breaks a rule
    of the tokens. -/
def tokens? (text : String) : Option (List Token) := do
  let chars := text.toList
  if !chars.all isAllowed then none
  let l ← (Lexer.start chars).finish (chars.length + 1)
  return l.groups.toList.flatten

example : tokens? "a: b" =
    some [.blockMappingStart, .key, .scalar .plain "a", .value, .scalar .plain "b", .blockEnd] := by
  decide +kernel

end ShardCut.Yaml
