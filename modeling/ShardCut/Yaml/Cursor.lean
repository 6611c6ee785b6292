/-!
A place in a YAML text: what is left of it, and where that starts. Columns and lines decide what a
YAML text means, so every character that is passed is counted.

Lines end at a line feed, a carriage return, both together, a next line, a line separator or a
paragraph separator. A break stands for a line feed, except that the two separators stand for
themselves.

Main definitions: `Cursor`.
-/

namespace ShardCut.Yaml

/-- A place in a text. The index counts the octets before it in UTF-8, the column the characters of
    its line. The bound is one more than the length of the whole text, so no loop over what is left
    takes more rounds. -/
structure Cursor where
  rest : List Char
  index : Nat
  line : Nat
  column : Nat
  bound : Nat
deriving DecidableEq, Repr

/-- A blank inside a line. -/
def isGap (c : Char) : Bool := c = ' ' || c = '\t'

/-- A character that ends a line. -/
def isBreak (c : Char) : Bool :=
  c = '\n' || c = '\r' || c = '\u0085' || c = '\u2028' || c = '\u2029'

/-- The character that a line break stands for. -/
def breakChar (c : Char) : Char := if c = '\u2028' || c = '\u2029' then c else '\n'

/-- The mark that may open a text, and each line of it. -/
def byteOrderMark : Char := '\uFEFF'

/-- A character that may be part of a name: a letter, a digit, a low line or a hyphen. -/
def isWord (c : Char) : Bool := c.isAlphanum || c = '_' || c = '-'

/-- A character that may stand in a text at all. -/
def isAllowed (c : Char) : Bool :=
  c = '\t' || c = '\n' || c = '\r' || (0x20 ≤ c.val && c.val ≤ 0x7E) || c.val = 0x85 ||
    (0xA0 ≤ c.val && c.val ≤ 0xFFFD) || 0x10000 ≤ c.val

namespace Cursor

def start (text : List Char) : Cursor := ⟨text, 0, 0, 0, text.length + 1⟩

def head? (c : Cursor) : Option Char := c.rest.head?

def sees (c : Cursor) (char : Char) : Bool := c.head? == some char

/-- Whether a blank, a line break or the end of the text stands after so many characters. -/
def clearAt (c : Cursor) (offset : Nat) : Bool :=
  match c.rest[offset]? with
  | none => true
  | some char => isGap char || isBreak char

def atBreak (c : Cursor) : Bool := c.head?.any isBreak

/-- Whether a line break or the end of the text comes next. -/
def atLineEnd (c : Cursor) : Bool := c.head?.all isBreak

/-- The index behind so many characters. -/
def indexAfter (c : Cursor) (count : Nat) : Nat :=
  (c.rest.take count).foldl (fun index char => index + char.utf8Size) c.index

/-- Passes characters of a line. -/
def skip (c : Cursor) (count : Nat) : Cursor :=
  { c with
    rest := c.rest.drop count, index := c.indexAfter count, column := c.column + count }

/-- Passes the characters of a line that satisfy a test, and gives them back. -/
def takeWhile (c : Cursor) (test : Char → Bool) : List Char × Cursor :=
  let taken := c.rest.takeWhile test
  (taken, c.skip taken.length)

def skipWhile (c : Cursor) (test : Char → Bool) : Cursor := (c.takeWhile test).2

def skipComment (c : Cursor) : Cursor :=
  if c.sees '#' then c.skipWhile fun char => !isBreak char else c

/-- The start of the next line, after a line break of so many characters. -/
def nextLine (c : Cursor) (count : Nat) : Cursor :=
  { c with
    rest := c.rest.drop count, index := c.indexAfter count, line := c.line + 1, column := 0 }

/-- Passes a line break, if there is one, and gives back what it stands for. -/
def takeBreak (c : Cursor) : Option Char × Cursor :=
  match c.rest with
  | '\r' :: '\n' :: _ => (some '\n', c.nextLine 2)
  | char :: _ => if isBreak char then (some (breakChar char), c.nextLine 1) else (none, c)
  | [] => (none, c)

def skipBreak (c : Cursor) : Cursor := c.takeBreak.2

/-- Passes what may follow a directive or the head of a block scalar on its line: blanks, a comment,
    the line break. -/
def skipLineRest (c : Cursor) : Option Cursor :=
  let c := (c.skipWhile isGap).skipComment
  if c.atLineEnd then some c.skipBreak else none

/-- Whether three such characters open the line and nothing clings to them. -/
def marks (c : Cursor) (char : Char) : Bool :=
  c.column = 0 && c.rest.take 3 == [char, char, char] && c.clearAt 3

/-- Whether a document starts or ends here. -/
def atDocumentMark (c : Cursor) : Bool := c.marks '-' || c.marks '.'

end Cursor

end ShardCut.Yaml
