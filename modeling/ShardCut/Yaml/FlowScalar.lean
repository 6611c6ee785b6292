import ShardCut.Text.Numeral
import ShardCut.Yaml.Cursor

/-!
Scalars that may stand inside a line: plain ones and quoted ones. Both may go on over several lines,
and then they are folded: blanks around a line break do not count, a single break stands for a
space, and of several breaks the first one does not count.

Main definitions: `takeQuoted`, `takePlain`.
-/

namespace ShardCut.Yaml

/-- What the line breaks between two pieces of a scalar stand for. -/
def foldBreaks : List Char → List Char
  | '\n' :: [] => [' ']
  | '\n' :: others => others
  | breaks => breaks

/-- Passes line breaks, and the blanks at the start of each new line. Before the given column a tab
    is not allowed there. -/
def takeBreaks (margin : Nat) : (fuel : Nat) → Cursor → Option (List Char × Cursor)
  | 0, c => some ([], c)
  | fuel + 1, c =>
    match c.takeBreak with
    | (none, c) => some ([], c)
    | (some char, c) =>
      let (blanks, after) := c.takeWhile isGap
      if (blanks.take (margin - c.column)).contains '\t' then none
      else (takeBreaks margin fuel after).map fun (others, c) => (char :: others, c)

/-- Passes blanks and line breaks between two pieces of a scalar. Gives back what they stand for,
    and whether there was a line break. -/
def takeGap (margin : Nat) (c : Cursor) : Option (List Char × Bool × Cursor) := do
  let (blanks, c) := c.takeWhile isGap
  let (breaks, c) ← takeBreaks margin c.bound c
  return (if breaks.isEmpty then blanks else foldBreaks breaks, !breaks.isEmpty, c)

/-! ### Quoted scalars -/

/-- What one letter after a backslash stands for. -/
def escapedChar? : Char → Option Char
  | '0' => some '\x00'
  | 'a' => some '\x07'
  | 'b' => some '\x08'
  | 't' => some '\t'
  | '\t' => some '\t'
  | 'n' => some '\n'
  | 'v' => some '\x0B'
  | 'f' => some '\x0C'
  | 'r' => some '\r'
  | 'e' => some '\x1B'
  | ' ' => some ' '
  | '"' => some '"'
  | '/' => some '/'
  | '\\' => some '\\'
  | 'N' => some '\u0085'
  | '_' => some '\u00A0'
  | 'L' => some '\u2028'
  | 'P' => some '\u2029'
  | _ => none

/-- How many hexadecimal digits follow a letter after a backslash. -/
def escapeLength : Char → Nat
  | 'x' => 2
  | 'u' => 4
  | 'U' => 8
  | _ => 0

/-- The character of a code, unless the code is a surrogate or too large. -/
def charOfCode? (code : Nat) : Option Char :=
  if code.isValidChar then some (Char.ofNat code) else none

def takeEscape (c : Cursor) : Option (Char × Cursor) :=
  match c.rest with
  | [] => none
  | letter :: rest =>
    match escapedChar? letter with
    | some char => some (char, c.skip 1)
    | none =>
      let digits := rest.take (escapeLength letter)
      if digits.isEmpty || digits.length < escapeLength letter then none
      else do
        let code ← Text.readNat? 16 digits
        let char ← charOfCode? code
        return (char, c.skip (1 + digits.length))

/-- Reads a quoted scalar after its opening quote. A quote inside single quotes is written twice; a
    backslash inside double quotes starts an escape, and a line break after it counts for nothing.
    -/
def takeQuoted (quote : Char) : (fuel : Nat) → Cursor → Option (List Char × Cursor)
  | 0, _ => none
  | fuel + 1, c =>
    if c.atDocumentMark then none
    else match c.rest with
    | [] => none
    | char :: rest =>
      if char = quote then
        if quote = '\'' && rest.head? == some '\'' then
          (takeQuoted quote fuel (c.skip 2)).map fun (text, c) => ('\'' :: text, c)
        else some ([], c.skip 1)
      else if isGap char || isBreak char then do
        let (gap, _, c) ← takeGap 0 c
        let (text, c) ← takeQuoted quote fuel c
        return (gap ++ text, c)
      else if quote = '"' && char = '\\' then
        if (c.skip 1).atBreak then do
          let c := (c.skip 1).skipBreak.skipWhile isGap
          let (breaks, c) ← takeBreaks 0 c.bound c
          let (text, c) ← takeQuoted quote fuel c
          return (breaks ++ text, c)
        else do
          let (char, c) ← takeEscape (c.skip 1)
          let (text, c) ← takeQuoted quote fuel c
          return (char :: text, c)
      else (takeQuoted quote fuel (c.skip 1)).map fun (text, c) => (char :: text, c)

/-! ### Plain scalars -/

/-- A character that separates or closes in flow context. -/
def isFlowMark (c : Char) : Bool := c = ',' || c = '[' || c = ']' || c = '{' || c = '}'

/-- The characters of a plain scalar up to the next blank or to the end of the scalar. In flow
    context a colon must not cling to a mark. -/
def plainPiece (inFlow : Bool) : List Char → Option (List Char)
  | [] => some []
  | char :: rest =>
    if isGap char || isBreak char then some []
    else if char = ':' && rest.head?.all fun c => isGap c || isBreak c then some []
    else if inFlow && char = ':' && rest.head?.any fun c => isFlowMark c || c = '?' then none
    else if inFlow && isFlowMark char then some []
    else (plainPiece inFlow rest).map (char :: ·)

/-- Reads the further pieces of a plain scalar, each with the gap before it. The Boolean tells
    whether the place behind the scalar is on a new line. -/
def takePlain (inFlow : Bool) (margin : Nat) :
    (fuel : Nat) → (gap : List Char) → (broken : Bool) → Cursor → Option (List Char × Bool × Cursor)
  | 0, _, broken, c => some ([], broken, c)
  | fuel + 1, gap, broken, c =>
    if c.atDocumentMark || c.sees '#' then some ([], broken, c)
    else do
      let piece ← plainPiece inFlow c.rest
      if piece.isEmpty then return ([], broken, c)
      let c := c.skip piece.length
      if !c.head?.any fun char => isGap char || isBreak char then return (gap ++ piece, false, c)
      let (gap', broken, c) ← takeGap margin c
      if !inFlow && c.column < margin then return (gap ++ piece, broken, c)
      let (text, broken, c) ← takePlain inFlow margin fuel gap' broken c
      return (gap ++ piece ++ text, broken, c)

end ShardCut.Yaml
