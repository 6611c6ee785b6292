import ShardCut.Json.Fault

/-!
Scalars of JSON: words, numerals and strings. A reader takes the text that is left and gives back
what it read and the text after that, or the first fault it met. Blank space is skipped by
`skipSpace` only, and only the four characters of JSON count as blank.

Main definitions: `Reader`, `readNumber`, `readString`, `readScalar`.
-/

namespace ShardCut.Json

/-- A reader of a prefix of the text. -/
abbrev Reader (α : Type) := List Char → Except Fault (α × List Char)

/-- The four characters that may stand between the tokens of a JSON text. -/
def isSpace (c : Char) : Bool := c = ' ' || c = '\t' || c = '\n' || c = '\r'

/-- Drops the space in front of a token. -/
def skipSpace (s : List Char) : List Char := s.dropWhile isSpace

/-- Reads the remaining letters of a word, whose first letter has been seen. What follows the last
    letter is not part of the word. -/
def readWord {α : Type} (value : α) : (letters : List Char) → Reader α
  | [], s => .ok (value, s)
  | _ :: _, [] => .error .endInValue
  | l :: letters, c :: s => if c = l then readWord value letters s else .error .expectedWord

/-! ### Numerals -/

/-- The digits in front of the text, as values, and the text after them. -/
def takeDigits : List Char → List Nat × List Char
  | [] => ([], [])
  | c :: s =>
    match Text.digit? 10 c with
    | some d => let (ds, rest) := takeDigits s; (d :: ds, rest)
    | none => ([], c :: s)

/-- Reads one or more digits. If there is none, the fault depends on whether the text ended. -/
def readDigits : Reader (List Nat) := fun s =>
  match takeDigits s with
  | ([], []) => .error .endInValue
  | ([], _ :: _) => .error .invalidNumber
  | digits => .ok digits

/-- Reads the digits before the point: a single zero, or digits that do not start with zero. -/
def readWhole : Reader (List Nat) := fun s => do
  let (digits, rest) ← readDigits s
  if digits.head? = some 0 ∧ digits ≠ [0] then .error .invalidNumber else .ok (digits, rest)

def readFraction : Reader (Option (List Nat))
  | [] => .ok (none, [])
  | c :: s =>
    if c = '.' then do
      let (digits, rest) ← readDigits s
      .ok (some digits, rest)
    else .ok (none, c :: s)

/-- Splits an optional sign off; `true` stands for minus. -/
def takeSign : List Char → Bool × List Char
  | [] => (false, [])
  | c :: s => if c = '-' then (true, s) else if c = '+' then (false, s) else (false, c :: s)

def readExponent : Reader (Option (Bool × List Nat))
  | [] => .ok (none, [])
  | c :: s =>
    if c = 'e' ∨ c = 'E' then do
      let (negative, s) := takeSign s
      let (digits, rest) ← readDigits s
      .ok (some (negative, digits), rest)
    else .ok (none, c :: s)

/-- Reads the parts of a numeral, after its minus sign if it has one. -/
def readNumeral (negative : Bool) : Reader Numeral := fun s => do
  let (whole, s) ← readWhole s
  let (fraction, s) ← readFraction s
  let (exponent, s) ← readExponent s
  .ok (⟨negative, whole, fraction, exponent⟩, s)

/-- Reads a number, after its minus sign if it has one. -/
def readNumber (negative : Bool) : Reader Number := fun s => do
  let (numeral, s) ← readNumeral negative s
  match numeral.value? with
  | some value => .ok (value, s)
  | none => .error .numberOutOfRange

/-! ### Strings -/

/-- Reads the four hexadecimal digits of an escape. They are the next four bytes of the text, so the
    text ends inside the string if it has fewer bytes, and not if it has fewer characters. -/
def readHex : Reader Nat := fun s =>
  match (s.take 4).mapM (Text.digit? 16) with
  | some [a, b, c, d] => .ok (Text.ofDigits 16 [a, b, c, d], s.drop 4)
  | _ =>
    if (s.take 4).foldl (fun bytes c => bytes + c.utf8Size) 0 < 4 then .error .endInString
    else .error .invalidEscape

/-- Whether a 16-bit unit is the second one of a surrogate pair. -/
def isLowSurrogate (u : Nat) : Bool := 0xDC00 ≤ u && u ≤ 0xDFFF

/-- Whether a 16-bit unit is the first one of a surrogate pair. -/
def isHighSurrogate (u : Nat) : Bool := 0xD800 ≤ u && u ≤ 0xDBFF

/-- The character of a surrogate pair. -/
def ofSurrogates (high low : Nat) : Char :=
  Char.ofNat (0x10000 + (high - 0xD800) * 0x400 + (low - 0xDC00))

/-- Reads the escape of the second unit of a pair, from its backslash on. -/
def readLowSurrogate (high : Nat) : Reader Char
  | [] => .error .endInString
  | '\\' :: [] => .error .endInString
  | '\\' :: 'u' :: s => do
    let (low, s) ← readHex s
    if isLowSurrogate low then .ok (ofSurrogates high low, s) else .error .loneSurrogate
  | _ => .error .unfinishedSurrogatePair

/-- Reads a numbered escape, from its digits on. -/
def readUnicodeEscape : Reader Char := fun s => do
  let (unit, s) ← readHex s
  if isLowSurrogate unit then .error .loneSurrogate
  else if isHighSurrogate unit then readLowSurrogate unit s
  else .ok (Char.ofNat unit, s)

/-- The characters that are escaped by a letter or by themselves. -/
def letterEscape? (c : Char) : Option Char :=
  if c = '"' ∨ c = '\\' ∨ c = '/' then some c
  else if c = 'b' then some '\x08'
  else if c = 'f' then some '\x0c'
  else if c = 'n' then some '\n'
  else if c = 'r' then some '\r'
  else if c = 't' then some '\t'
  else none

/-- Reads an escape, after its backslash. -/
def readEscape : Reader Char
  | [] => .error .endInString
  | c :: s =>
    if c = 'u' then readUnicodeEscape s
    else match letterEscape? c with
      | some e => .ok (e, s)
      | none => .error .invalidEscape

/-- Reads the rest of a string, after its opening quote. Each round reads one character of it, so a
    text of `fuel` characters needs at most `fuel` rounds; `read` holds the characters so far, the
    last one first. -/
def readStringRest : (fuel : Nat) → (read : List Char) → Reader String
  | 0, _, _ => .error .endInString
  | _ + 1, _, [] => .error .endInString
  | fuel + 1, read, c :: s =>
    if c = '"' then .ok (String.ofList read.reverse, s)
    else if c = '\\' then do
      let (e, s) ← readEscape s
      readStringRest fuel (e :: read) s
    else if c.toNat < 0x20 then .error .controlCharacter
    else readStringRest fuel (c :: read) s

def readString : Reader String := fun s => readStringRest s.length [] s

/-- Reads a scalar. The text starts with it. -/
def readScalar : Reader Found
  | [] => .error .endInValue
  | c :: s =>
    if c = 'n' then readWord .null ['u', 'l', 'l'] s
    else if c = 't' then readWord (.bool true) ['r', 'u', 'e'] s
    else if c = 'f' then readWord (.bool false) ['a', 'l', 's', 'e'] s
    else if c = '-' then do
      let (value, s) ← readNumber true s
      .ok (.number value, s)
    else if (Text.digit? 10 c).isSome then do
      let (value, s) ← readNumber false (c :: s)
      .ok (.number value, s)
    else if c = '"' then do
      let (value, s) ← readString s
      .ok (.string value, s)
    else .error .expectedValue

end ShardCut.Json
