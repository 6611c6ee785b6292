import ShardCut.Json.Names
import ShardCut.Proofs.Text.Numeral

/-!
The JSON texts that are lists of names, as a grammar. Every relation here ties a value to the texts
that it may be written as; there may be many, since characters can be escaped and space can stand
around every token. What may be read is stated without the readers.

Main definitions: `IntegerLiteral`, `Spells`, `NameLiteral`, `Elements`, `ListText`.
-/

namespace ShardCut

namespace Json

open Text

/-! ### Integers -/

/-- The digits of an integer: a zero alone, or digits that do not begin with one. -/
inductive Whole : List Char → Prop where
  | zero : Whole ['0']
  | digits {c : Char} {cs : List Char} (lead : c ≠ '0') (run : ∀ d ∈ c :: cs, d.isDigit = true) :
      Whole (c :: cs)

/-- An integer as it is written. A minus sign cannot stand before zero. -/
inductive IntegerLiteral : Int → List Char → Prop where
  | positive {digits : List Char} (whole : Whole digits) : IntegerLiteral (valueOf digits) digits
  | negative {digits : List Char} (whole : Whole digits) (nonzero : 0 < valueOf digits) :
      IntegerLiteral (-valueOf digits) ('-' :: digits)

/-! ### Strings -/

/-- The letters that may follow a backslash, and the characters that they stand for. -/
def letterEscapes : List (Char × Char) :=
  [('"', '"'), ('\\', '\\'), ('/', '/'), ('b', '\x08'), ('f', '\x0c'), ('n', '\n'), ('r', '\r'),
    ('t', '\t')]

/-- Four hexadecimal digits and the 16-bit unit that they stand for. -/
inductive Hex4 : Nat → List Char → Prop where
  | digits {a b c d : Char} {p q r s : Nat} (first : digit? 16 a = some p)
      (second : digit? 16 b = some q) (third : digit? 16 c = some r)
      (fourth : digit? 16 d = some s) :
      Hex4 (((p * 16 + q) * 16 + r) * 16 + s) [a, b, c, d]

/-- The ways to write a character of a string: itself, a letter after a backslash, the number of the
    character, or the numbers of its two surrogates. -/
inductive Spells : Char → List Char → Prop where
  | itself {c : Char} (quote : c ≠ '"') (backslash : c ≠ '\\') (printed : 0x20 ≤ c.toNat) :
      Spells c [c]
  | letter {letter c : Char} (escapes : (letter, c) ∈ letterEscapes) : Spells c ['\\', letter]
  | unit {u : Nat} {digits : List Char} (hex : Hex4 u digits)
      (single : ¬(0xD800 ≤ u ∧ u ≤ 0xDFFF)) : Spells (Char.ofNat u) ('\\' :: 'u' :: digits)
  | pair {high low : Nat} {digits digits' : List Char} (hex : Hex4 high digits)
      (hex' : Hex4 low digits') (isHigh : 0xD800 ≤ high ∧ high ≤ 0xDBFF)
      (isLow : 0xDC00 ≤ low ∧ low ≤ 0xDFFF) :
      Spells (Char.ofNat (0x10000 + (high - 0xD800) * 0x400 + (low - 0xDC00)))
        ('\\' :: 'u' :: (digits ++ '\\' :: 'u' :: digits'))

/-- The ways to write the characters of a string, one after the other. -/
inductive Spelled : List Char → List Char → Prop where
  | nil : Spelled [] []
  | cons {c : Char} {cs form forms : List Char} (first : Spells c form) (later : Spelled cs forms) :
      Spelled (c :: cs) (form ++ forms)

/-! ### Names and lists -/

/-- A name as it is written: an integer of 64 bits, or a string. -/
inductive NameLiteral : VertexName → List Char → Prop where
  | number {value : Int64} {s : List Char} (integer : IntegerLiteral value.toInt s) :
      NameLiteral (.number value) s
  | text {value : String} {body : List Char} (spelled : Spelled value.toList body) :
      NameLiteral (.text value) ('"' :: (body ++ ['"']))

/-- Nothing but space: blanks, tabs, line feeds and carriage returns. -/
def IsSpaces (s : List Char) : Prop := ∀ c ∈ s, c ∈ [' ', '\t', '\n', '\r']

variable {α : Type}

/-- The part of an array behind an element: more elements, each behind a comma, with space around
    the commas and at the end. -/
inductive MoreElements (literal : α → List Char → Prop) : List α → List Char → Prop where
  | done {space : List Char} (h : IsSpaces space) : MoreElements literal [] space
  | comma {x : α} {xs : List α} {space space' s rest : List Char} (before : IsSpaces space)
      (behind : IsSpaces space') (element : literal x s) (more : MoreElements literal xs rest) :
      MoreElements literal (x :: xs) (space ++ ',' :: (space' ++ (s ++ rest)))

/-- What stands between the brackets of an array. -/
inductive Elements (literal : α → List Char → Prop) : List α → List Char → Prop where
  | none {space : List Char} (h : IsSpaces space) : Elements literal [] space
  | some {x : α} {xs : List α} {space s rest : List Char} (before : IsSpaces space)
      (element : literal x s) (more : MoreElements literal xs rest) :
      Elements literal (x :: xs) (space ++ (s ++ rest))

/-- A text that is a list of names: an array of names, with space around it. -/
inductive ListText : List VertexName → List Char → Prop where
  | array {names : List VertexName} {before body behind : List Char} (h : IsSpaces before)
      (elements : Elements NameLiteral names body) (h' : IsSpaces behind) :
      ListText names (before ++ '[' :: (body ++ ']' :: behind))

end Json

end ShardCut
