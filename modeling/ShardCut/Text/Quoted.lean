import ShardCut.Text.Hidden

/-!
Two quoted forms of a text. The *debug* form shows every hidden character by its number and is made
for people; the *JSON* form escapes only what a JSON string cannot hold, so that all other
characters stand for themselves. Both put the text between double quotes.

Main definitions: `debugQuoted`, `jsonQuoted`.
-/

namespace ShardCut.Text

/-- The lower-case hexadecimal digits of a number, without leading zeros. -/
def hexDigits (n : Nat) : List Char := Nat.toDigits 16 n

/-- One character of the debug form. -/
def debugEscape (c : Char) : List Char :=
  if c = '"' then ['\\', '"']
  else if c = '\\' then ['\\', '\\']
  else if c = '\n' then ['\\', 'n']
  else if c = '\r' then ['\\', 'r']
  else if c = '\t' then ['\\', 't']
  else if c = '\x00' then ['\\', '0']
  else if isHidden c then ['\\', 'u', '\x7b'] ++ hexDigits c.toNat ++ ['\x7d']
  else [c]

/-- The debug form of a text. -/
def debugQuoted (s : String) : String :=
  String.ofList ('"' :: s.toList.flatMap debugEscape ++ ['"'])

def hexDigit (n : Nat) : Char := (hexDigits (n % 16)).headD '0'

/-- One character of the JSON form: quote, backslash and the control characters are escaped, the
    usual ones by a letter and the others by four digits. -/
def jsonEscape (c : Char) : List Char :=
  if c = '"' then ['\\', '"']
  else if c = '\\' then ['\\', '\\']
  else if c = '\x08' then ['\\', 'b']
  else if c = '\x0c' then ['\\', 'f']
  else if c = '\n' then ['\\', 'n']
  else if c = '\r' then ['\\', 'r']
  else if c = '\t' then ['\\', 't']
  else if c.toNat < 0x20 then
    ['\\', 'u', '0', '0', hexDigit (c.toNat / 16), hexDigit c.toNat]
  else [c]

/-- The JSON form of a text. -/
def jsonQuoted (s : List Char) : List Char :=
  '"' :: s.flatMap jsonEscape ++ ['"']

example : jsonQuoted ['a', '"', '\x01'] = "\"a\\\"\\u0001\"".toList := by decide

end ShardCut.Text
