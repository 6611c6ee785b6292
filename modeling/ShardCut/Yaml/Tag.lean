import ShardCut.Text.Numeral
import ShardCut.Yaml.Token
import ShardCut.Yaml.Cursor

/-!
Tags, anchors and directives. A tag is a handle and a suffix; the handle is `!`, `!name!` or empty,
and directives say what handles mean. The octets that a tag escapes by percent signs stand in it as
characters with these codes, except that an octet of zero ends the text in which it stands: what
follows it is read but does not count.

Main definitions: `takeTag`, `takeDirective`.
-/

namespace ShardCut.Yaml

/-- Reads one octet that is escaped by a percent sign. -/
def takeOctet (c : Cursor) : Option (Nat × Cursor) :=
  match c.rest with
  | '%' :: high :: low :: _ => (Text.readNat? 16 [high, low]).map (·, c.skip 3)
  | _ => none

/-- How many octets follow a leading one. -/
def octetsAfter? (leading : Nat) : Option Nat :=
  if leading < 0x80 then some 0
  else if leading < 0xC0 then none
  else if leading < 0xE0 then some 1
  else if leading < 0xF0 then some 2
  else if leading < 0xF8 then some 3
  else none

/-- Reads so many octets that are no leading ones. -/
def takeTrailing : (count : Nat) → Cursor → Option (List Char × Cursor)
  | 0, c => some ([], c)
  | count + 1, c => do
    let (octet, c) ← takeOctet c
    if octet < 0x80 || 0xC0 ≤ octet then none
    else (takeTrailing count c).map fun (others, c) => (Char.ofNat octet :: others, c)

/-- Reads the octets of one character. -/
def takeOctets (c : Cursor) : Option (List Char × Cursor) := do
  let (leading, c) ← takeOctet c
  let count ← octetsAfter? leading
  let (others, c) ← takeTrailing count c
  return (Char.ofNat leading :: others, c)

/-- The characters of which tags are made; between angle brackets and in directives there are more.
    -/
def isTagChar (verbatim : Bool) (c : Char) : Bool :=
  isWord c || ";/?:@&=+$.%!~*'()".toList.contains c || (verbatim && ",[]".toList.contains c)

def takeTagChars (verbatim : Bool) : (fuel : Nat) → Cursor → Option (List Char × Cursor)
  | 0, c => some ([], c)
  | fuel + 1, c =>
    match c.head? with
    | none => some ([], c)
    | some char =>
      if !isTagChar verbatim char then some ([], c)
      else if char = '%' then do
        let (octets, c) ← takeOctets c
        let (chars, c) ← takeTagChars verbatim fuel c
        return (octets ++ chars, c)
      else (takeTagChars verbatim fuel (c.skip 1)).map fun (chars, c) => (char :: chars, c)

/-- The part of a text that counts: what stands before an octet of zero. -/
def beforeZero (chars : List Char) : List Char := chars.takeWhile (· ≠ '\x00')

/-- Reads the meaning of a handle or the suffix of a tag, which is not empty. -/
def takeTagText (verbatim : Bool) (c : Cursor) : Option (List Char × Cursor) := do
  let (chars, c) ← takeTagChars verbatim c.bound c
  if chars.isEmpty then none else some (beforeZero chars, c)

/-- Reads a handle, or what looks like the start of one. -/
def takeHandle (c : Cursor) : Option (List Char × Cursor) :=
  if !c.sees '!' then none
  else
    let (word, c) := (c.skip 1).takeWhile isWord
    if c.sees '!' then some ('!' :: word ++ ['!'], c.skip 1) else some ('!' :: word, c)

/-- A text that starts and ends with an exclamation mark of its own. -/
def isHandle (handle : List Char) : Bool := 2 ≤ handle.length && handle.getLast? == some '!'

/-- Reads a tag that is given in full, between angle brackets. -/
def takeVerbatimTag (c : Cursor) : Option (Token × Cursor) := do
  let (suffix, c) ← takeTagText true (c.skip 2)
  if c.sees '>' then some (.tag "" (String.ofList suffix), c.skip 1) else none

/-- Reads a tag with a handle. What looks like a handle but does not end like one is part of the
    suffix, and an exclamation mark alone is the suffix of an empty handle. -/
def takeShortTag (c : Cursor) : Option (Token × Cursor) := do
  let (handle, c) ← takeHandle c
  if isHandle handle then
    let (suffix, c) ← takeTagText false c
    return (.tag (String.ofList handle) (String.ofList suffix), c)
  let (others, c) ← takeTagChars false c.bound c
  let suffix := handle.drop 1 ++ beforeZero others
  return (if suffix.isEmpty then .tag "" "!" else .tag "!" (String.ofList suffix), c)

/-- Reads a tag, after which a blank stands, or in flow context a comma. -/
def takeTag (inFlow : Bool) (c : Cursor) : Option (Token × Cursor) := do
  let (tag, c) ← if c.rest[1]? == some '<' then takeVerbatimTag c else takeShortTag c
  if c.clearAt 0 || (inFlow && c.sees ',') then some (tag, c) else none

/-- Reads the name after an ampersand or an asterisk. -/
def takeAnchorName (c : Cursor) : Option (String × Cursor) :=
  let (name, c) := c.takeWhile isWord
  if !name.isEmpty && (c.clearAt 0 || c.head?.any "?:,]\x7d%@\x60".toList.contains) then
    some (String.ofList name, c)
  else none

def takeVersionNumber (c : Cursor) : Option (Nat × Cursor) := do
  let (digits, c) := c.takeWhile Char.isDigit
  if 9 < digits.length then none
  else
    let number ← Text.readNat? 10 digits
    return (number, c)

def takeVersion (c : Cursor) : Option (Token × Cursor) := do
  let (major, c) ← takeVersionNumber (c.skipWhile isGap)
  if c.sees '.' then
    let (minor, c) ← takeVersionNumber (c.skip 1)
    return (.version major minor, c)
  else none

/-- Reads a handle and its meaning. -/
def takeTagHandle (c : Cursor) : Option (Token × Cursor) := do
  let (handle, c) ← takeHandle (c.skipWhile isGap)
  if (handle.length = 1 || isHandle handle) && c.head?.any isGap then
    let (meaning, c) ← takeTagText true (c.skipWhile isGap)
    if c.clearAt 0 then
      return (.tagHandle (String.ofList handle) (String.ofList meaning), c)
    else none
  else none

/-- Reads a directive after its percent sign, and the rest of its line. -/
def takeDirective (c : Cursor) : Option (Token × Cursor) := do
  let (name, c) := c.takeWhile isWord
  if !c.clearAt 0 then none
  else
    let (token, c) ←
      if name = "YAML".toList then takeVersion c
      else if name = "TAG".toList then takeTagHandle c
      else none
    let c ← c.skipLineRest
    return (token, c)

end ShardCut.Yaml
