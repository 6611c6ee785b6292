import ShardCut.Json.Reader

/-!
Values that nobody asked for. The value of an unknown field is read by its syntax alone: brackets
may nest without limit, numbers are not evaluated, and the surrogates of a string are not paired.
Its faults differ in places from those of a value that is read: a missing element or key is reported
where it should have started.

Main definitions: `skipValue`.
-/

namespace ShardCut.Json

inductive Bracket where
  | array
  | object
deriving DecidableEq, Repr

/-- Passes over an exponent, after its letter. -/
def skipExponent (s : List Char) : Except Fault (List Char) :=
  match takeDigits (takeSign s).2 with
  | ([], _) => .error .invalidNumber
  | (_, s) => .ok s

def skipExponent? : List Char → Except Fault (List Char)
  | [] => .ok []
  | c :: s => if c = 'e' ∨ c = 'E' then skipExponent s else .ok (c :: s)

/-- Passes over a number, after its minus sign if it has one. -/
def skipNumber (s : List Char) : Except Fault (List Char) :=
  match takeDigits s with
  | ([], _) => .error .invalidNumber
  | (d :: ds, s) =>
    if d = 0 ∧ ds ≠ [] then .error .invalidNumber
    else match s with
      | [] => .ok []
      | c :: s =>
        if c = '.' then
          match takeDigits s with
          | ([], _) => .error .invalidNumber
          | (_, s) => skipExponent? s
        else skipExponent? (c :: s)

/-- Passes over the rest of a string, after its opening quote. -/
def skipStringRest : (fuel : Nat) → List Char → Except Fault (List Char)
  | 0, _ => .error .endInString
  | _ + 1, [] => .error .endInString
  | fuel + 1, c :: s =>
    if c = '"' then .ok s
    else if c = '\\' then
      match s with
      | [] => .error .endInString
      | e :: s =>
        if e = 'u' then do
          let (_, s) ← readHex s
          skipStringRest fuel s
        else if (letterEscape? e).isSome then skipStringRest fuel s
        else .error .invalidEscape
    else if c.toNat < 0x20 then .error .controlCharacter
    else skipStringRest fuel s

def skipString (s : List Char) : Except Fault (List Char) := skipStringRest s.length s

/-- Passes over a scalar. The text starts with it. -/
def skipScalar : List Char → Except Fault (List Char)
  | [] => .error .endInValue
  | c :: s =>
    if c = 'n' then (readWord () ['u', 'l', 'l'] s).map Prod.snd
    else if c = 't' then (readWord () ['r', 'u', 'e'] s).map Prod.snd
    else if c = 'f' then (readWord () ['a', 'l', 's', 'e'] s).map Prod.snd
    else if c = '-' then skipNumber s
    else if (Text.digit? 10 c).isSome then skipNumber (c :: s)
    else if c = '"' then skipString s
    else .error .expectedValue

/-- Where a skipped value stands: before a value, or after one or an opening bracket. -/
inductive SkipState where
  | value
  | after (mayContinue : Bool)

/-- Passes over the key of a member and its colon. -/
def skipKey (s : List Char) : Except Fault (List Char) :=
  match skipSpace s with
  | [] => .error .endInObject
  | c :: s =>
    if c = '"' then do
      let s ← skipString s
      let ((), s) ← readColon s
      .ok s
    else .error .expectedKey

/-- Starts the next entry of the innermost open bracket: the key of an object is passed over. -/
def skipEntry (bracket : Bracket) (s : List Char) : Except Fault (List Char) :=
  match bracket with
  | .array => .ok s
  | .object => skipKey s

/-- Passes over a value with the given brackets open around it, the innermost first. Each round
    reads a character, except that a value may follow an opening bracket or a comma at once. -/
def skipLoop : (fuel : Nat) → SkipState → List Bracket → List Char → Except Fault (List Char)
  | 0, _, _, _ => .error .endInValue
  | fuel + 1, .value, opened, s =>
    match skipSpace s with
    | [] => .error .endInValue
    | c :: s =>
      if c = '[' then skipLoop fuel (.after false) (.array :: opened) s
      else if c = '{' then skipLoop fuel (.after false) (.object :: opened) s
      else do
        let s ← skipScalar (c :: s)
        skipLoop fuel (.after true) opened s
  | _ + 1, .after _, [], s => .ok s
  | fuel + 1, .after mayContinue, bracket :: opened, s =>
    match skipSpace s with
    | [] => .error (match bracket with | .array => .endInList | .object => .endInObject)
    | c :: s =>
      if c = ',' ∧ mayContinue = true then do
        let s ← skipEntry bracket s
        skipLoop fuel .value (bracket :: opened) s
      else if c = (match bracket with | .array => ']' | .object => '}') then
        skipLoop fuel (.after true) opened s
      else if mayContinue then
        .error (match bracket with | .array => .expectedListEnd | .object => .expectedObjectEnd)
      else do
        let s ← skipEntry bracket (c :: s)
        skipLoop fuel .value (bracket :: opened) s

def skipValue (s : List Char) : Except Fault (List Char) :=
  skipLoop (2 * s.length + 2) .value [] s

end ShardCut.Json
