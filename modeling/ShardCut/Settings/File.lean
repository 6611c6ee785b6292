import ShardCut.Settings
import ShardCut.Text.Numeral
import ShardCut.Yaml.Document

/-!
Settings files. A settings file is a YAML mapping in which each setting stands at most once; other
keys are passed over, with any value. A file with nothing but comments, or with a plain scalar
without text, states nothing. A setting is a plain integer of the unsigned 64-bit range, in decimal
digits without leading zeros or in digits of another base after its mark.

A file that is read has to be valid together with the defaults.

Main definitions: `Settings.readStated`, `Settings.ofFile`.
-/

namespace ShardCut.Settings

open ShardCut.Yaml

/-- Drops a mark, if it stands in front. -/
def dropMark? (mark s : List Char) : Option (List Char) :=
  if s.take mark.length = mark then some (s.drop mark.length) else none

/-- Reads digits of a base after their mark. -/
def readMarked? (mark : List Char) (radix : Nat) (s : List Char) : Option Nat :=
  (dropMark? mark s).bind fun digits => (Text.readNat? radix digits).filter (· < UInt64.size)

/-- Reads decimal digits, the first of which is no zero unless it stands alone. -/
def readPlain? (s : List Char) : Option Nat :=
  if s.head? = some '0' ∧ s ≠ ['0'] then none else (Text.readNat? 10 s).filter (· < UInt64.size)

/-- Reads the text of a setting. -/
def readSetting? (text : String) : Option Nat :=
  let s := Text.dropPlus text.toList
  (readMarked? ['0', 'x'] 16 s).or <| (readMarked? ['0', 'o'] 8 s).or <|
    (readMarked? ['0', 'b'] 2 s).or <| readPlain? s

def integerTag : String := "tag:yaml.org,2002:int"

/-- The text that a node may give as a setting: a plain scalar, or a literal one that is tagged as
    an integer. -/
def settingText? : Node → Option String
  | .scalar .plain _ text => some text
  | .scalar .literal tag? text => if tag? = some integerTag then some text else none
  | _ => none

def valueOf? (document : Document) (node : Node) : Option Nat := do
  readSetting? (← settingText? (← document.resolve node))

/-- The text of a key, which has to be a scalar. -/
def keyOf? (document : Document) (node : Node) : Option String := do
  match ← document.resolve node with
  | .scalar _ _ text => some text
  | _ => none

def shardsKey : String := "fragment_num"

def coordinatorKey : String := "coordinator"

/-- Adds what an entry of a mapping states. -/
def addEntry (document : Document) (stated : StatedSettings) (entry : Node × Node) :
    Option StatedSettings := do
  let key ← keyOf? document entry.1
  if key = shardsKey then
    if stated.shards?.isSome then none
    else return { stated with shards? := some (← valueOf? document entry.2) }
  else if key = coordinatorKey then
    if stated.coordinator?.isSome then none
    else return { stated with coordinator? := some (← valueOf? document entry.2) }
  else return stated

/-- What a document states. -/
def statedBy? (document : Document) : Option StatedSettings :=
  match document.root? with
  | none => some ⟨none, none⟩
  | some (.scalar .plain _ text) => if text.isEmpty then some ⟨none, none⟩ else none
  | some (.mapping entries) => entries.foldlM (addEntry document) ⟨none, none⟩
  | some _ => none

/-- What a settings file states. -/
def readStated (text : String) : Except Failure StatedSettings :=
  match (Document.ofText? text).bind statedBy? with
  | some stated => .ok stated
  | none => .error .badSettings

def ofFile (text : String) : Except Failure Settings := do
  (default.overlay (← readStated text)).validate

example : (ofFile "fragment_num: 3\ncoordinator: 2\n").toOption = some ⟨3, 2⟩ := by
  decide +kernel
example : (ofFile "\x7b\"fragment_num\": 0x10\x7d").toOption = some ⟨16, 0⟩ := by decide +kernel
example : (ofFile "coordinator: 4").toOption = none := by decide +kernel
example : (ofFile "# nothing").toOption = some .default := by decide +kernel
example : (ofFile "\"\"").toOption = none := by decide +kernel
example : readSetting? "010" = none := by decide +kernel

end ShardCut.Settings
