import ShardCut.Text.Numeral

/-!
Command lines. Every option takes one value and may be given once. A value stands in the next
argument, or after an equals sign, or right after a short name. An argument that starts with a
hyphen and goes on is no value of the option before it. Two hyphens alone end the options, and since
there are no other arguments, nothing may follow them.

Instead of a query, a command line can ask for help or for the version. Arguments are gone through
in order: whatever follows such a request is left unread, and what is wrong before it comes first.

Main definitions: `Flag`, `Switch`, `Options`, `Request`, `Request.ofArgs?`.
-/

namespace ShardCut.Cli

/-- The options. -/
inductive Flag where
  | dataset
  | sources
  | targets
  | shards
  | coordinator
  | settings
deriving DecidableEq, Repr

namespace Flag

def longName : Flag → String
  | dataset => "dataset"
  | sources => "nbunch1"
  | targets => "nbunch2"
  | shards => "fragment-num"
  | coordinator => "coordinator"
  | settings => "config"

def shortName? : Flag → Option Char
  | dataset => some 'd'
  | shards => some 'f'
  | settings => some 'c'
  | sources | targets | coordinator => none

/-- Whether the value has to be a number. -/
def isCount : Flag → Bool
  | shards | coordinator => true
  | dataset | sources | targets | settings => false

def all : List Flag := [dataset, sources, targets, shards, coordinator, settings]

def ofLongName? (name : List Char) : Option Flag :=
  all.find? fun flag => flag.longName.toList = name

def ofShortName? (letter : Char) : Option Flag :=
  all.find? fun flag => flag.shortName? = some letter

end Flag

/-- What an argument asks for that starts with a hyphen. An option may hold its value. -/
inductive Switch where
  | option (flag : Flag) (value? : Option (List Char))
  | help
  | version
deriving DecidableEq, Repr

/-- The switch of a name after two hyphens. -/
def longSwitch? (name : List Char) (value? : Option (List Char)) : Option Switch :=
  match Flag.ofLongName? name with
  | some flag => some (.option flag value?)
  | none =>
    -- These take no value, not even an empty one.
    match String.ofList name, value? with
    | "help", none => some .help
    | "version", none => some .version
    | _, _ => none

/-- The switch of a letter after one hyphen. What follows a letter that takes no value is not read
    any more. -/
def shortSwitch? (letter : Char) (value? : Option (List Char)) : Option Switch :=
  match Flag.ofShortName? letter with
  | some flag => some (.option flag value?)
  | none =>
    match letter with
    | 'h' => some .help
    | 'V' => some .version
    | _ => none

def switchOf? : List Char → Option Switch
  | '-' :: '-' :: rest =>
    longSwitch? (rest.takeWhile (· ≠ '=')) <|
      match rest.dropWhile (· ≠ '=') with
      | [] => none
      | _ :: value => some value
  | '-' :: letter :: rest =>
    shortSwitch? letter <|
      match rest with
      | [] => none
      | '=' :: value => some value
      | value => some value
  | _ => none

/-- Whether an argument can be the value of the option before it. -/
def isValue : List Char → Bool
  | '-' :: _ :: _ => false
  | _ => true

/-- The options that were given so far, with their values. -/
abbrev Given := List (Flag × List Char)

namespace Given

/-- Takes up an option. It is refused if it was given before, or has to be a number and is not. -/
def add? (given : Given) (flag : Flag) (value : List Char) : Option Given :=
  if (given.lookup flag).isSome then none
  else if flag.isCount && (Text.readCount? value).isNone then none
  else some (given ++ [(flag, value)])

def valueOf? (given : Given) (flag : Flag) : Option String :=
  (given.lookup flag).map String.ofList

/-- The number that is the value of an option, if it is given. -/
def countOf? (given : Given) (flag : Flag) : Option Nat :=
  (given.lookup flag).bind Text.readCount?

end Given

/-- What a query on the command line states. -/
structure Options where
  dataset : String
  sources : String
  targets? : Option String
  shards? : Option Nat
  coordinator? : Option Nat
  settings? : Option String
deriving DecidableEq, Repr

/-- The options of a whole command line. Only the first list has to be given. -/
def Options.ofGiven? (given : Given) : Option Options := do
  let sources ← given.valueOf? .sources
  return {
    dataset := (given.valueOf? .dataset).getD "example"
    sources
    targets? := given.valueOf? .targets
    shards? := given.countOf? .shards
    coordinator? := given.countOf? .coordinator
    settings? := given.valueOf? .settings }

/-- What a command line asks for. -/
inductive Request where
  | answer (options : Options)
  | help
  | version
deriving DecidableEq, Repr

/-- Goes through the arguments behind the options that were given so far. -/
def Request.read? (given : Given) : List (List Char) → Option Request
  | [] => (Options.ofGiven? given).map .answer
  | arg :: args =>
    if arg = ['-', '-'] then
      if args.isEmpty then (Options.ofGiven? given).map .answer else none
    else
      match switchOf? arg, args with
      | none, _ => none
      | some .help, _ => some .help
      | some .version, _ => some .version
      | some (.option flag (some value)), args => do read? (← given.add? flag value) args
      | some (.option _ none), [] => none
      | some (.option flag none), value :: args =>
        if isValue value then do read? (← given.add? flag value) args else none

def Request.ofArgs? (args : List String) : Option Request := read? [] (args.map String.toList)

example : switchOf? "--config=c".toList = some (.option .settings (some ['c'])) := by
  decide +kernel
example : Request.ofArgs? ["--nbunch1", "[1]", "-f3"] =
    some (.answer ⟨"example", "[1]", none, some 3, none, none⟩) := by decide +kernel
example : Request.ofArgs? ["--nbunch1", "[1]", "--coordinator", "-1", "-h"] = none := by
  decide +kernel
example : Request.ofArgs? ["-f3", "-Vx", "no such argument"] = some .version := by decide +kernel

end ShardCut.Cli
