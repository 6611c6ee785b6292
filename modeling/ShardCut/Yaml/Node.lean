import ShardCut.Yaml.Token

/-!
Nodes: the tree that the tokens of a document describe. A node is a scalar, a sequence, a mapping,
or an alias of a node that was given an anchor before. Reading follows a grammar with one token of
look-ahead; where a node is missing after a hyphen, a key or a colon, an empty plain scalar stands
for it.

Anchors are numbered by how many names had one before. A document keeps its anchored nodes in the
order in which they start, and an alias means the last one of its number.

Main definitions: `Node`, `readNode`.
-/

namespace ShardCut.Yaml

inductive Node where
  | scalar (style : Style) (tag? : Option String) (text : String)
  | sequence (items : List Node)
  | mapping (entries : List (Node × Node))
  | alias (number : Nat)
deriving Repr

namespace Node

/-- What stands for a missing node. -/
def absent : Node := .scalar .plain none ""

/-- What is known while a document is read: the tokens ahead, the names of anchors with their
    numbers, the anchored nodes in the order in which they start, and the meanings of tag handles. A
    node that is still open is missing. -/
structure Reading where
  tokens : List Token
  names : List (String × Nat)
  anchored : Array (Nat × Option Node)
  handles : List (String × String)

/-- A computation that reads tokens and may fail. -/
abbrev Reads := StateT Reading Option

def peek : Reads (Option Token) := return (← get).tokens.head?

/-- Passes a token. -/
def advance : Reads Unit := modify fun r => { r with tokens := r.tokens.drop 1 }

/-- Passes the next token if it is this one, and tells whether it was. -/
def accept (token : Token) : Reads Bool := do
  if (← peek) == some token then
    advance
    return true
  return false

/-- Whether the next token is one of these. -/
def among (tokens : List Token) : Reads Bool := return (← peek).any tokens.contains

/-- The meaning of a tag. Its handle has to be known. -/
def meaning (handle suffix : String) : Reads String := do
  if handle.isEmpty then return suffix
  match (← get).handles.lookup handle with
  | some meaning => return meaning ++ suffix
  | none => failure

def readTag : Reads (Option String) := do
  match ← peek with
  | some (.tag handle suffix) =>
    advance
    return some (← meaning handle suffix)
  | _ => return none

def readAnchor : Reads (Option String) := do
  match ← peek with
  | some (.anchor name) =>
    advance
    return some name
  | _ => return none

/-- Reads the anchor and the tag of a node, in either order. -/
def readProperties : Reads (Option String × Option String) := do
  match ← readAnchor with
  | some name => return (some name, ← readTag)
  | none =>
    let tag? ← readTag
    if tag?.isSome then return (← readAnchor, tag?)
    return (none, none)

/-- The number of an alias. Its name has to have an anchor. -/
def aliasOf (name : String) : Reads Node := do
  match (← get).names.lookup name with
  | some number => return .alias number
  | none => failure

/-- Reads a node that has an anchor, or has none. -/
def withAnchor (name? : Option String) (read : Reads Node) : Reads Node := do
  match name? with
  | none => read
  | some name =>
    let r ← get
    let number := r.names.length
    let place := r.anchored.size
    set { r with
      names := (name, number) :: r.names.filter (·.1 != name)
      anchored := r.anchored.push (number, none) }
    let node ← read
    modify fun r => { r with anchored := r.anchored.setIfInBounds place (number, some node) }
    return node

mutual

/-- Reads a node. In block context it may be a block; after a key or a colon it may be a sequence
    whose hyphens are indented no further than the key. -/
def readNode : (fuel : Nat) → (block indentless : Bool) → Reads Node
  | 0, _, _ => failure
  | fuel + 1, block, indentless => do
    if let some (.alias name) := ← peek then
      advance
      return ← aliasOf name
    let (anchor?, tag?) ← readProperties
    withAnchor anchor? do
      match ← peek with
      | some (.scalar style text) =>
        advance
        return .scalar style tag? text
      | some .flowSequenceStart =>
        advance
        return .sequence (← readFlowItems fuel true)
      | some .flowMappingStart =>
        advance
        return .mapping (← readFlowEntries fuel true)
      | token? =>
        if indentless && token? == some .blockEntry then
          return .sequence (← readIndentlessItems fuel)
        else if block && token? == some .blockSequenceStart then
          advance
          return .sequence (← readBlockItems fuel)
        else if block && token? == some .blockMappingStart then
          advance
          return .mapping (← readBlockEntries fuel)
        else if anchor?.isSome || tag?.isSome then return .scalar .plain tag? ""
        else failure

/-- Reads the items of a block sequence, up to its end. -/
def readBlockItems : (fuel : Nat) → Reads (List Node)
  | 0 => failure
  | fuel + 1 => do
    if ← accept .blockEnd then return []
    else if ← accept .blockEntry then
      let item ←
        if ← among [.blockEntry, .blockEnd] then pure absent else readNode fuel true false
      return item :: (← readBlockItems fuel)
    else failure

/-- Reads the items of a sequence that is no block of its own. -/
def readIndentlessItems : (fuel : Nat) → Reads (List Node)
  | 0 => failure
  | fuel + 1 => do
    if ← accept .blockEntry then
      let item ←
        if ← among [.blockEntry, .key, .value, .blockEnd] then pure absent
        else readNode fuel true false
      return item :: (← readIndentlessItems fuel)
    else return []

/-- Reads the entries of a block mapping, up to its end. -/
def readBlockEntries : (fuel : Nat) → Reads (List (Node × Node))
  | 0 => failure
  | fuel + 1 => do
    if ← accept .blockEnd then return []
    else if ← accept .key then
      let key ← readBlockSide fuel
      let value ← if ← accept .value then readBlockSide fuel else pure absent
      return (key, value) :: (← readBlockEntries fuel)
    else failure

/-- Reads a key or a value of a block mapping. -/
def readBlockSide : (fuel : Nat) → Reads Node
  | 0 => failure
  | fuel + 1 => do
    if ← among [.key, .value, .blockEnd] then return absent
    readNode fuel true true

/-- Reads the items of a flow sequence, up to its end. An item may be a pair, which is a mapping of
    its own. A question mark there with nothing to follow stands for the token after it as well. -/
def readFlowItems : (fuel : Nat) → (first : Bool) → Reads (List Node)
  | 0, _ => failure
  | fuel + 1, first => do
    if ← accept .flowSequenceEnd then return []
    if !first then
      if !(← accept .flowEntry) then failure
      if ← accept .flowSequenceEnd then return []
    if ← accept .key then
      let key ←
        if ← among [.value, .flowEntry, .flowSequenceEnd] then
          advance
          pure absent
        else readNode fuel false false
      let value ← if ← accept .value then readFlowValue fuel .flowSequenceEnd else pure absent
      return .mapping [(key, value)] :: (← readFlowItems fuel false)
    else
      let item ← readNode fuel false false
      return item :: (← readFlowItems fuel false)

/-- Reads the entries of a flow mapping, up to its end. -/
def readFlowEntries : (fuel : Nat) → (first : Bool) → Reads (List (Node × Node))
  | 0, _ => failure
  | fuel + 1, first => do
    if ← accept .flowMappingEnd then return []
    if !first then
      if !(← accept .flowEntry) then failure
      if ← accept .flowMappingEnd then return []
    if ← accept .key then
      let key ←
        if ← among [.value, .flowEntry, .flowMappingEnd] then pure absent
        else readNode fuel false false
      let value ← if ← accept .value then readFlowValue fuel .flowMappingEnd else pure absent
      return (key, value) :: (← readFlowEntries fuel false)
    else
      let key ← readNode fuel false false
      return (key, absent) :: (← readFlowEntries fuel false)

/-- Reads a value inside brackets. -/
def readFlowValue : (fuel : Nat) → (closing : Token) → Reads Node
  | 0, _ => failure
  | fuel + 1, closing => do
    if ← among [.flowEntry, closing] then return absent
    readNode fuel false false

end

end Node

end ShardCut.Yaml
