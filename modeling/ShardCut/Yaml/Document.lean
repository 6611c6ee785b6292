import ShardCut.Yaml.Lexer
import ShardCut.Yaml.Node

/-!
Documents. A text holds at most one document, which may be announced by directives and a mark and
closed by another mark; a text of which nothing is left but comments holds none.

Main definitions: `Document`, `Document.ofText?`, `Document.resolve`.
-/

namespace ShardCut.Yaml

/-- A document: its node, if it has one, and the nodes that have an anchor, with their numbers. -/
structure Document where
  root? : Option Node
  anchored : List (Nat × Option Node)

namespace Document

/-- The meanings that tag handles have without a directive. -/
def defaultHandles : List (String × String) := [("!", "!"), ("!!", "tag:yaml.org,2002:")]

/-- Reads directives. There is at most one version, which has to be 1.1 or 1.2, and at most one
    meaning for a handle. -/
def takeDirectives : (tokens : List Token) → (versioned : Bool) →
    (handles : List (String × String)) → Option (List Token × List (String × String))
  | .version major minor :: tokens, versioned, handles =>
    if !versioned && major = 1 && (minor = 1 || minor = 2) then takeDirectives tokens true handles
    else none
  | .tagHandle handle meaning :: tokens, versioned, handles =>
    if (handles.lookup handle).isSome then none
    else takeDirectives tokens versioned ((handle, meaning) :: handles)
  | tokens, _, handles => some (tokens, handles)

/-- Whether a token announces a document. -/
def announces : Token → Bool
  | .version _ _ | .tagHandle _ _ | .documentStart => true
  | _ => false

/-- Whether a document that was announced is empty: its end comes next. -/
def endsHere (tokens : List Token) : Bool :=
  tokens.head?.all fun token => announces token || token = .documentEnd

/-- Reads the node of a document, after which nothing may follow but marks of its end. -/
def ofContent? (tokens : List Token) (handles : List (String × String)) (announced : Bool) :
    Option Document := do
  let reading : Node.Reading := ⟨tokens, [], #[], handles ++ defaultHandles⟩
  let (node, reading) ←
    if announced && endsHere tokens then some (Node.absent, reading)
    else (Node.readNode (4 * tokens.length + 4) true false).run reading
  if reading.tokens.all (· = .documentEnd) then return ⟨some node, reading.anchored.toList⟩
  else none

def ofTokens? (tokens : List Token) : Option Document :=
  if tokens.isEmpty then some ⟨none, []⟩
  else if tokens.head?.any announces then do
    let (tokens, handles) ← takeDirectives tokens false []
    if tokens.head? == some .documentStart then ofContent? (tokens.drop 1) handles true else none
  else ofContent? tokens [] false

def ofText? (text : String) : Option Document := do
  ofTokens? (← tokens? text)

/-- The node that an alias means, and any other node itself. -/
def resolve (document : Document) : Node → Option Node
  | .alias number => (document.anchored.reverse.lookup number).join
  | node => some node

end Document

end ShardCut.Yaml
