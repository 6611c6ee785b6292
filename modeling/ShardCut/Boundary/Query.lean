import ShardCut.IdSet
import ShardCut.Json.Names
import ShardCut.Shard
import ShardCut.Text.Blank

/-!
Boundary queries. A query holds two lists of names as JSON texts. With both lists it asks for the
edges from the first set into the second one; without the second, or with one that is blank, it asks
for the edges that leave the first set.

A name that calls no vertex of the graph stands for nothing.

Main definitions: `Query`, `parseNames`, `Query.names`, `Query.resolve`.
-/

namespace ShardCut.Boundary

/-- The two lists of a query, as they were given. -/
structure Query where
  sources : String
  targets? : Option String
deriving DecidableEq, Repr

/-- The names of a list. -/
def parseNames (text : String) : Except Failure (List VertexName) :=
  (Json.parseNames text).mapError .malformedList

/-- The ids of those of the names that call a vertex. -/
def resolveNames (shard : Shard) (names : List VertexName) : IdSet :=
  .ofList (names.filterMap shard.idOfName?)

/-- The second list of a query, unless it is blank. -/
def Query.statedTargets? (query : Query) : Option String :=
  query.targets?.filter fun text => ¬Text.allBlank text.toList

/-- The names in the two lists; without a second list there are none in it. The first list is
    decoded first. -/
def Query.names (query : Query) : Except Failure (List VertexName × List VertexName) := do
  let sources ← parseNames query.sources
  let targets ← match query.statedTargets? with
    | some text => parseNames text
    | none => .ok []
  return (sources, targets)

def Query.resolve (query : Query) (shard : Shard) : Except Failure (IdSet × IdSet) := do
  let (sources, targets) ← query.names
  return (resolveNames shard sources, resolveNames shard targets)

end ShardCut.Boundary
