import ShardCut.Main
import ShardCut.Mesh.Bytes
import ShardCut.Proofs.Boundary.Correct
import ShardCut.Proofs.Boundary.Refusal
import ShardCut.Proofs.Boundary.Split
import ShardCut.Proofs.Boundary.Union
import ShardCut.Proofs.Mesh.Consecutive
import ShardCut.Proofs.Workers.Verdict
import ShardCut.Proofs.Registry.Calls
import ShardCut.Proofs.Registry.Numbering
import ShardCut.Proofs.ShardedGraph.Ownership
import ShardCut.Proofs.ShardedGraph.Adjacency
import ShardCut.Proofs.ShardedGraph.Handles
import ShardCut.Proofs.Cli.Answer
import ShardCut.Proofs.Json.Names
import ShardCut.Proofs.PairMatrix.Json
import ShardCut.Proofs.Boundary.Encode
import ShardCut.Proofs.Digraph.Grammar
import ShardCut.Proofs.Digraph.Metadata
import ShardCut.Proofs.GlobalId.Code
import ShardCut.Proofs.Workers.Blame
import ShardCut.Proofs.Name
import ShardCut.Proofs.Buckets.Stable
import ShardCut.Proofs.PairMatrix.Shape
