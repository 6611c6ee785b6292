import ShardCut.Cli.Run
import ShardCut.Mesh.Bytes

/-!
The program: it answers a boundary query on a graph file. All decisions are in `ShardCut.Cli.run`;
here files are read and the answer is printed. Edges travel as bytes between the workers.

Main definitions: `main`.
-/

namespace ShardCut

/-- Looks up a file. What cannot be read counts as not there. -/
def lookUp (path : String) : IO (Option (List UInt8)) := do
  try return some (← IO.FS.readBinFile path).toList
  catch _ => return none

def manual : Cli.Manual where
  help :=
    "Usage: edge-boundary [OPTIONS] --nbunch1 <NBUNCH1>\n\n" ++
    "Options:\n" ++
    "  -d, --dataset <DATASET>\n" ++
    "          Graph file, or the name of a graph under data/ (data/<name>.graph) " ++
    "[default: example]\n" ++
    "      --nbunch1 <NBUNCH1>\n" ++
    "          JSON array of source vertex ids\n" ++
    "      --nbunch2 <NBUNCH2>\n" ++
    "          JSON array of target vertex ids. " ++
    "Without it, edges leaving nbunch1 are reported\n" ++
    "  -f, --fragment-num <FRAGMENT_NUM>\n" ++
    "          Number of fragments, overrides the config file\n" ++
    "      --coordinator <COORDINATOR>\n" ++
    "          Coordinator fragment id, overrides the config file\n" ++
    "  -c, --config <CONFIG>\n" ++
    "          YAML config file\n" ++
    "  -h, --help\n" ++
    "          Print help\n" ++
    "  -V, --version\n" ++
    "          Print version\n"
  version := "edge-boundary 0.1.0\n"

end ShardCut

/-- Runs the command line and ends with its exit code. -/
def main (args : List String) : IO UInt32 := do
  let outcome ← ShardCut.Cli.run ShardCut.manual .edges ShardCut.lookUp args
  IO.print outcome.output
  return outcome.exitCode.toUInt32
