import ShardCut.Boundary
import ShardCut.Cli.Options
import ShardCut.PairMatrix.Json
import ShardCut.Settings.File

/-!
A run of the command line: read the settings, read and split the graph, answer the query, print the
matrix. What is stated on the command line is laid over the settings file; the file has to be valid
by itself, and the settings have to be valid with what was laid over.

A run reads files and does nothing else to the world, so it is a computation of any monad in which a
file can be looked up. How edges travel between the workers is up to the codec.

Main definitions: `settingsOf`, `answer`, `runOptions`, `run`.
-/

namespace ShardCut.Cli

/-- How a run ends: its exit code, and what it prints. -/
structure Outcome where
  exitCode : UInt8
  output : String
deriving DecidableEq, Repr

/-- What is printed for those that ask for help or for the version. -/
structure Manual where
  help : String
  version : String

/-- A look-up of the bytes of a file, which may not be there. -/
abbrev Files (m : Type → Type) := String → m (Option (List UInt8))

/-- The settings of a run, given the text of the settings file if one is named. -/
def settingsOf (options : Options) (file? : Option String) : Except Failure Settings := do
  let settings ← match file? with
    | some text => Settings.ofFile text
    | none => .ok .default
  (settings.overlay ⟨options.shards?, options.coordinator?⟩).validate

def queryOf (options : Options) : Boundary.Query := ⟨options.sources, options.targets?⟩

variable {M : Type}

/-- The line that a run prints, given the bytes of the graph file. -/
def answer (codec : Codec M IdPairs) (options : Options) (settings : Settings)
    (bytes : List UInt8) : Except Failure String := do
  let graph ← ShardedGraph.ofFile bytes settings.shards
  let matrix ← graph.edgeBoundary codec (queryOf options) settings.coordinator
  return matrix.toJson ++ "\n"

/-- The outcome of a computation: failures exit with 1 and aborts with 101, and neither prints. -/
def outcomeOf : Except Failure String → Outcome
  | .ok output => ⟨0, output⟩
  | .error (.abort _) => ⟨101, ""⟩
  | .error _ => ⟨1, ""⟩

/-- The file where a named graph is kept. -/
def keptAs (dataset : String) : String := "data/" ++ dataset ++ ".graph"

variable {m : Type → Type} [Monad m]

/-- The text of the settings file, if one is named. -/
def readSettings (files : Files m) (options : Options) : m (Except Failure (Option String)) := do
  match options.settings? with
  | none => return .ok none
  | some path =>
    match ← files path with
    | none => return .error .unreadable
    | some bytes =>
      match String.fromUTF8? ⟨bytes.toArray⟩ with
      | none => return .error .unreadable
      | some text => return .ok (some text)

/-- The bytes of the graph file: of the file that is named, if there is one, and otherwise of the
    graph that is kept under this name. -/
def readGraph (files : Files m) (options : Options) : m (Except Failure (List UInt8)) := do
  match ← files options.dataset with
  | some bytes => return .ok bytes
  | none =>
    match ← files (keptAs options.dataset) with
    | some bytes => return .ok bytes
    | none => return .error .unreadable

/-- Answers the query of a command line. -/
def runOptions (codec : Codec M IdPairs) (files : Files m) (options : Options) : m Outcome := do
  match (← readSettings files options) >>= settingsOf options with
  | .error failure => return outcomeOf (.error failure)
  | .ok settings =>
    let bytes ← readGraph files options
    return outcomeOf (bytes >>= answer codec options settings)

/-- Runs a command line. One that is not understood exits with 2. -/
def run (manual : Manual) (codec : Codec M IdPairs) (files : Files m) (args : List String) :
    m Outcome :=
  match Request.ofArgs? args with
  | none => return ⟨2, ""⟩
  | some .help => return ⟨0, manual.help⟩
  | some .version => return ⟨0, manual.version⟩
  | some (.answer options) => runOptions codec files options

end ShardCut.Cli
