import Mathlib.Data.List.Forall2
import ShardCut.Digraph.Reader
import ShardCut.Proofs.Text.Pieces

/-!
What a graph file states. Each line states a vertex, an edge or neither of them, by its tokens
alone; the number of the line does not matter for it. A file that is read gives the graph that its
lines state, in the order of the lines.

Main definitions: `tokensOf`, `vertexIn?`, `edgeIn?`, `stated`. Main results: `holds_readLine`,
`eq_of_read`, `eq_stated_of_read`.
-/

namespace ShardCut

namespace Digraph

variable {line : Nat} {tokens : List (List Char)} {bytes : List UInt8} {record : Record}

/-- The tokens of a line: its runs of characters that are not blank. Bytes that are no text have
    none. -/
def tokensOf (bytes : List UInt8) : List (List Char) :=
  match String.fromUTF8? ⟨bytes.toArray⟩ with
  | some text => (text.toList.splitOnP Text.isBlank).filter fun token => token ≠ []
  | none => []

/-- The vertex that tokens state: `v` and a name. -/
def vertexIn? : List (List Char) → Option VertexName
  | token :: name :: _ => if token = ['v'] then some (.ofToken (String.ofList name)) else none
  | _ => none

/-- The edge that tokens state: `e` and two names. -/
def edgeIn? : List (List Char) → Option (VertexName × VertexName)
  | token :: source :: target :: _ =>
    if token = ['e'] then
      some (.ofToken (String.ofList source), .ofToken (String.ofList target))
    else none
  | _ => none

/-- The graph that the lines of a file state, one after the other. -/
def stated (bytes : List UInt8) : Digraph where
  vertices := (bytes.splitOn Text.lineFeed).filterMap fun line => vertexIn? (tokensOf line)
  edges := (bytes.splitOn Text.lineFeed).filterMap fun line => edgeIn? (tokensOf line)

/-- The tokens of a line that is text are the words that are read of it. -/
theorem tokensOf_eq {text : String} (isText : textOf? bytes = some text) :
    tokensOf bytes = Text.words text.toList := by
  have decoded : String.fromUTF8? ⟨bytes.toArray⟩ = some text := isText
  rw [tokensOf, decoded, Text.words_eq]

def Record.vertex? : Record → Option VertexName
  | .vertex name => some name
  | _ => none

def Record.edge? : Record → Option (VertexName × VertexName)
  | .edge source target => some (source, target)
  | _ => none

/-- A record holds what the tokens state. -/
structure Record.Holds (record : Record) (tokens : List (List Char)) : Prop where
  vertex : record.vertex? = vertexIn? tokens
  edge : record.edge? = edgeIn? tokens

variable {token : List Char} {rest : List (List Char)}

/-- Only tokens that begin with `v` state a vertex. -/
theorem vertexIn?_eq_none (other : token ≠ ['v']) : vertexIn? (token :: rest) = none := by
  cases rest with
  | nil => rfl
  | cons name rest => exact if_neg other

/-- Only tokens that begin with `e` state an edge. -/
theorem edgeIn?_eq_none (other : token ≠ ['e']) : edgeIn? (token :: rest) = none := by
  rcases rest with _ | ⟨source, _ | ⟨target, rest⟩⟩
  · rfl
  · rfl
  · exact if_neg other

theorem countsOf_eq_ok {vertices edges : List Char} (h : countsOf vertices edges = .ok record) :
    ∃ v e, record = .counts v e := by
  unfold countsOf at h
  split at h
  · cases h
  · cases h
  · next v e _ _ => exact ⟨v, e, (Except.ok.inj h).symm⟩

theorem holds_of_neither (vertex : record.vertex? = none) (edge : record.edge? = none)
    (notVertex : token ≠ ['v']) (notEdge : token ≠ ['e']) : record.Holds (token :: rest) where
  vertex := vertex.trans (vertexIn?_eq_none notVertex).symm
  edge := edge.trans (edgeIn?_eq_none notEdge).symm

/-- Only the lines that start with `v` and with `e` record something to be kept. -/
theorem holds_recordOf (h : recordOf line tokens = .ok record) : record.Holds tokens := by
  rcases tokens with _ | ⟨token, rest⟩
  · obtain rfl := Except.ok.inj h
    exact ⟨rfl, rfl⟩
  simp only [recordOf] at h
  split at h
  · next comment =>
    obtain rfl := Except.ok.inj h
    apply holds_of_neither rfl rfl
    all_goals
      rintro rfl
      exact absurd comment (by decide)
  split at h
  · next counts =>
    subst counts
    have announced : ∃ v e, record = .counts v e := by
      split at h
      · split at h
        · exact countsOf_eq_ok h
        · cases h
      · cases h
    rcases announced with ⟨v, e, rfl⟩
    exact holds_of_neither rfl rfl (by decide) (by decide)
  split at h
  · next vertex =>
    subst vertex
    split at h
    · obtain rfl := Except.ok.inj h
      exact ⟨rfl, (edgeIn?_eq_none (by decide)).symm⟩
    · cases h
  split at h
  · next edge =>
    subst edge
    split at h
    · obtain rfl := Except.ok.inj h
      exact ⟨rfl, rfl⟩
    · cases h
  · cases h

/-- A line that is read records what its tokens state. -/
theorem holds_readLine (h : readLine line bytes = .ok record) : record.Holds (tokensOf bytes) := by
  unfold readLine at h
  cases ht : textOf? bytes with
  | none =>
    rw [ht] at h
    cases h
  | some text =>
    rw [tokensOf_eq ht]
    simp only [ht] at h
    split at h
    · cases h
    · next counts =>
      split at h
      · obtain rfl := Except.ok.inj h
        exact holds_recordOf counts
      · cases h
    · next other _ recorded =>
      obtain rfl := Except.ok.inj h
      exact holds_recordOf recorded

/-- Lines that are read record what their tokens state, one by one. -/
theorem forall₂_of_readLines {lines : List (List UInt8)} {records : List Record}
    (h : readLines line lines = .ok records) :
    List.Forall₂ (fun line record => record.Holds (tokensOf line)) lines records := by
  induction lines generalizing line records with
  | nil =>
    obtain rfl := Except.ok.inj h
    exact .nil
  | cons bytes lines ih =>
    simp only [readLines] at h
    cases hr : readLine line bytes with
    | error failure =>
      rw [hr] at h
      cases h
    | ok record =>
      cases hs : readLines (line + 1) lines with
      | error failure =>
        rw [hr, hs] at h
        cases h
      | ok records' =>
        rw [hr, hs] at h
        obtain rfl := Except.ok.inj h
        exact .cons (holds_readLine hr) (ih hs)

theorem ofRecords_eq (records : List Record) : ofRecords records =
    ⟨records.filterMap Record.vertex?, records.filterMap Record.edge?⟩ := rfl

/-- The records of lines make up the graph that the lines state. -/
theorem ofRecords_of_forall₂ {lines : List (List UInt8)} {records : List Record}
    (each : List.Forall₂ (fun line record => record.Holds (tokensOf line)) lines records) :
    ofRecords records = ⟨lines.filterMap fun line => vertexIn? (tokensOf line),
      lines.filterMap fun line => edgeIn? (tokensOf line)⟩ := by
  induction each with
  | nil => rfl
  | cons holds each ih =>
    rw [ofRecords_eq] at ih ⊢
    injection ih with vertices edges
    simp only [List.filterMap_cons, holds.vertex, holds.edge, vertices, edges]

/-- A file that is read gives what its lines state, in their order. -/
theorem eq_of_read {g : Digraph} (h : read bytes = .ok g) :
    g = ⟨(Text.lines bytes).filterMap fun line => vertexIn? (tokensOf line),
      (Text.lines bytes).filterMap fun line => edgeIn? (tokensOf line)⟩ := by
  unfold read at h
  cases hr : readLines 1 (Text.lines bytes) with
  | error failure =>
    rw [hr] at h
    cases h
  | ok records =>
    rw [hr] at h
    obtain rfl := Except.ok.inj h
    exact ofRecords_of_forall₂ (forall₂_of_readLines hr)

/-- A file that is read gives the graph that its lines state. -/
theorem eq_stated_of_read {g : Digraph} (h : read bytes = .ok g) : g = stated bytes := by
  have none : tokensOf [] = [] := by decide +kernel
  rw [eq_of_read h, stated, Text.filterMap_lines _ (by rw [none]; rfl),
    Text.filterMap_lines _ (by rw [none]; rfl)]

end Digraph

end ShardCut
