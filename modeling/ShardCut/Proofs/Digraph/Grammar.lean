import ShardCut.Proofs.Digraph.Lines
import ShardCut.Proofs.Text.Numeral
import ShardCut.Proofs.Text.Pieces

/-!
Which graph files are read. Every line is well formed or has one fault, by its tokens and by whether
it is the first line. A file is read just when all of its lines are well formed, and otherwise the
first line that is not decides the failure, whatever stands behind it.

The counts of the first line are not only read: they ask for room. A file whose counts ask for more
than can be addressed is not looked at any further, so it is left out here.

Main definitions: `GoodLine`, `BadLine`, `HasRoom`, `FirstBad`. Main results: `goodLine_or_badLine`,
`readLines_of_firstBad`, `read_of_cut`.
-/

namespace ShardCut

namespace Digraph

open Text (Counts)

/-- The tokens of a well-formed line. -/
inductive WellFormed (line : Nat) : List (List Char) → Prop where
  | nothing : WellFormed line []
  | comment (text : List Char) (rest : List (List Char)) : WellFormed line (('#' :: text) :: rest)
  | vertex (name : List Char) (rest : List (List Char)) : WellFormed line (['v'] :: name :: rest)
  | edge (source target : List Char) (rest : List (List Char)) :
      WellFormed line (['e'] :: source :: target :: rest)
  | counts {vertices edges : List Char} {v e : Nat} (first : line = 1)
      (announcesVertices : Counts vertices v) (announcesEdges : Counts edges e) :
      WellFormed line [['t'], vertices, edges]

/-- What is wrong with the tokens of a line. -/
inductive Malformed (line : Nat) : List (List Char) → LineFault → Prop where
  | misplaced {rest : List (List Char)} (h : line ≠ 1 ∨ rest.length ≠ 2) :
      Malformed line (['t'] :: rest) .metadataMisplaced
  | vertexCount {vertices edges : List Char} (first : line = 1) (h : ∀ v, ¬Counts vertices v) :
      Malformed line [['t'], vertices, edges] .vertexCountMalformed
  | edgeCount {vertices edges : List Char} {v : Nat} (first : line = 1)
      (announcesVertices : Counts vertices v) (h : ∀ e, ¬Counts edges e) :
      Malformed line [['t'], vertices, edges] .edgeCountMalformed
  | noName : Malformed line [['v']] .vertexWithoutName
  | noEnds {rest : List (List Char)} (h : rest.length < 2) :
      Malformed line (['e'] :: rest) .edgeWithoutEnds
  | unknown {token : List Char} (rest : List (List Char)) (notComment : token.head? ≠ some '#')
      (notCounts : token ≠ ['t']) (notVertex : token ≠ ['v']) (notEdge : token ≠ ['e']) :
      Malformed line (token :: rest) (.unknownRecord (String.ofList token))

/-- Bytes that are the UTF-8 form of a text. -/
def IsText (bytes : List UInt8) : Prop := ByteArray.IsValidUTF8 ⟨bytes.toArray⟩

instance : DecidablePred IsText := fun bytes =>
  inferInstanceAs (Decidable (ByteArray.IsValidUTF8 ⟨bytes.toArray⟩))

/-- A good line is text, and its tokens are well formed. -/
structure GoodLine (line : Nat) (bytes : List UInt8) : Prop where
  isText : IsText bytes
  wellFormed : WellFormed line (tokensOf bytes)

/-- Why a line cannot be read: it is no text, or its tokens have a fault, and the failure tells the
    number of the line. -/
inductive BadLine (line : Nat) (bytes : List UInt8) : Failure → Prop where
  | unreadable (noText : ¬IsText bytes) : BadLine line bytes .unreadable
  | malformed {fault : LineFault} (isText : IsText bytes)
      (malformed : Malformed line (tokensOf bytes) fault) : BadLine line bytes (.badLine line fault)

/-- A line that announces so many vertices and edges. -/
def Announces (bytes : List UInt8) (v e : Nat) : Prop :=
  ∃ vertices edges, tokensOf bytes = [['t'], vertices, edges] ∧ Counts vertices v ∧ Counts edges e

/-- What a line announces, if anything, can be addressed. -/
def HasRoom (bytes : List UInt8) : Prop :=
  ∀ v e, Announces bytes v e → v < vertexBound ∧ e < edgeBound

variable {line i : Nat} {tokens : List (List Char)} {bytes : List UInt8} {fault : LineFault}
  {failure : Failure} {lines : List (List UInt8)}

/-! ### The tokens of a line -/

theorem readCount?_eq_none_iff {s : List Char} :
    Text.readCount? s = none ↔ ∀ n, ¬Counts s n := by
  simp only [Option.eq_none_iff_forall_ne_some, ne_eq, Text.readCount?_eq_some_iff]

/-- The counts of the first line are recorded. -/
theorem recordOf_counts {vertices edges : List Char} {v e : Nat}
    (announcesVertices : Counts vertices v) (announcesEdges : Counts edges e) :
    recordOf 1 [['t'], vertices, edges] = .ok (.counts v e) := by
  rw [← Text.readCount?_eq_some_iff] at announcesVertices announcesEdges
  change countsOf vertices edges = _
  rw [countsOf, announcesVertices, announcesEdges]

/-- Well-formed tokens record something, and counts only where the first line announces them. -/
theorem exists_recordOf (h : WellFormed line tokens) :
    ∃ record, recordOf line tokens = .ok record ∧ ∀ v e, record = .counts v e →
      line = 1 ∧ ∃ vertices edges, tokens = [['t'], vertices, edges] ∧ Counts vertices v ∧
        Counts edges e := by
  cases h with
  | nothing => exact ⟨_, rfl, nofun⟩
  | comment text rest => exact ⟨_, rfl, nofun⟩
  | vertex name rest => exact ⟨_, rfl, nofun⟩
  | edge source target rest => exact ⟨_, rfl, nofun⟩
  | counts first announcesVertices announcesEdges =>
    subst first
    refine ⟨_, recordOf_counts announcesVertices announcesEdges, fun v e same => ?_⟩
    cases same
    exact ⟨rfl, _, _, rfl, announcesVertices, announcesEdges⟩

/-- Malformed tokens are refused for their fault. -/
theorem recordOf_of_malformed (h : Malformed line tokens fault) :
    recordOf line tokens = .error fault := by
  cases h with
  | @misplaced rest h =>
    rcases rest with _ | ⟨vertices, _ | ⟨edges, _ | ⟨more, rest⟩⟩⟩
    · rfl
    · rfl
    · have late : line ≠ 1 := h.resolve_right (absurd rfl)
      exact if_neg late
    · rfl
  | @vertexCount vertices edges first h =>
    rw [← readCount?_eq_none_iff] at h
    change (if line = 1 then countsOf vertices edges else _) = _
    rw [if_pos first, countsOf, h]
  | @edgeCount vertices edges v first announcesVertices h =>
    rw [← readCount?_eq_none_iff] at h
    rw [← Text.readCount?_eq_some_iff] at announcesVertices
    change (if line = 1 then countsOf vertices edges else _) = _
    rw [if_pos first, countsOf, announcesVertices, h]
  | noName => rfl
  | @noEnds rest h =>
    rcases rest with _ | ⟨source, _ | ⟨target, rest⟩⟩
    · rfl
    · rfl
    · simp only [List.length_cons] at h
      omega
  | unknown rest notComment notCounts notVertex notEdge =>
    simp only [recordOf, if_neg notComment, if_neg notCounts, if_neg notVertex, if_neg notEdge]

/-- Tokens that are not well formed have a fault. -/
theorem wellFormed_or_malformed (line : Nat) (tokens : List (List Char)) :
    WellFormed line tokens ∨ ∃ fault, Malformed line tokens fault := by
  rcases tokens with _ | ⟨token, rest⟩
  · exact .inl .nothing
  by_cases comment : token.head? = some '#'
  · obtain ⟨text, rfl⟩ := List.head?_eq_some_iff.mp comment
    exact .inl (.comment text rest)
  by_cases counts : token = ['t']
  · subst counts
    by_cases placed : line = 1 ∧ rest.length = 2
    · obtain ⟨first, two⟩ := placed
      obtain ⟨vertices, edges, rfl⟩ := List.length_eq_two.mp two
      by_cases hv : ∃ v, Counts vertices v
      · obtain ⟨v, announcesVertices⟩ := hv
        by_cases he : ∃ e, Counts edges e
        · obtain ⟨e, announcesEdges⟩ := he
          exact .inl (.counts first announcesVertices announcesEdges)
        · exact .inr ⟨_, .edgeCount first announcesVertices (not_exists.mp he)⟩
      · exact .inr ⟨_, .vertexCount first (not_exists.mp hv)⟩
    · exact .inr ⟨_, .misplaced (not_and_or.mp placed)⟩
  by_cases vertex : token = ['v']
  · subst vertex
    cases rest with
    | nil => exact .inr ⟨_, .noName⟩
    | cons name rest => exact .inl (.vertex name rest)
  by_cases edge : token = ['e']
  · subst edge
    rcases rest with _ | ⟨source, _ | ⟨target, rest⟩⟩
    · exact .inr ⟨_, .noEnds (by decide)⟩
    · exact .inr ⟨_, .noEnds (Nat.lt_succ_self 1)⟩
    · exact .inl (.edge source target rest)
  · exact .inr ⟨_, .unknown rest comment counts vertex edge⟩

/-! ### One line -/

/-- The bytes that are read as a text are those that are one. -/
theorem exists_textOf?_iff : (∃ text, textOf? bytes = some text) ↔ IsText bytes := by
  unfold textOf? String.fromUTF8? IsText
  split
  · next isText => exact ⟨fun _ => isText, fun _ => ⟨_, rfl⟩⟩
  · next noText => exact ⟨nofun, fun isText => absurd isText noText⟩

theorem textOf?_eq_none (noText : ¬IsText bytes) : textOf? bytes = none :=
  Option.eq_none_iff_forall_ne_some.mpr fun text decoded =>
    noText (exists_textOf?_iff.mp ⟨text, decoded⟩)

/-- A line that is text is read by its tokens. -/
theorem readLine_eq (isText : IsText bytes) : readLine line bytes =
    match recordOf line (tokensOf bytes) with
    | .error fault => .error (.badLine line fault)
    | .ok (.counts v e) =>
      if v < vertexBound ∧ e < edgeBound then .ok (.counts v e)
      else .error (.abort .capacityOverflow)
    | .ok record => .ok record := by
  obtain ⟨text, decoded⟩ := exists_textOf?_iff.mpr isText
  rw [tokensOf_eq decoded]
  unfold readLine
  cases found : textOf? bytes with
  | none => cases found.symm.trans decoded
  | some text' =>
    cases found.symm.trans decoded
    rfl

/-- A good line is read. -/
theorem exists_readLine (good : GoodLine line bytes) (room : line = 1 → HasRoom bytes) :
    ∃ record, readLine line bytes = .ok record := by
  obtain ⟨record, recorded, counted⟩ := exists_recordOf good.wellFormed
  refine ⟨record, ?_⟩
  rw [readLine_eq good.isText]
  cases record with
  | counts v e =>
    obtain ⟨first, vertices, edges, announced⟩ := counted v e rfl
    have fits := room first v e ⟨vertices, edges, announced⟩
    simp only [recorded, if_pos fits]
  | nothing => simp only [recorded]
  | vertex name => simp only [recorded]
  | edge source target => simp only [recorded]

/-- A bad line is refused for its reason. -/
theorem readLine_of_badLine (bad : BadLine line bytes failure) :
    readLine line bytes = .error failure := by
  cases bad with
  | unreadable noText => rw [readLine, textOf?_eq_none noText]
  | malformed isText malformed =>
    simp only [readLine_eq isText, recordOf_of_malformed malformed]

/-- Every line is good or bad. -/
theorem goodLine_or_badLine (line : Nat) (bytes : List UInt8) :
    GoodLine line bytes ∨ ∃ failure, BadLine line bytes failure := by
  by_cases isText : IsText bytes
  · rcases wellFormed_or_malformed line (tokensOf bytes) with wellFormed | ⟨fault, malformed⟩
    · exact .inl ⟨isText, wellFormed⟩
    · exact .inr ⟨_, .malformed isText malformed⟩
  · exact .inr ⟨_, .unreadable isText⟩

/-- A line is not both good and bad. -/
theorem BadLine.not_goodLine (bad : BadLine line bytes failure) : ¬GoodLine line bytes := by
  intro good
  cases bad with
  | unreadable noText => exact noText good.isText
  | malformed _ malformed =>
    obtain ⟨record, recorded, -⟩ := exists_recordOf good.wellFormed
    cases (recordOf_of_malformed malformed).symm.trans recorded

/-! ### All lines -/

/-- All lines are good; the first of them has the given number. -/
def AllGood (line : Nat) (lines : List (List UInt8)) : Prop :=
  ∀ i bytes, lines[i]? = some bytes → GoodLine (line + i) bytes

/-- The first line that is not good, and why it cannot be read. -/
def FirstBad (line : Nat) (lines : List (List UInt8)) (i : Nat) (failure : Failure) : Prop :=
  (∃ bytes, lines[i]? = some bytes ∧ BadLine (line + i) bytes failure) ∧
    AllGood line (lines.take i)

theorem allGood_cons {first : List UInt8} :
    AllGood line (first :: lines) ↔ GoodLine line first ∧ AllGood (line + 1) lines := by
  constructor
  · intro good
    refine ⟨good 0 first rfl, fun i bytes h => ?_⟩
    rw [Nat.add_assoc, Nat.add_comm 1]
    exact good (i + 1) bytes h
  · rintro ⟨head, tail⟩ i bytes h
    cases i with
    | zero =>
      obtain rfl := Option.some.inj h
      exact head
    | succ i =>
      rw [Nat.add_comm i, ← Nat.add_assoc]
      exact tail i bytes h

theorem readLines_cons {first : List UInt8} {record : Record}
    (read : readLine line first = .ok record) :
    readLines line (first :: lines) = (readLines (line + 1) lines).map (record :: ·) := by
  rw [readLines, read]
  change (readLines (line + 1) lines >>= _) = _
  cases readLines (line + 1) lines <;> rfl

/-- Good lines are all read. Only counts on line one ask for room. -/
theorem exists_readLines (good : AllGood line lines) (positive : 0 < line)
    (room : line = 1 → ∀ first ∈ lines.head?, HasRoom first) :
    ∃ records, readLines line lines = .ok records := by
  induction lines generalizing line with
  | nil => exact ⟨[], rfl⟩
  | cons first lines ih =>
    obtain ⟨head, tail⟩ := allGood_cons.mp good
    obtain ⟨record, read⟩ := exists_readLine head fun one => room one first rfl
    obtain ⟨records, later⟩ := ih tail (Nat.succ_pos line) fun one => by omega
    refine ⟨record :: records, ?_⟩
    rw [readLines_cons read, later]
    rfl

/-- Lines that are read are good. -/
theorem allGood_of_readLines {records : List Record} (h : readLines line lines = .ok records) :
    AllGood line lines := by
  induction lines generalizing line records with
  | nil => exact fun i bytes none => by cases none
  | cons first lines ih =>
    cases read : readLine line first with
    | error failure =>
      rw [readLines, read] at h
      cases h
    | ok record =>
      rw [readLines_cons read] at h
      cases later : readLines (line + 1) lines with
      | error failure =>
        rw [later] at h
        cases h
      | ok records' =>
        refine allGood_cons.mpr ⟨?_, ih later⟩
        rcases goodLine_or_badLine line first with good | ⟨failure, bad⟩
        · exact good
        · cases (readLine_of_badLine bad).symm.trans read

/-- The first bad line decides, since all lines before it are read. -/
theorem readLines_of_firstBad (h : FirstBad line lines i failure) (positive : 0 < line)
    (room : line = 1 → ∀ first ∈ lines.head?, HasRoom first) :
    readLines line lines = .error failure := by
  induction lines generalizing line i with
  | nil =>
    obtain ⟨⟨bytes, none, -⟩, -⟩ := h
    cases none
  | cons first lines ih =>
    obtain ⟨⟨bytes, here, bad⟩, before⟩ := h
    cases i with
    | zero =>
      obtain rfl := Option.some.inj here
      rw [Nat.add_zero] at bad
      rw [readLines, readLine_of_badLine bad]
      rfl
    | succ i =>
      obtain ⟨head, tail⟩ := allGood_cons.mp before
      obtain ⟨record, read⟩ := exists_readLine head fun one => room one first rfl
      rw [Nat.add_comm i, ← Nat.add_assoc] at bad
      rw [readLines_cons read, ih ⟨⟨bytes, here, bad⟩, tail⟩ (Nat.succ_pos line) (by omega)]
      rfl

/-! ### Files -/

theorem read_eq (bytes : List UInt8) :
    read bytes = (readLines 1 (Text.lines bytes)).map ofRecords := rfl

/-- Which bytes are a graph file, and what is wrong with the others. A file whose lines are all good
    is read, and gives the vertices and the edges that they state, in their order. Otherwise the
    first line that is not good decides the failure: every file that agrees with this one up to that
    line fails in the same way, whatever comes behind it. -/
theorem read_of_cut (cut : Text.Cut bytes lines) (room : ∀ first ∈ lines.head?, HasRoom first) :
    ((∃ g, read bytes = .ok g) ↔ AllGood 1 lines) ∧
    (∀ g, read bytes = .ok g →
      g.vertices = lines.filterMap (fun line => vertexIn? (tokensOf line)) ∧
      g.edges = lines.filterMap fun line => edgeIn? (tokensOf line)) ∧
    ∀ i bad, lines[i]? = some bad → ¬GoodLine (i + 1) bad → AllGood 1 (lines.take i) →
      ∃ failure, BadLine (i + 1) bad failure ∧
        ∀ other lines', Text.Cut other lines' → lines'.take (i + 1) = lines.take (i + 1) →
          read other = .error failure := by
  obtain rfl := cut.eq_lines
  refine ⟨⟨?_, fun good => ?_⟩, fun g given => ?_, fun i bad here notGood before => ?_⟩
  · rintro ⟨g, given⟩
    rw [read_eq] at given
    cases h : readLines 1 (Text.lines bytes) with
    | error failure =>
      rw [h] at given
      cases given
    | ok records => exact allGood_of_readLines h
  · obtain ⟨records, h⟩ := exists_readLines good Nat.one_pos fun _ => room
    refine ⟨ofRecords records, ?_⟩
    rw [read_eq, h]
    rfl
  · rw [eq_of_read given]
    exact ⟨rfl, rfl⟩
  · obtain ⟨failure, why⟩ := (goodLine_or_badLine (i + 1) bad).resolve_left notGood
    refine ⟨failure, why, fun other lines' cut' same => ?_⟩
    obtain rfl := cut'.eq_lines
    have here' : (Text.lines other)[i]? = some bad := by
      rw [← here, ← List.getElem?_take_of_lt (Nat.lt_succ_self i), same,
        List.getElem?_take_of_lt (Nat.lt_succ_self i)]
    have before' : (Text.lines other).take i = (Text.lines bytes).take i := by
      have shorter := congrArg (List.take i) same
      rwa [List.take_take, List.take_take, Nat.min_eq_left (Nat.le_succ i)] at shorter
    have head' : (Text.lines other).head? = (Text.lines bytes).head? := by
      have first := congrArg List.head? same
      rwa [List.head?_take, List.head?_take, if_neg (Nat.succ_ne_zero i)] at first
    rw [Nat.add_comm] at why
    have h : FirstBad 1 (Text.lines other) i failure :=
      ⟨⟨bad, here', why⟩, by rwa [before']⟩
    rw [read_eq, readLines_of_firstBad h Nat.one_pos fun _ => by rwa [head']]
    rfl

/-- Four good lines are read: counts, a comment, a vertex that is a text, and an edge to it from a
    number that is written with a sign. Then an edge with one end follows; the last line is no text,
    but it is not reached. -/
theorem read_of_cut_one_end :
    let counts : List UInt8 := [0x74, 0x20, 0x31, 0x20, 0x2B, 0x32]
    let vertex : List UInt8 := [0x76, 0x09, 0x61]
    let edge : List UInt8 := [0x65, 0x20, 0x2B, 0x31, 0x20, 0x61, 0x20, 0x62]
    let file := counts ++ 0x0A :: ([0x23, 0x0D] ++ 0x0A :: (vertex ++ 0x0A :: edge))
    (∃ g, read file = .ok g ∧ g.vertices = [.text "a"] ∧ g.edges = [(.number 1, .text "a")]) ∧
      ∃ fault, read (file ++ [0x0A, 0x65, 0x20, 0x31, 0x0A, 0xFF]) = .error (.badLine 5 fault) := by
  intro counts vertex edge file
  have tokens : tokensOf counts = [['t'], ['1'], ['+', '2']] := by decide +kernel
  have one : Text.readCount? ['1'] = some 1 := by decide
  have two : Text.readCount? ['+', '2'] = some 2 := by decide
  have room : HasRoom counts := by
    rintro v e ⟨vertices, edges, same, hv, he⟩
    rw [tokens] at same
    cases same
    rw [← Text.readCount?_eq_some_iff] at hv he
    cases one.symm.trans hv
    cases two.symm.trans he
    decide
  have goodLine {line : Nat} {bytes : List UInt8} {tokens : List (List Char)}
      (isText : IsText bytes)
      (split : tokensOf bytes = tokens) (wellFormed : WellFormed line tokens) :
      GoodLine line bytes := ⟨isText, split ▸ wellFormed⟩
  have first : GoodLine 1 counts := goodLine (by decide +kernel) tokens
    (.counts rfl (Text.readCount?_eq_some_iff.mp one) (Text.readCount?_eq_some_iff.mp two))
  have second : GoodLine 2 [0x23, 0x0D] :=
    goodLine (by decide +kernel) (by decide +kernel) (.comment [] [])
  have third : GoodLine 3 vertex :=
    goodLine (by decide +kernel) (by decide +kernel) (.vertex ['a'] [])
  have fourth : GoodLine 4 edge :=
    goodLine (by decide +kernel) (by decide +kernel) (.edge ['+', '1'] ['a'] [['b']])
  have good : AllGood 1 [counts, [0x23, 0x0D], vertex, edge] := by
    refine allGood_cons.mpr ⟨first, allGood_cons.mpr ⟨second, allGood_cons.mpr ⟨third, ?_⟩⟩⟩
    exact allGood_cons.mpr ⟨fourth, fun i bytes none => by cases none⟩
  have cut (file : List UInt8) {lines : List (List UInt8)} (h : Text.lines file = lines) :
      Text.Cut file lines := h ▸ Text.cut_lines file
  constructor
  · have whole : Text.Cut file [counts, [0x23, 0x0D], vertex, edge] := cut _ (by decide)
    obtain ⟨accepts, states, -⟩ := read_of_cut whole (by rintro _ ⟨⟩; exact room)
    obtain ⟨g, given⟩ := accepts.mpr good
    refine ⟨g, given, ?_, ?_⟩
    · rw [(states g given).1]
      decide +kernel
    · rw [(states g given).2]
      decide +kernel
  · have bad : BadLine 5 [0x65, 0x20, 0x31] (.badLine 5 .edgeWithoutEnds) :=
      .malformed (by decide +kernel) (.noEnds (by decide))
    have whole : Text.Cut (file ++ [0x0A, 0x65, 0x20, 0x31, 0x0A, 0xFF])
        [counts, [0x23, 0x0D], vertex, edge, [0x65, 0x20, 0x31], [0xFF]] := cut _ (by decide)
    obtain ⟨-, -, refuses⟩ := read_of_cut whole (by rintro _ ⟨⟩; exact room)
    obtain ⟨failure, why, decides⟩ := refuses 4 _ rfl bad.not_goodLine good
    have failed := decides _ _ whole rfl
    cases why with
    | unreadable noText => exact absurd (by decide +kernel) noText
    | malformed _ _ => exact ⟨_, failed⟩

end Digraph

end ShardCut
