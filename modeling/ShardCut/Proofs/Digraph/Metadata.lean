import ShardCut.Proofs.Digraph.Grammar

/-!
What the counts of a graph file do. They record nothing: a file that starts with them is read like
one that starts with a blank line, failures and line numbers included, as long as what they announce
can be addressed. Counts that announce more abort, and nothing else does.

Main definitions: `countsLine`, `Behind`. Main results: `readLine_countsLine`, `read_countsLine`,
`read_countsLine_aborts`.
-/

namespace ShardCut

namespace Text

variable {s : List Char} {n : Nat}

def bytesOf (s : List Char) : List UInt8 := s.flatMap String.utf8EncodeChar

/-- A visible character of ASCII. -/
def IsVisible (c : Char) : Prop := 0x21 ≤ c.toNat ∧ c.toNat < 0x7F

theorem isVisible_of_isDigit {c : Char} (h : c.isDigit = true) : IsVisible c := by
  obtain ⟨least, greatest⟩ := Char.isDigit_iff_toNat.mp h
  change 48 ≤ c.toNat at least
  change c.toNat ≤ 57 at greatest
  exact ⟨by omega, by omega⟩

theorem IsVisible.isBlank {c : Char} (h : IsVisible c) : isBlank c = false := by
  obtain ⟨least, greatest⟩ := h
  simp [Text.isBlank, blankRanges]
  omega

theorem Counts.ne_nil (h : Counts s n) : s ≠ [] := by
  cases h with
  | bare run _ => exact run.some_digit
  | plus run _ => exact List.cons_ne_nil _ _

theorem Counts.isVisible (h : Counts s n) : ∀ c ∈ s, IsVisible c := by
  cases h with
  | bare run _ => exact fun c hc => isVisible_of_isDigit (run.digit c hc)
  | plus run _ =>
    intro c hc
    rcases List.mem_cons.mp hc with rfl | hc
    · exact ⟨by decide, by decide⟩
    · exact isVisible_of_isDigit (run.digit c hc)

theorem Counts.solid (h : Counts s n) : ∀ c ∈ s, isBlank c = false :=
  fun c hc => (h.isVisible c hc).isBlank

/-- Spaces and visible characters are bytes, and no line feeds. -/
theorem lineFeed_not_mem_bytesOf (plain : ∀ c ∈ s, c = ' ' ∨ IsVisible c) :
    lineFeed ∉ bytesOf s := by
  intro h
  obtain ⟨c, hc, byte⟩ := List.mem_flatMap.mp h
  have range : 0x20 ≤ c.val.toNat ∧ c.val.toNat < 0x7F := by
    rcases plain c hc with rfl | ⟨least, greatest⟩
    · decide
    · exact ⟨Nat.le_of_succ_le least, greatest⟩
  have one : String.utf8EncodeChar c = [UInt8.ofNat c.val.toNat] :=
    if_pos (Nat.le_trans (Nat.le_of_lt range.2) (by decide))
  rw [one, List.mem_singleton] at byte
  have value := congrArg UInt8.toNat byte
  rw [UInt8.toNat_ofNat', Nat.mod_eq_of_lt (by omega)] at value
  change 10 = c.val.toNat at value
  omega

end Text

namespace Digraph

open Text (Counts)

variable {n m : List Char} {v e : Nat} {behind : List UInt8}

/-- The bytes of ASCII characters are read as these characters. -/
theorem textOf?_bytesOf (s : List Char) :
    textOf? (Text.bytesOf s) = some (String.ofList s) := by
  have bytes : (⟨(Text.bytesOf s).toArray⟩ : ByteArray) = (String.ofList s).toByteArray := by
    apply ByteArray.ext
    rw [String.toByteArray_ofList, List.utf8Encode, List.data_toByteArray]
    rfl
  rw [textOf?, bytes, String.fromUTF8?, dif_pos (String.ofList s).isValidUTF8]
  rfl

/-- The first line of a file that announces its counts. -/
def countsLine (n m : List Char) : List UInt8 := Text.bytesOf ('t' :: ' ' :: (n ++ ' ' :: m))

/-- The tokens of a line of counts are `t` and the two counts. -/
theorem tokensOf_countsLine (hn : Counts n v) (hm : Counts m e) :
    tokensOf (countsLine n m) = [['t'], n, m] := by
  have letter : ∀ c ∈ ['t'], Text.isBlank c = false := List.forall_mem_singleton.mpr (by decide)
  have space : Text.isBlank ' ' = true := by decide
  rw [countsLine, tokensOf_eq (textOf?_bytesOf _), String.toList_ofList]
  calc Text.words (['t'] ++ ' ' :: (n ++ ' ' :: m))
      = ['t'] :: Text.words (n ++ ' ' :: m) :=
        Text.words_append letter (List.cons_ne_nil _ _) space _
    _ = ['t'] :: n :: Text.words m := by rw [Text.words_append hn.solid hn.ne_nil space]
    _ = [['t'], n, m] := by rw [Text.words_of_solid hm.solid hm.ne_nil]

theorem lineFeed_not_mem_countsLine (hn : Counts n v) (hm : Counts m e) :
    Text.lineFeed ∉ countsLine n m := by
  apply Text.lineFeed_not_mem_bytesOf
  intro c hc
  simp only [List.mem_cons, List.mem_append] at hc
  rcases hc with rfl | rfl | hc | rfl | hc
  · exact .inr ⟨by decide, by decide⟩
  · exact .inl rfl
  · exact .inr (hn.isVisible c hc)
  · exact .inl rfl
  · exact .inr (hm.isVisible c hc)

/-- A line of counts is read if memory can be reserved for them, and aborts otherwise. -/
theorem readLine_countsLine (hn : Counts n v) (hm : Counts m e) :
    readLine 1 (countsLine n m) = if v < vertexBound ∧ e < edgeBound then .ok (.counts v e)
      else .error (.abort .capacityOverflow) := by
  have isText : IsText (countsLine n m) := exists_textOf?_iff.mp ⟨_, textOf?_bytesOf _⟩
  rw [readLine_eq isText, tokensOf_countsLine hn hm]
  simp only [recordOf_counts hn hm]

/-! ### The lines behind the first one -/

/-- A line whose record is neither a vertex nor an edge changes nothing. -/
theorem map_ofRecords_cons {record : Record} (vertex : record.vertex? = none)
    (edge : record.edge? = none) (records : Except Failure (List Record)) :
    (records.map (record :: ·)).map ofRecords = records.map ofRecords := by
  cases records with
  | error failure => rfl
  | ok records =>
    simp only [Except.map, ofRecords_eq, List.filterMap_cons, vertex, edge]

/-- What stands behind the first line: nothing, or a line feed and the other lines. -/
inductive Behind : List UInt8 → List (List UInt8) → Prop where
  | nothing : Behind [] []
  | lines (rest : List UInt8) : Behind (Text.lineFeed :: rest) (Text.lines rest)

variable {later : List (List UInt8)}

/-- Lines in front of others are cut off by themselves. -/
theorem Behind.lines_append (h : Behind behind later) {first : List UInt8}
    (whole : Text.lineFeed ∉ first) (some_byte : first ≠ []) :
    Text.lines (first ++ behind) = first :: later := by
  cases h with
  | nothing =>
    rw [List.append_nil]
    exact Text.lines_of_whole whole some_byte
  | lines rest => exact Text.lines_append whole rest

/-- Without a first line, or with an empty one, the numbers of the others are the same. -/
theorem Behind.read (h : Behind behind later) :
    read behind = (readLines 2 later).map ofRecords := by
  cases h with
  | nothing => rfl
  | lines rest =>
    have empty : readLine 1 [] = .ok .nothing := by decide +kernel
    have blank : Text.lines (Text.lineFeed :: rest) = [] :: Text.lines rest :=
      Text.lines_append List.not_mem_nil rest
    rw [read_eq, blank, readLines_cons empty, map_ofRecords_cons rfl rfl]

/-- Behind the first line only a bad line makes reading fail. -/
theorem exists_badLine_of_readLines {line : Nat} {lines : List (List UInt8)} {failure : Failure}
    (h : readLines line lines = .error failure) (later : 1 < line) :
    ∃ i bytes, BadLine i bytes failure := by
  induction lines generalizing line with
  | nil => cases h
  | cons first lines ih =>
    rcases goodLine_or_badLine line first with good | ⟨failure', bad⟩
    · obtain ⟨record, read⟩ := exists_readLine good fun one => by omega
      rw [readLines_cons read] at h
      cases rest : readLines (line + 1) lines with
      | ok records =>
        rw [rest] at h
        cases h
      | error failure' =>
        rw [rest] at h
        obtain rfl := Except.error.inj h
        exact ih rest (Nat.lt_succ_of_lt later)
    · rw [readLines, readLine_of_badLine bad] at h
      obtain rfl := Except.error.inj h
      exact ⟨line, first, bad⟩

/-- What stands behind a line is cut into lines by itself. -/
theorem exists_behind (ends : behind = [] ∨ ∃ rest, behind = Text.lineFeed :: rest) :
    ∃ later, Behind behind later := by
  rcases ends with rfl | ⟨rest, rfl⟩
  · exact ⟨_, .nothing⟩
  · exact ⟨_, .lines rest⟩

/-- Behind an empty first line nothing aborts. -/
theorem Behind.read_ne_abort (h : Behind behind later) (cause : Abort) :
    Digraph.read behind ≠ .error (.abort cause) := by
  intro aborted
  rw [h.read] at aborted
  cases read : readLines 2 later with
  | ok records =>
    rw [read] at aborted
    cases aborted
  | error failure =>
    rw [read] at aborted
    obtain rfl := Except.error.inj aborted
    obtain ⟨i, bytes, bad⟩ := exists_badLine_of_readLines read (by decide)
    cases bad

/-- A file that begins with counts is read like the same file with an empty first line, if what they
    announce can be addressed. It aborts if not, and only then. -/
theorem read_countsLine (hn : Counts n v) (hm : Counts m e)
    (ends : behind = [] ∨ ∃ rest, behind = Text.lineFeed :: rest) :
    read (countsLine n m ++ behind) =
        (if v < vertexBound ∧ e < edgeBound then read behind
          else .error (.abort .capacityOverflow)) ∧
      ∀ cause, read behind ≠ .error (.abort cause) := by
  obtain ⟨later, h⟩ := exists_behind ends
  have first := readLine_countsLine hn hm
  have lines := h.lines_append (lineFeed_not_mem_countsLine hn hm) (List.cons_ne_nil _ _)
  refine ⟨?_, h.read_ne_abort⟩
  rw [read_eq, lines]
  split
  · next fits =>
    rw [if_pos fits] at first
    rw [readLines_cons first, map_ofRecords_cons rfl rfl, h.read]
  · next fits =>
    rw [if_neg fits] at first
    rw [readLines, first]
    rfl

/-- A vertex without a name is on the third line, with counts before it and without. -/
theorem read_countsLine_three_lines :
    let behind : List UInt8 := [0x0A, 0x76, 0x20, 0x31, 0x0A, 0x76]
    Counts ['3'] 3 ∧ Counts ['+', '0', '2'] 2 ∧
      read (countsLine ['3'] ['+', '0', '2'] ++ behind) = read behind ∧
      read behind = .error (.badLine 3 .vertexWithoutName) := by
  intro behind
  have three : Counts ['3'] 3 := Text.readCount?_eq_some_iff.mp (by decide)
  have two : Counts ['+', '0', '2'] 2 := Text.readCount?_eq_some_iff.mp (by decide)
  have ends : behind = [] ∨ ∃ rest, behind = Text.lineFeed :: rest := .inr ⟨_, rfl⟩
  obtain ⟨same, -⟩ := read_countsLine three two ends
  exact ⟨three, two, same.trans (if_pos (by decide)), by decide +kernel⟩

/-- Counts are more than a hint: this file has no lines but the first one, and is not read. -/
theorem read_countsLine_aborts :
    let most : List Char := "18446744073709551615".toList
    Counts most (UInt64.size - 1) ∧ Counts ['0'] 0 ∧
      read (countsLine most ['0'] ++ [0x0A]) = .error (.abort .capacityOverflow) ∧
      read [0x0A] = .ok .empty := by
  refine ⟨Text.readCount?_eq_some_iff.mp (by decide), Text.readCount?_eq_some_iff.mp (by decide),
    by decide +kernel, by decide +kernel⟩

end Digraph

end ShardCut
