import Mathlib.Algebra.Group.Nat.Defs
import ShardCut.Mesh.Bytes

/-!
Messages of bytes are read back. A reader stops where the writer stopped, whatever stands behind, so
writers and readers of a whole follow from those of its parts. Only a length can be too large for
its place: it has to be below `2 ^ 64`, which it is for everything that is held in memory.

Names are the exception: nothing but the empty list of names is read back.

Main definitions: `Bytes.ReadsBack`, `Codec.Carries`. Main results: `Bytes.readsBack_list`,
`Codec.faithful_word`, `Codec.restores_text`, `Codec.carries_words`, `Codec.carries_edges`,
`Codec.restores_names_iff`.
-/

namespace ShardCut

namespace Bytes

variable {α : Type} {write : α → Bytes} {read : Bytes → Option (α × Bytes)}

/-- What was written of a value is read as this value, and nothing of what follows is. -/
def ReadsBack (write : α → Bytes) (read : Bytes → Option (α × Bytes)) (value : α) : Prop :=
  ∀ rest, read (write value ++ rest) = some (value, rest)

theorem length_ofNat (count value : Nat) : (ofNat count value).length = count := by
  induction count generalizing value with
  | zero => rfl
  | succ count ih => rw [ofNat, List.length_cons, ih]

/-- The bytes of a number keep its lowest digits. -/
theorem toNat_ofNat (count value : Nat) : toNat (ofNat count value) = value % 256 ^ count := by
  induction count generalizing value with
  | zero => rw [pow_zero, Nat.mod_one, ofNat]; rfl
  | succ count ih =>
    have lowest : (UInt8.ofNat value).toNat = value % 256 := UInt8.toNat_ofNat'
    change (UInt8.ofNat value).toNat + 256 * toNat (ofNat count (value / 256)) = _
    rw [ih, lowest, pow_succ', Nat.mod_mul]

/-- A number below `2 ^ 64` fits eight bytes. -/
theorem toNat_ofNat_of_lt {value : Nat} (fits : value < UInt64.size) :
    toNat (ofNat 8 value) = value := by
  rw [toNat_ofNat]
  exact Nat.mod_eq_of_lt fits

theorem take?_append {front : Bytes} {count : Nat} (h : front.length = count) (rest : Bytes) :
    take? count (front ++ rest) = some (front, rest) := by
  subst h
  rw [take?, if_neg (by simp), List.splitAt_eq, List.take_left', List.drop_left']
  · rfl
  · rfl

theorem readsBack_word (word : UInt64) : ReadsBack ofWord readWord word := by
  intro rest
  rw [readWord, ofWord, take?_append (length_ofNat 8 _)]
  simp only [Option.bind_eq_bind, Option.bind_some, toNat_ofNat_of_lt word.toNat_lt,
    UInt64.ofNat_toNat]
  rfl

theorem readsBack_length {length : Nat} (fits : length < UInt64.size) :
    ReadsBack ofLength readLength length := by
  intro rest
  rw [readLength, ofLength, take?_append (length_ofNat 8 _)]
  simp only [Option.bind_eq_bind, Option.bind_some, toNat_ofNat_of_lt fits]
  rfl

/-- An edge is read back from its two words. -/
theorem readsBack_edge (edge : GlobalId × GlobalId) : ReadsBack ofEdge readEdge edge := by
  intro rest
  rw [readEdge, ofEdge, List.append_assoc, readsBack_word]
  simp only [Option.bind_eq_bind, Option.bind_some, readsBack_word edge.2 rest]
  rfl

/-- A text is read back if its bytes can be counted. -/
theorem readsBack_text {text : String} (fits : text.toByteArray.size < UInt64.size) :
    ReadsBack ofText readText text := by
  intro rest
  have decoded : String.fromUTF8? ⟨text.toByteArray.data.toList.toArray⟩ = some text := by
    rw [Array.toArray_toList, String.fromUTF8?, dif_pos text.isValidUTF8]
    rfl
  have size : text.toByteArray.data.toList.length < UInt64.size := by rwa [Array.length_toList]
  rw [readText, ofText, List.append_assoc, readsBack_length size]
  simp only [Option.bind_eq_bind, Option.bind_some, take?_append rfl, decoded]
  rfl

/-- As many items as were written are read back, if each of them is. -/
theorem readItems_flatMap {items : List α} (each : ∀ item ∈ items, ReadsBack write read item)
    (rest : Bytes) :
    readItems read items.length (items.flatMap write ++ rest) = some (items, rest) := by
  induction items with
  | nil => rfl
  | cons item items ih =>
    obtain ⟨first, others⟩ := List.forall_mem_cons.mp each
    rw [List.flatMap_cons, List.append_assoc, List.length_cons, readItems, first]
    simp only [Option.bind_eq_bind, Option.bind_some, ih others]
    rfl

/-- A list is read back if its length fits a word and its items are read back. -/
theorem readsBack_list {items : List α} (each : ∀ item ∈ items, ReadsBack write read item)
    (fits : items.length < UInt64.size) : ReadsBack (ofItems write) (readList read) items := by
  intro rest
  rw [readList, ofItems, List.append_assoc, readsBack_length fits]
  exact readItems_flatMap each rest

end Bytes

namespace Codec

variable {M α : Type}

/-- A codec carries lists up to a length when it restores them. -/
def Carries (codec : Codec M (List α)) (most : Nat) : Prop :=
  ∀ values, values.length ≤ most → codec.Restores values

theorem restores_ofReader {write : α → Bytes} {read : Bytes → Option (α × Bytes)} {value : α}
    (h : Bytes.ReadsBack write read value) : (ofReader write read).Restores value := by
  have whole := h []
  rw [List.append_nil] at whole
  change (read (write value)).map Prod.fst = some value
  rw [whole]
  rfl

theorem faithful_unit : Codec.unit.Faithful := fun () => rfl

theorem faithful_word : Codec.word.Faithful :=
  fun word => restores_ofReader (Bytes.readsBack_word word)

theorem restores_text {text : String} (fits : text.toByteArray.size < UInt64.size) :
    Codec.text.Restores text := restores_ofReader (Bytes.readsBack_text fits)

/-- Lists of words are carried as long as they can be counted. -/
theorem carries_words {most : Nat} (fits : most < UInt64.size) : Codec.words.Carries most :=
  fun _ le => restores_ofReader
    (Bytes.readsBack_list (fun word _ => Bytes.readsBack_word word) (Nat.lt_of_le_of_lt le fits))

/-- Lists of edges are carried as long as they can be counted. -/
theorem carries_edges {most : Nat} (fits : most < UInt64.size) : Codec.edges.Carries most :=
  fun _ le => restores_ofReader
    (Bytes.readsBack_list (fun edge _ => Bytes.readsBack_edge edge) (Nat.lt_of_le_of_lt le fits))

/-- Of the lists of names only the empty one is restored, since no name is ever read. -/
theorem restores_names_iff {names : List VertexName} : Codec.names.Restores names ↔ names = [] := by
  constructor
  · intro restored
    obtain ⟨⟨found, rest⟩, read, rfl⟩ := Option.map_eq_some_iff.mp restored
    simp only [Bytes.readList, Option.bind_eq_bind, Option.bind_eq_some_iff] at read
    obtain ⟨⟨length, behind⟩, -, items⟩ := read
    cases length with
    | zero =>
      cases items
      rfl
    | succ length => cases items
  · rintro rfl
    rfl

end Codec

end ShardCut
