import Mathlib.Algebra.BigOperators.Group.Finset.Basic
import ShardCut.Proofs.Registry

/-!
How names are numbered. Names are registered as they are mentioned, each with its owner, and a name
that was mentioned before is passed over. So the slot of a name is the number of the other names of
its owner whose first mention comes earlier. Mentions that follow change nothing about this number,
which makes it an invariant of the registration: what was true of the names seen so far stays true
when one more name is seen.

Main definitions: `rank`, `Numbers`. Main results: `Numbers.extend`, `Numbers.registerAll`.
-/

namespace ShardCut

namespace Registry

variable {r : Registry} {owner : VertexName → Nat} {seen : List VertexName} {name : VertexName}

/-- The distinct names of an owner among those that are mentioned. -/
def namesOf (owner : VertexName → Nat) (mentions : List VertexName) (shard : Nat) :
    Finset VertexName :=
  mentions.toFinset.filter fun name => owner name = shard

/-- The number of the distinct names of the same owner whose first mention comes before that of a
    name. -/
def rank (owner : VertexName → Nat) (mentions : List VertexName) (name : VertexName) : Nat :=
  ((namesOf owner mentions (owner name)).filter fun other =>
    mentions.idxOf other < mentions.idxOf name).card

/-- The names of a shard are those that it owns. -/
theorem mem_namesOf {mentions : List VertexName} {shard : Nat} :
    name ∈ namesOf owner mentions shard ↔ name ∈ mentions ∧ owner name = shard := by
  rw [namesOf, Finset.mem_filter, List.mem_toFinset]

/-- Later mentions do not change the rank of a name. -/
theorem rank_append (h : name ∈ seen) (more : List VertexName) :
    rank owner (seen ++ more) name = rank owner seen name := by
  have place := List.idxOf_lt_length_of_mem h
  unfold rank
  congr 1
  ext other
  rw [Finset.mem_filter, Finset.mem_filter, mem_namesOf, mem_namesOf, List.mem_append,
    List.idxOf_append_of_mem h]
  by_cases ho : other ∈ seen
  · rw [List.idxOf_append_of_mem ho]
    simp only [ho, true_or]
  · rw [List.idxOf_append_of_notMem ho]
    constructor
    · intro given
      omega
    · intro given
      exact absurd given.1.1 ho

/-- A name that is mentioned for the first time comes behind all names of its owner. -/
theorem rank_concat (h : name ∉ seen) :
    rank owner (seen ++ [name]) name = (namesOf owner seen (owner name)).card := by
  unfold rank
  congr 1
  ext other
  rw [Finset.mem_filter, mem_namesOf, mem_namesOf, List.idxOf_append_of_notMem h]
  by_cases ho : other ∈ seen
  · have place := List.idxOf_lt_length_of_mem ho
    rw [List.idxOf_append_of_mem ho]
    simp only [List.mem_append, ho, true_or, true_and, and_iff_left_iff_imp]
    omega
  · rw [List.idxOf_append_of_notMem ho]
    simp [ho]

theorem toFinset_concat (seen : List VertexName) (name : VertexName) :
    (seen ++ [name]).toFinset = insert name seen.toFinset := by
  ext other
  simp

theorem toFinset_concat_of_mem (h : name ∈ seen) : (seen ++ [name]).toFinset = seen.toFinset := by
  rw [toFinset_concat, Finset.insert_eq_of_mem (List.mem_toFinset.mpr h)]

/-- A name that was not seen before is one more for its owner. -/
theorem card_namesOf_concat (h : name ∉ seen) (shard : Nat) :
    (namesOf owner (seen ++ [name]) shard).card =
      (namesOf owner seen shard).card + if owner name = shard then 1 else 0 := by
  have new : name ∉ namesOf owner seen shard := fun old => h (mem_namesOf.mp old).1
  rw [namesOf, toFinset_concat, Finset.filter_insert]
  split
  · exact Finset.card_insert_of_notMem new
  · rfl

/-- A registry numbers the names that were seen: exactly these are registered, each stands with its
    owner at the slot of its rank, and nothing else takes up a slot. -/
structure Numbers (r : Registry) (owner : VertexName → Nat) (seen : List VertexName) : Prop where
  coherent : r.Coherent
  known : ∀ name, (r.id? name).isSome ↔ name ∈ seen
  stands : ∀ name ∈ seen, r.At (owner name) (rank owner seen name) name
  count : ∀ shard, r.count shard = (namesOf owner seen shard).card
  total : r.total = seen.toFinset.card

/-- A name that was not seen has no id. -/
theorem Numbers.id?_eq_none (h : r.Numbers owner seen) (hn : name ∉ seen) : r.id? name = none := by
  rw [← Option.not_isSome_iff_eq_none, h.known]
  exact hn

/-- With all owners among the shards every registered name is counted with one of them. -/
theorem Numbers.sum_count {shards : Nat} (h : r.Numbers owner seen)
    (owned : ∀ name, owner name < shards) :
    ∑ shard ∈ Finset.range shards, r.count shard = r.total := by
  have maps : (seen.toFinset : Set VertexName).MapsTo owner (Finset.range shards) :=
    fun name _ => by simpa using owned name
  rw [h.total, Finset.card_eq_sum_card_fiberwise maps]
  exact Finset.sum_congr rfl fun shard _ => h.count shard

theorem numbers_ofShards (owner : VertexName → Nat) (shards : Nat) :
    (ofShards shards).Numbers owner [] where
  coherent := coherent_ofShards shards
  known name := by simp [ofShards, id?]
  stands name h := absurd h List.not_mem_nil
  count shard := by simp [namesOf]
  total := rfl

/-- A name that is seen again changes no number. -/
theorem Numbers.again (h : r.Numbers owner seen) (hn : name ∈ seen) :
    r.Numbers owner (seen ++ [name]) where
  coherent := h.coherent
  known other := by
    rw [h.known]
    by_cases ho : other = name <;> simp [ho, hn]
  stands other ho := by
    have old : other ∈ seen := by
      rcases List.mem_append.mp ho with old | new
      · exact old
      · rwa [List.mem_singleton.mp new]
    rw [rank_append old]
    exact h.stands other old
  count shard := by rw [h.count, namesOf, namesOf, toFinset_concat_of_mem hn]
  total := by rw [h.total, toFinset_concat_of_mem hn]

/-- A name that is seen for the first time takes the next number of its owner. -/
theorem Numbers.extend (h : r.Numbers owner seen) (hn : name ∉ seen)
    (hs : owner name < r.shardNum) :
    (r.extend (owner name) name).Numbers owner (seen ++ [name]) := by
  have unknown := h.id?_eq_none hn
  refine ⟨h.coherent.extend unknown hs, fun other => ?_, fun other ho => ?_, fun shard => ?_, ?_⟩
  · rw [id?_extend]
    by_cases same : name = other
    · simp [same]
    · rw [if_neg same, h.known]
      simp [Ne.symm same]
  · rw [at_extend_iff hs]
    rcases List.mem_append.mp ho with old | new
    · left
      rw [rank_append old]
      exact h.stands other old
    · obtain rfl := List.mem_singleton.mp new
      exact .inr ⟨rfl, by rw [rank_concat hn, h.count], rfl⟩
  · rw [count_extend hs, h.count, card_namesOf_concat hn]
  · rw [total_extend unknown, h.total, toFinset_concat,
      Finset.card_insert_of_notMem fun old => hn (List.mem_toFinset.mp old)]

/-- Seeing one more name keeps the numbering. -/
theorem Numbers.registerNext (h : r.Numbers owner seen) (hs : owner name < r.shardNum) :
    ∃ r', r.registerNext (fun name => .ok (owner name)) name = .ok r' ∧
      r'.shardNum = r.shardNum ∧ r'.Numbers owner (seen ++ [name]) := by
  by_cases hn : name ∈ seen
  · obtain ⟨id, known⟩ := Option.isSome_iff_exists.mp ((h.known name).mpr hn)
    exact ⟨r, registerNext_known known, rfl, h.again hn⟩
  · have unknown := h.id?_eq_none hn
    exact ⟨_, registerNext_new unknown rfl hs, shardNum_extend r _ name, h.extend hn hs⟩

/-- The registration of all mentions numbers them. -/
theorem Numbers.registerAll (h : r.Numbers owner seen) (owned : ∀ name, owner name < r.shardNum)
    (names : List VertexName) :
    ∃ r', r.registerAll (fun name => .ok (owner name)) names = .ok r' ∧
      r'.Numbers owner (seen ++ names) := by
  induction names generalizing r seen with
  | nil => exact ⟨r, rfl, by rwa [List.append_nil]⟩
  | cons name names ih =>
    obtain ⟨r', next, same, numbers⟩ := h.registerNext (owned name)
    obtain ⟨r'', rest, numbers'⟩ := ih numbers (by rwa [same])
    refine ⟨r'', ?_, by simpa using numbers'⟩
    rw [Registry.registerAll, List.foldlM_cons, next]
    exact rest

end Registry

end ShardCut
