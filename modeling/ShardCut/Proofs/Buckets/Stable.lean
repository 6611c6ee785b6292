import Mathlib.Data.List.Perm.Subperm
import ShardCut.Proofs.Buckets

/-!
The bucket layout as a stable sort in three passes. Each pass stays within its arrays as long as
every pair names a bucket that exists, and the first pass fails otherwise. The running sums can be
made in the array of the counts, from left to right. The last pass writes every place of the result,
and none of them twice: the places of a bucket are filled from its first one on, so a place that was
written lies before the next free place of its bucket.

Main definitions: `Accumulated`, `Filling.Moves`, `SortsStably`. Main results:
`accumulateAll?_eq_offsets`, `Filling.Moves.perm_range`, `ofPairs?_stable`.
-/

namespace ShardCut

namespace Buckets

variable {α : Type} {n : Nat} {pairs moved left : List (Nat × α)}

/-! ### Buckets that do not exist -/

theorem lt_size_of_increment? {counts counts' : Array Nat} {i : Nat}
    (h : increment? counts i = some counts') : i < counts.size ∧ counts'.size = counts.size := by
  unfold increment? at h
  split at h
  · next hi =>
    cases h
    exact ⟨hi, Array.size_set hi⟩
  · cases h

/-- The counting pass only gets through if there is a bucket for every pair. -/
theorem lt_of_foldlM_increment? {counts counts' : Array Nat} (size : counts.size = n + 1)
    (h : pairs.foldlM (fun counts pair => increment? counts (pair.1 + 1)) counts = some counts') :
    ∀ pair ∈ pairs, pair.1 < n := by
  induction pairs generalizing counts with
  | nil => exact List.forall_mem_nil _
  | cons pair pairs ih =>
    rw [List.foldlM_cons] at h
    obtain ⟨next, counted, later⟩ := Option.bind_eq_some_iff.mp h
    obtain ⟨inside, size'⟩ := lt_size_of_increment? counted
    refine List.forall_mem_cons.mpr ⟨by omega, ih (size'.trans size) later⟩

/-- The passes of a layout: the starts are the running sums of the counts, and the values are moved
    from there. -/
theorem passes_of_ofPairs? [Inhabited α] {b : Buckets α} (h : ofPairs? n pairs = some b) :
    ∃ counts filled, countShifted? n pairs = some counts ∧
      b.offsets = (runningSums 0 counts.toList).toArray ∧
      pairs.foldlM Filling.place? ⟨b.offsets, Array.replicate pairs.length default⟩ = some filled ∧
      filled.items = b.items := by
  obtain ⟨counts, counted, moving⟩ := Option.bind_eq_some_iff.mp h
  obtain ⟨filled, moved, same⟩ := Option.bind_eq_some_iff.mp moving
  cases same
  exact ⟨counts, filled, counted, rfl, moved, rfl⟩

/-! ### Running sums in place -/

/-- Adds an entry to the one behind it, if both exist. -/
def accumulate? (counts : Array Nat) (i : Nat) : Option (Array Nat) :=
  if h : i + 1 < counts.size then some (counts.set (i + 1) (counts[i + 1] + counts[i])) else none

/-- Turns the counts of `n` buckets into their running sums, in the array that holds the counts. -/
def accumulateAll? (n : Nat) (counts : Array Nat) : Option (Array Nat) :=
  (List.range n).foldlM accumulate? counts

/-- The array when the entries up to a place hold their sums: those are the first places of the
    buckets, and the entries behind still hold the counts. -/
structure Accumulated (counts : Array Nat) (n : Nat) (pairs : List (Nat × α)) (done : Nat) :
    Prop where
  size : counts.size = n + 1
  sums : ∀ i ≤ done, counts[i]? = some (firstPlace pairs i)
  behind : ∀ i, done < i → i ≤ n → counts[i]? = some (pairs.countP fun pair => pair.1 + 1 = i)

theorem accumulated_start {counts : Array Nat} (size : counts.size = n + 1)
    (entries : ∀ i, counts.getD i 0 = pairs.countP fun pair => pair.1 + 1 = i) :
    Accumulated counts n pairs 0 := by
  have entry {i : Nat} (hi : i ≤ n) :
      counts[i]? = some (pairs.countP fun pair => pair.1 + 1 = i) := by
    rw [← entries i, Array.getElem?_eq_getElem (by omega), Array.getD, dif_pos (by omega)]
    rfl
  refine ⟨size, fun i hi => ?_, fun i _ hi => entry hi⟩
  obtain rfl := Nat.le_zero.mp hi
  rw [entry (Nat.zero_le n), firstPlace_zero]
  simp

/-- One addition takes the sums one entry further. -/
theorem Accumulated.next {counts : Array Nat} {done : Nat} (h : Accumulated counts n pairs done)
    (inside : done < n) :
    ∃ counts', accumulate? counts done = some counts' ∧
      Accumulated counts' n pairs (done + 1) := by
  have hlt : done + 1 < counts.size := by
    rw [h.size]
    omega
  obtain ⟨_, sum⟩ := Array.getElem?_eq_some_iff.mp (h.sums done (Nat.le_refl done))
  obtain ⟨_, count⟩ :=
    Array.getElem?_eq_some_iff.mp (h.behind (done + 1) (Nat.lt_succ_self done) inside)
  have values : counts[done + 1] = (valuesIn pairs done).length := by
    simpa [length_valuesIn] using count
  refine ⟨_, dif_pos hlt, ?_, fun i hi => ?_, fun i hi hn => ?_⟩
  · simpa using h.size
  · rcases Nat.le_succ_iff.mp hi with before | rfl
    · rw [Array.getElem?_set_ne hlt (by omega), h.sums i before]
    · rw [Array.getElem?_set_self hlt, firstPlace_succ, sum, values, Nat.add_comm]
  · rw [Array.getElem?_set_ne hlt (by omega), h.behind i (by omega) hn]

/-- After some additions the sums have come as many entries far. -/
theorem Accumulated.upTo {counts : Array Nat} (h : Accumulated counts n pairs 0) {done : Nat}
    (inside : done ≤ n) :
    ∃ counts', (List.range done).foldlM accumulate? counts = some counts' ∧
      Accumulated counts' n pairs done := by
  induction done with
  | zero => exact ⟨counts, rfl, h⟩
  | succ done ih =>
    obtain ⟨counts', before, accumulated⟩ := ih (Nat.le_of_succ_le inside)
    obtain ⟨counts'', last, accumulated'⟩ := accumulated.next inside
    refine ⟨counts'', ?_, accumulated'⟩
    rw [List.range_succ, List.foldlM_append, before]
    simpa using last

/-- In place the sums come out as the starts of the buckets of a layout. -/
theorem accumulateAll?_eq_offsets {b : Buckets α} {counts : Array Nat} (h : b.Holds n pairs)
    (size : counts.size = n + 1)
    (entries : ∀ i, counts.getD i 0 = pairs.countP fun pair => pair.1 + 1 = i) :
    accumulateAll? n counts = some b.offsets := by
  obtain ⟨sums, passed, accumulated⟩ := (accumulated_start size entries).upTo (Nat.le_refl n)
  have same : sums = b.offsets := by
    apply Array.ext_getElem?
    intro i
    rcases Nat.lt_or_ge n i with beyond | inside
    · rw [Array.getElem?_eq_none (by rw [accumulated.size]; exact beyond),
        Array.getElem?_eq_none (by rw [h.offsets_size]; exact beyond)]
    · rw [accumulated.sums i inside, h.offsets i inside]
  rw [accumulateAll?, passed, same]

example : accumulateAll? 3 #[0, 2, 0, 1] = some #[0, 2, 2, 3] := by decide +kernel

/-! ### The places that are written -/

/-- The last pass moves the values of some pairs, one after the other, to the listed places. -/
inductive Filling.Moves : Filling α → List (Nat × α) → List Nat → Filling α → Prop where
  | nil (filling : Filling α) : Moves filling [] [] filling
  | cons {filling filling' : Filling α} {i : Nat} {value : α} {left : List (Nat × α)}
      {places : List Nat} (bucket : i < filling.next.size)
      (place : filling.next[i] < filling.items.size)
      (later : Moves ⟨filling.next.set i (filling.next[i] + 1),
        filling.items.set filling.next[i] value⟩ left places filling') :
      Moves filling ((i, value) :: left) (filling.next[i] :: places) filling'

/-- Placing a pair that succeeds writes one place and moves the next place of its bucket on. -/
theorem Filling.place_of_place? {filling next : Filling α} {pair : Nat × α}
    (h : filling.place? pair = some next) :
    ∃ (bucket : pair.1 < filling.next.size) (place : filling.next[pair.1] < filling.items.size),
      next = ⟨filling.next.set pair.1 (filling.next[pair.1] + 1),
        filling.items.set filling.next[pair.1] pair.2⟩ := by
  simp only [Filling.place?] at h
  split_ifs at h with bucket place
  cases h
  exact ⟨bucket, place, rfl⟩

/-- Placing pairs leaves a trace of the places that were written. -/
theorem Filling.exists_moves {filling filling' : Filling α}
    (h : left.foldlM Filling.place? filling = some filling') :
    ∃ places, filling.Moves left places filling' := by
  induction left generalizing filling with
  | nil =>
    cases h
    exact ⟨[], .nil _⟩
  | cons pair left ih =>
    rw [List.foldlM_cons] at h
    obtain ⟨next, placed, later⟩ := Option.bind_eq_some_iff.mp h
    obtain ⟨bucket, place, rfl⟩ := place_of_place? placed
    obtain ⟨places, moves⟩ := ih later
    exact ⟨_, .cons bucket place moves⟩

theorem Filling.Moves.length_eq {filling filling' : Filling α} {places : List Nat}
    (h : filling.Moves left places filling') : places.length = left.length := by
  induction h with
  | nil => rfl
  | cons _ _ _ ih => exact congrArg (· + 1) ih

/-- A place of some bucket that is free as long as only some of the pairs were moved. -/
def Free (pairs moved : List (Nat × α)) (place : Nat) : Prop :=
  ∃ i k, (valuesIn moved i).length ≤ k ∧ k < (valuesIn pairs i).length ∧
    place = firstPlace pairs i + k

theorem Free.lt_length {place : Nat} (h : Free pairs moved place) : place < pairs.length := by
  obtain ⟨i, k, -, hk, rfl⟩ := h
  have stop := firstPlace_succ pairs i
  have inside := firstPlace_le_length pairs (i + 1)
  omega

/-- A place that is still free after one more move is another one than the place of this move, and
    was free before. -/
theorem Free.of_concat {place i : Nat} {value : α}
    (room : (valuesIn moved i).length < (valuesIn pairs i).length)
    (h : Free pairs (moved ++ [(i, value)]) place) :
    Free pairs moved place ∧ place ≠ firstPlace pairs i + (valuesIn moved i).length := by
  obtain ⟨j, k, free, hk, rfl⟩ := h
  by_cases hij : i = j
  · subst hij
    rw [valuesIn_concat_self, List.length_append, List.length_singleton] at free
    exact ⟨⟨i, k, by omega, hk, rfl⟩, by omega⟩
  · rw [valuesIn_concat_of_ne hij] at free
    exact ⟨⟨j, k, free, hk, rfl⟩, (firstPlace_add_ne hij room hk).symm⟩

/-- The places that are still written are free, and all different. -/
theorem Filling.Moves.free {filling filling' : Filling α} {places : List Nat}
    (h : filling.Moves left places filling') (holds : filling.Holds n pairs moved)
    (all : pairs = moved ++ left) (bound : ∀ pair ∈ pairs, pair.1 < n) :
    (∀ place ∈ places, Free pairs moved place) ∧ places.Nodup := by
  induction h generalizing moved with
  | nil => exact ⟨List.forall_mem_nil _, List.nodup_nil⟩
  | @cons filling filling' i value left places bucket place later ih =>
    have hi : i < n := bound (i, value) (by simp [all])
    have room : (valuesIn moved i).length < (valuesIn pairs i).length := by
      rw [length_valuesIn_split all i, valuesIn_cons, if_pos rfl, List.length_cons]
      omega
    obtain ⟨_, slot, _⟩ := holds.next_eq hi room
    obtain ⟨next, placed, holds'⟩ := holds.place all hi
    rw [Filling.place?, dif_pos bucket, dif_pos place] at placed
    cases placed
    -- The later places are still free after this move, so none of them is the place of this one.
    obtain ⟨free, nodup⟩ := ih holds' (by simpa using all)
    refine ⟨List.forall_mem_cons.mpr ⟨⟨i, _, Nat.le_refl _, room, slot⟩, fun q hq => ?_⟩,
      List.nodup_cons.mpr ⟨fun again => ?_, nodup⟩⟩
    · exact ((free q hq).of_concat room).1
    · exact ((free _ again).of_concat room).2 slot

/-- All places are written, each one once. -/
theorem Filling.Moves.perm_range {filling filling' : Filling α} {places : List Nat}
    (h : filling.Moves pairs places filling') (holds : filling.Holds n pairs [])
    (bound : ∀ pair ∈ pairs, pair.1 < n) : places.Perm (List.range pairs.length) := by
  obtain ⟨free, nodup⟩ := h.free holds (List.nil_append _).symm bound
  have inside : places ⊆ List.range pairs.length :=
    fun place hp => List.mem_range.mpr (free place hp).lt_length
  apply (List.subperm_of_subset nodup inside).perm_of_length_le
  exact Nat.le_of_eq (List.length_range.trans h.length_eq.symm)

/-! ### The sorted layout -/

/-- The layout is a stable sort of the pairs by bucket: the starts ascend from the first place to
    the end, and the slice between two of them holds the values of the bucket in their order. -/
structure SortsStably (b : Buckets α) (n : Nat) (pairs : List (Nat × α)) : Prop where
  offsets_size : b.offsets.size = n + 1
  first : b.offsets[0]? = some 0
  last : b.offsets[n]? = some pairs.length
  ascending : b.offsets.toList.Pairwise (· ≤ ·)
  items_size : b.items.size = pairs.length
  slice : ∀ i < n, ∃ start stop, b.offsets[i]? = some start ∧ b.offsets[i + 1]? = some stop ∧
    start ≤ stop ∧ stop ≤ pairs.length ∧
    (b.items.extract start stop).toList = (pairs.filter fun pair => pair.1 = i).map Prod.snd

/-- Behind the last bucket the values end. -/
theorem firstPlace_eq_length (bound : ∀ pair ∈ pairs, pair.1 < n) :
    firstPlace pairs n = pairs.length := by
  rw [firstPlace, List.countP_eq_length]
  simpa using bound

/-- A layout that holds the pairs sorts them stably by bucket. -/
theorem Holds.sortsStably {b : Buckets α} (h : b.Holds n pairs) : b.SortsStably n pairs where
  offsets_size := h.offsets_size
  first := by rw [h.offsets 0 (Nat.zero_le n), firstPlace_zero]
  last := by rw [h.offsets n (Nat.le_refl n), firstPlace_eq_length h.bound]
  ascending := by
    have starts (k : Nat) (hk : k < b.offsets.toList.length) :
        b.offsets.toList[k] = firstPlace pairs k := by
      rw [Array.length_toList, h.offsets_size] at hk
      exact (Array.getElem?_eq_some_iff.mp (h.offsets k (Nat.le_of_lt_succ hk))).2
    rw [List.pairwise_iff_getElem]
    intro i j hi hj hij
    rw [starts i hi, starts j hj]
    exact firstPlace_mono pairs (Nat.le_of_lt hij)
  items_size := h.items_size
  slice i hi := by
    have start := h.offsets i (Nat.le_of_lt hi)
    have stop := h.offsets (i + 1) hi
    refine ⟨_, _, start, stop, firstPlace_mono pairs (Nat.le_succ i),
      firstPlace_le_length pairs (i + 1), ?_⟩
    have values := h.bucket i
    rwa [Buckets.bucket, start, stop] at values

/-- Pairs are laid out just when their buckets exist, and then all three passes stay within their
    arrays: counting, summing up in place, and moving every value to a place of its own. What comes
    out is a stable sort by bucket. -/
theorem ofPairs?_stable [Inhabited α] (n : Nat) (pairs : List (Nat × α)) :
    ((∃ b, ofPairs? n pairs = some b) ↔ ∀ pair ∈ pairs, pair.1 < n) ∧
      ∀ b, ofPairs? n pairs = some b → b.SortsStably n pairs ∧
        ∃ counts filled places, countShifted? n pairs = some counts ∧
          accumulateAll? n counts = some b.offsets ∧
          Filling.Moves ⟨b.offsets, Array.replicate pairs.length default⟩ pairs places filled ∧
          filled.items = b.items ∧ places.Perm (List.range pairs.length) := by
  have made (bound : ∀ pair ∈ pairs, pair.1 < n) := ofPairs?_eq_some bound
  have bound {b : Buckets α} (given : ofPairs? n pairs = some b) : ∀ pair ∈ pairs, pair.1 < n := by
    obtain ⟨counts, -, counted, -⟩ := passes_of_ofPairs? given
    exact lt_of_foldlM_increment? Array.size_replicate counted
  refine ⟨⟨fun given => ?_, fun all => ?_⟩, fun b given => ?_⟩
  · obtain ⟨b, given⟩ := given
    exact bound given
  · obtain ⟨b, given, -⟩ := made all
    exact ⟨b, given⟩
  · obtain ⟨b', given', holds⟩ := made (bound given)
    obtain rfl := Option.some.inj (given'.symm.trans given)
    obtain ⟨counts, counted, size, entries⟩ := countShifted?_spec (bound given)
    obtain ⟨counts', filled, counted', -, moved, items⟩ := passes_of_ofPairs? given
    obtain rfl := Option.some.inj (counted'.symm.trans counted)
    obtain ⟨places, moves⟩ := Filling.exists_moves moved
    have starts : Filling.Holds ⟨b'.offsets, Array.replicate pairs.length default⟩ n pairs [] :=
      Filling.holds_start holds.offsets_size holds.offsets Array.size_replicate
    exact ⟨holds.sortsStably, counts', filled, places, counted,
      accumulateAll?_eq_offsets holds size entries, moves, items,
      moves.perm_range starts (bound given)⟩

/-- One bucket gets the same value twice, two others get none; with fewer buckets there is no
    layout. -/
theorem ofPairs?_stable_repeated :
    let pairs : List (Nat × Nat) := [(2, 7), (0, 8), (2, 9), (2, 7)]
    (∀ pair ∈ pairs, pair.1 < 4) ∧ (¬∃ b, ofPairs? 2 pairs = some b) ∧
      ∃ b, ofPairs? 4 pairs = some b ∧ b.SortsStably 4 pairs ∧ b.offsets = #[0, 1, 1, 4, 4] ∧
        b.items = #[8, 7, 9, 7] ∧ ∃ filled places,
          Filling.Moves ⟨b.offsets, #[0, 0, 0, 0]⟩ pairs places filled ∧
            places.Perm [0, 1, 2, 3] := by
  intro pairs
  have bound : ∀ pair ∈ pairs, pair.1 < 4 := by decide
  obtain ⟨made, sorted⟩ := ofPairs?_stable 4 pairs
  obtain ⟨b, given⟩ := made.mpr bound
  obtain ⟨stable, counts, filled, places, -, -, moves, -, perm⟩ := sorted b given
  have computed : (ofPairs? 4 pairs).map (fun b => (b.offsets, b.items)) =
      some (#[0, 1, 1, 4, 4], #[8, 7, 9, 7]) := by decide +kernel
  rw [given, Option.map_some, Option.some_inj, Prod.mk.injEq] at computed
  refine ⟨bound, fun fewer => ?_, b, given, stable, computed.1, computed.2, filled, places, moves,
    perm⟩
  exact absurd ((ofPairs?_stable 2 pairs).1.mp fewer) (by decide)

end Buckets

end ShardCut
