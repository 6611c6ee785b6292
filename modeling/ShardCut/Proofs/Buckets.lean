import ShardCut.Buckets

/-!
What the bucket layout holds. If every pair names a bucket that exists, the layout is made, and each
bucket holds the values of its own pairs in their order. The invariant of the last pass says that
the next free place of a bucket lies behind the values that were moved there so far, and before the
first place of the next bucket.

Main definitions: `valuesIn`, `firstPlace`, `Filling.Holds`. Main results: `Filling.Holds.place`,
`ofPairs?_eq_some`, `Holds.bucket`.
-/

namespace ShardCut

namespace Buckets

variable {α : Type} {n : Nat} {pairs moved left : List (Nat × α)}

/-- The values that the pairs put into a bucket. -/
def valuesIn (pairs : List (Nat × α)) (i : Nat) : List α :=
  (pairs.filter fun pair => pair.1 = i).map Prod.snd

/-- The first place of a bucket: the number of values that go into the buckets before it. -/
def firstPlace (pairs : List (Nat × α)) (i : Nat) : Nat :=
  pairs.countP fun pair => pair.1 < i

@[simp] theorem valuesIn_nil (i : Nat) : valuesIn ([] : List (Nat × α)) i = [] := rfl

theorem valuesIn_cons (pair : Nat × α) (pairs : List (Nat × α)) (i : Nat) :
    valuesIn (pair :: pairs) i =
      if pair.1 = i then pair.2 :: valuesIn pairs i else valuesIn pairs i := by
  by_cases h : pair.1 = i <;> simp [valuesIn, h]

/-- The values of a bucket are found in the order of the pairs. -/
theorem valuesIn_append (moved left : List (Nat × α)) (i : Nat) :
    valuesIn (moved ++ left) i = valuesIn moved i ++ valuesIn left i := by
  simp [valuesIn]

theorem valuesIn_concat_self (moved : List (Nat × α)) (i : Nat) (value : α) :
    valuesIn (moved ++ [(i, value)]) i = valuesIn moved i ++ [value] := by
  simp [valuesIn]

theorem valuesIn_concat_of_ne {i j : Nat} (h : i ≠ j) (moved : List (Nat × α)) (value : α) :
    valuesIn (moved ++ [(i, value)]) j = valuesIn moved j := by
  simp [valuesIn, h]

/-- A bucket that no pair names is empty. -/
theorem valuesIn_eq_nil {i : Nat} (h : ∀ pair ∈ pairs, pair.1 ≠ i) : valuesIn pairs i = [] := by
  simpa [valuesIn, List.filter_eq_nil_iff] using h

/-- A bucket has as many values as there are pairs that name it. -/
theorem length_valuesIn (pairs : List (Nat × α)) (i : Nat) :
    (valuesIn pairs i).length = pairs.countP fun pair => pair.1 = i := by
  rw [valuesIn, List.length_map, List.countP_eq_length_filter]

@[simp] theorem firstPlace_zero (pairs : List (Nat × α)) : firstPlace pairs 0 = 0 := by
  simp [firstPlace]

/-- A bucket ends where the next one begins. -/
theorem firstPlace_succ (pairs : List (Nat × α)) (i : Nat) :
    firstPlace pairs (i + 1) = firstPlace pairs i + (valuesIn pairs i).length := by
  rw [length_valuesIn]
  unfold firstPlace
  induction pairs with
  | nil => rfl
  | cons pair pairs ih =>
    simp only [List.countP_cons, ih, decide_eq_true_eq]
    rcases Nat.lt_trichotomy pair.1 i with h | h | h
    · simp [h, Nat.ne_of_lt h, Nat.lt_succ_of_lt h]
      omega
    · simp [h]
      omega
    · simp [Nat.not_lt.mpr (Nat.le_of_lt h), (Nat.ne_of_lt h).symm, Nat.not_lt.mpr h]

theorem firstPlace_mono (pairs : List (Nat × α)) {i j : Nat} (h : i ≤ j) :
    firstPlace pairs i ≤ firstPlace pairs j := by
  induction h with
  | refl => exact Nat.le_refl _
  | step _ ih =>
    rw [firstPlace_succ]
    omega

theorem firstPlace_le_length (pairs : List (Nat × α)) (i : Nat) :
    firstPlace pairs i ≤ pairs.length :=
  List.countP_le_length

/-! ### Counting -/

theorem increment?_eq_some {counts : Array Nat} {i : Nat} (h : i < counts.size) :
    increment? counts i = some (counts.set i (counts[i] + 1)) := by
  rw [increment?, dif_pos h]

/-- Counting adds to every entry the number of the pairs that belong there. -/
theorem foldlM_increment? (h : ∀ pair ∈ pairs, pair.1 < n) (counts : Array Nat)
    (size : counts.size = n + 1) :
    ∃ counts',
      pairs.foldlM (fun counts pair => increment? counts (pair.1 + 1)) counts = some counts' ∧
      counts'.size = n + 1 ∧
      ∀ i, counts'.getD i 0 = counts.getD i 0 + pairs.countP fun pair => pair.1 + 1 = i := by
  induction pairs generalizing counts with
  | nil => exact ⟨counts, rfl, size, fun i => by simp⟩
  | cons pair pairs ih =>
    have hlt : pair.1 + 1 < counts.size := by
      have := h pair (List.mem_cons_self ..)
      omega
    obtain ⟨counts', counted, size', entries⟩ :=
      ih (fun p hp => h p (List.mem_cons_of_mem _ hp))
        (counts.set (pair.1 + 1) (counts[pair.1 + 1] + 1)) (by simpa using size)
    refine ⟨counts', ?_, size', fun i => ?_⟩
    · rw [List.foldlM_cons, increment?_eq_some hlt]
      exact counted
    · rw [entries i, List.countP_cons]
      by_cases hi : pair.1 + 1 = i
      · subst hi
        simp [Array.getD_eq_getD_getElem?, hlt]
        omega
      · simp [Array.getD_eq_getD_getElem?, Array.getElem?_set_ne hlt hi, hi]

/-- Counting succeeds when all buckets exist, and leaves the count of each in the entry behind it.
    -/
theorem countShifted?_spec (h : ∀ pair ∈ pairs, pair.1 < n) :
    ∃ counts, countShifted? n pairs = some counts ∧ counts.size = n + 1 ∧
      ∀ i, counts.getD i 0 = pairs.countP fun pair => pair.1 + 1 = i := by
  obtain ⟨counts, counted, size, entries⟩ :=
    foldlM_increment? h (Array.replicate (n + 1) 0) (by simp)
  refine ⟨counts, counted, size, fun i => ?_⟩
  have zero : (Array.replicate (n + 1) 0).getD i 0 = 0 := by
    by_cases hi : i < n + 1
    · simp [Array.getD, hi]
    · simp [Array.getD, hi]
  rw [entries i, zero, Nat.zero_add]

/-! ### Running sums -/

@[simp] theorem length_runningSums (sum : Nat) (xs : List Nat) :
    (runningSums sum xs).length = xs.length := by
  induction xs generalizing sum with
  | nil => rfl
  | cons x xs ih => simp [runningSums, ih]

/-- An entry of the running sums adds up the entries up to it. -/
theorem getElem?_runningSums (sum : Nat) (xs : List Nat) {i : Nat} (h : i < xs.length) :
    (runningSums sum xs)[i]? = some ((xs.take (i + 1)).foldl (· + ·) sum) := by
  induction xs generalizing sum i with
  | nil => cases h
  | cons x xs ih =>
    cases i with
    | zero => simp [runningSums]
    | succ i => exact ih (sum + x) (Nat.lt_of_succ_lt_succ h)

/-- The running sums of the counts are the first places of the buckets. -/
theorem foldl_take_counts {counts : Array Nat}
    (entries : ∀ i, counts.getD i 0 = pairs.countP fun pair => pair.1 + 1 = i) {i : Nat}
    (h : i < counts.size) :
    (counts.toList.take (i + 1)).foldl (· + ·) 0 = firstPlace pairs i := by
  have next (k : Nat) (hk : k < counts.size) : (counts.toList.take (k + 1)).foldl (· + ·) 0 =
      (counts.toList.take k).foldl (· + ·) 0 + counts.getD k 0 := by
    rw [List.take_succ_eq_append_getElem (by simpa using hk), List.foldl_append]
    simp [Array.getD, hk]
  induction i with
  | zero =>
    rw [next 0 h, entries 0]
    simp
  | succ i ih =>
    rw [next (i + 1) h, ih (Nat.lt_of_succ_lt h), entries (i + 1), firstPlace_succ,
      length_valuesIn]
    simp

/-- The running sums of the counts are the first places of the buckets. -/
theorem offsets_spec {counts : Array Nat} (size : counts.size = n + 1)
    (entries : ∀ i, counts.getD i 0 = pairs.countP fun pair => pair.1 + 1 = i) {i : Nat}
    (h : i ≤ n) : (runningSums 0 counts.toList).toArray[i]? = some (firstPlace pairs i) := by
  have hi : i < counts.size := by omega
  rw [List.getElem?_toArray, getElem?_runningSums 0 _ (by simpa using hi),
    foldl_take_counts entries hi]

/-! ### Moving -/

/-- The state of the last pass when some of the pairs were moved: the next free place of every
    bucket, and the values that are in their places. -/
structure Filling.Holds (filling : Filling α) (n : Nat) (pairs moved : List (Nat × α)) : Prop where
  next_size : filling.next.size = n + 1
  items_size : filling.items.size = pairs.length
  next : ∀ i < n, filling.next[i]? = some (firstPlace pairs i + (valuesIn moved i).length)
  items : ∀ i k, k < (valuesIn moved i).length →
    filling.items[firstPlace pairs i + k]? = (valuesIn moved i)[k]?

/-- Before anything is moved, the next free place of every bucket is its first one. -/
theorem Filling.holds_start {starts : Array Nat} {items : Array α} (size : starts.size = n + 1)
    (offsets : ∀ i ≤ n, starts[i]? = some (firstPlace pairs i))
    (room : items.size = pairs.length) : Filling.Holds ⟨starts, items⟩ n pairs [] :=
  ⟨size, room, fun i hi => offsets i (Nat.le_of_lt hi), fun _ _ hk => (Nat.not_lt_zero _ hk).elim⟩

/-- Two buckets have no place in common. -/
theorem firstPlace_add_ne {i j k l : Nat} (h : i ≠ j) (hk : k < (valuesIn pairs i).length)
    (hl : l < (valuesIn pairs j).length) : firstPlace pairs i + k ≠ firstPlace pairs j + l := by
  have hi := firstPlace_succ pairs i
  have hj := firstPlace_succ pairs j
  rcases Nat.lt_or_gt_of_ne h with hlt | hgt
  · have := firstPlace_mono (i := i + 1) pairs hlt
    omega
  · have := firstPlace_mono (i := j + 1) pairs hgt
    omega

/-- What was moved to a bucket, and what is left for it, is all that goes there. -/
theorem length_valuesIn_split (all : pairs = moved ++ left) (i : Nat) :
    (valuesIn pairs i).length = (valuesIn moved i).length + (valuesIn left i).length := by
  rw [all, valuesIn_append, List.length_append]

/-- As long as a value is left for a bucket, its next free place exists. -/
theorem Filling.Holds.next_eq {filling : Filling α} {i : Nat} (h : filling.Holds n pairs moved)
    (hi : i < n) (room : (valuesIn moved i).length < (valuesIn pairs i).length) :
    ∃ hnext : i < filling.next.size,
      filling.next[i] = firstPlace pairs i + (valuesIn moved i).length ∧
        filling.next[i] < filling.items.size := by
  have hnext : i < filling.next.size := by
    rw [h.next_size]
    omega
  have slot : filling.next[i] = firstPlace pairs i + (valuesIn moved i).length := by
    have := h.next i hi
    rwa [Array.getElem?_eq_getElem hnext, Option.some_inj] at this
  refine ⟨hnext, slot, ?_⟩
  have stop := firstPlace_succ pairs i
  have inside := firstPlace_le_length pairs (i + 1)
  rw [slot, h.items_size]
  omega

/-- Moving one value fills the next free place of its bucket, and no other one. -/
theorem Filling.Holds.place {filling : Filling α} {i : Nat} {value : α}
    (h : filling.Holds n pairs moved) (all : pairs = moved ++ (i, value) :: left) (hi : i < n) :
    ∃ filling', filling.place? (i, value) = some filling' ∧
      filling'.Holds n pairs (moved ++ [(i, value)]) := by
  have split := length_valuesIn_split all
  have room : (valuesIn moved i).length < (valuesIn pairs i).length := by
    rw [split i]
    simp [valuesIn]
  obtain ⟨hnext, slot, hslot⟩ := h.next_eq hi room
  refine ⟨_, by rw [Filling.place?, dif_pos hnext, dif_pos hslot], ?_, ?_, fun j hj => ?_,
    fun j k hk => ?_⟩
  · simpa using h.next_size
  · simpa using h.items_size
  · by_cases hij : i = j
    · subst hij
      rw [valuesIn_concat_self]
      simp [hnext, slot, Nat.add_assoc]
    · rw [valuesIn_concat_of_ne hij, Array.getElem?_set_ne hnext hij]
      exact h.next j hj
  · by_cases hij : i = j
    · subst hij
      rw [valuesIn_concat_self] at hk ⊢
      rcases Nat.lt_succ_iff_lt_or_eq.mp (by simpa using hk) with hlt | heq
      · rw [Array.getElem?_set_ne hslot (by omega), h.items i k hlt,
          List.getElem?_append_left hlt]
      · subst heq
        simp [slot]
    · have fits := split j
      rw [valuesIn_concat_of_ne hij] at hk ⊢
      have hne : filling.next[i] ≠ firstPlace pairs j + k := by
        rw [slot]
        exact firstPlace_add_ne hij room (by omega)
      rw [Array.getElem?_set_ne hslot hne, h.items j k hk]

/-- All pairs can be placed, one after the other, if all buckets exist. -/
theorem Filling.Holds.placeAll {filling : Filling α} (h : filling.Holds n pairs moved)
    (all : pairs = moved ++ left) (bound : ∀ pair ∈ pairs, pair.1 < n) :
    ∃ filling', left.foldlM Filling.place? filling = some filling' ∧
      filling'.Holds n pairs pairs := by
  induction left generalizing filling moved with
  | nil =>
    rw [List.append_nil] at all
    subst all
    exact ⟨filling, rfl, h⟩
  | cons pair left ih =>
    obtain ⟨filling', placed, holds⟩ := h.place all (bound pair (by simp [all]))
    obtain ⟨filled, rest, done⟩ := ih holds (by simpa using all)
    refine ⟨filled, ?_, done⟩
    rw [List.foldlM_cons, placed]
    exact rest

/-! ### The layout -/

/-- A layout holds the pairs over `n` buckets: the buckets tile the array of the values, and each
    holds its own values in order. -/
structure Holds (b : Buckets α) (n : Nat) (pairs : List (Nat × α)) : Prop where
  offsets_size : b.offsets.size = n + 1
  items_size : b.items.size = pairs.length
  offsets : ∀ i ≤ n, b.offsets[i]? = some (firstPlace pairs i)
  items : ∀ i k, k < (valuesIn pairs i).length →
    b.items[firstPlace pairs i + k]? = (valuesIn pairs i)[k]?
  bound : ∀ pair ∈ pairs, pair.1 < n

/-- Values can be laid out if all their buckets exist. -/
theorem ofPairs?_eq_some [Inhabited α] (bound : ∀ pair ∈ pairs, pair.1 < n) :
    ∃ b, ofPairs? n pairs = some b ∧ b.Holds n pairs := by
  obtain ⟨counts, counted, size, entries⟩ := countShifted?_spec bound
  have offsets {i : Nat} (hi : i ≤ n) := offsets_spec size entries hi
  have begins : Filling.Holds
      ⟨(runningSums 0 counts.toList).toArray, Array.replicate pairs.length (default : α)⟩
      n pairs [] :=
    Filling.holds_start (by simpa using size) (fun i hi => offsets hi) Array.size_replicate
  obtain ⟨filled, moved, done⟩ := begins.placeAll (List.nil_append _).symm bound
  refine ⟨⟨(runningSums 0 counts.toList).toArray, filled.items⟩, ?_, by simpa using size,
    done.items_size, fun i hi => offsets hi, done.items, bound⟩
  rw [ofPairs?, counted]
  simp [moved]

/-- Every bucket holds its own values in order; one that does not exist has none. -/
theorem Holds.bucket {b : Buckets α} (h : b.Holds n pairs) (i : Nat) :
    b.bucket i = valuesIn pairs i := by
  unfold Buckets.bucket
  by_cases hi : i < n
  · have stop := firstPlace_succ pairs i
    have inside := firstPlace_le_length pairs (i + 1)
    rw [h.offsets i (Nat.le_of_lt hi), h.offsets (i + 1) hi]
    apply List.ext_getElem?
    intro k
    rw [Array.getElem?_toList, Array.getElem?_extract]
    by_cases hk : k < (valuesIn pairs i).length
    · have := h.items_size
      rw [if_pos (by omega), h.items i k hk]
    · rw [if_neg (by omega), List.getElem?_eq_none (by omega)]
  · have beyond : b.offsets[i + 1]? = none := by
      rw [Array.getElem?_eq_none_iff, h.offsets_size]
      omega
    rw [beyond, valuesIn_eq_nil fun pair hpair => by have := h.bound pair hpair; omega]
    cases b.offsets[i]? with
    | none => rfl
    | some start => rfl

end Buckets

end ShardCut
