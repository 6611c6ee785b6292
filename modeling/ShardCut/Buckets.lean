/-!
Bucket layout: values sorted by the index of their bucket, in one array, with the start of every
bucket in another. Bucket `i` is the slice from `offsets[i]` to `offsets[i + 1]`.

The layout is made in three passes, each linear: count the values of every bucket, turn the counts
into running sums, and move every value to the next free place of its bucket. The passes check every
index they use, so a pair whose bucket does not exist makes the layout fail.

Main definitions: `Buckets`, `Buckets.ofPairs?`, `Buckets.bucket`.
-/

namespace ShardCut

/-- Values by bucket. -/
structure Buckets (α : Type) where
  offsets : Array Nat
  items : Array α
deriving Repr

namespace Buckets

variable {α : Type}

/-- Adds one to an entry that exists. -/
def increment? (counts : Array Nat) (i : Nat) : Option (Array Nat) :=
  if h : i < counts.size then some (counts.set i (counts[i] + 1)) else none

/-- The sizes of the buckets, each one place to the right: entry `i + 1` counts bucket `i`, and
    entry `0` is zero. -/
def countShifted? (n : Nat) (pairs : List (Nat × α)) : Option (Array Nat) :=
  pairs.foldlM (fun counts pair => increment? counts (pair.1 + 1)) (Array.replicate (n + 1) 0)

/-- The sums of the entries up to each place. -/
def runningSums (sum : Nat) : List Nat → List Nat
  | [] => []
  | x :: xs => (sum + x) :: runningSums (sum + x) xs

/-- Where the values go while they are moved: the next free place of every bucket, and the places
    filled so far. -/
structure Filling (α : Type) where
  next : Array Nat
  items : Array α

/-- Moves one value to the next free place of its bucket. -/
def Filling.place? (filling : Filling α) (pair : Nat × α) : Option (Filling α) :=
  if h : pair.1 < filling.next.size then
    let slot := filling.next[pair.1]
    if h' : slot < filling.items.size then
      some ⟨filling.next.set pair.1 (slot + 1), filling.items.set slot pair.2⟩
    else none
  else none

/-- Lays out values over `n` buckets, or fails if a bucket does not exist. -/
def ofPairs? [Inhabited α] (n : Nat) (pairs : List (Nat × α)) : Option (Buckets α) := do
  let counts ← countShifted? n pairs
  let offsets := (runningSums 0 counts.toList).toArray
  let filled ← pairs.foldlM Filling.place? ⟨offsets, Array.replicate pairs.length default⟩
  some ⟨offsets, filled.items⟩

/-- The values of a bucket, in their order; a bucket that does not exist is empty. -/
def bucket (b : Buckets α) (i : Nat) : List α :=
  match b.offsets[i]?, b.offsets[i + 1]? with
  | some start, some stop => (b.items.extract start stop).toList
  | _, _ => []

example : ((ofPairs? 3 [(2, 7), (0, 8), (2, 9)]).map fun b => [0, 1, 2].map b.bucket) =
    some [[8], [], [7, 9]] := by decide +kernel

end Buckets

end ShardCut
