import Mathlib.Algebra.BigOperators.Group.Finset.Piecewise
import ShardCut.Proofs.Registry

/-!
Whole runs of a registry. A run begins without names and makes one call after the other; a call asks
for a name to be registered with a shard, and it may name a shard that does not exist. As long as no
shard gets more names than there are slots, the registry tells the same in both directions after
every call, and a call changes no answer but those about the name that it enters.

The two directions stay coherent without any bound. Only the step from coherent to inverse needs
one: with a slot too many two names of a shard would share an id.

Main definitions: `afterAll`, `Exact`, `Enters`, `Reached`. Main results: `after_eq`,
`Kept.afterAll`, `Reached.exact`, `exact_of_calls`.
-/

namespace ShardCut

namespace Registry

variable {r start : Registry} {shards shard : Nat} {name : VertexName} {id : GlobalId}

/-- A call: a name to be registered, and the shard that is asked for. -/
structure Call where
  shard : Nat
  name : VertexName
deriving DecidableEq, Repr

/-- The registry after a call, whether it succeeds or aborts. -/
def after (r : Registry) (call : Call) : Registry :=
  match (register call.shard call.name).run r with
  | .ok _ r' => r'
  | .error _ r' => r'

/-- The registry after calls, one after the other. -/
def afterAll (r : Registry) (calls : List Call) : Registry := calls.foldl after r

/-- A registry tells the same in both directions: the ids in use are packed from the shards and
    their slots, each calls the name at its slot, and no name stands twice. -/
structure Exact (r : Registry) : Prop where
  id?_iff_name? : ∀ name id, r.id? name = some id ↔ r.name? id = some name
  inUse_iff : ∀ id, (∃ name, r.id? name = some id) ↔
    ∃ shard slot, shard < r.shardNum ∧ slot < r.count shard ∧ id = r.layout.pack shard slot
  name?_pack : ∀ shard slot, shard < r.shardNum → slot < r.count shard →
    r.name? (r.layout.pack shard slot) = (r.membersOf shard)[slot]?
  once : ∀ {shard slot shard' slot' : Nat} {name}, (r.membersOf shard)[slot]? = some name →
    (r.membersOf shard')[slot']? = some name → shard = shard' ∧ slot = slot'
  total : r.total = ∑ shard ∈ Finset.range r.shardNum, r.count shard

/-- A name was entered at the end of a shard, under an id that called nothing before. Every other
    answer is the one that was given before. -/
structure Enters (r r' : Registry) (shard : Nat) (name : VertexName) (id : GlobalId) : Prop where
  id_eq : id = r.layout.pack shard (r.count shard)
  fresh : r.name? id = none
  id? : ∀ other, r'.id? other = if other = name then some id else r.id? other
  name? : ∀ word, r'.name? word = if word = id then some name else r.name? word
  membersOf : ∀ other, r'.membersOf other =
    if other = shard then (r.membersOf other).push name else r.membersOf other
  count : ∀ other, r'.count other = if other = shard then r.count other + 1 else r.count other
  total : r'.total = r.total + 1
  layout : r'.layout = r.layout
  shardNum : r'.shardNum = r.shardNum

/-! ### One call -/

theorem after_known (h : r.id? name = some id) (shard : Nat) : r.after ⟨shard, name⟩ = r := by
  rw [after, register_known h]

theorem after_new (h : r.id? name = none) (hs : shard < r.shardNum) :
    r.after ⟨shard, name⟩ = r.extend shard name := by
  rw [after, register_new h hs]

theorem after_aborts (h : r.id? name = none) (hs : r.shardNum ≤ shard) :
    r.after ⟨shard, name⟩ = r := by
  rw [after, register_aborts h hs]

/-- A call enters its name if it is new and the shard exists, and changes nothing otherwise. -/
theorem after_eq (r : Registry) (call : Call) :
    r.after call =
      if r.id? call.name = none ∧ call.shard < r.shardNum then r.extend call.shard call.name
      else r := by
  cases hn : r.id? call.name with
  | some id => rw [if_neg (by simp), after_known hn]
  | none =>
    by_cases hs : call.shard < r.shardNum
    · rw [if_pos ⟨rfl, hs⟩, after_new hn hs]
    · rw [if_neg fun given => hs given.2, after_aborts hn (Nat.le_of_not_lt hs)]

theorem after_cases (r : Registry) (call : Call) :
    r.after call = r ∨ r.id? call.name = none ∧ call.shard < r.shardNum ∧
      r.after call = r.extend call.shard call.name := by
  rw [after_eq]
  split
  · next given => exact .inr ⟨given.1, given.2, rfl⟩
  · exact .inl rfl

/-- No call takes a name away. -/
theorem count_le_after (r : Registry) (call : Call) (shard : Nat) :
    r.count shard ≤ (r.after call).count shard := by
  obtain same | ⟨-, hs, grown⟩ := after_cases r call
  · rw [same]
  · rw [grown, count_extend hs]
    exact Nat.le_add_right _ _

/-- No call brings more than one name. -/
theorem after_count_le (r : Registry) (call : Call) (shard : Nat) :
    (r.after call).count shard ≤ r.count shard + 1 := by
  obtain same | ⟨-, hs, grown⟩ := after_cases r call
  · rw [same]
    exact Nat.le_succ _
  · rw [grown, count_extend hs]
    split <;> omega

/-! ### Runs -/

theorem afterAll_append (r : Registry) (calls more : List Call) :
    r.afterAll (calls ++ more) = (r.afterAll calls).afterAll more :=
  List.foldl_append

theorem afterAll_concat (r : Registry) (calls : List Call) (call : Call) :
    r.afterAll (calls ++ [call]) = (r.afterAll calls).after call := by
  rw [afterAll_append]
  rfl

/-- No run takes a name away. -/
theorem count_le_afterAll (r : Registry) (calls : List Call) (shard : Nat) :
    r.count shard ≤ (r.afterAll calls).count shard := by
  induction calls generalizing r with
  | nil => exact Nat.le_refl _
  | cons call calls ih => exact Nat.le_trans (count_le_after r call shard) (ih (r.after call))

/-- A run gives a shard at most one name a call. -/
theorem afterAll_count_le (r : Registry) (calls : List Call) (shard : Nat) :
    (r.afterAll calls).count shard ≤ r.count shard + calls.length := by
  induction calls generalizing r with
  | nil => exact Nat.le_refl _
  | cons call calls ih =>
    have next := after_count_le r call shard
    have rest := ih (r.after call)
    rw [List.length_cons]
    exact Nat.le_trans rest (by omega)

/-- What no call can break: the two directions are coherent, the layout is that of the shards, and
    every registered name is counted with its shard. -/
structure Kept (r : Registry) (shards : Nat) : Prop where
  coherent : r.Coherent
  shardNum : r.shardNum = shards
  total : r.total = ∑ shard ∈ Finset.range shards, r.count shard

theorem kept_ofShards (shards : Nat) : (ofShards shards).Kept shards where
  coherent := coherent_ofShards shards
  shardNum := shardNum_ofShards shards
  total := by
    simp only [count_ofShards, Finset.sum_const_zero]
    rfl

/-- What no call can break is kept when a name is entered. -/
theorem Kept.extend (h : r.Kept shards) (hn : r.id? name = none) (hs : shard < r.shardNum) :
    (r.extend shard name).Kept shards where
  coherent := h.coherent.extend hn hs
  shardNum := (shardNum_extend r shard name).trans h.shardNum
  total := by
    have inside : shard ∈ Finset.range shards := Finset.mem_range.mpr (h.shardNum ▸ hs)
    simp only [total_extend hn, count_extend hs, Finset.sum_add_distrib, Finset.sum_ite_eq, inside,
      if_true, h.total]

/-- A call keeps what no call can break. -/
theorem Kept.after (h : r.Kept shards) (call : Call) : (r.after call).Kept shards := by
  obtain same | ⟨hn, hs, grown⟩ := after_cases r call
  · rwa [same]
  · rw [grown]
    exact h.extend hn hs

/-- A run keeps what no call can break. -/
theorem Kept.afterAll (h : r.Kept shards) (calls : List Call) :
    (r.afterAll calls).Kept shards := by
  induction calls generalizing r with
  | nil => exact h
  | cons call calls ih => exact ih (h.after call)

/-! ### With room for all slots -/

theorem Kept.shardNum_le (h : r.Kept shards) (bound : shards < shardBound) :
    r.shardNum ≤ r.layout.shardLimit :=
  h.coherent.shardNum_le (by rwa [h.shardNum])

/-- A slot that fits is that of its name alone. -/
theorem Kept.exact (h : r.Kept shards) (bound : shards < shardBound)
    (room : ∀ shard, r.count shard ≤ r.layout.maxSlot + 1) : r.Exact := by
  have inverse (name : VertexName) (id : GlobalId) :
      r.name? id = some name ↔ r.id? name = some id :=
    h.coherent.name?_eq_some_iff_of_slots (h.shardNum_le bound) room
  refine ⟨fun name id => (inverse name id).symm, fun id => ⟨?_, ?_⟩, fun shard slot _ hl => ?_,
    h.coherent.once, by rw [h.shardNum, h.total]⟩
  · intro given
    obtain ⟨name, hn⟩ := given
    obtain ⟨shard, slot, hat, rfl⟩ := (h.coherent.id?_iff name id).mp hn
    exact ⟨shard, slot, hat.shard_lt, hat.slot_lt, rfl⟩
  · intro given
    obtain ⟨shard, slot, -, hl, rfl⟩ := given
    obtain ⟨name, hat⟩ := exists_at hl
    exact ⟨name, h.coherent.id?_of_at hat⟩
  · obtain ⟨name, hat⟩ := exists_at hl
    rw [(inverse _ _).mpr (h.coherent.id?_of_at hat)]
    exact hat.symm

/-- Entering a name changes the answers about it, and no others. -/
theorem Kept.enters (h : r.Kept shards) (bound : shards < shardBound) (hn : r.id? name = none)
    (hs : shard < r.shardNum)
    (room : ∀ other, (r.extend shard name).count other ≤ r.layout.maxSlot + 1) :
    r.Enters (r.extend shard name) shard name (r.layout.pack shard (r.count shard)) := by
  have before := h.exact bound fun other =>
    Nat.le_trans (by rw [count_extend hs]; exact Nat.le_add_right _ _) (room other)
  have behind := (h.extend hn hs).exact bound room
  have ids (other : VertexName) : (r.extend shard name).id? other =
      if other = name then some (r.layout.pack shard (r.count shard)) else r.id? other := by
    simp only [id?_extend, eq_comm]
  have called : (r.extend shard name).name? (r.layout.pack shard (r.count shard)) = some name := by
    rw [← behind.id?_iff_name?, ids, if_pos rfl]
  have fresh : r.name? (r.layout.pack shard (r.count shard)) = none := by
    have grown := room shard
    rw [count_extend hs, if_pos rfl] at grown
    exact name?_next (Nat.lt_of_lt_of_le hs (h.shardNum_le bound)) (Nat.le_of_succ_le_succ grown)
  refine ⟨rfl, fresh, ids, fun word => ?_, fun other => ?_, fun other => ?_, total_extend hn shard,
    rfl, shardNum_extend r shard name⟩
  · by_cases hw : word = r.layout.pack shard (r.count shard)
    · rw [if_pos hw, hw, called]
    · rw [if_neg hw]
      apply Option.ext
      intro other
      rw [← behind.id?_iff_name?, ← before.id?_iff_name?, ids]
      by_cases ho : other = name
      · simp [ho, hn, Ne.symm hw]
      · rw [if_neg ho]
  · rw [membersOf_extend hs]
    simp only [eq_comm]
  · rw [count_extend hs]
    by_cases ho : other = shard
    · simp [ho]
    · simp [ho, Ne.symm ho]

theorem eq_ofShards_of_create (created : create shards = .ok start) :
    start = ofShards shards ∧ shards < shardBound := by
  unfold create at created
  split at created
  · next bound => exact ⟨(Except.ok.inj created).symm, bound⟩
  · cases created

/-! ### Registries that a run leaves -/

/-- A registry that a run over so many shards leaves, with room for all slots. -/
structure Reached (r : Registry) (shards : Nat) : Prop where
  exists_calls : ∃ start calls, create shards = .ok start ∧ start.afterAll calls = r
  room : ∀ shard, r.count shard ≤ r.layout.maxSlot + 1

/-- Registering a name that is not known is a call; for a known one no call is made. -/
theorem exists_calls_of_registerNext {owner : VertexName → Except Failure Nat} {r' : Registry}
    (next : r.registerNext owner name = .ok r') : ∃ calls, r.afterAll calls = r' := by
  rw [registerNext_eq] at next
  cases hn : r.id? name with
  | some id =>
    simp only [hn, Option.isSome_some, if_true] at next
    exact ⟨[], Except.ok.inj next⟩
  | none =>
    simp only [hn, Option.isSome_none, Bool.false_eq_true, if_false] at next
    cases howner : owner name with
    | error failure =>
      rw [howner] at next
      cases next
    | ok shard =>
      rw [howner] at next
      change (if shard < r.shardNum then _ else _) = _ at next
      split at next
      · next hs =>
        refine ⟨[⟨shard, name⟩], ?_⟩
        rw [afterAll, List.foldl_cons, List.foldl_nil, after_new hn hs]
        exact Except.ok.inj next
      · cases next

/-- Names that were registered were registered by calls. -/
theorem exists_calls_of_registerAll {owner : VertexName → Except Failure Nat} {r' : Registry}
    {names : List VertexName} (registered : r.registerAll owner names = .ok r') :
    ∃ calls, r.afterAll calls = r' := by
  induction names generalizing r with
  | nil => exact ⟨[], Except.ok.inj registered⟩
  | cons name names ih =>
    rw [registerAll, List.foldlM_cons] at registered
    cases next : r.registerNext owner name with
    | error failure =>
      rw [next] at registered
      cases registered
    | ok middle =>
      rw [next] at registered
      obtain ⟨first, rfl⟩ := exists_calls_of_registerNext next
      obtain ⟨rest, rfl⟩ := ih registered
      exact ⟨first ++ rest, afterAll_append r first rest⟩

/-- A registry that a run leaves tells the same in both directions. -/
theorem Reached.exact (h : r.Reached shards) : r.Exact := by
  obtain ⟨start, calls, created, rfl⟩ := h.exists_calls
  obtain ⟨rfl, bound⟩ := eq_ofShards_of_create created
  exact ((kept_ofShards shards).afterAll calls).exact bound h.room

/-! ### Every call of a run -/

/-- In a run that gives no shard more names than there are slots, the registry is exact after every
    call. A call for a known name gives back its id and changes nothing, whatever shard is asked
    for; one for a new name enters it with a shard that exists, and otherwise aborts and changes
    nothing. -/
theorem exact_of_calls {calls : List Call} (created : create shards = .ok start)
    (room : ∀ shard, (start.afterAll calls).count shard ≤ start.layout.maxSlot + 1) :
    (∀ done, done <+: calls →
      (start.afterAll done).Exact ∧ (start.afterAll done).shardNum = shards ∧
        (start.afterAll done).layout = .ofShards shards) ∧
      ∀ done call, done ++ [call] <+: calls →
        (∀ id, (start.afterAll done).id? call.name = some id →
          (register call.shard call.name).run (start.afterAll done) =
              .ok id (start.afterAll done) ∧
            start.afterAll (done ++ [call]) = start.afterAll done) ∧
        ((start.afterAll done).id? call.name = none → call.shard < shards →
          ∃ id, (register call.shard call.name).run (start.afterAll done) =
              .ok id (start.afterAll (done ++ [call])) ∧
            (start.afterAll done).Enters (start.afterAll (done ++ [call])) call.shard call.name
              id) ∧
        ((start.afterAll done).id? call.name = none → shards ≤ call.shard →
          (register call.shard call.name).run (start.afterAll done) =
              .error (.abort .indexOutOfRange) (start.afterAll done) ∧
            start.afterAll (done ++ [call]) = start.afterAll done) := by
  obtain ⟨rfl, bound⟩ := eq_ofShards_of_create created
  have kept (done : List Call) : ((ofShards shards).afterAll done).Kept shards :=
    (kept_ofShards shards).afterAll done
  have layout (done : List Call) : ((ofShards shards).afterAll done).layout = .ofShards shards := by
    rw [(kept done).coherent.layout, (kept done).shardNum]
  -- The room at the end of the run is room at every earlier moment, since no name is ever dropped.
  have roomAt {done : List Call} (early : done <+: calls) (shard : Nat) :
      ((ofShards shards).afterAll done).count shard ≤ (IdLayout.ofShards shards).maxSlot + 1 := by
    obtain ⟨rest, rfl⟩ := early
    refine Nat.le_trans ?_ (room shard)
    rw [afterAll_append]
    exact count_le_afterAll _ rest shard
  refine ⟨fun done early => ⟨(kept done).exact bound ?_, (kept done).shardNum, layout done⟩,
    fun done call early => ?_⟩
  · rw [layout done]
    exact roomAt early
  · have late := roomAt early
    rw [afterAll_concat] at late ⊢
    refine ⟨fun id hn => ⟨register_known hn call.shard, after_known hn call.shard⟩,
      fun hn hs => ?_, fun hn hs => ?_⟩
    · rw [← (kept done).shardNum] at hs
      rw [after_new hn hs] at late ⊢
      rw [← layout done] at late
      exact ⟨_, register_new hn hs, (kept done).enters bound hn hs late⟩
    · rw [← (kept done).shardNum] at hs
      exact ⟨register_aborts hn hs, after_aborts hn hs⟩

/-- Two shards, a name that is known by now, and one whose first call asks for a shard that does not
    exist. -/
theorem exact_of_calls_two_shards :
    let calls : List Call :=
      [⟨0, .number 10⟩, ⟨1, .text "b"⟩, ⟨7, .number 10⟩, ⟨5, .number 3⟩, ⟨0, .number 3⟩]
    ∃ start, create 2 = .ok start ∧
      (∀ shard, (start.afterAll calls).count shard ≤ start.layout.maxSlot + 1) ∧
      (start.afterAll calls).Exact ∧ (start.afterAll calls).id? (.number 3) = some 1 ∧
      (start.afterAll calls).name? 1 = some (.number 3) ∧
      (register 5 (.number 3)).run (start.afterAll (calls.take 3)) =
        .error (.abort .indexOutOfRange) (start.afterAll (calls.take 3)) := by
  intro calls
  have created : create 2 = .ok (ofShards 2) := rfl
  have few : calls.length ≤ (ofShards 2).layout.maxSlot + 1 := by decide
  have room (shard : Nat) :
      ((ofShards 2).afterAll calls).count shard ≤ (ofShards 2).layout.maxSlot + 1 := by
    have le := afterAll_count_le (ofShards 2) calls shard
    rw [count_ofShards, Nat.zero_add] at le
    exact Nat.le_trans le few
  obtain ⟨states, steps⟩ := exact_of_calls created room
  obtain ⟨exact', -⟩ := states calls (List.prefix_refl calls)
  have entered : ((ofShards 2).afterAll calls).id? (.number 3) = some 1 := by
    simp only [calls, afterAll, List.foldl_cons, List.foldl_nil, after_eq]
    cbv
  have unknown : ((ofShards 2).afterAll (calls.take 3)).id? (.number 3) = none := by
    simp only [calls, afterAll, List.take, List.foldl_cons, List.foldl_nil, after_eq]
    cbv
  have missing := (steps (calls.take 3) ⟨5, .number 3⟩ (List.take_prefix 4 calls)).2.2 unknown
    (by decide)
  exact ⟨_, created, room, exact', entered, (exact'.id?_iff_name? _ _).mp entered, missing.1⟩

end Registry

end ShardCut
