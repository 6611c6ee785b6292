import ShardCut.Proofs.GlobalId
import ShardCut.Registry

/-!
What a registry knows. Registering keeps the two directions of a registry coherent: a name has an id
just when it stands at a slot of a shard, it stands at one slot only, and the id is packed from
shard and slot. As long as shards and slots fit their fields, the two directions are then inverse to
each other. While names are registered the slots may outgrow their field, so whether they fit is a
property apart.

Main definitions: `At`, `Coherent`, `Fits`, `Adds`. Main results: `Coherent.name?_eq_some_iff_id?`,
`Coherent.extend`, `register_aborts`, `Coherent.registerAll`.
-/

namespace ShardCut

namespace Registry

variable {r : Registry} {shard slot : Nat} {name : VertexName} {id : GlobalId}

/-- A name stands at a slot of a shard. -/
def At (r : Registry) (shard slot : Nat) (name : VertexName) : Prop :=
  (r.membersOf shard)[slot]? = some name

/-- The two directions of a registry agree. -/
structure Coherent (r : Registry) : Prop where
  layout : r.layout = .ofShards r.shardNum
  id?_iff : ∀ name id, r.id? name = some id ↔
    ∃ shard slot, r.At shard slot name ∧ id = r.layout.pack shard slot
  once : ∀ {shard slot shard' slot' name}, r.At shard slot name → r.At shard' slot' name →
    shard = shard' ∧ slot = slot'

/-- Shards and slots fit their fields. -/
structure Fits (r : Registry) : Prop where
  shards : r.shardNum ≤ r.layout.shardLimit
  slots : ∀ shard, r.count shard ≤ r.layout.maxSlot

/-- A registry whose shards can be addressed has room for them in the shard field. -/
theorem Coherent.shardNum_le (h : r.Coherent) (bound : r.shardNum < shardBound) :
    r.shardNum ≤ r.layout.shardLimit := by
  have small : shardBound ≤ 2 ^ 64 := by decide
  rw [h.layout]
  exact IdLayout.le_shardLimit_ofShards (Nat.le_trans (Nat.le_of_lt bound) small)

/-- A shard that does not exist has no names. -/
theorem count_of_shardNum_le (h : r.shardNum ≤ shard) : r.count shard = 0 := by
  have outside : ¬shard < r.members.size := Nat.not_lt_of_le h
  simp [count, membersOf, Array.getD, outside]

theorem At.slot_lt (h : r.At shard slot name) : slot < r.count shard := by
  obtain ⟨hlt, -⟩ := Array.getElem?_eq_some_iff.mp h
  exact hlt

theorem exists_at (h : slot < r.count shard) : ∃ name, r.At shard slot name :=
  ⟨_, Array.getElem?_eq_getElem h⟩

theorem At.shard_lt (h : r.At shard slot name) : shard < r.shardNum := by
  have hlt := h.slot_lt
  by_cases hs : shard < r.shardNum
  · exact hs
  · rw [count_of_shardNum_le (Nat.le_of_not_lt hs)] at hlt
    cases hlt

/-- An id calls the name that stands where its fields say. -/
theorem name?_eq_some_iff :
    r.name? id = some name ↔ r.At (r.layout.shardOf id) (r.layout.slotOf id) name := by
  unfold name? At membersOf
  rw [Array.getD_eq_getD_getElem?]
  cases h : r.members[r.layout.shardOf id]? with
  | none => simp
  | some names => simp

/-- A name's shard and slot can be read back from its id, if they fit their fields. -/
theorem At.fields_pack (hat : r.At shard slot name) (shards : r.shardNum ≤ r.layout.shardLimit)
    (slots : r.count shard ≤ r.layout.maxSlot + 1) :
    r.layout.shardOf (r.layout.pack shard slot) = shard ∧
      r.layout.slotOf (r.layout.pack shard slot) = slot := by
  have hs : shard < r.layout.shardLimit := Nat.lt_of_lt_of_le hat.shard_lt shards
  have hl : slot ≤ r.layout.maxSlot := Nat.le_of_lt_succ (Nat.lt_of_lt_of_le hat.slot_lt slots)
  exact ⟨IdLayout.shardOf_pack hs, IdLayout.slotOf_pack hs hl⟩

/-- In a coherent registry whose names all stand at slots that fit, the two directions are inverse
    to each other. One name more than the greatest slot says is still in place, since slots begin at
    zero. -/
theorem Coherent.name?_eq_some_iff_of_slots (h : r.Coherent)
    (shards : r.shardNum ≤ r.layout.shardLimit)
    (slots : ∀ shard, r.count shard ≤ r.layout.maxSlot + 1) :
    r.name? id = some name ↔ r.id? name = some id := by
  rw [name?_eq_some_iff, h.id?_iff]
  constructor
  · intro hat
    exact ⟨_, _, hat, (r.layout.pack_shardOf_slotOf id).symm⟩
  · intro given
    rcases given with ⟨shard, slot, hat, rfl⟩
    obtain ⟨hs, hl⟩ := hat.fields_pack shards (slots shard)
    rwa [hs, hl]

/-- In a coherent registry with room for its names the two directions are inverse to each other. -/
theorem Coherent.name?_eq_some_iff_id? (h : r.Coherent) (room : r.Fits) :
    r.name? id = some name ↔ r.id? name = some id :=
  h.name?_eq_some_iff_of_slots room.shards fun shard => Nat.le_succ_of_le (room.slots shard)

/-- No two names share an id. -/
theorem Coherent.id?_inj (h : r.Coherent) (room : r.Fits) {name' : VertexName}
    (hn : r.id? name = some id) (hn' : r.id? name' = some id) : name = name' := by
  rw [← h.name?_eq_some_iff_id? room] at hn hn'
  exact Option.some.inj (hn.symm.trans hn')

/-- The id of a name is packed from the place where it stands. -/
theorem Coherent.id?_of_at (h : r.Coherent) (hat : r.At shard slot name) :
    r.id? name = some (r.layout.pack shard slot) :=
  (h.id?_iff _ _).mpr ⟨shard, slot, hat, rfl⟩

/-- The next id of a shard is not in use. -/
theorem name?_next (hs : shard < r.layout.shardLimit) (room : r.count shard ≤ r.layout.maxSlot) :
    r.name? (r.layout.pack shard (r.count shard)) = none := by
  rw [Option.eq_none_iff_forall_ne_some]
  intro name given
  rw [name?_eq_some_iff, IdLayout.shardOf_pack hs, IdLayout.slotOf_pack hs room] at given
  exact Nat.lt_irrefl _ given.slot_lt

/-- A word is the id of some name. -/
def Calls (r : Registry) (id : GlobalId) : Prop := ∃ name, r.id? name = some id

/-- The fields of an id are a shard and one of its slots. -/
theorem Coherent.fields_of_calls (h : r.Coherent) (room : r.Fits) (calls : r.Calls id) :
    r.layout.shardOf id < r.shardNum ∧
      r.layout.slotOf id < r.count (r.layout.shardOf id) := by
  obtain ⟨name, hn⟩ := calls
  rw [← h.name?_eq_some_iff_id? room, name?_eq_some_iff] at hn
  exact ⟨hn.shard_lt, hn.slot_lt⟩

/-! ### Registering -/

@[simp] theorem shardNum_ofShards (shards : Nat) : (ofShards shards).shardNum = shards := by
  simp [ofShards, shardNum]

@[simp] theorem count_ofShards (shards shard : Nat) : (ofShards shards).count shard = 0 := by
  by_cases hs : shard < shards <;> simp [count, membersOf, ofShards, Array.getD, hs]

theorem not_at_ofShards (shards : Nat) : ¬(ofShards shards).At shard slot name := by
  intro h
  have hlt := h.slot_lt
  rw [count_ofShards] at hlt
  cases hlt

theorem coherent_ofShards (shards : Nat) : (ofShards shards).Coherent where
  layout := by
    rw [shardNum_ofShards]
    rfl
  id?_iff name id := by
    constructor
    · intro h
      simp [ofShards, id?] at h
    · intro given
      rcases given with ⟨shard, slot, h, -⟩
      exact (not_at_ofShards shards h).elim
  once h := (not_at_ofShards shards h).elim

/-- A registry with a new name in the next slot of a shard. -/
def extend (r : Registry) (shard : Nat) (name : VertexName) : Registry :=
  { r with
    members := r.members.modify shard (·.push name)
    ids := r.ids.insert name (r.layout.pack shard (r.count shard)) }

@[simp] theorem shardNum_extend (r : Registry) (shard : Nat) (name : VertexName) :
    (r.extend shard name).shardNum = r.shardNum := by
  simp [shardNum, extend]

/-- The new name stands at the end of its shard. -/
theorem membersOf_extend (h : shard < r.shardNum) (name : VertexName) (other : Nat) :
    (r.extend shard name).membersOf other =
      if shard = other then (r.membersOf other).push name else r.membersOf other := by
  unfold extend membersOf
  simp only [Array.getD_eq_getD_getElem?, Array.getElem?_modify]
  by_cases hs : shard = other
  · subst hs
    simp [Array.getElem?_eq_getElem (show shard < r.members.size from h)]
  · simp [hs]

theorem count_extend (h : shard < r.shardNum) (name : VertexName) (other : Nat) :
    (r.extend shard name).count other = r.count other + if shard = other then 1 else 0 := by
  unfold count
  rw [membersOf_extend h]
  by_cases hs : shard = other <;> simp [hs]

theorem total_extend (h : r.id? name = none) (shard : Nat) :
    (r.extend shard name).total = r.total + 1 := by
  have absent : name ∉ r.ids := by simpa [id?] using h
  simp [extend, total, Std.HashMap.size_insert, absent]

/-- A name stands where it stood before, or is the new one at its slot. -/
theorem at_extend_iff (h : shard < r.shardNum) {other slot : Nat} {name name' : VertexName} :
    (r.extend shard name).At other slot name' ↔
      r.At other slot name' ∨ shard = other ∧ slot = r.count shard ∧ name' = name := by
  unfold At
  rw [membersOf_extend h]
  by_cases hs : shard = other
  · subst hs
    rw [if_pos rfl, Array.getElem?_push]
    by_cases hl : slot = (r.membersOf shard).size
    · subst hl
      simp [count, eq_comm]
    · simp [count, hl]
  · simp [hs]

/-- Only the new name has another id than before. -/
theorem id?_extend (r : Registry) (shard : Nat) (name name' : VertexName) :
    (r.extend shard name).id? name' =
      if name = name' then some (r.layout.pack shard (r.count shard)) else r.id? name' := by
  simp [extend, id?, Std.HashMap.getElem?_insert]

theorem openShard_of_lt (hs : shard < r.shardNum) :
    (openShard shard).run r = .ok (r.membersOf shard) r := by
  have names : r.members[shard]? = some (r.membersOf shard) := by
    rw [membersOf, Array.getD_eq_getD_getElem?, Array.getElem?_eq_getElem hs]
    rfl
  rw [openShard, EStateM.run_bind, EStateM.run_get]
  simp only [names]
  rfl

theorem openShard_of_le (hs : r.shardNum ≤ shard) :
    (openShard shard).run r = .error (.abort .indexOutOfRange) r := by
  have none : r.members[shard]? = none := Array.getElem?_eq_none hs
  rw [openShard, EStateM.run_bind, EStateM.run_get]
  simp only [none]
  rfl

/-- A known name gives back its id, and nothing changes. -/
theorem register_known (h : r.id? name = some id) (shard : Nat) :
    (register shard name).run r = .ok id r := by
  rw [register, EStateM.run_bind, EStateM.run_get]
  simp only [h]
  rfl

/-- A new name takes the next slot of its shard. -/
theorem register_new (h : r.id? name = none) (hs : shard < r.shardNum) :
    (register shard name).run r =
      .ok (r.layout.pack shard (r.count shard)) (r.extend shard name) := by
  rw [register, EStateM.run_bind, EStateM.run_get]
  simp only [h]
  rw [EStateM.run_bind, openShard_of_lt hs]
  rfl

/-- A shard that does not exist is noticed before anything is changed. -/
theorem register_aborts (h : r.id? name = none) (hs : r.shardNum ≤ shard) :
    (register shard name).run r = .error (.abort .indexOutOfRange) r := by
  rw [register, EStateM.run_bind, EStateM.run_get]
  simp only [h]
  rw [EStateM.run_bind, openShard_of_le hs]

/-- A name without an id stands nowhere. -/
theorem Coherent.not_at (h : r.Coherent) (hn : r.id? name = none) : ¬r.At shard slot name := by
  intro hat
  rw [h.id?_of_at hat] at hn
  cases hn

/-- A new name keeps the two directions in agreement. -/
theorem Coherent.extend (h : r.Coherent) (hn : r.id? name = none) (hs : shard < r.shardNum) :
    (r.extend shard name).Coherent where
  layout := by
    rw [shardNum_extend]
    exact h.layout
  id?_iff name' id := by
    rw [id?_extend]
    by_cases hname : name = name'
    · subst hname
      simp only [if_true, Option.some_inj, at_extend_iff hs]
      constructor
      · rintro rfl
        exact ⟨shard, r.count shard, .inr ⟨rfl, rfl, trivial⟩, rfl⟩
      · intro given
        rcases given with ⟨shard', slot, hat | ⟨rfl, rfl, -⟩, rfl⟩
        · exact (h.not_at hn hat).elim
        · rfl
    · simp only [if_neg hname, at_extend_iff hs, Ne.symm hname, and_false, or_false]
      exact h.id?_iff name' id
  once hat hat' := by
    rw [at_extend_iff hs] at hat hat'
    rcases hat with hat | ⟨rfl, rfl, rfl⟩
    · rcases hat' with hat' | ⟨rfl, rfl, rfl⟩
      · exact h.once hat hat'
      · exact (h.not_at hn hat).elim
    · rcases hat' with hat' | ⟨rfl, rfl, -⟩
      · exact (h.not_at hn hat').elim
      · exact ⟨rfl, rfl⟩

/-- A registry has become another one by the registration of names. -/
structure Adds (r r' : Registry) (names : List VertexName) : Prop where
  coherent : r'.Coherent
  shardNum : r'.shardNum = r.shardNum
  known : ∀ name, (r'.id? name).isSome ↔ (r.id? name).isSome ∨ name ∈ names
  count_le : ∀ shard, r'.count shard ≤ r.count shard + names.length

variable {owner : VertexName → Except Failure Nat}

/-- A known name changes nothing. Otherwise its owner decides: the name is entered with a shard that
    exists, and registering aborts for any other. -/
theorem registerNext_eq (owner : VertexName → Except Failure Nat) (r : Registry)
    (name : VertexName) :
    r.registerNext owner name =
      if (r.id? name).isSome then .ok r
      else (owner name).bind fun shard =>
        if shard < r.shardNum then .ok (r.extend shard name)
        else .error (.abort .indexOutOfRange) := by
  cases hn : r.id? name with
  | some id =>
    simp only [registerNext, hn, Option.isSome_some, if_true]
    rfl
  | none =>
    simp only [registerNext, hn, Option.isSome_none, Bool.false_eq_true, if_false]
    refine congrArg ((owner name).bind ·) (funext fun shard => ?_)
    by_cases hs : shard < r.shardNum
    · simp only [register_new hn hs, if_pos hs]
      rfl
    · simp only [register_aborts hn (Nat.le_of_not_lt hs), if_neg hs]
      rfl

theorem registerNext_known (h : r.id? name = some id) : r.registerNext owner name = .ok r := by
  rw [registerNext_eq, if_pos (by simp [h])]

/-- A new name is registered with its owner. -/
theorem registerNext_new (h : r.id? name = none) (howner : owner name = .ok shard)
    (hs : shard < r.shardNum) : r.registerNext owner name = .ok (r.extend shard name) := by
  rw [registerNext_eq, if_neg (by simp [h]), howner]
  exact if_pos hs

/-- The next name can be registered if its owner exists. -/
theorem Coherent.registerNext (h : r.Coherent)
    (owned : ∃ shard, owner name = .ok shard ∧ shard < r.shardNum) :
    ∃ r', r.registerNext owner name = .ok r' ∧ r.Adds r' [name] := by
  cases hn : r.id? name with
  | some id =>
    refine ⟨r, registerNext_known hn, h, rfl, fun name' => ?_, fun _ => by simp⟩
    by_cases hname : name' = name
    · simp [hname, hn]
    · simp [hname]
  | none =>
    obtain ⟨shard, howner, hs⟩ := owned
    refine ⟨r.extend shard name, registerNext_new hn howner hs, h.extend hn hs,
      shardNum_extend r shard name, fun name' => ?_,
      fun other => by rw [count_extend hs]; split <;> simp⟩
    rw [id?_extend]
    by_cases hname : name = name'
    · simp [hname]
    · simp [hname, Ne.symm hname]

/-- All names can be registered, one after the other, if their owners exist. -/
theorem Coherent.registerAll (h : r.Coherent)
    (owned : ∀ name, ∃ shard, owner name = .ok shard ∧ shard < r.shardNum)
    (names : List VertexName) :
    ∃ r', r.registerAll owner names = .ok r' ∧ r.Adds r' names := by
  induction names generalizing r with
  | nil => exact ⟨r, rfl, h, rfl, fun name => by simp, fun shard => by simp⟩
  | cons name names ih =>
    obtain ⟨r', next, adds⟩ := h.registerNext (owned name)
    obtain ⟨r'', rest, adds'⟩ := ih adds.coherent (by rwa [adds.shardNum])
    refine ⟨r'', ?_, adds'.coherent, adds'.shardNum.trans adds.shardNum, fun name' => ?_,
      fun shard => ?_⟩
    · rw [Registry.registerAll, List.foldlM_cons, next]
      exact rest
    · rw [adds'.known, adds.known, or_assoc]
      simp
    · have := adds.count_le shard
      have := adds'.count_le shard
      simp only [List.length_cons, List.length_nil] at *
      omega

end Registry

end ShardCut
