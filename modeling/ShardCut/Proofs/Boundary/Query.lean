import ShardCut.Boundary.Query
import ShardCut.Proofs.Json.Names

/-!
What the lists of a query hold. A text is decoded as a list of names exactly when it is one in the
grammar of JSON, and it is malformed otherwise. The first list decides before the second one, and a
second list that is absent or blank holds no name.

Main definitions: `TargetsText`, `Query.Lists`. Main results: `names_eq_ok_iff`,
`malformed_of_no_lists`, `parseNames_correct`.
-/

namespace ShardCut

namespace Boundary

variable {query : Query} {sources targets : List VertexName} {failure : Failure}

/-- A text is decoded as the names that it lists in the grammar of JSON. -/
theorem parseNames_eq_ok_iff {text : String} {names : List VertexName} :
    parseNames text = .ok names ↔ Json.ListText names text.toList := by
  rw [← Json.parseNames_eq_ok_iff, parseNames]
  cases Json.parseNames text with
  | ok read => simp only [Except.mapError, Except.ok.injEq]
  | error fault => simp only [Except.mapError, reduceCtorEq]

/-- A list that is not decoded is malformed. -/
theorem malformed_of_parseNames {text : String} (h : parseNames text = .error failure) :
    ∃ fault, failure = .malformedList fault := by
  unfold parseNames at h
  cases hp : Json.parseNames text with
  | ok found =>
    rw [hp] at h
    cases h
  | error fault =>
    rw [hp] at h
    cases h
    exact ⟨fault, rfl⟩

/-- A query whose lists are not decoded has a malformed list. -/
theorem malformed_of_names (names : query.names = .error failure) :
    ∃ fault, failure = .malformedList fault := by
  unfold Query.names at names
  cases hs : parseNames query.sources with
  | error failure' =>
    rw [hs] at names
    cases names
    exact malformed_of_parseNames hs
  | ok sources =>
    rw [hs] at names
    cases ht : query.statedTargets? with
    | none =>
      rw [ht] at names
      cases names
    | some text =>
      rw [ht] at names
      cases hp : parseNames text with
      | ok targets =>
        simp only [hp] at names
        cases names
      | error failure' =>
        simp only [hp] at names
        cases names
        exact malformed_of_parseNames hp

/-! ### Both lists -/

/-- The names that a second list states, in the grammar of JSON: none if it is absent, or nothing
    but blank characters, and otherwise those that stand in it. -/
inductive TargetsText : List VertexName → Option String → Prop where
  | absent : TargetsText [] none
  | blank {text : String} (h : ∀ c ∈ text.toList, Text.isBlank c = true) :
      TargetsText [] (some text)
  | stated {names : List VertexName} {text : String}
      (some_char : ∃ c ∈ text.toList, Text.isBlank c = false)
      (list : Json.ListText names text.toList) : TargetsText names (some text)

/-- The names that a query lists, in the grammar of JSON. -/
structure Query.Lists (query : Query) (sources targets : List VertexName) : Prop where
  sources : Json.ListText sources query.sources.toList
  targets : TargetsText targets query.targets?

/-- A second list counts if it is there and not blank. -/
theorem statedTargets?_eq (query : Query) :
    query.statedTargets? =
      match query.targets? with
      | none => none
      | some text => if Text.allBlank text.toList then none else some text := by
  unfold Query.statedTargets?
  cases query.targets? with
  | none => rfl
  | some text => by_cases blank : Text.allBlank text.toList <;> simp [blank]

theorem allBlank_iff {s : List Char} :
    Text.allBlank s = true ↔ ∀ c ∈ s, Text.isBlank c = true := List.all_eq_true

theorem not_allBlank_iff {s : List Char} :
    ¬Text.allBlank s = true ↔ ∃ c ∈ s, Text.isBlank c = false := by
  simp [allBlank_iff]

/-- Nothing but blank characters states no names. -/
theorem targetsText_of_blank {text : String} (blank : ∀ c ∈ text.toList, Text.isBlank c = true) :
    TargetsText targets (some text) ↔ targets = [] := by
  constructor
  · intro given
    cases given with
    | blank _ => rfl
    | stated some_char _ =>
      obtain ⟨c, hc, visible⟩ := some_char
      cases (blank c hc).symm.trans visible
  · rintro rfl
    exact .blank blank

/-- Any other text states the names that it lists. -/
theorem targetsText_of_visible {text : String}
    (some_char : ∃ c ∈ text.toList, Text.isBlank c = false) :
    TargetsText targets (some text) ↔ Json.ListText targets text.toList := by
  constructor
  · intro given
    cases given with
    | blank blank =>
      obtain ⟨c, hc, visible⟩ := some_char
      cases (blank c hc).symm.trans visible
    | stated _ list => exact list
  · exact .stated some_char

/-- A second list states names just when it is decoded as them, or is left out and there are
    none. -/
theorem targetsText_iff :
    TargetsText targets query.targets? ↔
      match query.statedTargets? with
      | some text => parseNames text = .ok targets
      | none => targets = [] := by
  rw [statedTargets?_eq]
  cases query.targets? with
  | none =>
    constructor
    · rintro ⟨⟩
      rfl
    · rintro rfl
      exact .absent
  | some text =>
    simp only
    by_cases blank : Text.allBlank text.toList = true
    · simp only [if_pos blank]
      exact targetsText_of_blank (allBlank_iff.mp blank)
    · simp only [if_neg blank, parseNames_eq_ok_iff]
      exact targetsText_of_visible (not_allBlank_iff.mp blank)

/-- The names of a query are those that its two texts list. -/
theorem names_eq_ok_iff : query.names = .ok (sources, targets) ↔ query.Lists sources targets := by
  have lists : query.Lists sources targets ↔ parseNames query.sources = .ok sources ∧
      TargetsText targets query.targets? :=
    ⟨fun h => ⟨parseNames_eq_ok_iff.mpr h.sources, h.targets⟩,
      fun h => ⟨parseNames_eq_ok_iff.mp h.1, h.2⟩⟩
  rw [lists, targetsText_iff, Query.names]
  cases parseNames query.sources with
  | error failure => exact ⟨nofun, nofun⟩
  | ok sources' =>
    cases query.statedTargets? with
    | none =>
      change (Except.ok (sources', []) = Except.ok (sources, targets)) ↔ _
      simp [eq_comm (a := [])]
    | some text =>
      simp only
      cases parseNames text with
      | error failure => exact ⟨nofun, nofun⟩
      | ok targets' =>
        change (Except.ok (sources', targets') = Except.ok (sources, targets)) ↔ _
        simp

/-- A query whose texts list nothing is malformed. -/
theorem malformed_of_no_lists (h : ∀ sources targets, ¬query.Lists sources targets) :
    ∃ fault, query.names = .error (.malformedList fault) := by
  cases names : query.names with
  | ok lists => exact absurd (names_eq_ok_iff.mp names) (h lists.1 lists.2)
  | error failure =>
    obtain ⟨fault, rfl⟩ := malformed_of_names names
    exact ⟨fault, rfl⟩

/-! ### One list -/

/-- A text is decoded exactly when it is a list of names, as the names that stand in it, in order
    and with repetitions; every other text is malformed. A list that was written is decoded as
    itself, whatever its names are. -/
theorem parseNames_correct (text : String) (names : List VertexName) :
    (parseNames text = .ok names ↔ Json.ListText names text.toList) ∧
      ((∃ stated, Json.ListText stated text.toList) ∨
        ∃ fault, parseNames text = .error (.malformedList fault)) ∧
      parseNames (.ofList (Json.writeNames names)) = .ok names := by
  refine ⟨parseNames_eq_ok_iff, ?_, ?_⟩
  · cases h : parseNames text with
    | ok stated => exact .inl ⟨stated, parseNames_eq_ok_iff.mp h⟩
    | error failure =>
      obtain ⟨fault, rfl⟩ := malformed_of_parseNames h
      exact .inr ⟨fault, rfl⟩
  · rw [parseNames_eq_ok_iff, String.toList_ofList]
    exact Json.listText_writeNames names

end Boundary

end ShardCut
