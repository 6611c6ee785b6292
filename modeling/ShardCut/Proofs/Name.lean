import ShardCut.Name
import ShardCut.Proofs.Text.Numeral

/-!
What the tokens of a graph file name. A token that is a numeral names its value, however it is
written, if 64 bits with a sign can hold it; any other token names itself. A name is displayed as
one of the tokens that name it, so every token has a canonical form.

Main definitions: `IsNumeral`. Main results: `ofToken_eq_number_iff`, `ofToken_display_ofToken`,
`ofToken_canonical`.
-/

namespace ShardCut

namespace VertexName

open Text

/-- A token that is an integer numeral, and its value, which 64 bits with a sign can hold. -/
structure IsNumeral (token : String) (v : Int) : Prop where
  signed : Signed token.toList v
  least : -9223372036854775808 ≤ v
  greatest : v ≤ 9223372036854775807

variable {token other : String} {v : Int}

/-- A token is a number just when it is a numeral of this value. -/
theorem ofToken_eq_number_iff {value : Int64} :
    ofToken token = .number value ↔ IsNumeral token value.toInt := by
  have read : ofToken token = .number value ↔ readInt64? token.toList = some value := by
    unfold ofToken
    cases readInt64? token.toList <;> simp
  rw [read, readInt64?_eq_some_iff]
  obtain ⟨least, greatest⟩ := fitsInt64_toInt value
  exact ⟨fun signed => ⟨signed, least, greatest⟩, IsNumeral.signed⟩

/-- A token that names a text names itself. -/
theorem eq_of_ofToken_eq_text {text : String} (h : ofToken token = .text text) : text = token := by
  unfold ofToken at h
  cases read : readInt64? token.toList with
  | none =>
    rw [read] at h
    exact (VertexName.text.inj h).symm
  | some value =>
    rw [read] at h
    cases h

/-- The tokens that name a value are its numerals. -/
theorem isNumeral_iff :
    IsNumeral token v ↔ ∃ value : Int64, value.toInt = v ∧ ofToken token = .number value := by
  constructor
  · intro numeral
    have back : (Int64.ofInt v).toInt = v :=
      toInt_ofInt_of_fits ⟨numeral.least, numeral.greatest⟩
    refine ⟨Int64.ofInt v, back, ofToken_eq_number_iff.mpr ?_⟩
    rwa [back]
  · rintro ⟨value, rfl, named⟩
    exact ofToken_eq_number_iff.mp named

/-- All other tokens name themselves. -/
theorem ofToken_eq_text_iff : ofToken token = .text token ↔ ∀ v, ¬IsNumeral token v := by
  constructor
  · intro itself v numeral
    obtain ⟨value, -, named⟩ := isNumeral_iff.mp numeral
    rw [named] at itself
    cases itself
  · intro none
    cases h : ofToken token with
    | number value => exact (none _ (ofToken_eq_number_iff.mp h)).elim
    | text text => rw [eq_of_ofToken_eq_text h]

/-- A number that was displayed is read as itself. -/
theorem ofToken_display_number (value : Int64) :
    ofToken (display (.number value)) = .number value := by
  obtain ⟨least, greatest⟩ := fitsInt64_toInt value
  exact ofToken_eq_number_iff.mpr ⟨signed_toString value.toInt, least, greatest⟩

/-- A token and the display of its name name the same vertex. -/
theorem ofToken_display_ofToken (token : String) :
    ofToken (display (ofToken token)) = ofToken token := by
  cases h : ofToken token with
  | number value => exact ofToken_display_number value
  | text text =>
    obtain rfl := eq_of_ofToken_eq_text h
    exact h

/-- Two tokens name one vertex just when they are equal, or are numerals of one value. -/
theorem ofToken_eq_ofToken_iff :
    ofToken token = ofToken other ↔
      token = other ∨ ∃ v, IsNumeral token v ∧ IsNumeral other v := by
  constructor
  · intro same
    cases h : ofToken token with
    | number value =>
      exact .inr ⟨value.toInt, ofToken_eq_number_iff.mp h,
        ofToken_eq_number_iff.mp (same.symm.trans h)⟩
    | text text =>
      exact .inl ((eq_of_ofToken_eq_text h).symm.trans
        (eq_of_ofToken_eq_text (same.symm.trans h)))
  · rintro (rfl | ⟨v, numeral, numeral'⟩)
    · rfl
    · obtain ⟨value, rfl, named⟩ := isNumeral_iff.mp numeral
      rw [named, ofToken_eq_number_iff.mpr numeral']

/-- Which name a token stands for, that a displayed name is read as this name, and when two tokens
    stand for the same one. -/
theorem ofToken_canonical (token other : String) (value : Int64) :
    (∀ v, IsNumeral token v ↔ ∃ named : Int64, named.toInt = v ∧ ofToken token = .number named) ∧
    (ofToken token = .text token ↔ ∀ v, ¬IsNumeral token v) ∧
    ofToken (display (.number value)) = .number value ∧
    ofToken (display (ofToken token)) = ofToken token ∧
    (ofToken token = ofToken other ↔
      token = other ∨ ∃ v, IsNumeral token v ∧ IsNumeral other v) :=
  ⟨fun _ => isNumeral_iff, ofToken_eq_text_iff, ofToken_display_number value,
    ofToken_display_ofToken token, ofToken_eq_ofToken_iff⟩

example : ofToken "-007" = ofToken "-7" ∧ ofToken "-0" = ofToken "+0" := by decide +kernel

end VertexName

end ShardCut
