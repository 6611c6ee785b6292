import ShardCut.Text.Numeral
import Std.Data.TreeSet

/-!
Vertex names: how the outside world calls a vertex. A name is a signed 64-bit number or a text, and
the two kinds never meet: the number `1` and the text `1` name different vertices.

Names are ordered with the numbers first, by value, and then the texts, by code points. The order
is a lawful comparison, so ordered sets of names have the standard library's theory.

Main definitions: `VertexName`, `VertexName.ofToken`, `VertexName.display`, `NameSet`.
-/

namespace ShardCut

/-- A vertex name. -/
inductive VertexName where
  | number (value : Int64)
  | text (value : String)
deriving DecidableEq, Hashable, Repr, Inhabited

namespace VertexName

/-- The name that a token of a graph file stands for: a number if it reads as one, and otherwise the
    token itself. -/
def ofToken (token : String) : VertexName :=
  match Text.readInt64? token.toList with
  | some value => .number value
  | none => .text token

/-- The name as plain text, without quotes. -/
def display : VertexName → String
  | .number value => toString value.toInt
  | .text value => value

/-- Numbers come before texts. -/
protected def compare : VertexName → VertexName → Ordering
  | .number a, .number b => Ord.compare a b
  | .number _, .text _ => .lt
  | .text _, .number _ => .gt
  | .text a, .text b => Ord.compare a b

instance : Ord VertexName := ⟨VertexName.compare⟩

theorem compare_number (a b : Int64) : compare (number a) (number b) = compare a b := rfl

theorem compare_text (a b : String) : compare (text a) (text b) = compare a b := rfl

/-- Numbers come before texts. -/
theorem compare_number_text (a : Int64) (b : String) : compare (number a) (text b) = .lt := rfl

theorem compare_text_number (a : String) (b : Int64) : compare (text a) (number b) = .gt := rfl

instance : Std.OrientedOrd VertexName where
  eq_swap {a b} := by
    cases a <;> cases b
    · exact Std.OrientedOrd.eq_swap (α := Int64)
    · rfl
    · rfl
    · exact Std.OrientedOrd.eq_swap (α := String)

instance : Std.TransOrd VertexName where
  isLE_trans {a b c} hab hbc := by
    cases a <;> cases b <;> cases c <;>
      simp only [compare_number, compare_text, compare_number_text, compare_text_number]
        at hab hbc ⊢
    · exact Std.TransOrd.isLE_trans hab hbc
    all_goals first | rfl | contradiction | exact Std.TransOrd.isLE_trans hab hbc

instance : Std.LawfulEqOrd VertexName where
  compare_self {a} := by
    cases a
    · exact Std.ReflOrd.compare_self (α := Int64)
    · exact Std.ReflOrd.compare_self (α := String)
  eq_of_compare {a b} h := by
    cases a <;> cases b <;>
      simp only [compare_number, compare_text, compare_number_text, compare_text_number] at h
    · exact congrArg number (Std.LawfulEqOrd.eq_of_compare h)
    · contradiction
    · contradiction
    · exact congrArg text (Std.LawfulEqOrd.eq_of_compare h)

end VertexName

/-- Compares pairs by their first components and, if these agree, by their second ones. -/
def comparePairs {α : Type} [Ord α] : α × α → α × α → Ordering :=
  compareLex (compareOn Prod.fst) (compareOn Prod.snd)

theorem comparePairs_eq_then {α : Type} [Ord α] (a b : α × α) :
    comparePairs a b = (compare a.1 b.1).then (compare a.2 b.2) := rfl

instance {α : Type} [Ord α] [Std.TransOrd α] : Std.TransCmp (comparePairs (α := α)) :=
  inferInstanceAs (Std.TransCmp (compareLex _ _))

instance {α : Type} [Ord α] [Std.LawfulEqOrd α] : Std.LawfulEqCmp (comparePairs (α := α)) where
  compare_self {a} := by simp [comparePairs_eq_then, Std.ReflOrd.compare_self]
  eq_of_compare {a b} h := by
    rw [comparePairs_eq_then, Ordering.then_eq_eq] at h
    exact Prod.ext (Std.LawfulEqOrd.eq_of_compare h.1) (Std.LawfulEqOrd.eq_of_compare h.2)

/-- A set of names, listed in their order. -/
abbrev NameSet := Std.TreeSet VertexName

/-- A set of pairs of names, listed by source and then by target. -/
abbrev NamePairSet := Std.TreeSet (VertexName × VertexName) comparePairs

end ShardCut
