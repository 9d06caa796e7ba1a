import Mathlib.Order.Lattice

/-!
# Orders with values that compare to nothing

A `NanOrder` ranks its values in a linear order, except the ones without a
rank. Those are unordered with and unequal to every value, themselves
included, as IEEE 754 has it for NaN. Two values of equal rank are equal to
the comparison without having to be the same value, as the signed zeros are.
-/

/-- Values ranked in a linear order, `none` for a NaN. -/
class NanOrder (α : Type*) (κ : outParam Type*) [LinearOrder κ] where
  rank : α → Option κ

namespace NanOrder
variable {α : Type*} {κ : Type*} [LinearOrder κ] [NanOrder α κ]

def isNan (a : α) : Bool := (rank a).isNone

def eq (a b : α) : Bool :=
  match rank a, rank b with
  | some x, some y => decide (x = y)
  | _, _ => false

def lt (a b : α) : Bool :=
  match rank a, rank b with
  | some x, some y => decide (x < y)
  | _, _ => false

def le (a b : α) : Bool :=
  match rank a, rank b with
  | some x, some y => decide (x ≤ y)
  | _, _ => false

/-- A function whose values compare as its arguments do. -/
structure Embeds {β κ' : Type*} [LinearOrder κ'] [NanOrder β κ'] (f : α → β) : Prop where
  isNan : ∀ a, isNan (f a) = isNan a
  eq : ∀ a b, eq (f a) (f b) = eq a b
  lt : ∀ a b, lt (f a) (f b) = lt a b
  le : ∀ a b, le (f a) (f b) = le a b

/-- Where there is no NaN, it is enough that the ranks are in the same order. -/
theorem Embeds.of_ranks {β κ' : Type*} [LinearOrder κ'] [NanOrder β κ'] {f : α → β}
    {key : α → κ} {key' : α → κ'} (ranked : ∀ a, rank a = some (key a))
    (ranked' : ∀ a, rank (f a) = some (key' a)) (same : ∀ a b, key' a < key' b ↔ key a < key b) :
    Embeds f := by
  have ordered : ∀ a b, key' a ≤ key' b ↔ key a ≤ key b := by
    intro a b
    rw [← not_lt, ← not_lt, same]
  refine ⟨fun a => ?_, fun a b => ?_, fun a b => ?_, fun a b => ?_⟩
  · simp [NanOrder.isNan, ranked, ranked']
  · simp only [NanOrder.eq, ranked, ranked', le_antisymm_iff, ordered]
  · simp only [NanOrder.lt, ranked, ranked', same]
  · simp only [NanOrder.le, ranked, ranked', ordered]

end NanOrder
