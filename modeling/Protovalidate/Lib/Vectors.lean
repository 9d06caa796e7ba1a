import Mathlib.Data.List.Basic

/-!
# Vectors

The last position with a property, removal by a swap with the last element, and a
search by halves in a sorted vector.
-/

namespace Protovalidate

namespace Vectors
variable {α : Type}

/-- The last position whose element has a property. -/
def rposition (p : α → Bool) (xs : List α) : Option Nat :=
  (List.range xs.length).reverse.find? fun i => (xs[i]?.map p).getD false

/-- Removes an element, which the last one replaces. -/
def swapRemove (xs : List α) (i : Nat) : Option (α × List α) := do
  let found ← xs[i]?
  let last ← xs.getLast?
  return (found, (xs.set i last).dropLast)

section Remove
variable {xs rest : List α} {p : α → Bool} {x : α} {i : Nat}

theorem rposition_holds (found : rposition p xs = some i) : ∃ x, xs[i]? = some x ∧ p x = true := by
  have holds := List.find?_some found
  cases element : xs[i]? with
  | none => simp [element] at holds
  | some x => exact ⟨x, rfl, by simpa [element] using holds⟩

/-- What stays was there before. -/
theorem swapRemove_subset (removed : swapRemove xs i = some (x, rest)) : ∀ y ∈ rest, y ∈ xs := by
  simp only [swapRemove, Option.bind_eq_bind, Option.bind_eq_some_iff, Option.pure_def,
    Option.some.injEq, Prod.mk.injEq] at removed
  obtain ⟨_, -, last, ended, -, rfl⟩ := removed
  intro y member
  rcases List.mem_or_eq_of_mem_set (List.dropLast_subset _ member) with present | rfl
  · exact present
  · exact List.mem_of_getLast? ended

theorem swapRemove_found (removed : swapRemove xs i = some (x, rest)) : xs[i]? = some x := by
  simp only [swapRemove, Option.bind_eq_bind, Option.bind_eq_some_iff, Option.pure_def,
    Option.some.injEq, Prod.mk.injEq] at removed
  obtain ⟨_, found, _, -, rfl, -⟩ := removed
  exact found

end Remove

section Search
variable (key : α → Nat) (target : Nat) (xs : List α)

/-- Searches the positions from `low` to before `high`, by halves. -/
def searchBetween : Nat → Nat → Nat → Option Nat
  | 0, _, _ => none
  | fuel + 1, low, high =>
    if low < high then
      let middle := low + (high - low) / 2
      match xs[middle]? with
      | none => none
      | some x =>
        if key x = target then some middle
        else if key x < target then searchBetween fuel (middle + 1) high
        else searchBetween fuel low middle
    else none

/-- The position of a key in a vector that is sorted by it. -/
def binarySearchByKey : Option Nat := searchBetween key target xs xs.length 0 xs.length

variable {key target xs}

theorem searchBetween_sound {fuel low high i : Nat}
    (found : searchBetween key target xs fuel low high = some i) :
    ∃ x, xs[i]? = some x ∧ key x = target := by
  induction fuel generalizing low high with
  | zero => cases found
  | succ fuel ih =>
    rw [searchBetween] at found
    split at found
    · dsimp only at found
      split at found
      · cases found
      · rename_i x element
        split at found
        · rename_i same
          cases found
          exact ⟨x, element, same⟩
        · split at found
          · exact ih found
          · exact ih found
    · cases found

/-- The window keeps the position of the key. -/
theorem searchBetween_complete (sorted : xs.Pairwise fun x y => key x < key y)
    {fuel low high i : Nat} {x : α} (enough : high - low ≤ fuel) (bound : high ≤ xs.length)
    (above : low ≤ i) (below : i < high) (element : xs[i]? = some x) (same : key x = target) :
    (searchBetween key target xs fuel low high).isSome := by
  induction fuel generalizing low high with
  | zero => omega
  | succ fuel ih =>
    have smaller : ∀ {i j : Nat} {x y : α}, xs[i]? = some x → xs[j]? = some y → i < j →
        key x < key y := by
      intro i j x y first second before
      obtain ⟨hi, rfl⟩ := List.getElem?_eq_some_iff.mp first
      obtain ⟨hj, rfl⟩ := List.getElem?_eq_some_iff.mp second
      exact List.pairwise_iff_getElem.mp sorted i j hi hj before
    have inside : low + (high - low) / 2 < xs.length := by omega
    rw [searchBetween, if_pos (by omega)]
    dsimp only
    rw [List.getElem?_eq_getElem inside]
    dsimp only
    split
    · rfl
    · rename_i other
      have middle := List.getElem?_eq_getElem inside
      split
      · rename_i less
        apply ih
        · omega
        · exact bound
        · by_contra short
          have order : i < low + (high - low) / 2 ∨ i = low + (high - low) / 2 := by omega
          rcases order with before | equal
          · have := smaller element middle before
            omega
          · rw [equal, middle] at element
            cases element
            exact other same
        · exact below
      · rename_i greater
        apply ih
        · omega
        · omega
        · exact above
        · by_contra beyond
          have order : low + (high - low) / 2 < i ∨ i = low + (high - low) / 2 := by omega
          rcases order with before | equal
          · have := smaller middle element before
            omega
          · rw [equal, middle] at element
            cases element
            exact other same

/-- In a vector that is strictly sorted, the search finds the one position of a key. -/
theorem binarySearchByKey_eq_some (sorted : xs.Pairwise fun x y => key x < key y) {i : Nat} :
    binarySearchByKey key target xs = some i ↔ ∃ x, xs[i]? = some x ∧ key x = target := by
  constructor
  · exact searchBetween_sound
  · rintro ⟨x, element, same⟩
    obtain ⟨inside, equal⟩ := List.getElem?_eq_some_iff.mp element
    have some : (searchBetween key target xs xs.length 0 xs.length).isSome :=
      searchBetween_complete sorted (by omega) (Nat.le_refl _) (Nat.zero_le i) inside element same
    obtain ⟨j, found⟩ := Option.isSome_iff_exists.mp some
    obtain ⟨y, element', same'⟩ := searchBetween_sound found
    obtain ⟨inside', equal'⟩ := List.getElem?_eq_some_iff.mp element'
    rcases Nat.lt_trichotomy i j with before | rfl | after
    · have := List.pairwise_iff_getElem.mp sorted i j inside inside' before
      rw [equal, equal'] at this
      omega
    · exact found
    · have := List.pairwise_iff_getElem.mp sorted j i inside' inside after
      rw [equal, equal'] at this
      omega

end Search

end Vectors

end Protovalidate
