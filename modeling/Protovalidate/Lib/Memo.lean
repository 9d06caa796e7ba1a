import Mathlib.Data.List.Basic

/-!
# Computing each value once

A loop over items computes a value for each that has none yet. It stops at the
first item whose value fails, and does not depend on how often an item comes.
-/

namespace Protovalidate

namespace Memo
variable {α β ε : Type} [BEq α] [LawfulBEq α] (f : α → Except ε β)

/-- Adds the value of an item to the values found so far. -/
def add (found : List (α × β)) (item : α) : Except ε (List (α × β)) :=
  if (found.lookup item).isSome then return found
  else do
    let value ← f item
    return (item, value) :: found

/-- Why the value of an item fails. -/
def error (item : α) : Option ε :=
  match f item with
  | .error e => some e
  | .ok _ => none

variable {f}

/-- The values found are those of their items. -/
def Sound (f : α → Except ε β) (found : List (α × β)) : Prop :=
  ∀ item value, found.lookup item = some value → f item = .ok value

omit [LawfulBEq α] in
theorem sound_nil : Sound f ([] : List (α × β)) := fun _ _ found => by cases found

theorem Sound.cons {found : List (α × β)} (sound : Sound f found) {item : α} {value : β}
    (computed : f item = .ok value) : Sound f ((item, value) :: found) := by
  intro other value' looked
  rw [List.lookup_cons] at looked
  split at looked
  · rename_i same
    cases looked
    rw [eq_of_beq same]
    exact computed
  · exact sound other value' looked

omit [LawfulBEq α] in
/-- One item. -/
theorem add_cases {found : List (α × β)} (sound : Sound f found) (item : α) :
    (∃ e, f item = .error e ∧ add f found item = .error e) ∨
    ∃ value, f item = .ok value ∧
      (add f found item = .ok found ∨ add f found item = .ok ((item, value) :: found)) := by
  unfold add
  cases looked : found.lookup item with
  | some value => exact .inr ⟨value, sound item value looked, .inl rfl⟩
  | none =>
    cases computed : f item with
    | error e => exact .inl ⟨e, rfl, rfl⟩
    | ok value => exact .inr ⟨value, rfl, .inr rfl⟩

/-- The loop fails with the first error, and finds values of the items
otherwise. -/
theorem foldlM_add {found : List (α × β)} (sound : Sound f found) (items : List α) :
    (∃ e, items.findSome? (error f) = some e ∧ items.foldlM (add f) found = .error e) ∨
    ∃ found', items.findSome? (error f) = none ∧ items.foldlM (add f) found = .ok found' ∧
      Sound f found' := by
  induction items generalizing found with
  | nil => exact .inr ⟨found, rfl, rfl, sound⟩
  | cons item rest ih =>
    rw [List.findSome?_cons, List.foldlM_cons]
    rcases add_cases sound item with ⟨e, failed, added⟩ | ⟨value, computed, added⟩
    · refine .inl ⟨e, ?_, ?_⟩
      · simp [error, failed]
      · rw [added]
        rfl
    · have passes : error f item = none := by simp [error, computed]
      rw [passes]
      rcases added with added | added <;> rw [added]
      · exact ih sound
      · exact ih (sound.cons computed)

end Memo

/-- Items that cannot fail may be left out of a search for the first error. -/
theorem findSome?_flatMap_filter {α β γ : Type} {f : β → Option γ} {items : α → List β}
    {p : α → Bool} {xs : List α} (passes : ∀ x ∈ xs, p x = false → ∀ y ∈ items x, f y = none) :
    ((xs.filter p).flatMap items).findSome? f = (xs.flatMap items).findSome? f := by
  induction xs with
  | nil => rfl
  | cons x xs ih =>
    have rest := ih fun y later => passes y (List.mem_cons_of_mem x later)
    rw [List.flatMap_cons, List.findSome?_append, ← rest]
    cases kept : p x with
    | true => rw [List.filter_cons_of_pos kept, List.flatMap_cons, List.findSome?_append]
    | false =>
      have none : (items x).findSome? f = none :=
        List.findSome?_eq_none_iff.mpr (passes x List.mem_cons_self kept)
      rw [List.filter_cons_of_neg (by simp [kept]), none, Option.none_or]

end Protovalidate
