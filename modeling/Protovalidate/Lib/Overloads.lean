import Mathlib.Data.List.Nodup

/-!
# Tables of overloaded functions

An overload is a function's name, whether it is called as a method, and the types of
its arguments. A table takes an overload it has none for yet, and finds for the types
of a call what was registered for them.
-/

namespace Overloads

/-- What the overloads of a table are told apart by. -/
structure Shape (T : Type) where
  name : String
  method : Bool
  types : List T
  deriving DecidableEq, Repr

/-- A table of functions on values `V`, as its documentation has it. -/
structure Table (T V E : Type) [DecidableEq T] where
  Registry : Type
  register : Registry → Shape T → (List V → V) → Except E Registry
  find : Registry → Shape T → Option (List V → V)
  /-- An overload for which there is none is registered. -/
  registers : ∀ registry shape function, find registry shape = none →
    ∃ later, register registry shape function = .ok later
  /-- It is found from then on, and nothing else changes. -/
  finds : ∀ {registry shape function later}, register registry shape function = .ok later →
    ∀ other, find later other = if other = shape then some function else find registry other

section Table
variable {T V E : Type} [DecidableEq T]

/-- The table that is the list of its overloads, with the error it refuses one with. -/
def Table.ofList (refused : E) : Table T V E where
  Registry := List (Shape T × (List V → V))
  register registry shape function :=
    if (registry.lookup shape).isSome then .error refused else .ok ((shape, function) :: registry)
  find registry shape := registry.lookup shape
  registers registry shape function absent := by simp [absent]
  finds := by
    intro registry shape function later registered other
    split at registered
    · cases registered
    · cases registered
      rw [List.lookup_cons]
      by_cases same : other = shape
      · simp [same]
      · simp [same, beq_false_of_ne same]

variable (table : Table T V E) {ι : Type} (shape : ι → Shape T) (function : ι → List V → V)

/-- Registers the overloads of some items, up to the first that is refused. -/
def registerAll (registry : table.Registry) (items : List ι) : Except E table.Registry :=
  items.foldlM (fun registry item => table.register registry (shape item) (function item)) registry

variable {table shape function}

/-- Different overloads that the table has none for are all registered, and each call
finds its own. -/
theorem registerAll_finds (registry : table.Registry) (items : List ι)
    (distinct : (items.map shape).Nodup)
    (absent : ∀ item ∈ items, table.find registry (shape item) = none) :
    ∃ later, registerAll table shape function registry items = .ok later ∧
      ∀ other, table.find later other =
        ((items.find? fun item => shape item = other).map function).or
          (table.find registry other) := by
  induction items generalizing registry with
  | nil => exact ⟨registry, rfl, fun _ => rfl⟩
  | cons item items ih =>
    obtain ⟨apart, distinct⟩ := List.nodup_cons.mp distinct
    have free := absent item List.mem_cons_self
    obtain ⟨mid, registered⟩ := table.registers registry (shape item) (function item) free
    have found := table.finds registered
    have still : ∀ next ∈ items, table.find mid (shape next) = none := by
      intro next member
      have different : shape next ≠ shape item := fun same =>
        apart (same ▸ List.mem_map_of_mem member)
      rw [found, if_neg different]
      exact absent next (List.mem_cons_of_mem item member)
    obtain ⟨later, done, finds⟩ := ih mid distinct still
    refine ⟨later, ?_, fun other => ?_⟩
    · rw [registerAll, List.foldlM_cons, registered]
      exact done
    rw [finds, found, List.find?_cons]
    by_cases here : shape item = other
    · have none : items.find? (fun next => shape next = other) = none := by
        refine List.find?_eq_none.mpr fun next member same => apart ?_
        rw [here, ← of_decide_eq_true same]
        exact List.mem_map_of_mem member
      simp [here, none]
    · simp [here, Ne.symm here]

end Table

end Overloads
