import Mathlib.Logic.Relation

/-!
# Tables that grow by merging

Entries are built in parts, each against a snapshot of a shared table, and
merged into whatever the table is by then. When every part is determined by
its keys and completes the snapshot it was built against, so does the table.
-/

namespace Protovalidate

/-- A finite map, by lookup. -/
abbrev Table (κ ε : Type) := κ → Option ε

namespace Table
variable {κ ε : Type}

/-- The entries of `built` over those of `table`. -/
def extend (table built : Table κ ε) : Table κ ε := fun k => (built k).or (table k)

/-- Every entry of a table is in a larger one. -/
def Within (table larger : Table κ ε) : Prop := ∀ k e, table k = some e → larger k = some e

/-- The keys a key needs are in the table too. -/
def Closed (next : κ → κ → Prop) (table : Table κ ε) : Prop :=
  ∀ k k', (table k).isSome → next k k' → (table k').isSome

/-- The keys that the keys of `built` need are in `built` or in `known`. -/
def Completes (next : κ → κ → Prop) (known built : Table κ ε) : Prop :=
  ∀ k k', (built k).isSome → next k k' → (built k').isSome ∨ (known k').isSome

variable {next : κ → κ → Prop} {table built known larger entries : Table κ ε}

@[simp] theorem isSome_extend (k : κ) :
    (table.extend built k).isSome = ((built k).isSome || (table k).isSome) := by
  unfold extend
  cases built k <;> rfl

theorem Within.refl (table : Table κ ε) : table.Within table := fun _ _ found => found

theorem Within.trans (first : known.Within table) (second : table.Within larger) :
    known.Within larger :=
  fun k e found => second k e (first k e found)

theorem Within.isSome (within : table.Within larger) {k : κ} (found : (table k).isSome) :
    (larger k).isSome := by
  obtain ⟨e, entry⟩ := Option.isSome_iff_exists.mp found
  exact Option.isSome_iff_exists.mpr ⟨e, within k e entry⟩

/-- Merging two parts of one table gives a part of it. -/
theorem Within.extend (first : table.Within entries) (second : built.Within entries) :
    (table.extend built).Within entries := by
  intro k e found
  unfold Table.extend at found
  cases new : built k with
  | none => exact first k e (by simpa [new] using found)
  | some e' => exact second k e (by rw [new]; simpa [new] using found)

/-- Nothing is lost by merging entries that are determined by their keys. -/
theorem Within.of_extend (first : table.Within entries) (second : built.Within entries) :
    table.Within (table.extend built) := by
  intro k e found
  unfold Table.extend
  cases new : built k with
  | none => simpa using found
  | some e' =>
    have same : some e' = some e := (second k e' new).symm.trans (first k e found)
    exact same

theorem Completes.mono (completes : known.Completes next built) (within : known.Within larger) :
    larger.Completes next built :=
  fun k k' found edge => (completes k k' found edge).imp_right within.isSome

/-- Entries that complete a closed table leave it closed. -/
theorem Closed.extend (closed : table.Closed next) (completes : table.Completes next built) :
    (table.extend built).Closed next := by
  intro k k' found edge
  rw [isSome_extend, Bool.or_eq_true] at found ⊢
  rcases found with found | found
  · exact completes k k' found edge
  · exact .inr (closed k k' found edge)

/-- A closed table that has a key has everything the key reaches. -/
theorem Closed.reaches (closed : table.Closed next) {k k' : κ} (found : (table k).isSome)
    (reaches : Relation.ReflTransGen next k k') : (table k').isSome := by
  induction reaches with
  | refl => exact found
  | tail _ edge ih => exact closed _ _ ih edge

end Table

end Protovalidate
