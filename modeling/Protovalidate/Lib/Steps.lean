import Mathlib.Data.List.Basic

/-!
# Steps on a state that may fail

A step takes a state to another one and succeeds or fails there. What it did
before it failed is kept.
-/

namespace Protovalidate

variable {σ ε ι : Type}

/-- A step, and the state it leaves. -/
abbrev Step (σ ε : Type) := σ → Except ε Unit × σ

namespace Step

/-- The second step, once the first succeeded. -/
def andThen (first second : Step σ ε) : Step σ ε := fun s =>
  match first s with
  | (.ok (), s) => second s
  | (.error e, s) => (.error e, s)

/-- A step for each item, up to the first that fails. -/
def each (step : ι → Step σ ε) : List ι → Step σ ε
  | [] => fun s => (.ok (), s)
  | item :: rest => (step item).andThen (each step rest)

/-- How a step may end. -/
inductive Ends (succeeds : σ → Prop) (fails : ε → σ → Prop) : Except ε Unit × σ → Prop
  | ok {s : σ} : succeeds s → Ends succeeds fails (.ok (), s)
  | error {e : ε} {s : σ} : fails e s → Ends succeeds fails (.error e, s)

namespace Ends
variable {mid succeeds succeeds' : σ → Prop} {fails fails' : ε → σ → Prop}

theorem mono {result : Except ε Unit × σ} (ends : Ends succeeds fails result)
    (ok : ∀ s, succeeds s → succeeds' s) (error : ∀ e s, fails e s → fails' e s) :
    Ends succeeds' fails' result := by
  cases ends with
  | ok done => exact .ok (ok _ done)
  | error failed => exact .error (error _ _ failed)

theorem andThen {first second : Step σ ε} {s : σ} (ends : Ends mid fails (first s))
    (rest : ∀ s', mid s' → Ends succeeds fails (second s')) :
    Ends succeeds fails (first.andThen second s) := by
  unfold Step.andThen
  generalize first s = result at ends
  cases ends with
  | ok done => exact rest _ done
  | error failed => exact .error failed

/-- An invariant of a loop, which knows the items it is done with. -/
theorem each {step : ι → Step σ ε} (inv : List ι → σ → Prop) {items : List ι} {s : σ}
    (start : inv [] s)
    (next : ∀ done item rest s, items = done ++ item :: rest → inv done s →
      Ends (inv (done ++ [item])) fails (step item s)) :
    Ends (inv items) fails (Step.each step items s) := by
  suffices from_ : ∀ rest done s, items = done ++ rest → inv done s →
      Ends (inv items) fails (Step.each step rest s) from from_ items [] s rfl start
  intro rest
  induction rest with
  | nil =>
    intro done s split held
    rw [List.append_nil] at split
    exact .ok (split ▸ held)
  | cons item rest ih =>
    intro done s split held
    refine (next done item rest s split held).andThen fun s' held' => ?_
    exact ih (done ++ [item]) s' (by simp [split]) held'

end Ends

/-- A step keeps a property, whether it succeeds or fails. -/
def Keeps (P : σ → Prop) (step : Step σ ε) : Prop := ∀ s, P s → P (step s).2

theorem Keeps.andThen {P : σ → Prop} {first second : Step σ ε} (one : Keeps P first)
    (other : Keeps P second) : Keeps P (first.andThen second) := by
  intro s held
  have mid := one s held
  unfold Step.andThen
  generalize first s = result at mid
  obtain ⟨_ | _, s'⟩ := result
  · exact mid
  · exact other s' mid

theorem Keeps.each {P : σ → Prop} {step : ι → Step σ ε} {items : List ι}
    (all : ∀ item ∈ items, Keeps P (step item)) : Keeps P (Step.each step items) := by
  induction items with
  | nil => exact fun _ held => held
  | cons item rest ih =>
    refine (all item List.mem_cons_self).andThen ?_
    exact ih fun other later => all other (List.mem_cons_of_mem _ later)

end Step

end Protovalidate
