import Protovalidate.Lib.Recording
import Mathlib.Data.List.Perm.Basic

/-!
# Runs that report the same in another order

A run permutes another one when it ends with the result of the other and
reports what the other does, in any order, provided that the other does not end
with an error. Steps of a loop may be taken in any order.
-/

namespace Recording

namespace Emit
variable {ω ε : Type} {α β : Type}

/-- Unless the first run ends with an error, the second ends with its result
and permutes its reports. -/
def Permutes (x y : Emit ω ε α) : Prop :=
  ∀ a, x.result = .ok a → y.result = .ok a ∧ x.out.Perm y.out

namespace Permutes
variable {x y z : Emit ω ε α}

theorem refl (x : Emit ω ε α) : Permutes x x := fun _ done => ⟨done, .refl _⟩

theorem trans (first : Permutes x y) (second : Permutes y z) : Permutes x z := by
  intro a done
  obtain ⟨done, perm⟩ := first a done
  obtain ⟨done, perm'⟩ := second a done
  exact ⟨done, perm.trans perm'⟩

theorem bind {f g : α → Emit ω ε β} (first : Permutes x y) (rest : ∀ a, Permutes (f a) (g a)) :
    Permutes (x >>= f) (y >>= g) := by
  intro b done
  obtain ⟨out, e | a⟩ := x
  · cases done
  · obtain ⟨same, perm⟩ := first a rfl
    obtain ⟨out', result⟩ := y
    obtain rfl : result = .ok a := same
    obtain ⟨done, perm'⟩ := rest a b done
    exact ⟨done, perm.append perm'⟩

/-- Two steps whose results are not used may be taken in either order. -/
theorem swap (x y : Emit ω ε Unit) (z : Emit ω ε α) :
    Permutes (x >>= fun _ => y >>= fun _ => z) (y >>= fun _ => x >>= fun _ => z) := by
  intro a done
  obtain ⟨out, e | u⟩ := x
  · cases done
  · obtain ⟨out', e | u'⟩ := y
    · cases done
    · refine ⟨done, ?_⟩
      simp only [bind_ok]
      rw [← List.append_assoc, ← List.append_assoc]
      exact List.perm_append_comm.append_right z.out

end Permutes

end Emit

end Recording
