import Protovalidate.WalkRefinesSpec

/-!
# Stopping at the first violation

A fail-fast walk stops where the full walk records its first violation. The
abort unwinds through every enclosing map entry, each writing its key on the
way out, so the one violation is the full walk's first with its whole path.
-/

namespace Protovalidate

open Recording

variable {R : Runtime} (walk : Walk R)

/-- The violations a walk of a message recorded, also when it ended in an
error and returns none of them. -/
def Walk.recorded (failFast : Bool) (validator : MessageValidator R) (message : Message R)
    (typeName : String) : List Violation :=
  (validator.validate walk ⟨typeName, message⟩ message (Violations.new failFast)).2.list

theorem recorded_of_ok {failFast : Bool} {validator : MessageValidator R} {m : Message R}
    {typeName : String} {violations : List Violation}
    (done : walk.validate failFast validator m typeName = .ok violations) :
    walk.recorded failFast validator m typeName = violations := by
  unfold Walk.validate at done
  unfold Walk.recorded
  split at done <;> simp_all

theorem recorded_full (validator : MessageValidator R) (m : Message R) (typeName : String) :
    walk.recorded false validator m typeName =
      (Spec.report walk validator m typeName []).out := by
  simp only [Walk.recorded, validate_from_root]
  rfl

/-- With no violation recorded, the two walks end alike. -/
theorem fail_fast_of_none (validator : MessageValidator R) (m : Message R) (typeName : String)
    (clean : walk.recorded false validator m typeName = []) :
    walk.validate true validator m typeName = walk.validate false validator m typeName := by
  rw [recorded_full] at clean
  simp only [Walk.validate, validate_from_root, observed, Emit.cut_silent _ _ _ _ clean]
  cases (Spec.report walk validator m typeName []).result <;> rfl

/-- With a violation recorded, the fail-fast walk returns the first. -/
theorem fail_fast_of_some (validator : MessageValidator R) (m : Message R) (typeName : String)
    {first : Violation} {rest : List Violation}
    (found : walk.recorded false validator m typeName = first :: rest) :
    walk.validate true validator m typeName = .ok [first] := by
  rw [recorded_full] at found
  simp only [Walk.validate, validate_from_root, observed, Emit.cut, found]

/-- The fail-fast walk against the full one, whether that finds nothing, some
violations, or an error before or after its first violation. -/
theorem fail_fast_returns_first (validator : MessageValidator R) (m : Message R)
    (typeName : String) :
    (walk.validate false validator m typeName = .ok [] →
      walk.validate true validator m typeName = .ok []) ∧
    (∀ first rest, walk.validate false validator m typeName = .ok (first :: rest) →
      walk.validate true validator m typeName = .ok [first]) ∧
    (∀ e, walk.validate false validator m typeName = .error e →
      (walk.recorded false validator m typeName = [] ∧
        walk.validate true validator m typeName = .error e) ∨
      ∃ first rest, walk.recorded false validator m typeName = first :: rest ∧
        walk.validate true validator m typeName = .ok [first]) ∧
    ∀ violations, walk.validate true validator m typeName = .ok violations →
      violations.length ≤ 1 := by
  refine ⟨fun full => ?_, fun first rest full => ?_, fun e full => ?_, fun violations fast => ?_⟩
  · rw [fail_fast_of_none walk _ _ _ (recorded_of_ok walk full), full]
  · exact fail_fast_of_some walk _ _ _ (recorded_of_ok walk full)
  · cases found : walk.recorded false validator m typeName with
    | nil => exact .inl ⟨rfl, (fail_fast_of_none walk _ _ _ found).trans full⟩
    | cons first rest => exact .inr ⟨first, rest, rfl, fail_fast_of_some walk _ _ _ found⟩
  · rw [← recorded_of_ok walk fast]
    simp only [Walk.recorded, validate_from_root, observed]
    exact Emit.cut_out_length_le _ _ _

end Protovalidate
