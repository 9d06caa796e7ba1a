import Protovalidate.Eval
import Protovalidate.Lib.Slice

/-!
# Paths of field masks

A path is below another one if it goes on with further segments. An allowed path
covers itself and everything below it, however the segments read as text.
-/

namespace Protovalidate

open Recording

/-- The segments of a path. -/
def segments (path : String) : List (List Char) := path.toList.splitOn '.'

theorem segments_begin (allowed path : String) :
    segments allowed <+: segments path ↔
      path = allowed ∨ ∃ rest, path = allowed ++ "." ++ rest := by
  rw [segments, segments, Slice.splitOn_begins, String.toList_inj]
  refine or_congr Iff.rfl ⟨?_, ?_⟩
  · rintro ⟨rest, below⟩
    refine ⟨String.ofList rest, String.toList_inj.mp ?_⟩
    simp [below]
  · rintro ⟨rest, rfl⟩
    exact ⟨rest.toList, by simp⟩

/-- The comparison of texts is one of segments. -/
theorem covers_iff (allowed path : String) :
    (allowed == path || (allowed.toList.isPrefixOf path.toList &&
      ['.'].isPrefixOf (path.toList.drop allowed.toList.length))) = true ↔
    segments allowed <+: segments path := by
  rw [segments_begin, Bool.or_eq_true, beq_iff_eq, Bool.and_eq_true]
  refine or_congr eq_comm ⟨?_, ?_⟩
  · rintro ⟨starts, dot⟩
    obtain ⟨rest, text⟩ := List.isPrefixOf_iff_prefix.mp starts
    rw [← text, List.drop_left] at dot
    obtain ⟨more, rfl⟩ := List.isPrefixOf_iff_prefix.mp dot
    refine ⟨String.ofList more, String.toList_inj.mp ?_⟩
    simp [← text]
  · rintro ⟨rest, rfl⟩
    constructor
    · exact List.isPrefixOf_iff_prefix.mpr ⟨'.' :: rest.toList, by simp⟩
    · simp

theorem covered_iff (paths : List String) (path : String) :
    covered paths path = true ↔ ∃ allowed ∈ paths, segments allowed <+: segments path := by
  simp only [covered, List.any_eq_true, covers_iff]

section Masks
variable {list : List String} {path : String}

theorem covered_below (rest : String) (found : covered list path = true) :
    covered list (path ++ "." ++ rest) = true := by
  obtain ⟨allowed, member, starts⟩ := (covered_iff list path).mp found
  have below : segments path <+: segments (path ++ "." ++ rest) :=
    (segments_begin _ _).mpr (.inr ⟨rest, rfl⟩)
  exact (covered_iff _ _).mpr ⟨allowed, member, starts.trans below⟩

theorem covered_mono {more : List String} (within : list ⊆ more)
    (found : covered list path = true) : covered more path = true := by
  obtain ⟨allowed, member, starts⟩ := (covered_iff list path).mp found
  exact (covered_iff _ _).mpr ⟨allowed, within member, starts⟩

variable {paths : List String}

theorem isIn_passes :
    (FieldMaskTest.isIn list).fails paths = .ok false ↔
      ∀ path ∈ paths, covered list path = true := by
  simp [FieldMaskTest.fails]

theorem notIn_passes :
    (FieldMaskTest.notIn list).fails paths = .ok false ↔
      ∀ path ∈ paths, covered list path = false := by
  simp [FieldMaskTest.fails]

/-- Only a mask without paths is both in and not in a list. -/
theorem passes_both :
    ((FieldMaskTest.isIn list).fails paths = .ok false ∧
      (FieldMaskTest.notIn list).fails paths = .ok false) ↔ paths = [] := by
  rw [isIn_passes, notIn_passes]
  constructor
  · rintro ⟨inside, outside⟩
    rw [List.eq_nil_iff_forall_not_mem]
    intro path member
    have both := (inside path member).symm.trans (outside path member)
    cases both
  · rintro rfl
    simp

end Masks

/-- A check of a mask leaves a walk as it is exactly if its test passes. -/
theorem checkValue_silent {R : Runtime} {walk : Walk R} {value : Option (Val R)}
    {paths : List String} (read : pathsOf value = .ok paths) (check : Check FieldMaskTest)
    (out : Violations) :
    ((Checks.fieldMask [check]).checkValue walk value none : WalkM R.Error Unit) out =
      (.ok (), out) ↔ check.test.fails paths = .ok false := by
  have ran : ((Checks.fieldMask [check]).checkValue walk value none : WalkM R.Error Unit) out =
      ((evaluate (check.test.fails paths) >>= fun broken =>
        pushIf broken check.id check.message check.rulePath) >>= fun _ => pure () :
          WalkM R.Error Unit) out := by
    simp only [Checks.checkValue, read]
    rfl
  rw [ran]
  cases broken : check.test.fails paths with
  | error message => simp [FieldMaskTest.fails] at broken
  | ok fails =>
    cases fails with
    | false => exact ⟨fun _ => rfl, fun _ => rfl⟩
    | true =>
      refine ⟨fun silent => ?_, fun passed => by cases passed⟩
      have recorded := congrArg (fun result => result.2.list.length) silent
      revert recorded
      by_cases failFast : out.failFast <;>
        simp [evaluate, orAbort, pushIf, push, record, Violations.push, bind, WalkM.andThen,
          pure, failFast, Except.mapError]

/-- A path is covered exactly if it begins with the segments of an allowed path,
so that everything below it is covered too, and so is it by more paths. A mask
passes `in` and `not_in` of one list together exactly if it has no paths. -/
theorem covered_segments :
    (∀ paths path, covered paths path = true ↔
      ∃ allowed ∈ paths, segments allowed <+: segments path) ∧
    (∀ paths path rest, covered paths path = true → covered paths (path ++ "." ++ rest) = true) ∧
    (∀ paths more path, paths ⊆ more → covered paths path = true → covered more path = true) ∧
    (∀ list paths, ((FieldMaskTest.isIn list).fails paths = .ok false ∧
      (FieldMaskTest.notIn list).fails paths = .ok false) ↔ paths = []) ∧
    ∀ (R : Runtime) (walk : Walk R) value paths, pathsOf value = .ok paths →
      ∀ isIn notIn : Check FieldMaskTest, (∃ list, isIn.test = .isIn list ∧
        notIn.test = .notIn list) → ∀ out,
      (((Checks.fieldMask [isIn]).checkValue walk value none : WalkM R.Error Unit) out =
          (.ok (), out) ∧
        ((Checks.fieldMask [notIn]).checkValue walk value none : WalkM R.Error Unit) out =
          (.ok (), out)) ↔ paths = [] := by
  refine ⟨covered_iff, fun _ _ rest => covered_below rest, fun _ _ _ => covered_mono,
    fun _ _ => passes_both, ?_⟩
  rintro R walk value paths read isIn notIn ⟨list, inside, outside⟩ out
  rw [checkValue_silent read, checkValue_silent read, inside, outside]
  exact passes_both

end Protovalidate
