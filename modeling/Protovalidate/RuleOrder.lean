import Protovalidate.RuleFrame
import Protovalidate.Spec

/-!
# The order of the checks

The checks of a rules message come in the order its fields are declared, and a
value's violations in the order of the checks. Timestamp rules with both
`lt_now` and a lower bound are the exception: `lt_now` is declared before `gt`,
and is checked after it.
-/

namespace Protovalidate

open Recording

/-- The violations reported are of rules in the order of these rule paths. -/
def ReportsAlong {ε α : Type} (paths : List (List FieldPathElement)) (x : SpecM ε α) : Prop :=
  ∀ at_, ((x at_).out.map Violation.rule).Sublist (paths.map fieldPath)

namespace ReportsAlong
variable {ε α β : Type} {R : Runtime} {paths more : List (List FieldPathElement)}

theorem pure (a : α) : ReportsAlong paths (Pure.pure a : SpecM ε α) :=
  fun _ => List.nil_sublist _

theorem bind {x : SpecM ε α} {f : α → SpecM ε β} (first : ReportsAlong paths x)
    (rest : ∀ a, ReportsAlong more (f a)) : ReportsAlong (paths ++ more) (x >>= f) := by
  intro at_
  have before := first at_
  rw [SpecM.bind_apply, List.map_append]
  generalize x at_ = run at before ⊢
  obtain ⟨out, e | a⟩ := run
  · exact before.trans (List.sublist_append_left _ _)
  · rw [Emit.bind_ok, List.map_append]
    exact before.append (rest a at_)

theorem orAbort (r : Except (Error R.Error) α) :
    ReportsAlong [] (Protovalidate.orAbort r : SpecM R.Error α) := by
  intro at_
  cases r with
  | error e => exact List.nil_sublist _
  | ok a => exact List.nil_sublist _

/-- What is done with a result that is there. -/
theorem known {r : Except (Error R.Error) α} {f : α → SpecM R.Error β}
    (rest : ∀ a, ReportsAlong paths (f a)) :
    ReportsAlong paths (Protovalidate.orAbort r >>= f) :=
  bind (orAbort r) rest

theorem pushIf (broken : Bool) (id message : String) (rulePath : List FieldPathElement) :
    ReportsAlong [rulePath] (Protovalidate.pushIf broken id message rulePath :
      SpecM R.Error Unit) := by
  intro at_
  cases broken with
  | false => exact List.nil_sublist _
  | true => exact List.Sublist.refl _

theorem runWith {τ : Type} (checks : List (Check τ)) {fails : τ → SpecM R.Error Bool}
    (quiet : ∀ test, ReportsAlong [] (fails test)) :
    ReportsAlong (checks.map Check.rulePath) (Protovalidate.runWith checks fails) := by
  induction checks with
  | nil => exact pure _
  | cons check checks ih =>
    have first : ReportsAlong [check.rulePath] (do
        Protovalidate.pushIf (← fails check.test) check.id check.message check.rulePath) :=
      bind (quiet check.test) fun broken => pushIf broken _ _ _
    exact bind first fun _ => ih

theorem run {τ : Type} (checks : List (Check τ)) (fails : τ → Except String Bool) :
    ReportsAlong (checks.map Check.rulePath)
      (Protovalidate.run checks fails : SpecM R.Error Unit) :=
  runWith checks fun _ => orAbort _

variable (walk : Walk R)

theorem checkValue (checks : Checks) (value : Option (Val R))
    (elementWrapper : Option (Field R)) :
    ReportsAlong checks.rulePaths
      (checks.checkValue walk value elementWrapper : SpecM R.Error Unit) := by
  cases checks with
  | none => exact pure _
  | list checks =>
    exact known fun view => known fun len => runWith checks fun test => orAbort _
  | _ checks => exact known fun value => run checks _

/-- The violations of a value come in the order of the checks it breaks. -/
theorem check (checks : Checks) (value : Option (Val R)) (wrapper : Option (Field R)) :
    ReportsAlong checks.rulePaths
      (checks.check walk value wrapper : SpecM R.Error Unit) := by
  unfold Checks.check
  split
  · exact known fun unboxed => checkValue walk checks unboxed none
  · exact checkValue walk checks _ _
  · exact checkValue walk checks _ _
  · exact checkValue walk checks _ _

end ReportsAlong

section Order
variable {B : Backend} {kind : String}

/-- The checks, on the fields of these numbers, come in the order the fields
are declared in, and so do the violations of any value. -/
structure InDeclaredOrder (B : Backend) (kind : String) (rules : RulesType)
    (enum : Option EnumIndex) (numbers : List Nat) : Prop where
  checked : Follows (declaredNumbers rules) numbers
  reported : ∀ path built rest, checks B kind rules path enum = .ok (built, rest) →
    ∀ {R : Runtime} (walk : Walk R) value wrapper at_, ∃ failed,
      ((built.check walk value wrapper : SpecM R.Error Unit) at_).out.map Violation.rule =
        failed.map (fun number => fieldPath (path number)) ∧
      Follows (declaredNumbers rules) failed

/-- Violations are in the order of the checks. -/
theorem NativeBuilt.inDeclaredOrder {rules rest : RulesType} {enum : Option EnumIndex}
    {numbers : List Nat} (whole : NativeBuilt B kind rules enum rest numbers)
    (order : Follows (declaredNumbers rules) numbers) :
    InDeclaredOrder B kind rules enum numbers := by
  refine ⟨order, fun path built rest' made R walk value wrapper at_ => ?_⟩
  obtain ⟨built', again, paths⟩ := whole.placed path
  obtain rfl : built' = built := congrArg Prod.fst (Except.ok.inj (again.symm.trans made))
  have along := ReportsAlong.check walk built' value wrapper at_
  rw [paths, List.map_map] at along
  obtain ⟨failed, below, same⟩ := List.sublist_map_iff.mp along
  exact ⟨failed, same, order.sublist below⟩

/-- The check of a lower bound comes before that of `lt_now`. -/
theorem lower_before_ltNow {r rest : TimestampRules} {checks : Unplaced TimestampTest}
    (built : timestampChecks B kind r = .ok (checks, rest)) (both : r.nowAfterLower = true) :
    [5, 7].Sublist (List.map Prod.fst checks) ∨ [6, 7].Sublist (List.map Prod.fst checks) := by
  obtain ⟨enabled, lower⟩ : r.ltNow = some true ∧ r.ordered.greaterThan.isSome := by
    simpa [TimestampRules.nowAfterLower] using both
  have upper : r.ordered.lessThan = none := by
    rcases held : r.lessThan with _ | v | v | b <;>
      simp [TimestampRules.ltNow, held] at enabled
    simp [TimestampRules.ordered, held, TimestampLessThan.bound]
  have now : List.map Prod.fst (ltNowChecks kind r) = [7] := by
    simp [ltNowChecks, whenTrue, enabled, Unplaced.push]
  -- A lower bound alone is checked on its own field.
  have bound : List.map Prod.fst
        ((bounds timestamp r.ordered).bound (displayTimestamp B) kind 2) = [5] ∨
      List.map Prod.fst
        ((bounds timestamp r.ordered).bound (displayTimestamp B) kind 2) = [6] := by
    obtain ⟨v | v, held⟩ := Option.isSome_iff_exists.mp lower <;>
      simp [Bounds.bound, Bounds.lower, Bounds.upper, bounds, OrderedRules.gt, OrderedRules.gte,
        OrderedRules.lt, OrderedRules.lte, upper, held, Unplaced.push]
  have wrapped : List.map Prod.fst (Unplaced.map TimestampTest.cmp
      ((bounds timestamp r.ordered).bound (displayTimestamp B) kind 2)) =
      List.map Prod.fst ((bounds timestamp r.ordered).bound (displayTimestamp B) kind 2) := by
    rw [Unplaced.map, List.map_map]
    rfl
  rw [timestampChecks_eq B kind built]
  simp only [List.map_append, wrapped, now, List.append_assoc]
  rcases bound with bound | bound <;> rw [bound]
  · refine .inl ((List.sublist_append_of_sublist_right ?_))
    exact (List.sublist_append_left [5, 7] _)
  · refine .inr ((List.sublist_append_of_sublist_right ?_))
    exact (List.sublist_append_left [6, 7] _)

/-- A path that shows the number of its field. -/
def numbered (number : Nat) : List FieldPathElement := [{ fieldNumber := some number }]

theorem numbered_injective : Function.Injective numbered := by
  intro a b same
  have equal : (a : Int) = b := by simpa [numbered] using same
  omega

/-- The numbers of timestamp checks. -/
theorem NativeBuilt.timestamp {r : TimestampRules} {rest : RulesType} {enum : Option EnumIndex}
    {numbers : List Nat} (whole : NativeBuilt B kind (.timestamp r) enum rest numbers) :
    ∃ checks left, timestampChecks B kind r = .ok (checks, left) ∧
      numbers = List.map Prod.fst checks := by
  obtain ⟨built, made, paths⟩ := whole.placed numbered
  simp only [checks] at made
  cases taken : timestampChecks B kind r with
  | error error => simp [taken, Except.map] at made
  | ok taken' =>
    obtain ⟨rfl, -⟩ := Prod.mk.inj (Except.ok.inj (taken ▸ made))
    refine ⟨taken'.1, taken'.2, rfl, ?_⟩
    have same : (List.map Prod.fst taken'.1).map numbered = numbers.map numbered :=
      (place_rulePaths numbered taken'.1).symm.trans paths
    exact (numbered_injective.list_map same).symm

theorem nowAfterLower_unordered {r rest : TimestampRules} {checks : Unplaced TimestampTest}
    (built : timestampChecks B kind r = .ok (checks, rest)) (both : r.nowAfterLower = true) :
    ¬ Follows (declaredNumbers (.timestamp r)) (List.map Prod.fst checks) := by
  intro order
  rcases lower_before_ltNow built both with below | below
  · have pair := order.sublist below
    simp [declaredNumbers, Follows.cons_cons] at pair
  · have pair := order.sublist below
    simp [declaredNumbers, Follows.cons_cons] at pair

/-- The checks of a rules message that are built come in the order of its
fields, and so do the violations of any value, unless it is of a timestamp with
`lt_now` set to true and a lower bound. -/
theorem checks_in_declared_order {rules rest : RulesType} {path : Nat → List FieldPathElement}
    {enum : Option EnumIndex} {built : Checks}
    (done : checks B kind rules path enum = .ok (built, rest)) :
    ∃ numbers, (∀ path, ∃ built, checks B kind rules path enum = .ok (built, rest) ∧
        built.rulePaths = numbers.map path) ∧
      (InDeclaredOrder B kind rules enum numbers ↔ nowAfterLower rules = false) := by
  obtain ⟨numbers, whole⟩ := checks_built done
  refine ⟨numbers, whole.placed, fun order => ?_, fun apart => ?_⟩
  · by_contra both
    rw [Bool.not_eq_false] at both
    cases rules with
    | timestamp r =>
      obtain ⟨taken, left, made, rfl⟩ := whole.timestamp
      exact nowAfterLower_unordered made both order.checked
    | _ r => cases both
  · refine whole.inDeclaredOrder ?_
    rw [← ruleFields_numbers B kind rules]
    exact whole.ordered apart

/-- Integer rules with bounds on both sides, and a list. -/
theorem checks_in_declared_order_int32 : ∃ numbers,
    (∀ path, ∃ built, checks Backend.bare "int32"
        (.int32 ⟨some 4, some (.lt 9), some (.gte 2), [4], [], [], []⟩) path none =
          .ok (built, .int32 ⟨none, none, none, [], [], [], []⟩) ∧
        built.rulePaths = numbers.map path) ∧
    (InDeclaredOrder Backend.bare "int32"
        (.int32 ⟨some 4, some (.lt 9), some (.gte 2), [4], [], [], []⟩) none numbers ↔
      nowAfterLower (.int32 ⟨some 4, some (.lt 9), some (.gte 2), [4], [], [], []⟩) = false) :=
  have done : checks Backend.bare "int32"
      (.int32 ⟨some 4, some (.lt 9), some (.gte 2), [4], [], [], []⟩) numbered none =
        .ok (_, .int32 ⟨none, none, none, [], [], [], []⟩) := rfl
  checks_in_declared_order done

end Order

/-- Before now, which is the epoch, and after ten seconds from it. -/
def beforeNow : TimestampRules :=
  ⟨none, some (.ltNow true), some (.gt ⟨10, 0⟩), none, [], []⟩

/-- Five seconds from the epoch. -/
def fiveSeconds : Val ⟨Empty, Unit⟩ :=
  .message ⟨fun _ => .ok true, fun field => .ok (some (.int (if field.number = 1 then 5 else 0))),
    .ok []⟩

def bareWalk : Walk ⟨Empty, Unit⟩ where
  pool := ⟨[], [], [], by simp⟩
  schema := ⟨0, {}, {}, {}, {}, {}, {}, {}, {}⟩
  env := ⟨fun _ _ => .error (.unexpected ""), fun name bytes => .ok ⟨name, bytes⟩⟩
  backend := Backend.bare
  validators _ := none

/-- `gt` is checked and reported before `lt_now`, which is declared before it. -/
theorem lt_now_after_gt : ∃ built rest,
    checks Backend.bare "timestamp" (.timestamp beforeNow) numbered none = .ok (built, rest) ∧
    built.rulePaths = [5, 7].map numbered ∧
    ((built.check bareWalk (some fiveSeconds) none : SpecM Empty Unit) ⟨[], false⟩).out.map
      Violation.rule = [5, 7].map (fun number => fieldPath (numbered number)) ∧
    ¬ Follows (declaredNumbers (.timestamp beforeNow)) [5, 7] :=
  ⟨_, _, rfl, rfl, rfl, by simp [declaredNumbers, Follows.cons_cons]⟩

end Protovalidate
