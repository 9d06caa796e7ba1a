import Protovalidate.Predefined
import Mathlib.Data.Multiset.AddSub

/-!
# The comparison rules against their CEL expressions

Fifteen guarded expressions, of which at most one on the bounds applies, are
one native check chosen from the bounds that are set and how they are ordered.
-/

namespace Protovalidate

section Collect
variable {ι ρ ν τ : Type} (report : ι → Option (List Reported))

@[simp] theorem collect_nil : collect report [] = some [] := rfl

theorem collect_cons (item : ι) (rest : List ι) :
    collect report (item :: rest) =
      (report item).bind fun first => (collect report rest).map (first ++ ·) := by
  simp only [collect, Option.bind_eq_bind]
  cases report item <;> cases collect report rest <;> rfl

theorem collect_append (xs ys : List ι) :
    collect report (xs ++ ys) =
      (collect report xs).bind fun first => (collect report ys).map (first ++ ·) := by
  induction xs with
  | nil => cases rest : collect report ys <;> simp [rest]
  | cons x xs ih =>
    rw [List.cons_append, collect_cons, collect_cons, ih]
    cases report x <;> cases collect report xs <;> cases collect report ys <;> simp

theorem collect_singleton (item : ι) : collect report [item] = report item := by
  rw [collect_cons]
  cases report item <;> simp

/-- What is reported in another order. -/
theorem collect_perm {xs ys : List ι} (perm : xs.Perm ys) :
    (collect report xs).map Multiset.ofList = (collect report ys).map Multiset.ofList := by
  induction perm with
  | nil => rfl
  | cons item _ ih =>
    have shift : ∀ first zs, ((collect report zs).map (first ++ ·)).map Multiset.ofList =
        ((collect report zs).map Multiset.ofList).map (Multiset.ofList first + ·) := by
      intro first zs
      cases collect report zs <;> rfl
    rw [collect_cons, collect_cons]
    cases report item with
    | none => rfl
    | some first => exact (shift first _).trans (ih ▸ (shift first _).symm)
  | swap first second rest =>
    simp only [collect_cons]
    cases report first <;> cases report second <;> cases collect report rest <;>
      simp [List.perm_append_comm_assoc]
  | trans _ _ ih ih' => exact ih.trans ih'

theorem report_of_unset {field : RuleField ρ ν} {rules : ρ} (unset : field.content rules = none)
    (this : ν) : field.report rules this = some [] := by
  simp [RuleField.report, unset]

theorem report_of_set {field : RuleField ρ ν} {rules : ρ} {content : Content}
    (set : field.content rules = some content) (this : ν) :
    field.report rules this = collect (Predefined.report field.number rules this) field.cel := by
  simp [RuleField.report, set]

/-- What an expression of the form `broken ? text : ''` reports. -/
theorem report_failIf {rule : Predefined ρ ν} {rules : ρ} {this : ν} {broken : Bool}
    {text : String} (number : Nat) (expression : rule.expression rules this = failIf broken text)
    (nonempty : text ≠ "") :
    rule.report number rules this = some (if broken then [⟨rule.id, text, number⟩] else []) := by
  cases broken <;> simp [Predefined.report, Predefined.failure, expression, failIf, nonempty]

@[simp] theorem reports_nil (fails : τ → Except String Bool) : reports fails [] = some [] := rfl

theorem reports_append (fails : τ → Except String Bool) (xs ys : Unplaced τ) :
    reports fails (xs ++ ys) =
      (reports fails xs).bind fun first => (reports fails ys).map (first ++ ·) :=
  collect_append _ xs ys

/-- What one native check reports. -/
theorem reports_push (fails : τ → Except String Bool) (kind : String) (number : Nat)
    (suffix message : String) (test : τ) :
    reports fails (Unplaced.push kind number suffix message test) =
      (fails test).toOption.map fun failed =>
        if failed then [⟨kind ++ "." ++ suffix, message, number⟩] else [] := by
  simp only [reports, Unplaced.push, collect_singleton]
  cases fails test <;> rfl

end Collect

section Agreement
variable {ρ ν τ α : Type} (fails : τ → Except String Bool) (rules : ρ) (this : ν)

/-- Some checks report of a value what the expressions of some rule fields do,
and abort when they do. -/
def Agree (checks : Unplaced τ) (fields : List (RuleField ρ ν)) : Prop :=
  reports fails checks = collect (RuleField.report rules this) fields

variable {fails rules this}

theorem agree_nil : Agree fails rules this [] [] := rfl

theorem agree_append {checks more : Unplaced τ} {f g : List (RuleField ρ ν)}
    (first : Agree fails rules this checks f) (second : Agree fails rules this more g) :
    Agree fails rules this (checks ++ more) (f ++ g) := by
  unfold Agree at first second ⊢
  rw [reports_append, collect_append, first, second]

/-- Fields without a check of their own, after the others. -/
theorem agree_append_silent {checks : Unplaced τ} {f g : List (RuleField ρ ν)}
    (first : Agree fails rules this checks f) (second : Agree fails rules this [] g) :
    Agree fails rules this checks (f ++ g) := by
  rw [← List.append_nil checks]
  exact agree_append first second

theorem agree_flatten {checks : List (Unplaced τ)} {fields : List (List (RuleField ρ ν))}
    (parts : List.Forall₂ (Agree fails rules this) checks fields) :
    Agree fails rules this checks.flatten fields.flatten := by
  induction parts with
  | nil => exact agree_nil
  | cons first _ ih => exact agree_append first ih

/-- Checks built field by field. -/
theorem agree_each {checks : List (Unplaced τ)} {fields : List (RuleField ρ ν)}
    (parts : List.Forall₂ (fun part field => Agree fails rules this part [field]) checks fields) :
    Agree fails rules this checks.flatten fields := by
  induction parts with
  | nil => exact agree_nil
  | cons first _ ih => exact agree_append first ih

theorem agree_unset {field : RuleField ρ ν} (unset : field.content rules = none) :
    Agree fails rules this [] [field] := by
  rw [Agree, collect_singleton, report_of_unset unset, reports_nil]

/-- A field without an expression that fails has no check. -/
theorem agree_silent {field : RuleField ρ ν}
    (passes : collect (Predefined.report field.number rules this) field.cel = some []) :
    Agree fails rules this [] [field] := by
  rw [Agree, collect_singleton, reports_nil, RuleField.report]
  split
  · exact passes.symm
  · rfl

theorem agree_example (kind : String) (number : Nat) (content : ρ → Option Content) :
    Agree fails rules this [] [exampleField kind number content] :=
  agree_silent (by rfl)

/-- The checks of a field that is set against its expressions. -/
theorem agree_set {field : RuleField ρ ν} (content : Content) {checks : Unplaced τ}
    (set : field.content rules = some content)
    (same : reports fails checks =
      collect (Predefined.report field.number rules this) field.cel) :
    Agree fails rules this checks [field] := by
  rw [Agree, collect_singleton, report_of_set set, same]

/-- A check against an expression of the form `broken ? text : ''`. -/
theorem reports_push_failIf {rule : Predefined ρ ν} {broken : Bool} {test : τ}
    (kind suffix text : String) (number : Nat) (id : rule.id = kind ++ "." ++ suffix)
    (expression : rule.expression rules this = failIf broken text) (nonempty : text ≠ "")
    (outcome : fails test = .ok broken) :
    reports fails (Unplaced.push kind number suffix text test) =
      collect (Predefined.report number rules this) [rule] := by
  rw [collect_singleton, report_failIf number expression nonempty, reports_push, outcome, id]
  rfl

theorem agree_breaks {get : ρ → Option α} {wrap : α → Content} {broken : α → ν → Bool}
    {text : α → String} {test : α → τ} (kind : String) (number : Nat) (name : String)
    (nonempty : ∀ v, text v ≠ "") (outcome : ∀ v, fails (test v) = .ok (broken v this)) :
    Agree fails rules this
      (whenSet (get rules) (fun v => Unplaced.push kind number name (text v) (test v)))
      [breaksField kind number name get wrap broken text] := by
  cases set : get rules with
  | none => exact agree_unset (by simp [breaksField, set])
  | some v =>
    refine agree_set (wrap v) (by simp [breaksField, set]) ?_
    exact reports_push_failIf kind name (text v) number rfl (by simp [breaks, onSet, set])
      (nonempty v) (outcome v)

theorem whenSet_map {β : Type} (convert : β → α) (value : Option β) (checks : α → Unplaced τ) :
    whenSet (value.map convert) checks = whenSet value (fun v => checks (convert v)) := by
  cases value <;> rfl

theorem whenListed_map {β : Type} (convert : β → α) (list : List β)
    (checks : List α → Unplaced τ) :
    whenListed (list.map convert) checks =
      whenListed list (fun list => checks (list.map convert)) := by
  cases list <;> rfl

theorem agree_breaksList {get : ρ → List α} {wrap : List α → Content}
    {broken : List α → ν → Bool} {text : List α → String} {test : List α → τ} (kind : String)
    (number : Nat) (name : String) (nonempty : ∀ list, text list ≠ "")
    (outcome : ∀ list, list ≠ [] → fails (test list) = .ok (broken list this)) :
    Agree fails rules this
      (whenListed (get rules) (fun list => Unplaced.push kind number name (text list) (test list)))
      [breaksListField kind number name get wrap broken text] := by
  cases set : get rules with
  | nil => exact agree_unset (by simp [breaksListField, listContent, set])
  | cons v rest =>
    refine agree_set (wrap (v :: rest))
      (by simp [breaksListField, listContent, set]) ?_
    exact reports_push_failIf kind name (text (v :: rest)) number rfl
      (by simp [breaks, onSet, set]) (nonempty _) (outcome _ (by simp))

end Agreement

section NanOrder
variable {α κ : Type} [LinearOrder κ] [NanOrder α κ]

theorem Cmp.fails_of_nan {this : α} (isNan : NanOrder.isNan this = true) {test : Cmp α}
    (ordinary : ∀ list, test ≠ .notIn list) : test.fails this = .ok true := by
  cases test <;> simp_all [Cmp.fails]

theorem not_lt_of_le {a b : α} (ordered : NanOrder.le a b = true) : NanOrder.lt b a = false := by
  unfold NanOrder.le at ordered
  unfold NanOrder.lt
  cases h : NanOrder.rank a <;> cases h' : NanOrder.rank b <;> simp_all

theorem not_eq_of_nan {this : α} (isNan : NanOrder.isNan this = true) (a : α) :
    NanOrder.eq this a = false ∧ NanOrder.eq a this = false := by
  unfold NanOrder.isNan at isNan
  unfold NanOrder.eq
  cases h : NanOrder.rank this <;> cases h' : NanOrder.rank a <;> simp_all

end NanOrder

section Bounds
variable {ρ α β κ : Type} [LinearOrder κ] [NanOrder α κ]
variable (display : α → String) (kind : String) (floating : Bool)
variable (raw : ρ → OrderedRules β) (convert : β → α)
variable (wrap : β → Content) (wrapList : List β → Content)

theorem report_single {suffix words : String} {bound : OrderedRules β → Option β}
    {alone : OrderedRules β → Bool} {broken : α → α → Bool} {rules : ρ} {limit : β}
    (set : bound (raw rules) = some limit) (nonempty : words ≠ "") (number : Nat) (this : α) :
    Predefined.report number rules this
        (single display kind floating raw convert suffix bound alone broken words) =
      some (if alone (raw rules) && (nan floating this || broken (convert limit) this) then
        [⟨kind ++ "." ++ suffix, words ++ display (convert limit), number⟩] else []) :=
  report_failIf number (by simp [single, onSet, set]) (by simp [nonempty])

theorem report_pair {suffix words conjunction : String} {lower upper : OrderedRules β → Option β}
    {ordered : α → α → Bool} {broken : α → α → α → Bool} {rules : ρ} {lo hi : β}
    (lowerSet : lower (raw rules) = some lo) (upperSet : upper (raw rules) = some hi)
    (nonempty : words ≠ "") (number : Nat) (this : α) :
    Predefined.report number rules this
        (pair display kind floating raw convert suffix lower upper ordered broken words
          conjunction) =
      some (if ordered (convert lo) (convert hi) &&
          (nan floating this || broken (convert lo) (convert hi) this) then
        [⟨kind ++ "." ++ suffix,
          words ++ display (convert lo) ++ conjunction ++ display (convert hi), number⟩]
        else []) :=
  report_failIf number (by simp [pair, onSet, lowerSet, upperSet]) (by simp [nonempty])

theorem report_pair_unset {suffix words conjunction : String}
    {lower upper : OrderedRules β → Option β} {ordered : α → α → Bool}
    {broken : α → α → α → Bool} {rules : ρ} (unset : upper (raw rules) = none)
    (number : Nat) (this : α) :
    Predefined.report number rules this
        (pair display kind floating raw convert suffix lower upper ordered broken words
          conjunction) = some [] := by
  cases set : lower (raw rules) <;>
    simp [Predefined.report, Predefined.failure, pair, onSet, set, unset]

/-- The value is above the upper bound of a range. -/
def Side.above (upper : Side α) (this : α) : Bool :=
  if upper.inclusive then NanOrder.lt upper.value this else NanOrder.le upper.value this

/-- The value is below the lower bound of a range. -/
def Side.below (lower : Side α) (this : α) : Bool :=
  if lower.inclusive then NanOrder.lt this lower.value else NanOrder.le this lower.value

section Expressions
variable {rules : ρ} {lo hi : β} (number : Nat) (this : α)

/-- The `gt` expressions with no upper bound: the first alone applies. -/
theorem gtCel_alone (gt : (raw rules).gt = some lo) (lt : (raw rules).lt = none)
    (lte : (raw rules).lte = none) :
    collect (Predefined.report number rules this) (gtCel display kind floating raw convert) =
      some (if nan floating this || NanOrder.le this (convert lo) then
        [⟨kind ++ "." ++ "gt", "must be greater than " ++ display (convert lo), number⟩]
        else []) := by
  simp [gtCel, collect_cons, report_single, report_pair_unset, gt, lt, lte]

theorem gteCel_alone (gte : (raw rules).gte = some lo) (lt : (raw rules).lt = none)
    (lte : (raw rules).lte = none) :
    collect (Predefined.report number rules this) (gteCel display kind floating raw convert) =
      some (if nan floating this || NanOrder.lt this (convert lo) then
        [⟨kind ++ "." ++ "gte", "must be greater than or equal to " ++ display (convert lo),
          number⟩] else []) := by
  simp [gteCel, collect_cons, report_single, report_pair_unset, gte, lt, lte]

/-- What the two expressions on a lower and an upper bound report. `above` and
`below` say on which side of them the value is. -/
def pairReport (suffix reversed words inside outside : String) (lo hi : α) (above below : Bool) :
    List Reported :=
  (if NanOrder.le lo hi && (nan floating this || (above || below)) then
    [⟨kind ++ "." ++ suffix, words ++ display lo ++ inside ++ display hi, number⟩] else []) ++
  (if NanOrder.lt hi lo && (nan floating this || (above && below)) then
    [⟨kind ++ "." ++ reversed, words ++ display lo ++ outside ++ display hi, number⟩] else [])

theorem gtCel_lt (gt : (raw rules).gt = some lo) (lt : (raw rules).lt = some hi)
    (lte : (raw rules).lte = none) :
    collect (Predefined.report number rules this) (gtCel display kind floating raw convert) =
      some (pairReport display kind floating number this "gt_lt" "gt_lt_exclusive"
        "must be greater than " " and less than " " or less than " (convert lo) (convert hi)
        (NanOrder.le (convert hi) this) (NanOrder.le this (convert lo))) := by
  simp [gtCel, collect_cons, report_single, report_pair_unset, report_pair, gt, lt, lte,
    pairReport]

theorem gtCel_lte (gt : (raw rules).gt = some lo) (lt : (raw rules).lt = none)
    (lte : (raw rules).lte = some hi) :
    collect (Predefined.report number rules this) (gtCel display kind floating raw convert) =
      some (pairReport display kind floating number this "gt_lte" "gt_lte_exclusive"
        "must be greater than " " and less than or equal to " " or less than or equal to "
        (convert lo) (convert hi)
        (NanOrder.lt (convert hi) this) (NanOrder.le this (convert lo))) := by
  simp [gtCel, collect_cons, report_single, report_pair_unset, report_pair, gt, lt, lte,
    pairReport]

theorem gteCel_lt (gte : (raw rules).gte = some lo) (lt : (raw rules).lt = some hi)
    (lte : (raw rules).lte = none) :
    collect (Predefined.report number rules this) (gteCel display kind floating raw convert) =
      some (pairReport display kind floating number this "gte_lt" "gte_lt_exclusive"
        "must be greater than or equal to " " and less than " " or less than "
        (convert lo) (convert hi)
        (NanOrder.le (convert hi) this) (NanOrder.lt this (convert lo))) := by
  simp [gteCel, collect_cons, report_single, report_pair_unset, report_pair, gte, lt, lte,
    pairReport]

theorem gteCel_lte (gte : (raw rules).gte = some lo) (lt : (raw rules).lt = none)
    (lte : (raw rules).lte = some hi) :
    collect (Predefined.report number rules this) (gteCel display kind floating raw convert) =
      some (pairReport display kind floating number this "gte_lte" "gte_lte_exclusive"
        "must be greater than or equal to " " and less than or equal to "
        " or less than or equal to " (convert lo) (convert hi)
        (NanOrder.lt (convert hi) this) (NanOrder.lt this (convert lo))) := by
  simp [gteCel, collect_cons, report_single, report_pair_unset, report_pair, gte, lt, lte,
    pairReport]

end Expressions

variable {floating} {this : α} (nanFree : floating = false → NanOrder.isNan this = false)
include nanFree

/-- A comparison fails a NaN, and any other value that breaks it. -/
theorem fails_of_broken {test : Cmp α} {broken : Bool}
    (ordinary : ∀ list, test ≠ .notIn list)
    (compared : NanOrder.isNan this = false → test.fails this = .ok broken) :
    test.fails this = .ok (nan floating this || broken) := by
  cases isNan : NanOrder.isNan this with
  | true =>
    cases floating with
    | true => simp [nan, isNan, Cmp.fails_of_nan isNan ordinary]
    | false => rw [nanFree rfl] at isNan; contradiction
  | false => simp [nan, isNan, compared isNan]

omit nanFree in
theorem fails_const (v : α) :
    (Cmp.const v).fails this = .ok (!NanOrder.eq this v) := by
  cases isNan : NanOrder.isNan this with
  | true => simp [Cmp.fails, isNan, not_eq_of_nan isNan]
  | false => simp [Cmp.fails, isNan]

omit nanFree in
theorem fails_isIn (list : List α) : (Cmp.isIn list).fails this = .ok (!inList this list) := by
  cases isNan : NanOrder.isNan this with
  | true => simp [Cmp.fails, isNan, inList, not_eq_of_nan isNan]
  | false => simp [Cmp.fails, isNan, inList]

omit nanFree in
theorem fails_notIn (list : List α) : (Cmp.notIn list).fails this = .ok (inList this list) := by
  cases isNan : NanOrder.isNan this with
  | true => simp [Cmp.fails, isNan, inList, not_eq_of_nan isNan]
  | false => simp [Cmp.fails, isNan, inList]

theorem fails_lt (v : α) :
    (Cmp.lt v).fails this = .ok (nan floating this || NanOrder.le v this) :=
  fails_of_broken nanFree (by simp) (fun isNan => by simp [Cmp.fails, isNan])

theorem fails_lte (v : α) :
    (Cmp.lte v).fails this = .ok (nan floating this || NanOrder.lt v this) :=
  fails_of_broken nanFree (by simp) (fun isNan => by simp [Cmp.fails, isNan])

theorem fails_gt (v : α) :
    (Cmp.gt v).fails this = .ok (nan floating this || NanOrder.le this v) :=
  fails_of_broken nanFree (by simp) (fun isNan => by simp [Cmp.fails, isNan])

theorem fails_gte (v : α) :
    (Cmp.gte v).fails this = .ok (nan floating this || NanOrder.lt this v) :=
  fails_of_broken nanFree (by simp) (fun isNan => by simp [Cmp.fails, isNan])

theorem fails_between (lower upper : Side α) :
    (Bounds.between lower upper).fails this =
      .ok (nan floating this || (upper.above this || lower.below this)) := by
  obtain ⟨lo, _, _, _, lowerInclusive⟩ := lower
  obtain ⟨hi, _, _, _, upperInclusive⟩ := upper
  cases lowerInclusive <;> cases upperInclusive <;>
    exact fails_of_broken nanFree (by simp [Bounds.between])
      (fun isNan => by simp [Bounds.between, Cmp.fails, isNan, Side.above, Side.below])

theorem fails_outside (lower upper : Side α) :
    (Bounds.outside lower upper).fails this =
      .ok (nan floating this || (upper.above this && lower.below this)) := by
  obtain ⟨lo, _, _, _, lowerInclusive⟩ := lower
  obtain ⟨hi, _, _, _, upperInclusive⟩ := upper
  cases lowerInclusive <;> cases upperInclusive <;>
    exact fails_of_broken nanFree (by simp [Bounds.outside])
      (fun isNan => by simp [Bounds.outside, Cmp.fails, isNan, Side.above, Side.below])

/-- A range reports what its two expressions do, the one for bounds in order
and the one for reversed bounds. -/
theorem reports_range (suffix reversed words inside outside : String) {lower upper : Side α}
    (suffixed : lower.name ++ "_" ++ upper.name ++ "" = suffix)
    (reversedSuffix : lower.name ++ "_" ++ upper.name ++ "_exclusive" = reversed)
    (start : "must be " ++ lower.words ++ " " = words)
    (andWords : " " ++ "and" ++ " " ++ upper.words ++ " " = inside)
    (orWords : " " ++ "or" ++ " " ++ upper.words ++ " " = outside) :
    reports (fun test => Cmp.fails test this) (Bounds.range display kind lower upper) =
      some (pairReport display kind floating lower.number this suffix reversed words inside outside
        lower.value upper.value (upper.above this) (lower.below this)) := by
  have message : ∀ conjunction : String,
      "must be " ++ lower.words ++ " " ++ display lower.value ++ " " ++ conjunction ++ " " ++
        upper.words ++ " " ++ display upper.value =
      ("must be " ++ lower.words ++ " ") ++ display lower.value ++
        (" " ++ conjunction ++ " " ++ upper.words ++ " ") ++ display upper.value := by
    simp [String.append_assoc]
  simp only [Bounds.range, pairReport, message]
  simp only [suffixed, reversedSuffix, start, andWords, orWords]
  cases inOrder : NanOrder.le lower.value upper.value with
  | true =>
    rw [if_pos rfl, reports_push, fails_between nanFree, not_lt_of_le inOrder]
    simp [Except.toOption]
  | false =>
    rw [if_neg (by simp)]
    cases NanOrder.lt upper.value lower.value with
    | true =>
      rw [if_pos rfl, reports_push, fails_outside nanFree]
      simp [Except.toOption]
    | false => simp

/-- The bound check reports what the expressions on the bounds that are set do. -/
theorem agree_bound (first : Nat) (rules : ρ) :
    Agree (fun test => Cmp.fails test this) rules this
      ((bounds convert (raw rules)).bound display kind first)
      (upperFields display kind floating raw convert wrap first ++
        lowerFields display kind floating raw convert wrap first) := by
  simp only [Agree, bounds, Bounds.bound, Bounds.lower, Bounds.upper, upperFields, lowerFields,
    List.cons_append, List.nil_append, collect_cons, collect_nil, RuleField.report]
  rcases (raw rules).lower_cases with ⟨gt, gte⟩ | ⟨lo, gt, gte⟩ | ⟨lo, gt, gte⟩ <;>
    rcases (raw rules).upper_cases with ⟨lt, lte⟩ | ⟨hi, lt, lte⟩ | ⟨hi, lt, lte⟩ <;>
    simp only [lt, lte, gt, gte, Option.map_none, Option.map_some, Option.isSome_none,
      Option.isSome_some, if_true, Bool.false_eq_true, if_false]
  · simp
  · simp [reports_push, fails_lt nanFree, Except.toOption, report_single, lt, gt, gte]
  · simp [reports_push, fails_lte nanFree, Except.toOption, report_single, lte, gt, gte]
  · simp [reports_push, fails_gt nanFree, Except.toOption, gtCel_alone, lt, lte, gt]
  · rw [reports_range display kind nanFree "gt_lt" "gt_lt_exclusive" "must be greater than "
      " and less than " " or less than "]
    · simp [report_single, gtCel_lt, lt, lte, gt, Side.above, Side.below]
    all_goals rfl
  · rw [reports_range display kind nanFree "gt_lte" "gt_lte_exclusive" "must be greater than "
      " and less than or equal to " " or less than or equal to "]
    · simp [report_single, gtCel_lte, lt, lte, gt, Side.above, Side.below]
    all_goals rfl
  · simp [reports_push, fails_gte nanFree, Except.toOption, gteCel_alone, lt, lte, gte]
  · rw [reports_range display kind nanFree "gte_lt" "gte_lt_exclusive"
      "must be greater than or equal to " " and less than " " or less than "]
    · simp [report_single, gteCel_lt, lt, lte, gte, Side.above, Side.below]
    all_goals rfl
  · rw [reports_range display kind nanFree "gte_lte" "gte_lte_exclusive"
      "must be greater than or equal to " " and less than or equal to "
      " or less than or equal to "]
    · simp [report_single, gteCel_lte, lt, lte, gte, Side.above, Side.below]
    all_goals rfl

/-- The comparison checks report what the expressions of the comparison fields do. -/
theorem agree_comparison (first : Nat) (rules : ρ) :
    Agree (fun test => Cmp.fails test this) rules this
      ((bounds convert (raw rules)).checks display kind first)
      (comparisonFields display kind floating raw convert wrap wrapList first) := by
  simp only [Bounds.checks, comparisonFields]
  refine agree_append (agree_append (agree_append ?_ ?_) ?_) ?_
  · simp only [bounds, whenSet_map]
    exact agree_breaks kind first "const" (by simp) (fun c => fails_const _)
  · exact agree_bound display kind raw convert wrap nanFree first rules
  · simp only [bounds, whenListed_map]
    exact agree_breaksList kind (first + 5) "in" (by simp) (fun list _ => fails_isIn _)
  · simp only [bounds, whenListed_map]
    exact agree_breaksList kind (first + 6) "not_in" (by simp) (fun list _ => fails_notIn _)

end Bounds

/-! ### Rules and values in another form that compares the same -/

def Cmp.map {α β : Type} (f : α → β) : Cmp α → Cmp β
  | .const c => .const (f c)
  | .lt v => .lt (f v)
  | .lte v => .lte (f v)
  | .gt v => .gt (f v)
  | .gte v => .gte (f v)
  | .gtLt g l => .gtLt (f g) (f l)
  | .gtLtExclusive g l => .gtLtExclusive (f g) (f l)
  | .gtLte g l => .gtLte (f g) (f l)
  | .gtLteExclusive g l => .gtLteExclusive (f g) (f l)
  | .gteLt g l => .gteLt (f g) (f l)
  | .gteLtExclusive g l => .gteLtExclusive (f g) (f l)
  | .gteLte g l => .gteLte (f g) (f l)
  | .gteLteExclusive g l => .gteLteExclusive (f g) (f l)
  | .isIn list => .isIn (list.map f)
  | .notIn list => .notIn (list.map f)

def Side.map {α β : Type} (f : α → β) (side : Side α) : Side β :=
  ⟨f side.value, side.name, side.words, side.number, side.inclusive⟩

section Embeds
variable {α β κ κ' : Type} [LinearOrder κ] [NanOrder α κ] [LinearOrder κ'] [NanOrder β κ']
variable {f : α → β} (embeds : NanOrder.Embeds f)
include embeds

/-- A comparison decides the same in either form. -/
theorem Cmp.fails_map (test : Cmp α) (value : α) :
    (test.map f).fails (f value) = test.fails value := by
  have listed : ∀ list : List α, (list.map f).any (fun item => NanOrder.eq item (f value)) =
      list.any (fun item => NanOrder.eq item value) := by
    intro list
    simp only [List.any_map, Function.comp_def, embeds.eq]
  unfold Cmp.fails
  rw [embeds.isNan]
  cases test <;> simp only [Cmp.map, embeds.eq, embeds.lt, embeds.le, listed]

omit embeds in
theorem between_map (lower upper : Side α) :
    Bounds.between (lower.map f) (upper.map f) = (Bounds.between lower upper).map f := by
  obtain ⟨_, _, _, _, lowerInclusive⟩ := lower
  obtain ⟨_, _, _, _, upperInclusive⟩ := upper
  cases lowerInclusive <;> cases upperInclusive <;> rfl

omit embeds in
theorem outside_map (lower upper : Side α) :
    Bounds.outside (lower.map f) (upper.map f) = (Bounds.outside lower upper).map f := by
  obtain ⟨_, _, _, _, lowerInclusive⟩ := lower
  obtain ⟨_, _, _, _, upperInclusive⟩ := upper
  cases lowerInclusive <;> cases upperInclusive <;> rfl

variable (display : β → String) (kind : String) (first : Nat)

theorem range_map (lower upper : Side α) :
    Bounds.range display kind (lower.map f) (upper.map f) =
      (Bounds.range (fun v => display (f v)) kind lower upper).map (Cmp.map f) := by
  unfold Bounds.range
  rw [between_map, outside_map]
  change (if NanOrder.le (f lower.value) (f upper.value) = true then _
    else if NanOrder.lt (f upper.value) (f lower.value) = true then _ else _) = _
  rw [embeds.le, embeds.lt]
  split_ifs <;> rfl

omit embeds in
theorem lower_map (rules : OrderedRules α) :
    (bounds f rules).lower first = ((bounds id rules).lower first).map (Side.map f) := by
  simp only [bounds, Bounds.lower]
  rcases rules.lower_cases with ⟨gt, gte⟩ | ⟨lo, gt, gte⟩ | ⟨lo, gt, gte⟩ <;>
    simp only [gt, gte, Option.map_none, Option.map_some] <;> rfl

omit embeds in
theorem upper_map (rules : OrderedRules α) :
    (bounds f rules).upper first = ((bounds id rules).upper first).map (Side.map f) := by
  simp only [bounds, Bounds.upper]
  rcases rules.upper_cases with ⟨lt, lte⟩ | ⟨hi, lt, lte⟩ | ⟨hi, lt, lte⟩ <;>
    simp only [lt, lte, Option.map_none, Option.map_some] <;> rfl

theorem bound_map (rules : OrderedRules α) :
    (bounds f rules).bound display kind first =
      ((bounds id rules).bound (fun v => display (f v)) kind first).map (Cmp.map f) := by
  unfold Bounds.bound
  rw [lower_map, upper_map]
  cases (bounds id rules).lower first with
  | none =>
    cases (bounds id rules).upper first with
    | none => rfl
    | some upper =>
      obtain ⟨hi, name, words, number, inclusive⟩ := upper
      cases inclusive <;> rfl
  | some lower =>
    cases (bounds id rules).upper first with
    | none =>
      obtain ⟨lo, name, words, number, inclusive⟩ := lower
      cases inclusive <;> rfl
    | some upper => exact range_map embeds display kind lower upper

omit embeds [LinearOrder κ] [NanOrder α κ] [LinearOrder κ'] [NanOrder β κ'] in
theorem whenListed_display {test : List β → Cmp β} {test' : List α → Cmp α}
    (same : ∀ list, test (list.map f) = (test' list).map f) (number : Nat) (name text : String)
    (list : List α) :
    whenListed (list.map f) (fun list => Unplaced.push kind number name
      (text ++ displayList display list) (test list)) =
    (whenListed list fun list => Unplaced.push kind number name
      (text ++ displayList (fun v => display (f v)) list) (test' list)).map (Cmp.map f) := by
  cases list with
  | nil => rfl
  | cons v rest =>
    change Unplaced.push kind number name
      (text ++ displayList display ((v :: rest).map f)) (test ((v :: rest).map f)) = _
    rw [same, displayList, List.map_map]
    rfl

/-- The checks of a rules message are those of its values in the other form. -/
theorem checks_map (rules : OrderedRules α) :
    (bounds f rules).checks display kind first =
      ((bounds id rules).checks (fun v => display (f v)) kind first).map (Cmp.map f) := by
  have constant : whenSet (bounds f rules).const (fun c =>
      Unplaced.push kind first "const" ("must equal " ++ display c) (Cmp.const c)) =
      Unplaced.map (Cmp.map f) (whenSet (bounds id rules).const fun c =>
        Unplaced.push kind first "const" ("must equal " ++ display (f c)) (Cmp.const c)) := by
    simp only [bounds, whenSet_map]
    cases rules.const <;> rfl
  unfold Bounds.checks
  rw [constant, bound_map embeds]
  simp only [Unplaced.map, List.map_append, bounds, List.map_id]
  congr 1
  · congr 1
    exact whenListed_display display kind (fun _ => rfl) _ _ _ _
  · exact whenListed_display display kind (fun _ => rfl) _ _ _ _

end Embeds

/-- For every comparison rules message and every value, the native checks
report the same failures as the expressions of the fields that are set. Only
the expressions of floating point rules test for a NaN, and only their values
can be one. -/
theorem comparison_checks_agree {α β κ : Type} [LinearOrder κ] [NanOrder α κ]
    (display : α → String) (kind : String) (floating : Bool) (convert : β → α)
    (wrap : β → Content) (wrapList : List β → Content) (first : Nat) (rules : OrderedRules β)
    (this : α) (nanFree : floating = false → ∀ a : α, NanOrder.isNan a = false) :
    reports (fun test => Cmp.fails test this) ((bounds convert rules).checks display kind first) =
      collect (RuleField.report rules this)
        (comparisonFields display kind floating id convert wrap wrapList first) :=
  agree_comparison display kind id convert wrap wrapList (fun h => nanFree h this) first rules

/-- A lower bound of NaN with an upper bound of one, against a NaN. -/
theorem comparison_checks_agree_nan :
    let rules : OrderedRules Double :=
      ⟨none, some (.lt ⟨0x3FF0000000000000⟩), some (.gt ⟨0x7FF8000000000000⟩), [], []⟩
    reports (fun test => Cmp.fails test (⟨0x7FF8000000000000⟩ : Double))
        ((bounds id rules).checks (fun _ => "NaN") "double" 1) =
      collect (RuleField.report rules ⟨0x7FF8000000000000⟩)
        (comparisonFields (fun _ => "NaN") "double" true id id .double .doubles 1) :=
  comparison_checks_agree _ _ _ _ _ _ _ _ _ (fun h => by contradiction)

/-! ### The rules messages with comparisons -/

section Flags
variable {ρ ν τ υ : Type} {rules : ρ} {this : ν}

/-- Checks wrapped in a larger test report the same. -/
theorem reports_map {fails : τ → Except String Bool} {outer : υ → Except String Bool}
    {wrap : τ → υ} (same : ∀ test, outer (wrap test) = fails test) (checks : Unplaced τ) :
    reports outer (checks.map wrap) = reports fails checks := by
  induction checks with
  | nil => rfl
  | cons check checks ih =>
    simp only [reports, Unplaced.map, List.map_cons, collect_cons, Native.map, same] at ih ⊢
    rw [ih]

variable {fails : τ → Except String Bool}

/-- A flag whose rule only applies when it is true. -/
theorem agree_flag {get : ρ → Option Bool} {rule : Predefined ρ ν} {checks : Unplaced τ}
    (number : Nat) (name : String)
    (disabled : get rules = some false → rule.report number rules this = some [])
    (enabled : get rules = some true → reports fails checks = rule.report number rules this) :
    Agree fails rules this (whenTrue (get rules) checks) [flagField number name get [rule]] := by
  rcases set : get rules with _ | _ | _
  · exact agree_unset (by simp [flagField, set])
  · exact agree_silent (by simp [flagField, collect_singleton, disabled set])
  · refine agree_set (.bool true) (by simp [flagField, set]) ?_
    simp [whenTrue, flagField, collect_singleton, enabled set]

/-- A flag against an expression of the form `flag && broken ? text : ''`. -/
theorem agree_breaksFlag {get : ρ → Option Bool} {broken : ν → Bool} {test : τ} (kind : String)
    (number : Nat) (name : String) {text : String} (nonempty : text ≠ "")
    (outcome : fails test = .ok (broken this)) :
    Agree fails rules this
      (whenTrue (get rules) (Unplaced.push kind number name text test))
      [breaksFlag kind number name get broken text] := by
  refine agree_flag number name (fun disabled => ?_) (fun enabled => ?_)
  · have expression : (breaks (kind ++ "." ++ name) get (fun flag this => flag && broken this)
        (fun _ => text)).expression rules this = failIf false text := by
      simp [breaks, onSet, disabled]
    simpa using report_failIf number expression nonempty
  · exact (reports_push_failIf kind name text number rfl (by simp [breaks, onSet, enabled])
      nonempty outcome).trans (collect_singleton _ _)

/-- What a rule with a fixed message reports. -/
theorem report_holds (id message : String) (passes : ρ → ν → Bool) (number : Nat) :
    (holds id message passes).report number rules this =
      some (if passes rules this then [] else [⟨id, message, number⟩]) := by
  cases passed : passes rules this <;>
    simp [Predefined.report, Predefined.failure, holds, passed]

end Flags

section Numbers
variable (B : Backend) (kind : String)

/-- The ten integer rules messages, signed and unsigned. -/
theorem agree_int (example_ : Nat) (r : IntRules) (this : Int) :
    Agree (fun test => Cmp.fails test this) r this (integerChecks kind r).1
      (intFields kind example_) :=
  agree_append_silent
    (agree_comparison toString kind IntRules.ordered id .int .ints (fun _ => rfl) 1 r)
    (agree_example kind example_ _)

theorem agree_duration (r : DurationRules) (this : Int) :
    Agree (fun test => Cmp.fails test this) r this (durationChecks kind r).1
      (durationFields kind) :=
  agree_append_silent
    (agree_comparison displayDuration kind DurationRules.ordered duration .duration .durations
      (fun _ => rfl) 2 r)
    (agree_example kind 9 _)

theorem isFinite_iff (d : Double) : (!d.isFinite) = (d.isNan || d.isInfinite) := by
  unfold Double.isFinite Double.isNan Double.isInfinite
  rcases Nat.lt_trichotomy d.magnitude Double.infinite with h | h | h <;>
    simp [h] <;> omega

theorem agree_float (r : FloatRules) (this : Double) :
    Agree (fun test => DoubleTest.fails test this) r this (floating B kind r).1
      (floatFields B kind) := by
  have compared : Agree (fun test => Cmp.fails test this) r this _
      (comparisonFields (displayDouble B) kind true FloatRules.ordered id .double .doubles 1) :=
    agree_comparison (displayDouble B) kind FloatRules.ordered id .double .doubles
      (fun h => by contradiction) 1 r
  refine agree_append ((reports_map (fun _ => rfl) _).trans compared)
    (agree_append_silent (f := [_]) ?_ (agree_example kind 9 _))
  exact agree_breaksFlag kind 8 "finite" (by decide) (by simp [DoubleTest.fails, isFinite_iff])

def constChecks (r : TimestampRules) : Unplaced (Cmp Int) :=
  whenSet r.ordered.const (fun c => Unplaced.push kind 2 "const"
    ("must equal " ++ displayTimestamp B (timestamp c)) (.const (timestamp c)))

def ltNowChecks (r : TimestampRules) : Unplaced TimestampTest :=
  whenTrue r.ltNow (Unplaced.push kind 7 "lt_now" "must be less than now" (.now .ltNow))

def gtNowChecks (r : TimestampRules) : Unplaced TimestampTest :=
  whenTrue r.gtNow (Unplaced.push kind 8 "gt_now" "must be greater than now" (.now .gtNow))

def withinChecks (r : TimestampRules) : Unplaced TimestampTest :=
  whenSet r.within (fun within =>
    Unplaced.push kind 9 "within"
      ("must be within " ++ displayDuration (duration within) ++ " of now")
      (.now (.within (duration within))))

/-- Timestamp rules have no `in` or `not_in`. -/
theorem timestampChecks_eq {r rest : TimestampRules} {checks : Unplaced TimestampTest}
    (built : timestampChecks B kind r = .ok (checks, rest)) :
    checks = Unplaced.map .cmp (constChecks B kind r) ++
      Unplaced.map .cmp ((bounds timestamp r.ordered).bound (displayTimestamp B) kind 2) ++
      ltNowChecks kind r ++ gtNowChecks kind r ++ withinChecks kind r := by
  have compared : (bounds timestamp r.ordered).checks (displayTimestamp B) kind 2 =
      constChecks B kind r ++
      (bounds timestamp r.ordered).bound (displayTimestamp B) kind 2 := by
    simp [Bounds.checks, bounds, TimestampRules.ordered, whenListed, constChecks, whenSet_map]
  simp only [timestampChecks, compared, bind, Except.bind] at built
  split at built
  · contradiction
  · simp only [pure, Except.pure, Except.ok.injEq, Prod.mk.injEq] at built
    rw [← built.1, Unplaced.map, List.map_append]
    rfl

/-- The checks of a timestamp rules message report the same failures, whatever their order.
-/
theorem agree_timestamp {r rest : TimestampRules} {checks : Unplaced TimestampTest}
    (built : timestampChecks B kind r = .ok (checks, rest)) (this : Int) :
    (reports (fun test => TimestampTest.fails B test this) checks).map Multiset.ofList =
      (collect (RuleField.report r this) (timestampFields B kind)).map Multiset.ofList := by
  let fails := fun test => TimestampTest.fails B test this
  have wrapped : ∀ compared : Unplaced (Cmp Int), reports fails (compared.map .cmp) =
      reports (fun test => Cmp.fails test this) compared := reports_map fun _ => rfl
  have const : Agree fails r this ((constChecks B kind r).map .cmp)
      [constField (displayTimestamp B) kind TimestampRules.ordered timestamp .timestamp 2] :=
    (wrapped _).trans (agree_breaks kind 2 "const" (by simp) fun c => fails_const _)
  have bound : Agree fails r this
      (Unplaced.map .cmp ((bounds timestamp r.ordered).bound (displayTimestamp B) kind 2))
      (upperFields (displayTimestamp B) kind false TimestampRules.ordered timestamp .timestamp 2 ++
        lowerFields (displayTimestamp B) kind false TimestampRules.ordered timestamp .timestamp
          2) :=
    (wrapped _).trans (agree_bound (displayTimestamp B) kind TimestampRules.ordered timestamp
      .timestamp (fun _ => rfl) 2 r)
  have ltNow : Agree fails r this (ltNowChecks kind r)
      [breaksFlag kind 7 "lt_now" TimestampRules.ltNow (fun this => this > B.now)
        "must be less than now"] :=
    agree_breaksFlag kind 7 "lt_now" (by decide) rfl
  have gtNow : Agree fails r this (gtNowChecks kind r)
      [breaksFlag kind 8 "gt_now" TimestampRules.gtNow (fun this => this < B.now)
        "must be greater than now"] :=
    agree_breaksFlag kind 8 "gt_now" (by decide) rfl
  have within : Agree fails r this (withinChecks kind r)
      [breaksField kind 9 "within" TimestampRules.within .duration
        (fun within this => this < B.now - duration within || this > B.now + duration within)
        fun within => "must be within " ++ displayDuration (duration within) ++ " of now"] :=
    agree_breaks kind 9 "within" (by simp) fun _ => rfl
  have sorted := agree_append (agree_append (agree_append (agree_append const bound) ltNow) gtNow)
    (agree_append_silent within (agree_example kind 10 fun rules : TimestampRules =>
      listContent .timestamps rules.exampleValues))
  rw [timestampChecks_eq B kind built, sorted]
  refine collect_perm _ ?_
  unfold timestampFields
  simp only [List.append_assoc]
  refine (List.Perm.refl _).append ((List.Perm.refl _).append ?_)
  exact List.perm_append_comm_assoc _ _ _

end Numbers

end Protovalidate
