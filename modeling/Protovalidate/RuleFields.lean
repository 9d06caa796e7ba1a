import Protovalidate.Lib.InOrder
import Protovalidate.Agreement

/-!
# What becomes of every rule field

A field of a rules message that is set is left in the message, checked
natively, or lets every value through. The checks come in the order the fields
are declared in.
-/

namespace Protovalidate

/-- A field that is left in its message: documentation, or rules that are built
on their own. -/
def isKept (name : String) : Bool := ["example", "items", "keys", "values"].contains name

/-- Why a rule field that is set may have no check: a flag that is false,
`strict`, a `well_known_regex` that names no format, or a bound that has one on
the other side. -/
inductive Unchecked (name : String) : Content → Prop
  | disabled : Unchecked name (.bool false)
  | strict (content : Content) : name = "strict" → Unchecked name content
  | unspecified : Unchecked name (.regex .unspecified)
  | bound (content : Content) : ["lt", "lte", "gt", "gte"].contains name = true →
    Unchecked name content

section Places
variable {ρ ν τ α : Type}

/-- A set field is left alone, checked, or unchecked because it lets every
value through. -/
def Covered (rules : ρ) (checks : Unplaced τ) (field : RuleField ρ ν) : Prop :=
  ∀ content, field.content rules = some content →
    isKept field.name = true ∨ (∃ check ∈ checks, check.1 = field.number) ∨
      Unchecked field.name content ∧ field.AcceptsAll rules

/-- What tells the checks of a rules message apart: the number of the field, and the id. -/
def Unplaced.keys (checks : Unplaced τ) : List (Nat × String) :=
  List.map (fun check => (check.1, check.2.id)) checks

/-- Every check is of a field that is set, every set field is accounted for, and no check
is made twice. -/
structure Accounts (rules : ρ) (checks : Unplaced τ) (fields : List (RuleField ρ ν)) : Prop where
  covers : ∀ field ∈ fields, Covered rules checks field
  sound : ∀ check ∈ checks, ∃ field ∈ fields, field.number = check.1 ∧
    (field.content rules).isSome ∧ isKept field.name = false
  once : (fields.map RuleField.number).Nodup → checks.keys.Nodup

/-- Checks of some rule fields, in their order. -/
structure Places (rules : ρ) (checks : Unplaced τ) (fields : List (RuleField ρ ν)) : Prop
    extends Accounts rules checks fields where
  order : Follows (fields.map RuleField.number) (List.map Prod.fst checks)

/-- The checks of one field, each with an id of its own. -/
structure AllAt (number : Nat) (checks : Unplaced τ) : Prop where
  placed : checks.All fun check => check.1 = number
  distinct : checks.keys.Nodup

variable {rules : ρ} {checks more : Unplaced τ} {f g : List (RuleField ρ ν)}

theorem Covered.mono {field : RuleField ρ ν} (covered : Covered rules checks field)
    (subset : ∀ check ∈ checks, check ∈ more) : Covered rules more field := by
  intro content set
  rcases covered content set with kept | ⟨check, present, placed⟩ | unchecked
  · exact .inl kept
  · exact .inr (.inl ⟨check, subset check present, placed⟩)
  · exact .inr (.inr unchecked)

theorem Accounts.append (first : Accounts rules checks f) (second : Accounts rules more g) :
    Accounts rules (checks ++ more) (f ++ g) := by
  constructor
  · intro field member
    rcases List.mem_append.mp member with member | member
    · exact (first.covers field member).mono fun check => List.mem_append_left more
    · exact (second.covers field member).mono fun check => List.mem_append_right checks
  · intro check member
    rcases List.mem_append.mp member with member | member
    · obtain ⟨field, present, of⟩ := first.sound check member
      exact ⟨field, List.mem_append_left g present, of⟩
    · obtain ⟨field, present, of⟩ := second.sound check member
      exact ⟨field, List.mem_append_right f present, of⟩
  · intro distinct
    rw [List.map_append, List.nodup_append] at distinct
    obtain ⟨f', g', apart⟩ := distinct
    rw [Unplaced.keys, List.map_append, List.nodup_append]
    refine ⟨first.once f', second.once g', fun key member other member' same => ?_⟩
    obtain ⟨check, present, rfl⟩ := List.mem_map.mp member
    obtain ⟨check', present', rfl⟩ := List.mem_map.mp member'
    obtain ⟨field, listed, number, -⟩ := first.sound check present
    obtain ⟨field', listed', number', -⟩ := second.sound check' present'
    refine apart _ (List.mem_map_of_mem listed) _ (List.mem_map_of_mem listed') ?_
    exact number.trans ((Prod.mk.inj same).1.trans number'.symm)

/-- The order of the fields does not matter. -/
theorem Accounts.perm (accounts : Accounts rules checks f) (perm : f.Perm g) :
    Accounts rules checks g := by
  constructor
  · intro field member
    exact accounts.covers field (perm.mem_iff.mpr member)
  · intro check member
    obtain ⟨field, present, of⟩ := accounts.sound check member
    exact ⟨field, perm.mem_iff.mp present, of⟩
  · exact fun distinct => accounts.once ((perm.map RuleField.number).nodup_iff.mpr distinct)

namespace Places

theorem nil : Places rules ([] : Unplaced τ) ([] : List (RuleField ρ ν)) where
  covers _ none := (List.not_mem_nil none).elim
  sound _ none := (List.not_mem_nil none).elim
  once _ := .nil
  order := .nil

theorem append (first : Places rules checks f) (second : Places rules more g) :
    Places rules (checks ++ more) (f ++ g) := by
  refine ⟨first.toAccounts.append second.toAccounts, ?_⟩
  rw [List.map_append, List.map_append]
  exact first.order.append second.order

theorem append_silent (first : Places rules checks f)
    (second : Places rules ([] : Unplaced τ) g) : Places rules checks (f ++ g) := by
  rw [← List.append_nil checks]
  exact first.append second

theorem silent_append (first : Places rules ([] : Unplaced τ) f)
    (second : Places rules checks g) : Places rules checks (f ++ g) := first.append second

theorem flatten {checks : List (Unplaced τ)} {fields : List (List (RuleField ρ ν))}
    (parts : List.Forall₂ (Places rules) checks fields) :
    Places rules checks.flatten fields.flatten := by
  induction parts with
  | nil => exact nil
  | cons first _ ih => exact first.append ih

/-- Checks built field by field. -/
theorem each {checks : List (Unplaced τ)} {fields : List (RuleField ρ ν)}
    (parts : List.Forall₂ (fun part field => Places rules part [field]) checks fields) :
    Places rules checks.flatten fields := by
  induction parts with
  | nil => exact nil
  | cons first _ ih => exact first.append ih

/-- The checks of one field, of which there are some if it is set, unless it
lets every value through. -/
theorem one {field : RuleField ρ ν} (native : isKept field.name = false)
    (placed : AllAt field.number checks) (unset : field.content rules = none → checks = [])
    (checked : ∀ content, field.content rules = some content →
      checks ≠ [] ∨ Unchecked field.name content ∧ field.AcceptsAll rules) :
    Places rules checks [field] where
  covers field' member content set := by
    obtain rfl := List.mem_singleton.mp member
    rcases checked content set with some | unchecked
    · obtain ⟨check, present⟩ := List.exists_mem_of_ne_nil checks some
      exact .inr (.inl ⟨check, present, placed.placed check present⟩)
    · exact .inr (.inr unchecked)
  sound check member := by
    refine ⟨field, List.mem_singleton.mpr rfl, (placed.placed check member).symm, ?_, native⟩
    by_contra absent
    rw [unset (by simpa using absent)] at member
    exact List.not_mem_nil member
  once _ := placed.distinct
  order := by
    refine Follows.of_constant fun number member => ?_
    obtain ⟨check, present, rfl⟩ := List.mem_map.mp member
    exact placed.placed check present

/-- A field without checks. -/
theorem silent {field : RuleField ρ ν} (passes : ∀ content, field.content rules = some content →
    isKept field.name = true ∨ Unchecked field.name content ∧ field.AcceptsAll rules) :
    Places rules ([] : Unplaced τ) [field] where
  covers field' member content set := by
    obtain rfl := List.mem_singleton.mp member
    rcases passes content set with kept | unchecked
    · exact .inl kept
    · exact .inr (.inr unchecked)
  sound _ none := (List.not_mem_nil none).elim
  once _ := .nil
  order := .nil

theorem unset {field : RuleField ρ ν} (unset : field.content rules = none) :
    Places rules ([] : Unplaced τ) [field] :=
  silent fun content set => by rw [unset] at set; contradiction

theorem kept {field : RuleField ρ ν} (name : isKept field.name = true) :
    Places rules ([] : Unplaced τ) [field] :=
  silent fun _ _ => .inl name

end Places

theorem allAt_nil (number : Nat) : AllAt number ([] : Unplaced τ) := ⟨Unplaced.all_nil, .nil⟩

theorem allAt_push (kind : String) (number : Nat) (suffix message : String) (test : τ) :
    AllAt number (Unplaced.push kind number suffix message test) :=
  ⟨Unplaced.all_push rfl, List.nodup_singleton _⟩

/-- A check and the one for the empty value have two ids. -/
theorem allAt_push_empty (kind : String) (number : Nat) (suffix message message' : String)
    (test test' : τ) :
    AllAt number (Unplaced.push kind number suffix message test ++
      Unplaced.push kind number (suffix ++ "_empty") message' test') := by
  refine ⟨Unplaced.All.append (Unplaced.all_push rfl) (Unplaced.all_push rfl), ?_⟩
  refine List.nodup_cons.mpr ⟨fun same => ?_, List.nodup_singleton _⟩
  have ids := congrArg String.length (Prod.mk.inj (List.mem_singleton.mp same)).2
  simp only [String.length_append] at ids
  exact absurd ids (Nat.ne_of_lt (Nat.add_lt_add_left (Nat.lt_add_of_pos_right (by decide)) _))

theorem AllAt.whenSet {number : Nat} {value : Option α} {checks : α → Unplaced τ}
    (each : ∀ v, AllAt number (checks v)) : AllAt number (whenSet value checks) := by
  cases value with
  | none => exact allAt_nil number
  | some v => exact each v

theorem AllAt.whenListed {number : Nat} {list : List α} {checks : List α → Unplaced τ}
    (each : ∀ list, AllAt number (checks list)) : AllAt number (whenListed list checks) := by
  cases list with
  | nil => exact allAt_nil number
  | cons v rest => exact each (v :: rest)

theorem AllAt.whenTrue {number : Nat} {flag : Option Bool} (each : AllAt number checks) :
    AllAt number (whenTrue flag checks) := by
  unfold Protovalidate.whenTrue
  split
  · exact each
  · exact allAt_nil number

theorem push_ne_nil (kind : String) (number : Nat) (suffix message : String) (test : τ) :
    Unplaced.push kind number suffix message test ≠ [] := by
  simp [Unplaced.push]

/-- A field with one rule, checked when it is set. -/
theorem places_breaks {wrap : α → Content} {broken : α → ν → Bool} {text : α → String}
    {test : α → τ} (get : ρ → Option α) (kind : String) (number : Nat) (name : String)
    (native : isKept name = false) :
    Places rules
      (whenSet (get rules) (fun v => Unplaced.push kind number name (text v) (test v)))
      [breaksField kind number name get wrap broken text] := by
  refine Places.one native (.whenSet fun v => allAt_push _ _ _ _ _) (fun absent => ?_)
    (fun content set => .inl ?_)
  · rw [Option.map_eq_none_iff.mp absent]
    rfl
  · obtain ⟨v, held, -⟩ := Option.map_eq_some_iff.mp set
    rw [held]
    exact push_ne_nil _ _ _ _ _

theorem places_breaksList {wrap : List α → Content} {broken : List α → ν → Bool}
    {text : List α → String} {test : List α → τ} (get : ρ → List α) (kind : String)
    (number : Nat) (name : String) (native : isKept name = false) :
    Places rules
      (whenListed (get rules)
        (fun list => Unplaced.push kind number name (text list) (test list)))
      [breaksListField kind number name get wrap broken text] := by
  refine Places.one native (.whenListed fun list => allAt_push _ _ _ _ _) (fun absent => ?_)
    (fun content set => .inl ?_)
  · cases held : get rules with
    | nil => rfl
    | cons v rest => simp [breaksListField, listContent, held] at absent
  · cases held : get rules with
    | nil => simp [breaksListField, listContent, held] at set
    | cons v rest => exact push_ne_nil _ _ _ _ _

/-- A flag, checked when it is true, whose rules let every value through when
it is false. -/
theorem places_flag {cel : List (Predefined ρ ν)} {number : Nat} {name : String}
    (get : ρ → Option Bool) (native : isKept name = false) (placed : AllAt number checks)
    (checked : checks ≠ [])
    (disabled : get rules = some false → (flagField number name get cel).AcceptsAll rules) :
    Places rules (whenTrue (get rules) checks) [flagField number name get cel] := by
  refine Places.one native placed.whenTrue (fun absent => ?_) (fun content set => ?_)
  · rw [Option.map_eq_none_iff.mp absent]
    rfl
  · rcases held : get rules with _ | _ | _
    · simp [flagField, held] at set
    · obtain rfl : .bool false = content := by simpa [flagField, held] using set
      exact .inr ⟨.disabled, disabled held⟩
    · exact .inl (by simpa [whenTrue] using checked)

end Places

section Bounds
variable {ρ α β κ : Type} [LinearOrder κ] [NanOrder α κ]
variable (display : α → String) (kind : String) (floating : Bool)
variable (raw : ρ → OrderedRules β) (convert : β → α)
variable (wrap : β → Content) (wrapList : List β → Content)

/-- A range is checked on its lower bound, unless the bounds do not order. -/
theorem range_cases (lower upper : Side α) :
    (∀ number, lower.number = number → AllAt number (Bounds.range display kind lower upper)) ∧
      (Bounds.range display kind lower upper = [] →
        NanOrder.le lower.value upper.value = false ∧
        NanOrder.lt upper.value lower.value = false) := by
  unfold Bounds.range
  dsimp only
  split
  · exact ⟨fun _ of => of ▸ allAt_push _ _ _ _ _, fun none => absurd none (push_ne_nil _ _ _ _ _)⟩
  · rename_i reversed
    split
    · exact ⟨fun _ of => of ▸ allAt_push _ _ _ _ _, fun none => absurd none (push_ne_nil _ _ _ _ _)⟩
    · rename_i unordered
      exact ⟨fun number _ => allAt_nil number, fun _ => by simp_all⟩

/-- Two bounds that do not order report nothing. -/
theorem pairReport_unordered (number : Nat) (this : α)
    (suffix reversed words inside outside : String) {lo hi : α} (above below : Bool)
    (notBelow : NanOrder.le lo hi = false) (notAbove : NanOrder.lt hi lo = false) :
    pairReport display kind floating number this suffix reversed words inside outside lo hi
      above below = [] := by
  simp [pairReport, notBelow, notAbove]

/-- An upper bound reports nothing when there is a lower one. -/
theorem single_absorbed {suffix words : String} {bound : OrderedRules β → Option β}
    {alone : OrderedRules β → Bool} {broken : α → α → Bool} {rules : ρ} {limit : β}
    (set : bound (raw rules) = some limit) (nonempty : words ≠ "")
    (paired : alone (raw rules) = false) (number : Nat) (this : α) :
    collect (Predefined.report number rules this)
      [single display kind floating raw convert suffix bound alone broken words] = some [] := by
  rw [collect_singleton,
    report_single display kind floating raw convert set nonempty, paired]
  rfl

variable {rules : ρ} {lo hi : β} (first : Nat)

theorem places_upper_unset (lt : (raw rules).lt = none) (lte : (raw rules).lte = none) :
    Places rules ([] : Unplaced (Cmp α))
      (upperFields display kind floating raw convert wrap first) :=
  .silent_append (f := [_]) (.unset (by simp [lt])) (.unset (by simp [lte]))

/-- An upper bound is left to the range reported on the lower one. -/
theorem places_upper_absorbed
    (paired : (raw rules).gt.isSome = true ∨ (raw rules).gte.isSome = true) :
    Places rules ([] : Unplaced (Cmp α))
      (upperFields display kind floating raw convert wrap first) := by
  have alone : ((raw rules).gte.isNone && (raw rules).gt.isNone) = false := by
    rcases paired with gt | gte
    · obtain ⟨v, gt⟩ := Option.isSome_iff_exists.mp gt
      simp [gt]
    · obtain ⟨v, gte⟩ := Option.isSome_iff_exists.mp gte
      simp [gte]
  refine .silent_append (f := [_]) (.silent fun content set => .inr ⟨.bound content rfl, ?_⟩)
    (.silent fun content set => .inr ⟨.bound content rfl, ?_⟩)
  · obtain ⟨limit, lt, -⟩ := Option.map_eq_some_iff.mp set
    intro this
    exact single_absorbed display kind floating raw convert lt (by decide) alone _ this
  · obtain ⟨limit, lte, -⟩ := Option.map_eq_some_iff.mp set
    intro this
    exact single_absorbed display kind floating raw convert lte (by decide) alone _ this

theorem places_lower_unset (gt : (raw rules).gt = none) (gte : (raw rules).gte = none) :
    Places rules ([] : Unplaced (Cmp α))
      (lowerFields display kind floating raw convert wrap first) :=
  .silent_append (f := [_]) (.unset (by simp [gt])) (.unset (by simp [gte]))

/-- The check of a bound that is the only one on its side. -/
theorem places_bound_set {field : RuleField ρ α} {checks : Unplaced (Cmp α)} {v : β}
    (name : ["lt", "lte", "gt", "gte"].contains field.name = true)
    (set : field.content rules = some (wrap v)) (placed : AllAt field.number checks)
    (accepted : checks = [] → field.AcceptsAll rules) :
    Places rules checks [field] := by
  have native : isKept field.name = false := by
    simp only [List.contains_cons, List.contains_nil, Bool.or_false, Bool.or_eq_true,
      beq_iff_eq] at name
    rcases name with name | name | name | name <;> rw [name] <;> decide
  refine .one native placed (fun unset => by simp [set] at unset) fun content _ => ?_
  by_cases none : checks = []
  · exact .inr ⟨.bound content name, accepted none⟩
  · exact .inl none

theorem places_gt {checks : Unplaced (Cmp α)} (gt : (raw rules).gt = some lo)
    (gte : (raw rules).gte = none) (placed : AllAt (first + 3) checks)
    (accepted : checks = [] → ∀ this, collect (Predefined.report (first + 3) rules this)
      (gtCel display kind floating raw convert) = some []) :
    Places rules checks (lowerFields display kind floating raw convert wrap first) :=
  .append_silent (f := [_])
    (places_bound_set wrap rfl (by simp [gt]; rfl) placed accepted)
    (.unset (by simp [gte]))

theorem places_gte {checks : Unplaced (Cmp α)} (gt : (raw rules).gt = none)
    (gte : (raw rules).gte = some lo) (placed : AllAt (first + 4) checks)
    (accepted : checks = [] → ∀ this, collect (Predefined.report (first + 4) rules this)
      (gteCel display kind floating raw convert) = some []) :
    Places rules checks (lowerFields display kind floating raw convert wrap first) :=
  .silent_append (f := [_]) (.unset (by simp [gt]))
    (places_bound_set wrap rfl (by simp [gte]; rfl) placed accepted)

theorem places_lt {checks : Unplaced (Cmp α)} (lt : (raw rules).lt = some hi)
    (lte : (raw rules).lte = none) (placed : AllAt (first + 1) checks) (checked : checks ≠ []) :
    Places rules checks (upperFields display kind floating raw convert wrap first) :=
  .append_silent (f := [_])
    (places_bound_set wrap rfl (by simp [lt]; rfl) placed (absurd · checked))
    (.unset (by simp [lte]))

theorem places_lte {checks : Unplaced (Cmp α)} (lt : (raw rules).lt = none)
    (lte : (raw rules).lte = some hi) (placed : AllAt (first + 2) checks) (checked : checks ≠ []) :
    Places rules checks (upperFields display kind floating raw convert wrap first) :=
  .silent_append (f := [_]) (.unset (by simp [lt]))
    (places_bound_set wrap rfl (by simp [lte]; rfl) placed (absurd · checked))

/-- The bound check is of the bounds that are set: of a lower one, or of an
upper one alone. -/
theorem bound_split (rules : ρ) : ∃ upper lower : Unplaced (Cmp α),
    (bounds convert (raw rules)).bound display kind first = upper ++ lower ∧
    Places rules upper (upperFields display kind floating raw convert wrap first) ∧
    Places rules lower (lowerFields display kind floating raw convert wrap first) ∧
    ((raw rules).gt = none → (raw rules).gte = none → lower = []) := by
  have upperUnset (lt : (raw rules).lt = none) (lte : (raw rules).lte = none) :
      Places rules ([] : Unplaced (Cmp α))
        (upperFields display kind floating raw convert wrap first) :=
    places_upper_unset display kind floating raw convert wrap first lt lte
  have absorbed (paired : (raw rules).gt.isSome = true ∨ (raw rules).gte.isSome = true) :
      Places rules ([] : Unplaced (Cmp α))
        (upperFields display kind floating raw convert wrap first) :=
    places_upper_absorbed display kind floating raw convert wrap first paired
  have lowerUnset (gt : (raw rules).gt = none) (gte : (raw rules).gte = none) :
      Places rules ([] : Unplaced (Cmp α))
        (lowerFields display kind floating raw convert wrap first) :=
    places_lower_unset display kind floating raw convert wrap first gt gte
  simp only [bounds, Bounds.bound, Bounds.lower, Bounds.upper]
  rcases (raw rules).lower_cases with ⟨gt, gte⟩ | ⟨lo, gt, gte⟩ | ⟨lo, gt, gte⟩ <;>
    rcases (raw rules).upper_cases with ⟨lt, lte⟩ | ⟨hi, lt, lte⟩ | ⟨hi, lt, lte⟩ <;>
    simp only [lt, lte, gt, gte, Option.map_none, Option.map_some]
  · exact ⟨[], [], rfl, upperUnset lt lte, lowerUnset gt gte, fun _ _ => rfl⟩
  · refine ⟨_, [], (List.append_nil _).symm, ?_, lowerUnset gt gte, fun _ _ => rfl⟩
    exact places_lt _ _ _ _ _ _ _ lt lte (allAt_push _ _ _ _ _) (push_ne_nil _ _ _ _ _)
  · refine ⟨_, [], (List.append_nil _).symm, ?_, lowerUnset gt gte, fun _ _ => rfl⟩
    exact places_lte _ _ _ _ _ _ _ lt lte (allAt_push _ _ _ _ _) (push_ne_nil _ _ _ _ _)
  · refine ⟨[], _, rfl, upperUnset lt lte, ?_, fun unset => by contradiction⟩
    exact places_gt _ _ _ _ _ _ _ gt gte (allAt_push _ _ _ _ _)
      (absurd · (push_ne_nil _ _ _ _ _))
  · refine ⟨[], _, rfl, absorbed (.inl (by simp [gt])), ?_, fun unset => by contradiction⟩
    refine places_gt _ _ _ _ _ _ _ gt gte ((range_cases ..).1 _ rfl) fun none this => ?_
    obtain ⟨notBelow, notAbove⟩ := (range_cases ..).2 none
    rw [gtCel_lt display kind floating raw convert _ this gt lt lte,
      pairReport_unordered _ _ _ _ _ _ _ _ _ _ _ _ notBelow notAbove]
  · refine ⟨[], _, rfl, absorbed (.inl (by simp [gt])), ?_, fun unset => by contradiction⟩
    refine places_gt _ _ _ _ _ _ _ gt gte ((range_cases ..).1 _ rfl) fun none this => ?_
    obtain ⟨notBelow, notAbove⟩ := (range_cases ..).2 none
    rw [gtCel_lte display kind floating raw convert _ this gt lt lte,
      pairReport_unordered _ _ _ _ _ _ _ _ _ _ _ _ notBelow notAbove]
  · refine ⟨[], _, rfl, upperUnset lt lte, ?_, fun _ unset => by contradiction⟩
    exact places_gte _ _ _ _ _ _ _ gt gte (allAt_push _ _ _ _ _)
      (absurd · (push_ne_nil _ _ _ _ _))
  · refine ⟨[], _, rfl, absorbed (.inr (by simp [gte])), ?_, fun _ unset => by contradiction⟩
    refine places_gte _ _ _ _ _ _ _ gt gte ((range_cases ..).1 _ rfl) fun none this => ?_
    obtain ⟨notBelow, notAbove⟩ := (range_cases ..).2 none
    rw [gteCel_lt display kind floating raw convert _ this gte lt lte,
      pairReport_unordered _ _ _ _ _ _ _ _ _ _ _ _ notBelow notAbove]
  · refine ⟨[], _, rfl, absorbed (.inr (by simp [gte])), ?_, fun _ unset => by contradiction⟩
    refine places_gte _ _ _ _ _ _ _ gt gte ((range_cases ..).1 _ rfl) fun none this => ?_
    obtain ⟨notBelow, notAbove⟩ := (range_cases ..).2 none
    rw [gteCel_lte display kind floating raw convert _ this gte lt lte,
      pairReport_unordered _ _ _ _ _ _ _ _ _ _ _ _ notBelow notAbove]

theorem places_comparison (rules : ρ) :
    Places rules ((bounds convert (raw rules)).checks display kind first)
      (comparisonFields display kind floating raw convert wrap wrapList first) := by
  simp only [Bounds.checks, comparisonFields, constField, inField, notInField]
  refine .append (.append (.append ?_ ?_) ?_) ?_
  · simp only [bounds, whenSet_map]
    exact places_breaks (fun rules => (raw rules).const) kind first "const" (by decide)
  · obtain ⟨upper, lower, split, above, below, -⟩ :=
      bound_split display kind floating raw convert wrap first rules
    rw [split]
    exact above.append below
  · simp only [bounds, whenListed_map]
    exact places_breaksList (fun rules => (raw rules).isIn) kind (first + 5) "in" (by decide)
  · simp only [bounds, whenListed_map]
    exact places_breaksList (fun rules => (raw rules).notIn) kind (first + 6) "not_in" (by decide)

end Bounds

section Families
variable {ρ ν τ υ : Type} {rules : ρ} {checks : Unplaced τ} {fields : List (RuleField ρ ν)}

/-- Checks wrapped in a larger test. -/
theorem Places.wrapped (places : Places rules checks fields) (wrap : τ → υ) :
    Places rules (checks.map wrap) fields where
  covers field member content set := by
    rcases places.covers field member content set with kept | ⟨check, present, placed⟩ | unchecked
    · exact .inl kept
    · exact .inr (.inl ⟨_, List.mem_map_of_mem present, placed⟩)
    · exact .inr (.inr unchecked)
  sound check member := by
    obtain ⟨inner, present, rfl⟩ := List.mem_map.mp member
    exact places.sound inner present
  once distinct := by
    rw [Unplaced.keys, Unplaced.map, List.map_map]
    exact places.once distinct
  order := by
    rw [Unplaced.map, List.map_map]
    exact places.order

variable (B : Backend) (kind : String)

theorem places_breaksFlag {broken : ν → Bool} {text message : String} {test : τ}
    (get : ρ → Option Bool) (number : Nat) (name : String) (native : isKept name = false) :
    Places rules (whenTrue (get rules) (Unplaced.push kind number name message test))
      [breaksFlag kind number name get broken text] := by
  refine places_flag get native (allAt_push _ _ _ _ _) (push_ne_nil _ _ _ _ _)
    fun disabled this => ?_
  simp [flagField, collect_singleton, Predefined.report, Predefined.failure, breaks, onSet,
    disabled, failIf]

theorem places_int (example_ : Nat) (r : IntRules) :
    Places r (integerChecks kind r).1 (intFields kind example_) :=
  .append_silent
    (places_comparison toString kind false IntRules.ordered id .int .ints 1 r) (.kept rfl)

theorem places_duration (r : DurationRules) :
    Places r (durationChecks kind r).1 (durationFields kind) :=
  .append_silent
    (places_comparison displayDuration kind false DurationRules.ordered duration .duration
      .durations 2 r)
    (.kept rfl)

theorem places_float (r : FloatRules) : Places r (floating B kind r).1 (floatFields B kind) :=
  .append
    ((places_comparison (displayDouble B) kind true FloatRules.ordered id .double .doubles 1
      r).wrapped DoubleTest.cmp)
    (.append_silent (f := [_])
      (places_breaksFlag kind FloatRules.finite 8 "finite" (by decide)) (.kept rfl))

/-- The rules that have a check of `lt_now` after one of a lower bound, which
is declared after it. -/
def TimestampRules.nowAfterLower (r : TimestampRules) : Bool :=
  r.ltNow == some true && r.ordered.greaterThan.isSome

section Timestamp
variable (r : TimestampRules)

theorem places_timestampConst : Places r (Unplaced.map TimestampTest.cmp (constChecks B kind r))
    [constField (displayTimestamp B) kind TimestampRules.ordered timestamp .timestamp 2] :=
  (places_breaks (fun r => (TimestampRules.ordered r).const) kind 2 "const" (by decide)).wrapped _

theorem places_ltNow : Places r (ltNowChecks kind r)
    [breaksFlag kind 7 "lt_now" TimestampRules.ltNow (fun this => this > B.now)
      "must be less than now"] :=
  places_breaksFlag kind TimestampRules.ltNow 7 "lt_now" (by decide)

theorem places_now : Places r (gtNowChecks kind r ++ withinChecks kind r)
    [breaksFlag kind 8 "gt_now" TimestampRules.gtNow (fun this => this < B.now)
      "must be greater than now",
    breaksField kind 9 "within" TimestampRules.within .duration
      (fun within this => this < B.now - duration within || this > B.now + duration within)
      (fun within => "must be within " ++ displayDuration (duration within) ++ " of now"),
    exampleField kind 10 (fun rules => listContent .timestamps rules.exampleValues)] :=
  .append (f := [_])
    (places_breaksFlag kind TimestampRules.gtNow 8 "gt_now" (by decide))
    (.append_silent (f := [_])
      (places_breaks TimestampRules.within kind 9 "within" (by decide)) (.kept rfl))

end Timestamp

theorem accounts_timestamp {r rest : TimestampRules} {checks : Unplaced TimestampTest}
    (built : timestampChecks B kind r = .ok (checks, rest)) :
    Accounts r checks (timestampFields B kind) := by
  obtain ⟨upper, lower, split, above, below, -⟩ := bound_split (displayTimestamp B) kind false
    TimestampRules.ordered timestamp .timestamp 2 r
  have bound : Places r (Unplaced.map TimestampTest.cmp
      ((bounds timestamp r.ordered).bound (displayTimestamp B) kind 2)) _ :=
    Places.wrapped (split ▸ above.append below) _
  have accounts := (((places_timestampConst B kind r).append bound).append
    (places_ltNow B kind r)).append (places_now B kind r)
  rw [timestampChecks_eq B kind built, List.append_assoc _ (gtNowChecks kind r)]
  refine accounts.toAccounts.perm ?_
  unfold timestampFields
  simp only [List.append_assoc]
  refine (List.Perm.refl _).append ((List.Perm.refl _).append ?_)
  exact List.perm_append_comm_assoc _ _ _

/-- The checks of `lt_now` and of a lower bound come in the order of their
fields as long as there are not both. -/
theorem places_timestamp {r rest : TimestampRules} {checks : Unplaced TimestampTest}
    (built : timestampChecks B kind r = .ok (checks, rest)) (inOrder : r.nowAfterLower = false) :
    Places r checks (timestampFields B kind) := by
  obtain ⟨upper, lower, split, above, below, unset⟩ := bound_split (displayTimestamp B) kind false
    TimestampRules.ordered timestamp .timestamp 2 r
  have alone : ltNowChecks kind r = [] ∨ lower = [] := by
    by_cases enabled : r.ltNow = some true
    · have none : r.ordered.greaterThan = none := by
        simpa [TimestampRules.nowAfterLower, enabled] using inOrder
      exact .inr (unset (by simp [OrderedRules.gt, none]) (by simp [OrderedRules.gte, none]))
    · exact .inl (by simp [ltNowChecks, whenTrue, enabled])
  have swapped : Unplaced.map TimestampTest.cmp (upper ++ lower) ++ ltNowChecks kind r =
      Unplaced.map .cmp upper ++ ltNowChecks kind r ++ Unplaced.map .cmp lower := by
    rcases alone with none | rfl
    · simp [none, Unplaced.map]
    · simp [Unplaced.map]
  have placed := ((((places_timestampConst B kind r).append
    (above.wrapped TimestampTest.cmp)).append (places_ltNow B kind r)).append
      (below.wrapped TimestampTest.cmp)).append (places_now B kind r)
  rw [timestampChecks_eq B kind built, split, List.append_assoc _ _ (ltNowChecks kind r), swapped]
  unfold timestampFields
  simpa only [List.append_assoc] using placed

theorem places_bool (r : BoolRules) : Places r (boolChecks kind r).1 (boolFields kind) :=
  .append_silent (f := [_]) (places_breaks BoolRules.const kind 1 "const" (by decide))
    (.kept rfl)

/-- `defined_only` is checked on a value with an enum type. -/
theorem places_enum (r : EnumRules) (enum : EnumIndex) :
    Places r (enumChecks kind r (some enum)).1 (enumFields kind) := by
  refine .append_silent (.append (.append (.append (f := [_]) (g := [_]) ?_ ?_) (g := [_]) ?_)
    (g := [_]) ?_) (.kept rfl)
  · exact places_breaks EnumRules.const kind 1 "const" (by decide)
  · exact places_flag EnumRules.definedOnly (by decide) (allAt_push _ _ _ _ _)
      (push_ne_nil _ _ _ _ _) (fun _ _ => rfl)
  · exact places_breaksList EnumRules.isIn kind 3 "in" (by decide)
  · exact places_breaksList EnumRules.notIn kind 4 "not_in" (by decide)

theorem places_repeated (r : RepeatedRules FieldRules) :
    Places r (repeatedChecks kind r).1 (repeatedFields kind) := by
  refine .append_silent (.append (.append (f := [_]) (g := [_]) ?_ ?_) (g := [_]) ?_) (.kept rfl)
  · exact places_breaks RepeatedRules.minItems kind 1 "min_items" (by decide)
  · exact places_breaks RepeatedRules.maxItems kind 2 "max_items" (by decide)
  · refine places_flag RepeatedRules.unique (by decide) (allAt_push _ _ _ _ _)
      (push_ne_nil _ _ _ _ _) fun disabled this => ?_
    simp [flagField, collect_singleton, report_holds, disabled]

theorem places_map (r : MapRules FieldRules) :
    Places r (mapChecks kind r).1 (mapFields kind) := by
  refine .append_silent (g := [_, _]) (.append (f := [_]) (g := [_]) ?_ ?_)
    (.silent_append (f := [_]) (.kept rfl) (.kept rfl))
  · exact places_breaks MapRules.minPairs kind 1 "min_pairs" (by decide)
  · exact places_breaks MapRules.maxPairs kind 2 "max_pairs" (by decide)

theorem places_fieldMask (r : FieldMaskRules) :
    Places r (fieldMaskChecks kind r).1 (fieldMaskFields kind) := by
  refine .append_silent (.append (.append (f := [_]) (g := [_]) ?_ ?_) (g := [_]) ?_) (.kept rfl)
  · exact places_breaks FieldMaskRules.const kind 1 "const" (by decide)
  · exact places_breaksList FieldMaskRules.isIn kind 2 "in" (by decide)
  · exact places_breaksList FieldMaskRules.notIn kind 3 "not_in" (by decide)

/-- A list field without a rule of its own, checked when it lists something. -/
theorem places_list {α : Type} {wrap : List α → Content} {checks : List α → Unplaced τ}
    {number : Nat} {name : String} {cel : List (Predefined ρ ν)} (get : ρ → List α)
    (native : isKept name = false) (placed : ∀ list, AllAt number (checks list))
    (checked : ∀ list, checks list ≠ []) :
    Places rules (whenListed (get rules) checks)
      [⟨number, name, fun rules => listContent wrap (get rules), cel⟩] := by
  refine .one native (.whenListed placed) (fun absent => ?_) (fun content set => .inl ?_)
  · cases held : get rules with
    | nil => rfl
    | cons v rest => simp [listContent, held] at absent
  · cases held : get rules with
    | nil => simp [listContent, held] at set
    | cons v rest => exact checked (v :: rest)

theorem places_any (r : AnyRules) : Places r (anyChecks kind r).1 anyFields :=
  .append (f := [_]) (g := [_])
    (places_list AnyRules.isIn (by decide) (fun _ => allAt_push _ _ _ _ _)
      (fun _ => push_ne_nil _ _ _ _ _))
    (places_list AnyRules.notIn (by decide) (fun _ => allAt_push _ _ _ _ _)
      (fun _ => push_ne_nil _ _ _ _ _))

theorem places_pattern {text : ν → Option String} {message : String → String}
    {test : Regex → τ} (get : ρ → Option String) (number : Nat)
    (built : patternChecks B kind (get rules) (fun p compiled =>
      Unplaced.push kind number "pattern" (message p) (test compiled)) = .ok checks) :
    Places rules checks [patternField B kind number get text message] := by
  have native : isKept "pattern" = false := by decide
  rcases patternChecks_cases built with ⟨unset, rfl⟩ | ⟨p, set, -, rfl⟩
  · exact .unset (by simp [patternField, unset])
  · refine .one native (allAt_push _ _ _ _ _) (fun absent => ?_)
      fun _ _ => .inl (push_ne_nil _ _ _ _ _)
    simp [patternField, set] at absent

/-- A format and its `_empty` companion, checked when the flag is true. -/
theorem places_format {isEmpty passes : ν → Bool} {what empty suffix message : String}
    {test empty_ : τ} (get : ρ → Option Bool) (number : Nat) (name : String)
    (native : isKept name = false) :
    Places rules
      (whenTrue (get rules)
        (Unplaced.push kind number name message test ++
          Unplaced.push kind number (name ++ "_empty") suffix empty_))
      [formatField kind number name get isEmpty what empty passes] := by
  refine places_flag get native (allAt_push_empty _ _ _ _ _ _ _)
    (by simp [Unplaced.push]) fun disabled this => ?_
  simp [flagField, collect_cons, report_holds, disabled]

theorem places_flagChecks {r : StringRules} {passes : String → Bool}
    (flag : StringWellKnown → Option Bool) (format : Format) (empty : String)
    (native : isKept format.suffix = false) :
    Places r (flagChecks kind r flag format empty)
      [stringFormatField kind format.number format.suffix flag format.what empty passes] :=
  places_format kind (fun rules : StringRules => rules.wellKnown.bind flag) format.number
    format.suffix native

theorem places_wellKnownRegex (r : StringRules) :
    Places r (whenSet r.wellKnownRegex (fun regex =>
        wellKnownChecks kind (.wellKnownRegex regex) (r.strict.getD true)))
      [wellKnownRegexField B kind] := by
  have native : isKept "well_known_regex" = false := by decide
  refine .one native (.whenSet fun regex => ?_) (fun absent => ?_) (fun content set => ?_)
  · cases regex with
    | unspecified => exact allAt_nil _
    | httpHeaderName =>
      exact allAt_push_empty _ _ _ _ _ _ _
    | httpHeaderValue => exact allAt_push _ _ _ _ _
  · rw [Option.map_eq_none_iff.mp absent]
    rfl
  · obtain ⟨regex, held, rfl⟩ := Option.map_eq_some_iff.mp set
    cases regex with
    | unspecified =>
      refine .inr ⟨.unspecified, fun this => ?_⟩
      simp [wellKnownRegexField, collect_cons, report_holds, report_holdsMatching, held]
    | httpHeaderName =>
      rw [held]
      exact .inl (by simp [whenSet, headerName_checks, Unplaced.push])
    | httpHeaderValue =>
      rw [held]
      exact .inl (by simp [whenSet, headerValue_checks, Unplaced.push])

theorem places_wellKnown (r : StringRules) :
    Places r (whenSet r.wellKnown (fun rule => wellKnownChecks kind rule (r.strict.getD true)))
      (wellKnownFields B kind) := by
  rw [wellKnownChecks_eq]
  refine Places.each ?_
  unfold wellKnownFields
  simp only [List.forall₂_cons]
  and_intros
  all_goals first
    | exact places_flagChecks kind _ _ _ (by decide)
    | exact places_wellKnownRegex B kind r
    | exact .nil
    | skip
  refine places_flag StringRules.uriRef (by decide) (allAt_push _ _ _ _ _)
    (push_ne_nil _ _ _ _ _) fun disabled this => ?_
  simp [flagField, collect_singleton, report_holds, disabled]

theorem places_lengths (r : StringRules) :
    Places r (lengthChecks kind r) (stringLengthFields kind) := by
  refine Places.each ?_
  unfold stringLengthFields
  simp only [List.forall₂_cons]
  and_intros
  · exact places_breaks StringRules.len kind 19 "len" (by decide)
  · exact places_breaks StringRules.minLen kind 2 "min_len" (by decide)
  · exact places_breaks StringRules.maxLen kind 3 "max_len" (by decide)
  · exact places_breaks StringRules.lenBytes kind 20 "len_bytes" (by decide)
  · exact places_breaks StringRules.minBytes kind 4 "min_bytes" (by decide)
  · exact places_breaks StringRules.maxBytes kind 5 "max_bytes" (by decide)
  · exact .nil

theorem places_substrings (r : StringRules) :
    Places r (substringChecks kind r) (substringFields kind) := by
  refine Places.each ?_
  unfold substringFields
  simp only [List.forall₂_cons]
  and_intros
  · exact places_breaks StringRules.prefixed kind 7 "prefix" (by decide)
  · exact places_breaks StringRules.suffix kind 8 "suffix" (by decide)
  · exact places_breaks StringRules.contains kind 9 "contains" (by decide)
  · exact places_breaks StringRules.notContains kind 23 "not_contains" (by decide)
  · exact .nil

/-- `strict` has nothing to check on its own. -/
theorem places_string {r rest : StringRules} {checks : Unplaced StrTest}
    (built : stringChecks B kind r = .ok (checks, rest)) :
    Places r checks (stringFields B kind) := by
  cases patterns : patternChecks B kind r.pattern (fun p compiled =>
      Unplaced.push kind 6 "pattern" ("does not match regex pattern `" ++ p ++ "`")
        (StrTest.pattern compiled)) with
  | error e => simp [stringChecks, patterns, bind, Except.bind] at built
  | ok pattern =>
    simp only [stringChecks, patterns, bind, Except.bind, pure, Except.pure, Except.ok.injEq,
      Prod.mk.injEq] at built
    obtain ⟨rfl, -⟩ := built
    refine .append_silent (g := [_, _]) (Places.flatten ?_)
      (.silent_append (f := [_]) (.silent fun content _ => ?_) (.kept rfl))
    · simp only [List.forall₂_cons]
      and_intros
      · exact places_breaks StringRules.const kind 1 "const" (by decide)
      · exact places_lengths kind r
      · exact places_pattern B kind StringRules.pattern 6 patterns
      · exact places_substrings kind r
      · exact places_breaksList StringRules.isIn kind 10 "in" (by decide)
      · exact places_breaksList StringRules.notIn kind 11 "not_in" (by decide)
      · exact places_wellKnown B kind r
      · exact .nil
    · exact .inr ⟨.strict content rfl, fun this => rfl⟩

theorem places_bytesFormats (r : BytesRules) :
    Places r (whenSet r.wellKnown (bytesFormatChecks kind)) (bytesFormatFields kind) := by
  rw [bytesFormatChecks_eq]
  refine Places.each ?_
  unfold bytesFormatFields
  simp only [List.forall₂_cons]
  and_intros
  · exact places_format kind (fun rules : BytesRules => rules.wellKnown.bind _) 10 "ip"
      (by decide)
  · exact places_format kind (fun rules : BytesRules => rules.wellKnown.bind _) 11 "ipv4"
      (by decide)
  · exact places_format kind (fun rules : BytesRules => rules.wellKnown.bind _) 12 "ipv6"
      (by decide)
  · exact places_format kind (fun rules : BytesRules => rules.wellKnown.bind _) 15 "uuid"
      (by decide)
  · exact .nil

theorem places_bytes {r rest : BytesRules} {checks : Unplaced BytesTest}
    (built : bytesChecks B kind r = .ok (checks, rest)) :
    Places r checks (bytesFields B kind) := by
  cases patterns : patternChecks B kind r.pattern (fun p compiled =>
      Unplaced.push kind 4 "pattern" ("must match regex pattern `" ++ p ++ "`")
        (BytesTest.pattern compiled)) with
  | error e => simp [bytesChecks, patterns, bind, Except.bind] at built
  | ok pattern =>
    simp only [bytesChecks, patterns, bind, Except.bind, pure, Except.pure, Except.ok.injEq,
      Prod.mk.injEq] at built
    obtain ⟨rfl, -⟩ := built
    refine .append_silent (Places.flatten ?_) (.kept rfl)
    simp only [List.forall₂_cons]
    and_intros
    · exact places_breaks BytesRules.const kind 1 "const" (by decide)
    · exact places_breaks BytesRules.len kind 13 "len" (by decide)
    · exact places_breaks BytesRules.minLen kind 2 "min_len" (by decide)
    · exact places_breaks BytesRules.maxLen kind 3 "max_len" (by decide)
    · exact places_pattern B kind BytesRules.pattern 4 patterns
    · exact places_breaks BytesRules.prefixed kind 5 "prefix" (by decide)
    · exact places_breaks BytesRules.suffix kind 6 "suffix" (by decide)
    · exact places_breaks BytesRules.contains kind 7 "contains" (by decide)
    · exact places_breaksList BytesRules.isIn kind 8 "in" (by decide)
    · exact places_breaksList BytesRules.notIn kind 9 "not_in" (by decide)
    · exact places_bytesFormats kind r
    · exact .nil

end Families

end Protovalidate
