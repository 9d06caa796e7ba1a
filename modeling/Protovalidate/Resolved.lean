import Protovalidate.RuleOrder
import Protovalidate.Determined
import Protovalidate.Embedded
import Protovalidate.TypeSound

/-!
# The types a build asks for

A build resolves the types of the closure and the types their fields hold, and
then panics on any other. It asks for another one only through the value field
of a wrapper that is not in the closure.
-/

namespace Protovalidate

open BuildM

namespace BuildM
variable {α β : Type} {bad : Panic → Prop}

/-- The step does not end in a panic of the kind. -/
def Avoids (bad : Panic → Prop) (x : BuildM α) : Prop := ∀ panic, bad panic → x.run ≠ .error panic

theorem avoids_pure {a : α} : Avoids bad (pure a : BuildM α) := by
  intro panic _ failed
  cases failed

theorem avoids_throw {message : String} : Avoids bad (throw message : BuildM α) := by
  intro panic _ failed
  cases failed

theorem avoids_ofExcept {x : Except String α} : Avoids bad (ofExcept x) := by
  intro panic _ failed
  cases failed

theorem avoids_orPanic {value : Option α} {panic : Panic} :
    Avoids bad (orPanic value panic) ↔ (bad panic → value.isSome) := by
  cases value with
  | none =>
    constructor
    · intro avoids worse
      exact absurd rfl (avoids panic worse)
    · intro fine panic' worse failed
      cases failed
      cases fine worse
  | some a =>
    constructor
    · intro _ _
      rfl
    · intro _ panic' _ failed
      cases failed

theorem avoids_bind {x : BuildM α} {f : α → BuildM β} :
    Avoids bad (x >>= f) ↔ Avoids bad x ∧ ∀ a, Builds x a → Avoids bad (f a) := by
  unfold Avoids Builds
  rw [ExceptT.run_bind]
  rcases x.run with panic | error | a <;> simp [bind, Except.bind, pure, Except.pure]

theorem avoids_map {f : α → β} {x : BuildM α} : Avoids bad (f <$> x) ↔ Avoids bad x := by
  rw [map_eq_pure_bind, avoids_bind]
  constructor
  · exact And.left
  · exact fun avoids => ⟨avoids, fun _ _ => avoids_pure⟩

theorem avoids_mapErr {f : String → String} {x : BuildM α} :
    Avoids bad (mapErr f x) ↔ Avoids bad x := by
  unfold Avoids mapErr
  rw [ExceptT.run_mk]
  rcases x.run with panic | error | a <;> simp [Except.map]

theorem avoids_caught {x : BuildM α} : Avoids bad x.caught ↔ Avoids bad x := by
  unfold Avoids caught
  rw [ExceptT.run_mk]
  rcases x.run with panic | error | a <;> simp [Except.map]

theorem avoids_mapM {f : α → BuildM β} {xs : List α} (each : ∀ x ∈ xs, Avoids bad (f x)) :
    Avoids bad (xs.mapM f) := by
  induction xs with
  | nil => exact avoids_pure
  | cons x xs ih =>
    rw [List.mapM_cons, avoids_bind]
    refine ⟨each x List.mem_cons_self, fun y _ => avoids_bind.mpr ⟨ih fun x' later => ?_, ?_⟩⟩
    · exact each x' (List.mem_cons_of_mem x later)
    · exact fun _ _ => avoids_pure

/-- The step does not panic. -/
abbrev Settles (x : BuildM α) : Prop := Avoids (fun _ => True) x

/-- Steps that do not fail are all come to, unless one of them panics. -/
theorem settles_of_mapM {f : α → BuildM β} {xs : List α} (unfailing : ∀ x error, ¬Fails (f x) error)
    (avoids : Settles (xs.mapM f)) : ∀ x ∈ xs, Settles (f x) := by
  induction xs with
  | nil =>
    intro x present
    cases present
  | cons x xs ih =>
    rw [Settles, List.mapM_cons, avoids_bind] at avoids
    obtain ⟨first, rest⟩ := avoids
    have settled : ∃ y, Builds (f x) y := by
      cases made : (f x).run with
      | error panic => exact absurd made (first panic trivial)
      | ok result =>
        cases result with
        | error error => exact absurd made (unfailing x error)
        | ok y => exact ⟨y, made⟩
    obtain ⟨y, built⟩ := settled
    intro x' present
    rcases List.mem_cons.mp present with rfl | later
    · exact first
    · exact ih (avoids_bind.mp (rest y built)).1 x' later

end BuildM

/-- A type of the closure, or one that a field of such a type holds. -/
def Refers {R : Runtime} (pool : DescriptorPool) (root : MessageIndex) (known : ValidatorCache R)
    (index : MessageIndex) : Prop :=
  ∃ holder ∈ closure pool root known, index = holder ∨ index ∈ referenced pool holder

/-- A loop that makes an entry for each key, and no other. -/
theorem lookup_foldlM {κ β ε : Type} [BEq κ] {f : List (κ × β) → κ → Except ε (List (κ × β))}
    (step : ∀ made key made', f made key = .ok made' →
      ∀ k, (made'.lookup k).isSome ↔ (made.lookup k).isSome ∨ k = key)
    {keys : List κ} {made made' : List (κ × β)} (done : keys.foldlM f made = .ok made') (k : κ) :
    (made'.lookup k).isSome ↔ (made.lookup k).isSome ∨ k ∈ keys := by
  induction keys generalizing made with
  | nil =>
    cases done
    simp
  | cons key keys ih =>
    rw [List.foldlM_cons, bind_eq_ok] at done
    obtain ⟨next, first, rest⟩ := done
    rw [ih rest, step made key next first, List.mem_cons, or_assoc]

/-- What is resolved is what the closure refers to, whatever is known of it. -/
theorem resolve_refers {R : Runtime} {pool : DescriptorPool} {root : MessageIndex}
    {known : ValidatorCache R} {reader : String → Except R.Error R.MessageType}
    {types : MessageIndex → Option R.MessageType}
    (done : resolve pool root known reader = .ok types) (index : MessageIndex) :
    (types index).isSome ↔ Refers pool root known index := by
  simp only [resolve, bind_eq_ok, pure, Except.pure, Except.ok.injEq] at done
  obtain ⟨found, made, rfl⟩ := done
  have resolved := lookup_foldlM ?_ made index
  · rw [resolved]
    simp [Refers, List.mem_flatMap]
  · intro types key types' step k
    split at step
    · rename_i had
      cases step
      constructor
      · exact .inl
      · rintro (present | rfl)
        · exact present
        · exact had
    · rw [bind_eq_ok] at step
      obtain ⟨type, -, same⟩ := step
      cases same
      rw [List.lookup_cons]
      by_cases same : k = key
      · simp [same]
      · simp [beq_false_of_ne same, same]

namespace Builder
variable {R : Runtime} (self : Builder R)

/-- A type the builder has when it is asked for, as far as the panic counts. -/
def Answers (bad : Panic → Prop) (index : MessageIndex) : Prop :=
  bad (.unresolved (self.pool.message index).fullName) → (self.types index).isSome

/-- The pool has the `buf.validate` schema of every kind of standard rules, with the fields
that they are declared with. -/
def Complete : Prop :=
  ∀ standard : RulesType, (∃ index, self.rulesMessage (rulesName standard) = some index ∧
      ∀ number ∈ declaredNumbers standard, ((self.pool.message index).field number).isSome) ∧
    (self.schema.typeElement self.pool (rulesName standard)).isSome

/-- A field of another message that the standard rules of a target, or of a
list's items, are checked through. -/
def throughField (target : Target) (standard : RulesType) : Option FieldDescriptor :=
  if isScalarRules standard then (self.message target).bind (·.field 1)
  else
    match standard, target.kind with
    | .repeated rules, .list (.message _) =>
      if rules.unique = some true then
        ((self.message target).filter
          (fun message => (wrapperRules message.fullName).isSome)).bind (·.field 1)
      else none
    | _, _ => none

/-- The builder comes to check the rules of a value through another field: the
CEL rules of the value compile, and its standard rules are those for its type. -/
structure Through (builder : Builder R) (target : Target) (rules : FieldRules)
    (rulePrefix : List FieldPathElement) (field : FieldDescriptor) : Prop where
  custom : ∃ programs, Builds (builder.compile (customRules rules.celExpression rules.cel
    (fun index => rulePrefix ++ [indexed builder.schema.celExpression index])
    (fun index => rulePrefix ++ [indexed builder.schema.cel index]))) programs
  standard : ∃ standard, rules.type = some standard ∧
    builder.expectedRules target = some (rulesName standard) ∧
    builder.throughField target standard = some field

variable {self} {bad : Panic → Prop}

theorem avoids_compile {expressions : CelExpressions} :
    Avoids bad (self.compile expressions) := by
  unfold compile
  split
  · exact avoids_pure
  · dsimp only
    split
    · exact avoids_pure
    · split
      · exact avoids_throw
      · exact avoids_throw

theorem avoids_expectRules {target : Target} {got : String} :
    Avoids bad (self.expectRules target got) := by
  unfold expectRules
  split
  · split
    · exact avoids_pure
    · exact avoids_throw
  · exact avoids_throw

/-- The rules a target is given are the ones expected for it, or do not
compile. -/
theorem expectRules_builds {target : Target} {got : String} :
    (∃ u, Builds (self.expectRules target got) u) ↔ self.expectedRules target = some got := by
  constructor
  · rintro ⟨u, built⟩
    exact builds_expectRules built
  · intro expected
    refine ⟨(), ?_⟩
    rw [expectRules, expected]
    simp only [if_true]
    exact builds_pure.mpr rfl

theorem avoids_resolved {index : MessageIndex} :
    Avoids bad (self.resolved index) ↔ self.Answers bad index := by
  rw [resolved, avoids_orPanic, Answers]

theorem avoids_field {field : FieldDescriptor} : Avoids bad (self.field field) ↔
    ∀ index, messageType field = some index → self.Answers bad index := by
  unfold Builder.field
  cases messageType field with
  | none => simp [avoids_pure]
  | some index =>
    simp [avoids_map, avoids_resolved]

theorem avoids_checkedThrough {target : Target} {standard : RulesType} :
    Avoids bad (self.checkedThrough target standard) ↔
      ∀ field, self.throughField target standard = some field →
        ∀ index, messageType field = some index → self.Answers bad index := by
  unfold checkedThrough throughField
  cases scalar : isScalarRules standard with
  | true =>
    simp only [if_true]
    cases (self.message target).bind (·.field 1) with
    | none => simp [avoids_pure]
    | some value => simp [avoids_map, avoids_field]
  | false =>
    simp only [Bool.false_eq_true, if_false]
    have direct : Avoids bad (pure (none, none) : BuildM (Option (Field R) × Option EnumIndex)) ↔
        ∀ field, (none : Option FieldDescriptor) = some field →
          ∀ index, messageType field = some index → self.Answers bad index :=
      ⟨fun _ _ found => (by cases found), fun _ => avoids_pure⟩
    cases standard with
    | repeated rules =>
      cases kind : target.kind with
      | list element =>
        cases element with
        | message index =>
          by_cases enabled : rules.unique = some true
          · simp only [enabled, if_true]
            cases found : ((self.message target).filter
                (fun message => (wrapperRules message.fullName).isSome)).bind (·.field 1) with
            | none => simp [avoids_throw]
            | some value => simp [avoids_map, avoids_field]
          · simp only [enabled, if_false]
            exact direct
        | scalar _ | enum _ => exact direct
      | singular _ | map _ _ => exact direct
    | _ => exact direct

section Schema
variable (schema : ∀ what, bad (.missing what) → self.Complete)
include schema

theorem avoids_standardChecks {standard : RulesType} {rulePrefix : List FieldPathElement}
    {enum : Option EnumIndex} :
    Avoids bad (self.standardChecks (rulesName standard) standard rulePrefix enum) := by
  unfold standardChecks
  rw [avoids_bind, avoids_orPanic]
  refine ⟨fun missing => ?_, fun index found => ?_⟩
  · obtain ⟨⟨index, found, -⟩, -⟩ := schema _ missing standard
    exact Option.isSome_iff_exists.mpr ⟨index, found⟩
  rw [builds_orPanic] at found
  dsimp only
  split
  · exact avoids_bind.mpr ⟨avoids_throw, fun _ built => absurd built builds_throw⟩
  · rw [avoids_bind, avoids_orPanic]
    refine ⟨fun missing => (schema _ missing standard).2, fun typeElement _ => ?_⟩
    refine avoids_bind.mpr ⟨avoids_ofExcept, fun _ _ => ?_⟩
    refine avoids_bind.mpr ⟨avoids_mapM fun number member => ?_, fun _ _ => avoids_pure⟩
    rw [avoids_orPanic]
    intro missing
    obtain ⟨⟨index', found', fields⟩, -⟩ := schema _ missing standard
    obtain rfl := Option.some.inj (found'.symm.trans found)
    exact fields number (placedNumbers_declared number member)

theorem avoids_standardRules {target : Target} {standard : RulesType}
    {rulePrefix : List FieldPathElement} :
    Avoids bad (self.standardRules target standard rulePrefix) ↔
      (self.expectedRules target = some (rulesName standard) →
        ∀ field, self.throughField target standard = some field →
          ∀ index, messageType field = some index → self.Answers bad index) := by
  unfold standardRules
  rw [avoids_bind, ← avoids_checkedThrough, ← expectRules_builds]
  constructor
  · rintro ⟨-, rest⟩ ⟨u, built⟩
    exact (avoids_bind.mp (rest u built)).1
  · intro through
    refine ⟨avoids_expectRules, fun u built => ?_⟩
    rw [avoids_bind]
    refine ⟨through ⟨u, built⟩, fun _ _ => ?_⟩
    exact avoids_bind.mpr ⟨avoids_standardChecks schema, fun _ _ => avoids_pure⟩

theorem avoids_buildValue {target : Target} {rules : FieldRules}
    {rulePrefix : List FieldPathElement} :
    Avoids bad (self.buildValue target rules rulePrefix) ↔
      ∀ field, self.Through target rules rulePrefix field →
        ∀ index, messageType field = some index → self.Answers bad index := by
  unfold buildValue
  rw [avoids_bind]
  constructor
  · rintro ⟨-, rest⟩ field ⟨⟨programs, custom⟩, standard, set, expected, through⟩
    have value := rest programs custom
    rw [set] at value
    exact (avoids_standardRules schema).mp (avoids_bind.mp value).1 expected field through
  · intro through
    refine ⟨avoids_compile, fun programs custom => ?_⟩
    split
    · rename_i standard set
      rw [avoids_bind, avoids_standardRules schema]
      refine ⟨fun expected field found => ?_, fun _ _ => ?_⟩
      · exact through field ⟨⟨programs, custom⟩, standard, set, expected, found⟩
      · exact avoids_bind.mpr ⟨avoids_compile, fun _ _ => avoids_pure⟩
    · exact avoids_pure

theorem avoids_buildItem {target : Target} {rules : Option FieldRules}
    {rulePrefix : List FieldPathElement} :
    Avoids bad (self.buildItem target rules rulePrefix) ↔
      ∀ set, rules = some set → set.ignore ≠ some .always →
        ∀ field, self.Through target set rulePrefix field →
          ∀ index, messageType field = some index → self.Answers bad index := by
  unfold buildItem
  cases rules with
  | none => simp [avoids_pure]
  | some rules =>
    by_cases ignored : rules.ignore = some .always
    · simp [avoids_pure, ignored]
    · simp only [ignored, if_false, avoids_bind, avoids_buildValue schema, avoids_pure,
        implies_true, and_true, Option.some.injEq, forall_eq', ne_eq, not_false_eq_true,
        forall_const]

end Schema

theorem avoids_list {field : FieldDescriptor} {target : Target} {remaining : Option RulesType}
    {element : SingularKind} (kind : target.kind = .list element) :
    Avoids bad (self.buildKind field target remaining) ↔
      Avoids bad (self.buildItem (.item element target.name) (itemsOf remaining)
        [self.schema.repeated, self.schema.repeatedItems]) := by
  unfold buildKind
  rw [kind]
  dsimp only
  rw [avoids_bind, avoids_mapErr]
  constructor
  · exact And.left
  · exact fun items => ⟨items, fun _ _ => avoids_pure⟩

theorem avoids_map_field {field : FieldDescriptor} {target : Target}
    {remaining : Option RulesType} {key : Scalar} {element : SingularKind}
    (kind : target.kind = .map key element) :
    Avoids bad (self.buildKind field target remaining) ↔
      Avoids bad (self.buildItem (.item (.scalar key) { target.name with entry := some "key" })
        (entriesOf remaining).1 [self.schema.map, self.schema.mapKeys]) ∧
      ∀ keys, Builds (self.buildItem
          (.item (.scalar key) { target.name with entry := some "key" })
          (entriesOf remaining).1 [self.schema.map, self.schema.mapKeys]) keys →
        Avoids bad (self.buildItem (.item element { target.name with entry := some "value" })
          (entriesOf remaining).2 [self.schema.map, self.schema.mapValues]) := by
  unfold buildKind
  rw [kind]
  dsimp only
  rw [avoids_bind, avoids_mapErr]
  refine and_congr_right fun _ => forall_congr' fun keys => ?_
  rw [builds_mapErr, avoids_bind, avoids_mapErr]
  refine imp_congr_right fun _ => ?_
  constructor
  · exact And.left
  · exact fun values => ⟨values, fun _ _ => avoids_pure⟩

/-- The builder comes to the rules of a field when it builds a message type. -/
structure ComesToField (builder : Builder R) (index : MessageIndex) (field : FieldDescriptor)
    (rules : FieldRules) : Prop where
  level : ∃ level cel, Builds (builder.messageLevel (builder.pool.message index)) (level, cel) ∧
    rules = fieldRules level.members field
  member : field ∈ (builder.pool.message index).fields
  kept : rules.ignore ≠ some .always

/-- The values whose rules the builder comes to when it builds a message type:
those of fields, and of the items of a container once its own rules compile. -/
inductive Comes (self : Builder R) (index : MessageIndex) :
    Target → FieldRules → List FieldPathElement → Prop
  | field {field : FieldDescriptor} {rules : FieldRules} :
    ComesToField self index field rules →
    Comes self index (.field (self.pool.message index) field) rules []
  | item {field : FieldDescriptor} {rules items : FieldRules} {element : SingularKind}
      {value : ValueValidator R} {remaining : Option RulesType} :
    ComesToField self index field rules →
    Builds (self.buildValue (.field (self.pool.message index) field) rules [])
      (value, remaining) →
    field.kind = .list element → itemsOf rules.type = some items →
    items.ignore ≠ some .always →
    Comes self index (.item element ⟨self.pool.message index, field, none⟩) items
      [self.schema.repeated, self.schema.repeatedItems]
  | value {field : FieldDescriptor} {rules values : FieldRules} {key : Scalar}
      {element : SingularKind} {value : ValueValidator R} {remaining : Option RulesType}
      {keys : Option (ItemValidator R)} :
    ComesToField self index field rules →
    Builds (self.buildValue (.field (self.pool.message index) field) rules [])
      (value, remaining) →
    field.kind = .map key element →
    Builds (self.buildItem (.item (.scalar key) ⟨self.pool.message index, field, some "key"⟩)
      (entriesOf rules.type).1 [self.schema.map, self.schema.mapKeys]) keys →
    (entriesOf rules.type).2 = some values → values.ignore ≠ some .always →
    Comes self index (.item element ⟨self.pool.message index, field, some "value"⟩) values
      [self.schema.map, self.schema.mapValues]

/-- The builder asks for the type of messages that a wrapper's field holds. -/
def AsksThrough (self : Builder R) (index nested : MessageIndex) : Prop :=
  ∃ target rules rulePrefix field, Comes self index target rules rulePrefix ∧
    self.Through target rules rulePrefix field ∧ messageType field = some nested

/-- The rules of a scalar are no other well-known type's, nor a container's. -/
theorem rulesName_scalar {standard : RulesType} (scalar : isScalarRules standard = true) :
    rulesName standard ∉ ["repeated", "map", "any", "duration", "field_mask", "timestamp"] := by
  cases standard <;> simp [isScalarRules] at scalar <;> simp [rulesName]

theorem wellKnownRules_wrapper {name rules : String} (found : wellKnownRules name = some rules)
    (other : rules ∉ ["repeated", "map", "any", "duration", "field_mask", "timestamp"]) :
    (wrapperRules name).isSome := by
  unfold wellKnownRules at found
  repeat' split at found
  all_goals first
    | rw [found]; rfl
    | cases found; simp at other

/-- What rules are checked through is the first field of a wrapper. -/
theorem Through.wrapper {target : Target} {rules : FieldRules}
    {rulePrefix : List FieldPathElement} {field : FieldDescriptor}
    (through : self.Through target rules rulePrefix field) :
    ∃ index, target.value = .message index ∧
      (wrapperRules (self.pool.message index).fullName).isSome ∧
      (self.pool.message index).field 1 = some field := by
  obtain ⟨standard, -, expected, found⟩ := through.standard
  unfold throughField at found
  split at found
  · rename_i scalar
    have other := rulesName_scalar scalar
    obtain ⟨message, holds, first⟩ := Option.bind_eq_some_iff.mp found
    unfold Builder.message at holds
    split at holds
    · rename_i index held
      cases holds
      refine ⟨index, held, ?_, first⟩
      unfold expectedRules at expected
      unfold Target.value at held
      cases kind : target.kind with
      | list element =>
        rw [kind, Option.some.injEq] at expected
        rw [← expected] at other
        exact absurd other (by simp)
      | map key value =>
        rw [kind, Option.some.injEq] at expected
        rw [← expected] at other
        exact absurd other (by simp)
      | singular single =>
        rw [kind] at expected held
        cases held
        exact wellKnownRules_wrapper expected other
    · cases holds
  · split at found
    · rename_i rules index kind container
      split at found
      · obtain ⟨message, holds, first⟩ := Option.bind_eq_some_iff.mp found
        obtain ⟨holds, wraps⟩ := Option.filter_eq_some_iff.mp holds
        simp only [Builder.message, Target.value, kind, Option.some.injEq] at holds
        subst holds
        exact ⟨index, by rw [Target.value, kind], wraps, first⟩
      · cases found
    · cases found

/-- Nothing is checked through the keys of a map. -/
theorem not_through_scalar {scalar : Scalar} {name : TargetName} {rules : FieldRules}
    {rulePrefix : List FieldPathElement} {field : FieldDescriptor} :
    ¬self.Through (.item (.scalar scalar) name) rules rulePrefix field := by
  intro through
  obtain ⟨index, held, -⟩ := through.wrapper
  cases held

section Message
variable {index : MessageIndex}

section Own
variable (held : ∀ nested ∈ referenced self.pool index, self.Answers bad nested)
include held

theorem avoids_own {field : FieldDescriptor} (member : field ∈ (self.pool.message index).fields) :
    Avoids bad (self.field field) :=
  avoids_field.mpr fun nested holds =>
    held nested (List.mem_filterMap.mpr ⟨field, member, holds⟩)

theorem avoids_oneofFields (seen names : List String) :
    Avoids bad (self.oneofFields (self.pool.message index) seen names) := by
  induction names generalizing seen with
  | nil => exact avoids_pure
  | cons name rest ih =>
    unfold oneofFields
    split
    · exact avoids_throw
    · split
      · exact avoids_throw
      · rename_i field found
        rw [avoids_bind]
        refine ⟨avoids_own held (List.mem_of_find?_eq_some found), fun _ _ => ?_⟩
        exact avoids_bind.mpr ⟨ih _, fun _ _ => avoids_pure⟩

theorem avoids_messageOneofs (rules : List MessageOneofRule) :
    Avoids bad (self.messageOneofs (self.pool.message index) rules) := by
  refine avoids_bind.mpr ⟨avoids_mapM fun oneof _ => ?_, fun _ _ => avoids_pure⟩
  unfold messageOneof
  split
  · exact avoids_throw
  · exact avoids_bind.mpr
      ⟨avoids_oneofFields held [] oneof.fields, fun _ _ => avoids_pure⟩

theorem avoids_requiredOneofs : Avoids bad (self.requiredOneofs (self.pool.message index)) := by
  refine avoids_mapM fun oneof _ => avoids_bind.mpr ⟨avoids_mapM ?_, fun _ _ => avoids_pure⟩
  intro field member
  obtain ⟨position, -, found⟩ := List.mem_filterMap.mp member
  exact avoids_own held (List.mem_of_getElem? found)

end Own

variable (schema : ∀ what, bad (.missing what) → self.Complete)
include schema

/-- What the builder asks for in building the rules of a field. -/
theorem avoids_buildField {field : FieldDescriptor} {rules : FieldRules}
    (comes : rules.ignore ≠ some .always → self.ComesToField index field rules)
    (own : Avoids bad (self.field field))
    (through : ∀ nested, self.AsksThrough index nested → self.Answers bad nested) :
    Avoids bad (self.buildField (self.pool.message index) field rules) := by
  unfold buildField
  split
  · exact avoids_pure
  · rename_i kept
    have comes := comes kept
    rw [avoids_bind, avoids_buildValue schema]
    refine ⟨fun value found nested holds => ?_, fun ⟨value, remaining⟩ built => ?_⟩
    · exact through nested ⟨_, _, _, value, .field comes, found, holds⟩
    · obtain ⟨items, entries⟩ := remaining_buildValue built
      refine avoids_bind.mpr ⟨?_, fun _ _ => avoids_bind.mpr ⟨own, fun _ _ => avoids_pure⟩⟩
      cases kind : field.kind with
      | singular single =>
        have singular : (Target.field (self.pool.message index) field).kind = .singular single :=
          kind
        unfold buildKind
        rw [singular]
        exact avoids_pure
      | list element =>
        have list : (Target.field (self.pool.message index) field).kind = .list element := kind
        rw [avoids_list list, items]
        refine (avoids_buildItem schema).mpr fun set ruled kept value found nested holds => ?_
        exact through nested ⟨_, _, _, value, .item comes built kind ruled kept, found, holds⟩
      | map key element =>
        have map : (Target.field (self.pool.message index) field).kind = .map key element := kind
        rw [avoids_map_field map, entries]
        refine ⟨(avoids_buildItem schema).mpr fun set _ _ value found => ?_,
          fun keys first => ?_⟩
        · exact absurd found not_through_scalar
        · refine (avoids_buildItem schema).mpr fun set ruled kept value found nested holds =>
            ?_
          exact through nested
            ⟨_, _, _, value, .value comes built kind first ruled kept, found, holds⟩

/-- Building a message asks for its type, the types its fields hold, and those
that its rules are checked through. -/
theorem avoids_buildMessage (present : self.Answers bad index)
    (held : ∀ nested ∈ referenced self.pool index, self.Answers bad nested)
    (through : ∀ nested, self.AsksThrough index nested → self.Answers bad nested) :
    Avoids bad (self.buildMessage index) := by
  refine avoids_bind.mpr ⟨avoids_messageOneofs held _, fun level oneofs => ?_⟩
  have messageCel : Avoids bad (self.messageCel (self.pool.message index)) := by
    unfold messageCel
    split
    · exact avoids_compile
    · exact avoids_pure
  refine avoids_bind.mpr ⟨messageCel, fun cel compiled => ?_⟩
  have level_built : Builds (self.messageLevel (self.pool.message index)) (level, cel) :=
    builds_bind.mpr ⟨level, oneofs, builds_bind.mpr ⟨cel, compiled, builds_pure.mpr rfl⟩⟩
  refine avoids_bind.mpr ⟨avoids_mapM fun field member => ?_, fun _ _ => ?_⟩
  · unfold fieldEntry
    split
    · exact avoids_pure
    · rw [avoids_bind, avoids_caught]
      refine ⟨avoids_buildField schema (fun kept => ?_) (avoids_own held member)
        through, fun result _ => ?_⟩
      · exact ⟨⟨level, cel, level_built, rfl⟩, member, kept⟩
      · cases result with
        | error error => exact avoids_pure
        | ok validator => exact avoids_pure
  · refine avoids_bind.mpr ⟨avoids_resolved.mpr present, fun _ _ => ?_⟩
    exact avoids_bind.mpr ⟨avoids_requiredOneofs held, fun _ _ => avoids_pure⟩

end Message

/-- The builder comes to each field of a message it builds without a panic. -/
theorem settles_field {index : MessageIndex}
    (avoids : Settles (self.buildMessage index)) {field : FieldDescriptor}
    {rules : FieldRules} (comes : self.ComesToField index field rules)
    (ruled : rules.type ≠ none) :
    Settles (self.buildField (self.pool.message index) field rules) := by
  obtain ⟨⟨level, cel, built, rfl⟩, member, -⟩ := comes
  obtain ⟨level', oneofs, rest⟩ := builds_bind.mp built
  obtain ⟨cel', compiled, same⟩ := builds_bind.mp rest
  cases builds_pure.mp same
  have cel_avoids := (avoids_bind.mp avoids).2 level oneofs
  have fields := (avoids_bind.mp ((avoids_bind.mp cel_avoids).2 cel compiled)).1
  have entry := settles_of_mapM (fun _ _ => fails_fieldEntry) fields field member
  unfold fieldEntry at entry
  split at entry
  · rename_i unruled
    simp only [Bool.and_eq_true, Option.isNone_iff_eq_none] at unruled
    exact absurd (by rw [Validator.fieldRules_type, unruled.1]; rfl) ruled
  · exact avoids_caught.mp (avoids_bind.mp entry).1

/-- A build that does not panic had every type it asked for. -/
theorem asked_resolved (complete : self.Complete) {index nested : MessageIndex}
    (avoids : Settles (self.buildMessage index))
    (asks : self.AsksThrough index nested) : (self.types nested).isSome := by
  have schema : ∀ _ : String, True → self.Complete := fun _ _ => complete
  obtain ⟨target, rules, rulePrefix, value, comes, through, holds⟩ := asks
  -- What the rules of a field go on with once they compile.
  have goes : ∀ {field rules}, self.ComesToField index field rules → rules.type ≠ none →
      Settles
        (self.buildValue (.field (self.pool.message index) field) rules []) ∧
      ∀ value remaining, Builds
          (self.buildValue (.field (self.pool.message index) field) rules []) (value, remaining) →
        Settles (self.buildKind field (.field (self.pool.message index) field) remaining) := by
    intro field rules comes ruled
    have field := settles_field avoids comes ruled
    unfold buildField at field
    rw [if_neg comes.kept] at field
    obtain ⟨value, rest⟩ := avoids_bind.mp field
    exact ⟨value, fun value remaining built => (avoids_bind.mp (rest _ built)).1⟩
  cases comes with
  | field comes =>
    obtain ⟨standard, set, -⟩ := through.standard
    have field := (goes comes (by simp [set])).1
    exact (avoids_buildValue schema).mp field value through nested holds trivial
  | @item field rules items element _ _ comes built kind ruled kept =>
    have set : rules.type ≠ none := by
      intro unset
      rw [unset] at ruled
      cases ruled
    have list : (Target.field (self.pool.message index) field).kind = .list element := kind
    have held := (avoids_list list).mp ((goes comes set).2 _ _ built)
    rw [(remaining_buildValue built).1] at held
    exact (avoids_buildItem schema).mp held _ ruled kept value through nested holds trivial
  | @value field rules values key element _ _ keys comes built kind first ruled kept =>
    have set : rules.type ≠ none := by
      intro unset
      rw [unset] at ruled
      cases ruled
    have map : (Target.field (self.pool.message index) field).kind = .map key element := kind
    have held := (avoids_map_field map).mp ((goes comes set).2 _ _ built)
    rw [(remaining_buildValue built).2] at held
    exact (avoids_buildItem schema).mp (held.2 keys first) _ ruled kept value through nested holds
      trivial

/-- The messages that a wrapper's field holds, where rules are checked through
it, are of a type that is resolved for another reason. -/
def Covered (builder : Builder R) (root : MessageIndex) (known : ValidatorCache R) : Prop :=
  ∀ index ∈ closure builder.pool root known, ∀ nested, builder.AsksThrough index nested →
    Refers builder.pool root known nested

/-- A wrapper in the closure is covered by its own fields. -/
theorem asksThrough_known {root index nested : MessageIndex} {known : ValidatorCache R}
    (member : index ∈ closure self.pool root known) (asks : self.AsksThrough index nested) :
    Refers self.pool root known nested ∨ ∃ wrapper, (known wrapper).isSome ∧
      wrapper ∈ referenced self.pool index ∧ nested ∈ referenced self.pool wrapper ∧
      (wrapperRules (self.pool.message wrapper).fullName).isSome := by
  obtain ⟨target, rules, rulePrefix, value, comes, through, holds⟩ := asks
  obtain ⟨wrapper, held, wraps, first⟩ := through.wrapper
  have edge : wrapper ∈ referenced self.pool index := by
    cases comes with
    | @field field _ comes =>
      refine List.mem_filterMap.mpr ⟨field, comes.member, ?_⟩
      have held : (Target.field (self.pool.message index) field).value = .message wrapper := held
      unfold Target.value Target.field at held
      unfold messageType
      cases kind : field.kind <;> simp_all
    | item comes _ kind _ _ =>
      cases held
      exact List.mem_filterMap.mpr ⟨_, comes.member, by simp [messageType, kind]⟩
    | value comes _ kind _ _ _ =>
      cases held
      exact List.mem_filterMap.mpr ⟨_, comes.member, by simp [messageType, kind]⟩
  have inner : nested ∈ referenced self.pool wrapper :=
    List.mem_filterMap.mpr ⟨value, List.mem_of_find?_eq_some first, holds⟩
  cases had : (known wrapper).isSome with
  | true => exact .inr ⟨wrapper, had, edge, inner, wraps⟩
  | false =>
    have inside : wrapper ∈ closure self.pool root known :=
      FiniteGraph.mem_search.mpr (.step (FiniteGraph.mem_search.mp member) edge had)
    exact .inl ⟨wrapper, inside, .inr inner⟩

/-- The standard wrappers are covered, as they hold no messages. -/
theorem standard_covered (wrappers : self.pool.StandardWrappers) (root : MessageIndex)
    (known : ValidatorCache R) : self.Covered root known := by
  rintro index - nested ⟨target, rules, rulePrefix, field, -, through, holds⟩
  obtain ⟨wrapper, -, wraps, first⟩ := through.wrapper
  obtain ⟨name, named⟩ := Option.isSome_iff_exists.mp wraps
  obtain ⟨value, scalar, first', kind, -⟩ := wrappers wrapper name named
  rw [first, Option.some.injEq] at first'
  rw [first', messageType, kind] at holds
  cases holds

variable (bad) in
/-- Where every message of the closure avoids a panic, the build does. -/
theorem avoids_buildClosure {root : MessageIndex} {known : ValidatorCache R}
    (each : ∀ index ∈ closure self.pool root known, Avoids bad (self.buildMessage index))
    {panic : Panic} (worse : bad panic) : self.buildClosure root known ≠ .error panic := by
  have loop : (closure self.pool root known).mapM (fun index =>
      (self.buildMessage index).run.map fun message => (index, message)) ≠ .error panic := by
    generalize closure self.pool root known = indices at each
    induction indices with
    | nil =>
      intro failed
      cases failed
    | cons index indices ih =>
      have first := each index List.mem_cons_self panic worse
      have rest := ih fun index' later => each index' (List.mem_cons_of_mem index later)
      intro failed
      rw [List.mapM_cons] at failed
      cases made : (self.buildMessage index).run with
      | error panic' =>
        rw [made] at failed first
        cases failed
        exact first rfl
      | ok message =>
        rw [made] at failed
        cases later : indices.mapM (fun index =>
            (self.buildMessage index).run.map fun message => (index, message)) with
        | error panic' =>
          rw [later] at failed rest
          cases failed
          exact rest rfl
        | ok messages =>
          rw [later] at failed
          cases failed
  intro failed
  unfold buildClosure at failed
  cases made : (closure self.pool root known).mapM (fun index =>
      (self.buildMessage index).run.map fun message => (index, message)) with
  | error panic' =>
    rw [made] at failed loop
    cases failed
    exact loop rfl
  | ok messages =>
    rw [made] at failed
    cases failed

/-- A build that does not panic made each message of the closure. -/
theorem settles_buildClosure {root : MessageIndex} {known built : ValidatorCache R}
    (done : self.buildClosure root known = .ok built) {index : MessageIndex}
    (member : index ∈ closure self.pool root known) : Settles (self.buildMessage index) := by
  obtain ⟨messages, made⟩ := buildClosure_built done
  obtain ⟨message, found⟩ := Option.isSome_iff_exists.mp ((made.indices index).mpr member)
  intro panic _ failed
  rw [made.made index message found] at failed
  cases failed

/-- With the types that were resolved for it, a build asks for no other,
provided that the wrappers are covered. Where the pool has the schema of the
rules, it asks for no other only then. -/
theorem closure_resolved_iff (self : Builder R) {root : MessageIndex} {known : ValidatorCache R}
    {reader : String → Except R.Error R.MessageType}
    (done : Protovalidate.resolve self.pool root known reader = .ok self.types) :
    (self.Covered root known →
      ∀ fullName, self.buildClosure root known ≠ .error (.unresolved fullName)) ∧
    (self.Complete →
      ((∀ fullName, self.buildClosure root known ≠ .error (.unresolved fullName)) ↔
        self.Covered root known)) := by
  have refers := resolve_refers done
  have safe : self.Covered root known →
      ∀ fullName, self.buildClosure root known ≠ .error (.unresolved fullName) := by
    intro covered fullName
    refine avoids_buildClosure (fun panic => ∃ fullName, panic = .unresolved fullName)
      (fun index member => ?_) ⟨fullName, rfl⟩
    refine avoids_buildMessage ?_ (fun _ => ?_) (fun nested held _ => ?_) fun nested asks _ => ?_
    · rintro _ ⟨_, same⟩
      cases same
    · exact (refers index).mpr ⟨index, member, .inl rfl⟩
    · exact (refers nested).mpr ⟨index, member, .inr held⟩
    · exact (refers nested).mpr (covered index member nested asks)
  refine ⟨safe, fun complete => ⟨fun resolved index member nested asks => ?_, safe⟩⟩
  have present : ∀ what, self.buildClosure root known ≠ .error (.missing what) := by
    intro what
    have vacuous : ∀ nested, self.Answers (fun panic => ∃ what, panic = .missing what) nested := by
      rintro nested ⟨_, same⟩
      cases same
    refine avoids_buildClosure (fun panic => ∃ what, panic = .missing what)
      (fun index _ => ?_) ⟨what, rfl⟩
    exact avoids_buildMessage (fun _ _ => complete) (vacuous index) (fun nested _ => vacuous nested)
      fun nested _ => vacuous nested
  cases made : self.buildClosure root known with
  | error panic =>
    cases panic with
    | unresolved fullName => exact absurd made (resolved fullName)
    | missing what => exact absurd made (present what)
  | ok built =>
    exact (refers nested).mp (asked_resolved complete (settles_buildClosure made member) asks)

end Builder

/-- A message with a field of a type named as the wrapper of `bool`, which holds
messages, and the rules of the field: it must be true. -/
def heldPool : DescriptorPool where
  messages := [
    { fullName := "Flags"
      fields := [plainField 1 "flag" (.singular (.message 1))
        (some ⟨[], [], none, none, some (.bool ⟨some true, [], []⟩)⟩) one_allowed]
      oneofs := []
      messageRules := none
      numbersDistinct := List.nodup_singleton _
      namesDistinct := List.nodup_singleton _ },
    { fullName := "google.protobuf.BoolValue"
      fields := [plainField 1 "value" (.singular (.message 2)) none one_allowed]
      oneofs := []
      messageRules := none
      numbersDistinct := List.nodup_singleton _
      namesDistinct := List.nodup_singleton _ },
    { fullName := "Held"
      fields := []
      oneofs := []
      messageRules := none
      numbersDistinct := List.nodup_nil
      namesDistinct := List.nodup_nil },
    { fullName := FIELD_RULES
      fields := [plainField 13 "bool" (.singular (.message 4)) none thirteen_allowed]
      oneofs := []
      messageRules := none
      numbersDistinct := List.nodup_singleton _
      namesDistinct := List.nodup_singleton _ },
    boolRulesMessage]
  enums := []
  extensions := []
  linked := by simp [boolRulesMessage, messageType]

def heldValidator : Validator ⟨Empty, Unit⟩ where
  descriptors := ⟨heldPool, ⟨3, {}, {}, {}, {}, {}, {}, {}, {}⟩⟩
  env := ⟨fun _ _ => .ok ⟨fun _ _ => .ok (.bool true)⟩, fun name bytes => .ok ⟨name, bytes⟩⟩
  backend := Backend.bare
  reflection := ⟨fun _ _ => false, fun _ _ => [], fun _ => []⟩
  resolve _ := .ok ()

section Held
variable {known : ValidatorCache ⟨Empty, Unit⟩}

theorem held_edges : referenced heldPool 0 = [1] ∧ referenced heldPool 1 = [2] ∧
    referenced heldPool 2 = [] := ⟨rfl, rfl, rfl⟩

/-- With the wrapper known, the closure of the message that has it is the
message alone. -/
theorem held_closure (fresh : known 0 = none) (had : (known 1).isSome) :
    closure heldPool 0 known = [0] := by
  simp [closure, FiniteGraph.search, typeGraph, held_edges, fresh, had]

theorem held_closure_wrapper :
    closure heldPool 1 (fun _ => none : ValidatorCache ⟨Empty, Unit⟩) = [2, 1] := by
  simp [closure, FiniteGraph.search, typeGraph, held_edges]

/-- A call for the wrapper builds it and what it holds. -/
theorem held_build : ∃ known, heldValidator.build 1 (fun _ => none) = .ok known ∧
    known 0 = none ∧ (known 1).isSome := by
  have types : closure heldValidator.pool 1 (fun _ => none : ValidatorCache ⟨Empty, Unit⟩) =
      [2, 1] := held_closure_wrapper
  have messages : ∀ types, closure (heldValidator.builder types).pool 1
      (fun _ => none : ValidatorCache ⟨Empty, Unit⟩) = [2, 1] := fun _ => held_closure_wrapper
  simp only [Validator.build, resolve, Builder.buildClosure, types, messages]
  exact ⟨_, rfl, rfl, rfl⟩

/-- A validator that has built the wrapper panics on the message that has it:
the type of the messages the wrapper holds was not resolved. -/
theorem wrapper_unresolved : ∃ known types,
    heldValidator.build 1 (fun _ => none) = .ok known ∧
    resolve heldValidator.pool 0 known heldValidator.resolve = .ok types ∧
    (heldValidator.builder types).buildClosure 0 known = .error (.unresolved "Held") := by
  obtain ⟨known, made, fresh, had⟩ := held_build
  have closes : closure heldValidator.pool 0 known = [0] := held_closure fresh had
  have again : ∀ types, closure (heldValidator.builder types).pool 0 known = [0] :=
    fun _ => held_closure fresh had
  have edges : referenced heldValidator.pool 0 = [1] := rfl
  obtain ⟨entry, had⟩ := Option.isSome_iff_exists.mp had
  have resolves : resolve heldValidator.pool 0 known heldValidator.resolve =
      .ok fun index => [(1, ()), (0, ())].lookup index := by
    simp only [resolve, closes, edges, List.flatMap_cons, List.flatMap_nil, List.append_nil,
      List.foldlM_cons, fresh, had]
    cases entry <;> rfl
  refine ⟨known, _, made, resolves, ?_⟩
  have panics : ((heldValidator.builder fun index =>
      [(1, ()), (0, ())].lookup index).buildMessage 0).run = .error (.unresolved "Held") := rfl
  simp only [Builder.buildClosure, again, List.mapM_cons, panics]
  rfl

/-- With nothing known, the wrapper is in the closure itself. -/
theorem closure_resolved_iff_held : ∃ types,
    resolve heldValidator.pool 0 (fun _ => none) heldValidator.resolve = .ok types ∧
    ∀ fullName, (heldValidator.builder types).buildClosure 0 (fun _ => none) ≠
      .error (.unresolved fullName) := by
  have closes : closure heldValidator.pool 0 (fun _ => none : ValidatorCache ⟨Empty, Unit⟩) =
      [2, 1, 0] := by
    change closure heldPool 0 _ = _
    simp [closure, FiniteGraph.search, typeGraph, held_edges]
  have resolves : ∃ types,
      resolve heldValidator.pool 0 (fun _ => none) heldValidator.resolve = .ok types := by
    simp only [resolve, closes]
    exact ⟨_, rfl⟩
  obtain ⟨types, done⟩ := resolves
  have covered : (heldValidator.builder types).Covered 0 (fun _ => none) := by
    intro index member nested asks
    rcases Builder.asksThrough_known member asks with refers | ⟨wrapper, had, -⟩
    · exact refers
    · cases had
  exact ⟨types, done, ((heldValidator.builder types).closure_resolved_iff done).1 covered⟩

end Held

end Protovalidate
