import Protovalidate.Build

/-!
# What the builder builds

One lemma for each function of the builder: when it succeeds, what it was
built from.
-/

namespace Protovalidate

namespace BuildM
variable {α β : Type}

/-- The step succeeds, with a result. -/
def Builds (x : BuildM α) (a : α) : Prop := x.run = .ok (.ok a)

theorem builds_pure {a b : α} : Builds (pure a) b ↔ a = b := by
  simp [Builds, pure, ExceptT.pure, ExceptT.mk, ExceptT.run, Except.pure]

theorem builds_bind {x : BuildM α} {f : α → BuildM β} {b : β} :
    Builds (x >>= f) b ↔ ∃ a, Builds x a ∧ Builds (f a) b := by
  unfold Builds
  rw [ExceptT.run_bind]
  rcases x.run with panic | error | a <;> simp [bind, Except.bind, pure, Except.pure]

theorem builds_throw {message : String} {a : α} :
    ¬ Builds (throw message : BuildM α) a := by
  simp [Builds, throw, throwThe, MonadExceptOf.throw, ExceptT.run, ExceptT.mk, pure, Except.pure]

theorem builds_orPanic {value : Option α} {panic : Panic} {a : α} :
    Builds (orPanic value panic) a ↔ value = some a := by
  cases value <;> simp [Builds, orPanic, ExceptT.run, ExceptT.mk]

theorem builds_ofExcept {x : Except String α} {a : α} : Builds (ofExcept x) a ↔ x = .ok a := by
  simp [Builds, ofExcept, ExceptT.run, ExceptT.mk]

theorem builds_mapErr {f : String → String} {x : BuildM α} {a : α} :
    Builds (mapErr f x) a ↔ Builds x a := by
  unfold Builds mapErr
  rw [ExceptT.run_mk]
  rcases x.run with panic | error | b <;> simp [Except.map, Except.mapError]

theorem builds_caught {x : BuildM α} {r : Except String α} :
    Builds x.caught r ↔ x.run = .ok r := by
  unfold Builds caught
  rw [ExceptT.run_mk]
  rcases x.run with panic | error | b <;> simp [Except.map]

theorem builds_mapM {f : α → BuildM β} {xs : List α} {ys : List β} :
    Builds (xs.mapM f) ys ↔ List.Forall₂ (fun x y => Builds (f x) y) xs ys := by
  induction xs generalizing ys with
  | nil => cases ys <;> simp [builds_pure]
  | cons x xs ih =>
    simp only [List.mapM_cons, builds_bind, builds_pure, ih]
    constructor
    · rintro ⟨y, first, ys, rest, rfl⟩
      exact .cons first rest
    · intro built
      cases built with
      | cons first rest => exact ⟨_, first, _, rest, rfl⟩

/-- The step fails, with the message of a rule that does not compile. -/
def Fails (x : BuildM α) (error : String) : Prop := x.run = .ok (.error error)

theorem fails_pure {a : α} {error : String} : ¬ Fails (pure a : BuildM α) error := by
  simp [Fails, pure, ExceptT.pure, ExceptT.mk, ExceptT.run, Except.pure]

theorem fails_bind {x : BuildM α} {f : α → BuildM β} {error : String} :
    Fails (x >>= f) error ↔ Fails x error ∨ ∃ a, Builds x a ∧ Fails (f a) error := by
  unfold Fails Builds
  rw [ExceptT.run_bind]
  rcases x.run with panic | failed | a <;> simp [bind, Except.bind, pure, Except.pure]

theorem fails_orPanic {value : Option α} {panic : Panic} {error : String} :
    ¬ Fails (orPanic value panic) error := by
  cases value <;> simp [Fails, orPanic, ExceptT.run, ExceptT.mk]

theorem fails_caught {x : BuildM α} {error : String} : ¬ Fails x.caught error := by
  unfold Fails caught
  rw [ExceptT.run_mk]
  rcases x.run with panic | failed | b <;> simp [Except.map]

theorem fails_mapM {f : α → BuildM β} {xs : List α} {error : String}
    (failed : Fails (xs.mapM f) error) : ∃ x ∈ xs, Fails (f x) error := by
  induction xs with
  | nil => exact absurd failed fails_pure
  | cons x xs ih =>
    rw [List.mapM_cons, fails_bind] at failed
    rcases failed with failed | ⟨y, -, failed⟩
    · exact ⟨x, List.mem_cons_self, failed⟩
    · rcases fails_bind.mp failed with failed | ⟨ys, -, failed⟩
      · obtain ⟨x', later, failed⟩ := ih failed
        exact ⟨x', List.mem_cons_of_mem x later, failed⟩
      · exact absurd failed fails_pure

end BuildM

/-- What was built, from what it was built from. -/
theorem exists_left {α β : Type} {P : α → β → Prop} {xs : List α} {ys : List β}
    (made : List.Forall₂ P xs ys) {y : β} (present : y ∈ ys) : ∃ x ∈ xs, P x y := by
  induction made with
  | nil => cases present
  | @cons x _ xs _ first _ ih =>
    rcases List.mem_cons.mp present with rfl | present
    · exact ⟨x, List.mem_cons_self .., first⟩
    · obtain ⟨x', member, related⟩ := ih present
      exact ⟨x', List.mem_cons_of_mem x member, related⟩

open BuildM

/-- The rules of a repeated field's items. -/
def itemsOf : Option RulesType → Option FieldRules
  | some (.repeated repeated) => repeated.items
  | _ => none

/-- The rules of a map field's keys and values. -/
def entriesOf : Option RulesType → Option FieldRules × Option FieldRules
  | some (.map map) => (map.keys, map.values)
  | _ => (none, none)

/-- The native checks leave the rules of a container's items alone. -/
theorem checks_remaining {B : Backend} {kind : String} {rules rest : RulesType} {built : Checks}
    {path : Nat → List FieldPathElement} {enum : Option EnumIndex}
    (done : checks B kind rules path enum = .ok (built, rest)) :
    itemsOf (some rest) = itemsOf (some rules) ∧
      entriesOf (some rest) = entriesOf (some rules) := by
  cases rules with
  | timestamp r =>
    simp only [checks] at done
    cases made : timestampChecks B kind r <;> simp [made, Except.map] at done
    obtain ⟨-, rfl⟩ := done
    exact ⟨rfl, rfl⟩
  | string r =>
    simp only [checks] at done
    cases made : stringChecks B kind r <;> simp [made, Except.map] at done
    obtain ⟨-, rfl⟩ := done
    exact ⟨rfl, rfl⟩
  | bytes r =>
    simp only [checks] at done
    cases made : bytesChecks B kind r <;> simp [made, Except.map] at done
    obtain ⟨-, rfl⟩ := done
    exact ⟨rfl, rfl⟩
  | _ r =>
    simp only [checks, Except.ok.injEq, Prod.mk.injEq] at done
    obtain ⟨-, rfl⟩ := done
    exact ⟨rfl, rfl⟩

namespace Builder
variable {R : Runtime} {self : Builder R}

/-- The rule path of a field of a rules message. -/
def ruleFieldPath (builder : Builder R) (index : MessageIndex)
    (rulePrefix : List FieldPathElement) (typeElement : FieldPathElement) (number : Nat) :
    List FieldPathElement :=
  rulePrefix ++
    [typeElement, (((builder.pool.message index).field number).map pathElement).getD {}]

/-- What the checks of a rules message, and the CEL rules queued after them,
are built from. -/
theorem builds_standardChecks {typeField : String} {standard remaining : RulesType}
    {rulePrefix : List FieldPathElement} {enum : Option EnumIndex} {built : Checks}
    {predefined : CelExpressions}
    (done : Builds (self.standardChecks typeField standard rulePrefix enum)
      (built, predefined, remaining)) :
    ∃ index typeElement, self.rulesMessage typeField = some index ∧
      self.schema.typeElement self.pool typeField = some typeElement ∧
      checks self.backend typeField standard (self.ruleFieldPath index rulePrefix typeElement)
        enum = .ok (built, remaining) ∧
      (∀ number ∈ placedNumbers self.backend typeField standard enum,
        ((self.pool.message index).field number).isSome) ∧
      predefined.rules = (self.reflection.setFields self.pool remaining).flatMap
        (self.predefinedRules index fun element => rulePrefix ++ [typeElement, element]) := by
  simp only [standardChecks, builds_bind, builds_orPanic] at done
  obtain ⟨index, message, done⟩ := done
  split at done
  · simp only [builds_bind, builds_throw, false_and, exists_false] at done
  · simp only [builds_pure, builds_bind, builds_orPanic, builds_ofExcept, builds_mapM] at done
    obtain ⟨typeElement, element, ⟨native, rest⟩, made, fields, placed, same⟩ := done
    simp only [Prod.mk.injEq] at same
    obtain ⟨rfl, rfl, rfl⟩ := same
    have present := placed.imp fun number field found =>
      And.intro (Option.isSome_iff_exists.mpr ⟨field, found⟩) found
    exact ⟨index, typeElement, message, element, made, ((List.forall₂_and_left _ _).mp present).1,
      rfl⟩

theorem builds_expectRules {target : Target} {got : String} {u : Unit}
    (done : Builds (self.expectRules target got) u) : self.expectedRules target = some got := by
  unfold expectRules at done
  split at done
  · rename_i expected found
    split at done
    · rw [found, ‹expected = got›]
    · exact absurd done builds_throw
  · exact absurd done builds_throw

/-- How the rules of a target are checked: those of a scalar directly or
through the wrapper that holds it, `unique` on wrapper elements through their
`value` field, and the others directly. -/
inductive CheckedThrough (self : Builder R) (target : Target) (standard : RulesType) :
    Option (Field R) → Option EnumIndex → Prop
  | scalar {wrapper : Option (Field R)} {enum : Option EnumIndex} :
    isScalarRules standard = true →
    (enum = match target.kind with
      | .singular (.enum index) => some index
      | _ => none) →
    Builds (((self.message target).bind (·.field 1)).mapM self.field) wrapper →
    CheckedThrough self target standard wrapper enum
  | unique {rules : RepeatedRules FieldRules} {index : MessageIndex} {value : FieldDescriptor}
      {wrapper : Field R} :
    standard = .repeated rules → target.kind = .list (.message index) →
    rules.unique = some true →
    (wrapperRules (self.pool.message index).fullName).isSome →
    (self.pool.message index).field 1 = some value → Builds (self.field value) wrapper →
    CheckedThrough self target standard (some wrapper) none
  | direct : isScalarRules standard = false →
    (∀ rules index, standard = .repeated rules → target.kind = .list (.message index) →
      rules.unique ≠ some true) →
    CheckedThrough self target standard none none

theorem builds_checkedThrough {target : Target} {standard : RulesType}
    {wrapper : Option (Field R)} {enum : Option EnumIndex}
    (done : Builds (self.checkedThrough target standard) (wrapper, enum)) :
    CheckedThrough self target standard wrapper enum := by
  unfold checkedThrough at done
  split at done
  · rename_i scalar
    simp only [builds_bind, builds_pure, Prod.mk.injEq] at done
    obtain ⟨_, field, rfl, rfl⟩ := done
    exact .scalar scalar rfl field
  · rename_i container
    rw [Bool.not_eq_true] at container
    split at done
    · rename_i rules index kind
      split at done
      · rename_i enabled
        dsimp only at done
        split at done
        · rename_i value found
          simp only [builds_bind, builds_pure, Prod.mk.injEq] at done
          obtain ⟨field, built, rfl, rfl⟩ := done
          obtain ⟨message, wraps, first⟩ := Option.bind_eq_some_iff.mp found
          simp only [Builder.message, Target.value, kind, Option.filter_eq_some_iff,
            Option.some.injEq] at wraps
          obtain ⟨rfl, wraps⟩ := wraps
          exact .unique rfl kind enabled wraps first built
        · exact absurd done builds_throw
      · rename_i disabled
        simp only [builds_pure, Prod.mk.injEq] at done
        obtain ⟨rfl, rfl⟩ := done
        refine .direct container fun rules index same _ => ?_
        cases same
        exact disabled
    · rename_i other
      simp only [builds_pure, Prod.mk.injEq] at done
      obtain ⟨rfl, rfl⟩ := done
      exact .direct container fun rules index same kind => absurd kind (other rules index same)

/-- What standard rules that build were built from. -/
structure StandardBuilt (builder : Builder R) (target : Target) (standard : RulesType)
    (built : StandardRules R) : Prop where
  expected : builder.expectedRules target = some (rulesName standard)
  checked : ∃ enum path, CheckedThrough builder target standard built.wrapper enum ∧
    checks builder.backend (rulesName standard) standard path enum =
      .ok (built.checks, built.remaining)

theorem builds_standardRules {target : Target} {standard : RulesType}
    {rulePrefix : List FieldPathElement} {built : StandardRules R}
    (done : Builds (self.standardRules target standard rulePrefix) built) :
    StandardBuilt self target standard built := by
  simp only [standardRules, builds_bind, builds_pure] at done
  obtain ⟨_, expected, ⟨wrapper, enum⟩, through, ⟨checks, predefined, remaining⟩, native, rfl⟩ :=
    done
  obtain ⟨_, _, -, -, native, -, -⟩ := builds_standardChecks native
  exact ⟨builds_expectRules expected, enum, _, builds_checkedThrough through, native⟩

/-- What the rules of a value were built from. -/
theorem builds_buildValue {target : Target} {rules : FieldRules}
    {rulePrefix : List FieldPathElement} {value : ValueValidator R} {remaining : Option RulesType}
    (done : Builds (self.buildValue target rules rulePrefix) (value, remaining)) :
    value.nested = target.nested ∧
    ((rules.type = none ∧ value.checks = .none ∧ value.wrapper = none ∧ remaining = none) ∨
      ∃ standard built, rules.type = some standard ∧ StandardBuilt self target standard built ∧
        value.checks = built.checks ∧ value.wrapper = built.wrapper ∧
        remaining = some built.remaining) := by
  simp only [buildValue, builds_bind] at done
  obtain ⟨custom, -, done⟩ := done
  split at done
  · rename_i standard set
    simp only [builds_bind, builds_pure, Prod.mk.injEq] at done
    obtain ⟨built, made, predefined, -, rfl, rfl⟩ := done
    exact ⟨rfl, .inr ⟨standard, built, set, builds_standardRules made, rfl, rfl, rfl⟩⟩
  · rename_i unset
    simp only [builds_pure, Prod.mk.injEq] at done
    obtain ⟨rfl, rfl⟩ := done
    exact ⟨rfl, .inl ⟨unset, rfl, rfl, rfl⟩⟩

/-- What is left of a value's standard rules has the rules of its items. -/
theorem remaining_buildValue {target : Target} {rules : FieldRules}
    {rulePrefix : List FieldPathElement} {value : ValueValidator R} {remaining : Option RulesType}
    (done : Builds (self.buildValue target rules rulePrefix) (value, remaining)) :
    itemsOf remaining = itemsOf rules.type ∧ entriesOf remaining = entriesOf rules.type := by
  obtain ⟨-, ⟨unset, -, -, rfl⟩ | ⟨standard, built, set, made, -, -, rfl⟩⟩ := builds_buildValue done
  · rw [unset]
    exact ⟨rfl, rfl⟩
  · obtain ⟨enum, path, -, native⟩ := made.checked
    rw [set]
    exact checks_remaining native

/-- The rules an item is validated by, if it is validated: the ones set, unless
they always ignore it, and those of its message type if it has one. -/
inductive ItemBuilt (self : Builder R) (target : Target) (rulePrefix : List FieldPathElement) :
    Option FieldRules → Option (ItemValidator R) → Prop
  | unset : ItemBuilt self target rulePrefix none
      (target.nested.map fun nested => ⟨false, { nested := some nested }⟩)
  | ignored {rules : FieldRules} : rules.ignore = some .always →
    ItemBuilt self target rulePrefix (some rules) none
  | set {rules : FieldRules} {value : ValueValidator R} {remaining : Option RulesType} :
    rules.ignore ≠ some .always →
    Builds (self.buildValue target rules rulePrefix) (value, remaining) →
    ItemBuilt self target rulePrefix (some rules) (some ⟨target.ignoreEmpty rules.ignore, value⟩)

theorem builds_buildItem {target : Target} {rules : Option FieldRules}
    {rulePrefix : List FieldPathElement} {item : Option (ItemValidator R)}
    (done : Builds (self.buildItem target rules rulePrefix) item) :
    ItemBuilt self target rulePrefix rules item := by
  unfold buildItem at done
  split at done
  · rw [builds_pure] at done
    exact done ▸ .unset
  · rename_i rules
    split at done
    · rename_i ignored
      rw [builds_pure] at done
      exact done ▸ .ignored ignored
    · rename_i kept
      simp only [builds_bind, builds_pure] at done
      obtain ⟨⟨value, remaining⟩, made, rfl⟩ := done
      exact .set kept made

/-- How a field's kind was built, from the rules of its items. -/
inductive KindBuilt (self : Builder R) (field : FieldDescriptor) (name : TargetName)
    (rules : Option RulesType) : DescriptorKind → FieldKind R → Prop
  | singular {kind : SingularKind} :
    KindBuilt self field name rules (.singular kind) .singular
  | list {element : SingularKind} {items : Option (ItemValidator R)} :
    ItemBuilt self (.item element name) [self.schema.repeated, self.schema.repeatedItems]
      (itemsOf rules) items →
    KindBuilt self field name rules (.list element) (.list items)
  | map {key : Scalar} {value : SingularKind} {keys values : Option (ItemValidator R)} :
    ItemBuilt self (.item (.scalar key) { name with entry := some "key" })
      [self.schema.map, self.schema.mapKeys] (entriesOf rules).1 keys →
    ItemBuilt self (.item value { name with entry := some "value" })
      [self.schema.map, self.schema.mapValues] (entriesOf rules).2 values →
    KindBuilt self field name rules (.map key value) (.map (entryElement field) keys values)

theorem builds_buildKind {field : FieldDescriptor} {target : Target}
    {remaining : Option RulesType} {kind : FieldKind R}
    (done : Builds (self.buildKind field target remaining) kind) :
    KindBuilt self field target.name remaining target.kind kind := by
  unfold buildKind at done
  split at done
  · rename_i singular
    rw [builds_pure] at done
    rw [singular, ← done]
    exact .singular
  · rename_i element list
    simp only [builds_bind, builds_mapErr, builds_pure] at done
    obtain ⟨items, made, rfl⟩ := done
    rw [list]
    exact .list (builds_buildItem made)
  · rename_i key value map
    simp only [builds_bind, builds_mapErr, builds_pure] at done
    obtain ⟨keys, first, values, second, rfl⟩ := done
    rw [map]
    exact .map (builds_buildItem first) (builds_buildItem second)

theorem builds_field {field : FieldDescriptor} {built : Field R}
    (done : Builds (self.field field) built) :
    ∃ type, built = .fromDescriptor field type ∧
      type = (messageType field).bind self.types ∧ type.isSome = (messageType field).isSome := by
  unfold Builder.field at done
  split at done
  · rename_i index held
    simp only [builds_bind, builds_pure, resolved, builds_orPanic] at done
    obtain ⟨type, found, rfl⟩ := done
    exact ⟨some type, rfl, by simp [held, found], by simp [held]⟩
  · rename_i held
    rw [builds_pure] at done
    exact ⟨none, done.symm, by simp [held], by simp [held]⟩

/-- What a field validator was built from. -/
structure FieldBuilt (builder : Builder R) (message : MessageDescriptor)
    (field : FieldDescriptor) (rules : FieldRules) (built : FieldValidator R) : Prop where
  validated : rules.ignore ≠ some .always
  value : ∃ remaining, Builds (builder.buildValue (.field message field) rules [])
    (built.value, remaining)
  kind : KindBuilt builder field ⟨message, field, none⟩ rules.type field.kind built.kind
  described : Builds (builder.field field) built.field
  element : built.element = pathElement field
  required : built.required = rules.required.getD false
  ignoreEmpty : built.ignoreEmpty = (Target.field message field).ignoreEmpty rules.ignore

theorem builds_buildField {message : MessageDescriptor} {field : FieldDescriptor}
    {rules : FieldRules} {built : FieldValidator R}
    (done : Builds (self.buildField message field rules) (some built)) :
    FieldBuilt self message field rules built := by
  unfold buildField at done
  split at done
  · simp [builds_pure] at done
  · rename_i validated
    simp only [builds_bind, builds_pure, Option.some.injEq] at done
    obtain ⟨⟨value, remaining⟩, first, kind, second, described, third, rfl⟩ := done
    have rest := remaining_buildValue first
    refine ⟨validated, ⟨remaining, first⟩, ?_, third, rfl, rfl, rfl⟩
    have made : KindBuilt self field ⟨message, field, none⟩ remaining field.kind kind :=
      builds_buildKind second
    generalize rules.type = type at rest ⊢
    generalize field.kind = held at made ⊢
    cases made with
    | singular => exact .singular
    | list items => exact .list (rest.1 ▸ items)
    | map keys values => exact .map (rest.2 ▸ keys) (rest.2 ▸ values)

/-- A field is left out, and cannot fail, when its rules always ignore it. -/
theorem buildField_ignored {message : MessageDescriptor} {field : FieldDescriptor}
    {rules : FieldRules} :
    Builds (self.buildField message field rules) none ↔ rules.ignore = some .always := by
  unfold buildField
  split
  · rename_i ignored
    simp [builds_pure, ignored]
  · rename_i kept
    simp only [builds_bind, builds_pure, kept, iff_false]
    rintro ⟨_, _, _, _, _, _, same⟩
    cases same

def alwaysIgnored (rules : Option FieldRules) : Bool :=
  rules.any fun rules => rules.ignore == some .always

/-- What an item validates beyond its own rules. -/
theorem ItemBuilt.nested {target : Target} {rulePrefix : List FieldPathElement}
    {rules : Option FieldRules} {item : Option (ItemValidator R)}
    (built : ItemBuilt self target rulePrefix rules item) :
    item.bind (·.value.nested) =
      if alwaysIgnored rules then none else target.nested := by
  cases built with
  | unset => cases target.nested <;> rfl
  | ignored ignored => simp [alwaysIgnored, ignored]
  | set kept made =>
    rw [alwaysIgnored, Option.any_some, beq_eq_false_iff_ne.mpr kept]
    exact (builds_buildValue made).1

/-- The message type whose own rules are validated for what a field holds:
there is none for a container whose items are always ignored. -/
def heldType (kind : DescriptorKind) (rules : Option RulesType) : Option MessageIndex :=
  match kind with
  | .singular (.message index) => some index
  | .list (.message index) => if alwaysIgnored (itemsOf rules) then none else some index
  | .map _ (.message index) => if alwaysIgnored (entriesOf rules).2 then none else some index
  | _ => none

theorem heldType_messageType {field : FieldDescriptor} {rules : Option RulesType}
    {index : MessageIndex} (held : heldType field.kind rules = some index) :
    messageType field = some index := by
  unfold heldType at held
  unfold messageType
  split at held
  · rename_i kind
    simpa [kind] using held
  · rename_i kind
    split at held
    · cases held
    · simpa [kind] using held
  · rename_i kind
    split at held
    · cases held
    · simpa [kind] using held
  · cases held

theorem FieldBuilt.nestedType {message : MessageDescriptor} {field : FieldDescriptor}
    {rules : FieldRules} {built : FieldValidator R}
    (done : FieldBuilt self message field rules built) :
    nestedType built = heldType field.kind rules.type := by
  obtain ⟨remaining, value⟩ := done.value
  have nested := (builds_buildValue value).1
  have kind := done.kind
  unfold Protovalidate.nestedType heldType
  rw [nested]
  simp only [Target.field, Target.nested]
  cases held : field.kind with
  | singular single =>
    rw [held] at kind
    generalize built.kind = builtKind at kind
    cases kind with
    | singular => cases single <;> rfl
  | list element =>
    rw [held] at kind
    generalize built.kind = builtKind at kind
    cases kind with
    | list items =>
      have inner := items.nested
      cases element with
      | message index => simpa [Target.item, Target.nested] using inner
      | _ => simpa [Target.item, Target.nested] using inner
  | map key value =>
    rw [held] at kind
    generalize built.kind = builtKind at kind
    cases kind with
    | map keys values =>
      have inner := values.nested
      cases value with
      | message index => simpa [Target.item, Target.nested] using inner
      | _ => simpa [Target.item, Target.nested] using inner

/-- What becomes of one field of a message: it is left out, or built from its
rules. -/
inductive EntryBuilt (self : Builder R) (message : MessageDescriptor) (members : List String)
    (field : FieldDescriptor) : Option (Except String (FieldValidator R)) → Prop
  | unruled : field.fieldRules = none → messageType field = none →
    EntryBuilt self message members field none
  | ignored : Builds (self.buildField message field (fieldRules members field)) none →
    EntryBuilt self message members field none
  | built {validator : FieldValidator R} :
    FieldBuilt self message field (fieldRules members field) validator →
    EntryBuilt self message members field (some (.ok validator))
  | failed (error : String) :
    (self.buildField message field (fieldRules members field)).run = .ok (.error error) →
    EntryBuilt self message members field (some (.error error))

theorem builds_fieldEntry {message : MessageDescriptor} {members : List String}
    {field : FieldDescriptor} {entry : Option (Except String (FieldValidator R))}
    (done : Builds (self.fieldEntry message members field) entry) :
    EntryBuilt self message members field entry := by
  unfold fieldEntry at done
  split at done
  · rename_i unruled
    simp only [Bool.and_eq_true, Option.isNone_iff_eq_none] at unruled
    rw [builds_pure] at done
    exact done ▸ .unruled unruled.1 unruled.2
  · simp only [builds_bind, builds_caught] at done
    obtain ⟨result, made, done⟩ := done
    rcases result with error | (_ | validator)
    · rw [builds_pure] at done
      exact done ▸ .failed error made
    · rw [builds_pure] at done
      exact done ▸ .ignored made
    · rw [builds_pure] at done
      exact done ▸ .built (builds_buildField made)

theorem fails_field {field : FieldDescriptor} {error : String} :
    ¬ Fails (self.field field) error := by
  unfold Builder.field
  split
  · intro failed
    rcases fails_bind.mp failed with failed | ⟨type, -, failed⟩
    · exact fails_orPanic failed
    · exact fails_pure failed
  · exact fails_pure

theorem fails_requiredOneofs {message : MessageDescriptor} {error : String} :
    ¬ Fails (self.requiredOneofs message) error := by
  intro failed
  obtain ⟨oneof, -, failed⟩ := fails_mapM failed
  rcases fails_bind.mp failed with failed | ⟨members, -, failed⟩
  · obtain ⟨member, -, failed⟩ := fails_mapM failed
    exact fails_field failed
  · exact fails_pure failed

theorem fails_fieldEntry {message : MessageDescriptor} {members : List String}
    {field : FieldDescriptor} {error : String} :
    ¬ Fails (self.fieldEntry message members field) error := by
  unfold fieldEntry
  split
  · exact fails_pure
  · intro failed
    rcases fails_bind.mp failed with failed | ⟨result, -, failed⟩
    · exact fails_caught failed
    · cases result <;> exact fails_pure failed

/-- The rules of a message itself, on its oneofs and in CEL. -/
def messageLevel (builder : Builder R) (message : MessageDescriptor) :
    BuildM (MessageLevel R × Option CelPrograms) := do
  let level ← builder.messageOneofs message (message.messageRules.elim [] (·.oneof))
  let cel ← builder.messageCel message
  return (level, cel)

/-- A message does not compile when its own rules do not. What does not compile
of a field is kept in the field. -/
theorem fails_buildMessage {index : MessageIndex} {error : String} :
    Fails (self.buildMessage index) error ↔
      Fails (self.messageLevel (self.pool.message index)) error := by
  constructor
  · intro failed
    rcases fails_bind.mp failed with failed | ⟨level, built, failed⟩
    · exact fails_bind.mpr (.inl failed)
    · refine fails_bind.mpr (.inr ⟨level, built, ?_⟩)
      rcases fails_bind.mp failed with failed | ⟨cel, -, failed⟩
      · exact fails_bind.mpr (.inl failed)
      · rcases fails_bind.mp failed with failed | ⟨fields, -, failed⟩
        · obtain ⟨field, -, failed⟩ := fails_mapM failed
          exact absurd failed fails_fieldEntry
        · rcases fails_bind.mp failed with failed | ⟨type, -, failed⟩
          · exact absurd failed fails_orPanic
          · rcases fails_bind.mp failed with failed | ⟨oneofs, -, failed⟩
            · exact absurd failed fails_requiredOneofs
            · exact absurd failed fails_pure
  · intro failed
    rcases fails_bind.mp failed with failed | ⟨level, built, failed⟩
    · exact fails_bind.mpr (.inl failed)
    · refine fails_bind.mpr (.inr ⟨level, built, ?_⟩)
      rcases fails_bind.mp failed with failed | ⟨cel, -, failed⟩
      · exact fails_bind.mpr (.inl failed)
      · exact absurd failed fails_pure

/-- What a message validator was built from. -/
structure MessageBuilt (builder : Builder R) (index : MessageIndex)
    (built : MessageValidator R) : Prop where
  resolved : builder.types index = some built.messageType
  messageOneofs : ∃ level, Builds (builder.messageOneofs (builder.pool.message index)
    ((builder.pool.message index).messageRules.elim [] (·.oneof))) level ∧
    built.messageOneofs = level.oneofs ∧
    ∃ entries, List.Forall₂ (EntryBuilt builder (builder.pool.message index) level.members)
      (builder.pool.message index).fields entries ∧ built.fields = entries.reduceOption
  oneofs : Builds (builder.requiredOneofs (builder.pool.message index)) built.oneofs

theorem builds_buildMessage {index : MessageIndex} {built : MessageValidator R}
    (done : Builds (self.buildMessage index) built) : MessageBuilt self index built := by
  simp only [buildMessage, builds_bind, builds_pure] at done
  obtain ⟨level, named, cel, -, entries, fields, type, resolved, oneofs, required, rfl⟩ := done
  refine ⟨builds_orPanic.mp resolved, ⟨level, named, rfl, entries, ?_, rfl⟩, required⟩
  exact (builds_mapM.mp fields).imp fun _ _ entry => builds_fieldEntry entry

/-- The compiled fields of a message validator are built from fields of its
message. -/
theorem MessageBuilt.compiled {index : MessageIndex} {built : MessageValidator R}
    (done : MessageBuilt self index built) {compiled : FieldValidator R}
    (present : .ok compiled ∈ built.fields) :
    ∃ field ∈ (self.pool.message index).fields, ∃ members,
      FieldBuilt self (self.pool.message index) field (fieldRules members field) compiled := by
  obtain ⟨level, -, -, entries, made, fields⟩ := done.messageOneofs
  rw [fields, List.reduceOption_mem_iff] at present
  obtain ⟨field, member, entry⟩ := exists_left made present
  cases entry with
  | built validator => exact ⟨field, member, level.members, validator⟩

end Builder

/-- What is found under the keys a list of results was made for. -/
theorem lookup_mapM {κ β ε : Type} [BEq κ] [LawfulBEq κ] {f : κ → Except ε β} {keys : List κ}
    {made : List (κ × β)} (done : keys.mapM (fun k => (f k).map fun b => (k, b)) = .ok made) :
    (∀ k b, made.lookup k = some b → f k = .ok b) ∧
      ∀ k, (made.lookup k).isSome ↔ k ∈ keys := by
  induction keys generalizing made with
  | nil =>
    cases done
    simp
  | cons key keys ih =>
    rw [List.mapM_cons] at done
    cases first : f key with
    | error e =>
      rw [first] at done
      cases done
    | ok b =>
      cases rest : keys.mapM (fun k => (f k).map fun b => (k, b)) with
      | error e =>
        rw [first, rest] at done
        cases done
      | ok later =>
        rw [first, rest] at done
        cases done
        obtain ⟨found, keys⟩ := ih rest
        refine ⟨fun k b' => ?_, fun k => ?_⟩
        · rw [List.lookup_cons]
          by_cases same : k = key
          · subst same
            simp only [beq_self_eq_true, Option.some.injEq]
            rintro rfl
            exact first
          · rw [beq_false_of_ne same]
            exact found k b'
        · rw [List.lookup_cons, List.mem_cons]
          by_cases same : k = key
          · simp [same]
          · rw [beq_false_of_ne same, keys]
            simp [same]

/-- What building a closure makes: a message for each type of it. -/
structure ClosureBuilt {R : Runtime} (builder : Builder R) (root : MessageIndex)
    (known built : ValidatorCache R)
    (messages : MessageIndex → Option (Except String (MessageValidator R))) : Prop where
  made : ∀ index message, messages index = some message →
    (builder.buildMessage index).run = .ok message
  indices : ∀ index, (messages index).isSome ↔ index ∈ closure builder.pool root known
  built : built = fun index => (messages index).map fun message =>
    message.map (builder.embed (failureIn known messages) index)

theorem buildClosure_built {R : Runtime} {self : Builder R} {root : MessageIndex}
    {known built : ValidatorCache R} (done : self.buildClosure root known = .ok built) :
    ∃ messages, ClosureBuilt self root known built messages := by
  unfold Builder.buildClosure at done
  cases made : (closure self.pool root known).mapM (fun index =>
      (self.buildMessage index).run.map fun message => (index, message)) with
  | error panic => simp [made, bind, Except.bind] at done
  | ok messages =>
    simp only [made, bind, Except.bind, pure, Except.pure, Except.ok.injEq] at done
    obtain ⟨found, keys⟩ := lookup_mapM made
    exact ⟨(List.lookup · messages), found, keys, done.symm⟩

end Protovalidate
