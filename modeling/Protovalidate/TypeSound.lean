import Protovalidate.Typed

/-!
# The rules that are built read what the runtime returns

The builder compares the rules of a value with its kind by their names, and
picks the field of a wrapper. What it accepts is checked, and bound to `this`,
without a read of the wrong kind.
-/

namespace Protovalidate

open Recording Relation BuildM

/-- The messages with the names of the standard wrappers hold the scalar they
wrap in their first field. -/
def DescriptorPool.StandardWrappers (pool : DescriptorPool) : Prop :=
  ∀ index name, wrapperRules (pool.message index).fullName = some name →
    ∃ value s, (pool.message index).field 1 = some value ∧
      value.kind = .singular (.scalar s) ∧ typeName (scalarType s) = name

/-- Native checks read what their rules are about. -/
theorem checks_valueType {B : Backend} {kind : String} {rules rest : RulesType} {built : Checks}
    {path : Nat → List FieldPathElement} {enum : Option EnumIndex}
    (done : checks B kind rules path enum = .ok (built, rest)) :
    built.valueType = some rules.valueType := by
  cases rules with
  | timestamp r =>
    obtain ⟨made, -, same⟩ := map_eq_ok.mp done
    cases same
    rfl
  | string r =>
    obtain ⟨made, -, same⟩ := map_eq_ok.mp done
    cases same
    rfl
  | bytes r =>
    obtain ⟨made, -, same⟩ := map_eq_ok.mp done
    cases same
    rfl
  | _ r =>
    simp only [checks, Except.ok.injEq, Prod.mk.injEq] at done
    obtain ⟨rfl, -⟩ := done
    rfl

section Names
variable {rules : RulesType}

/-- Rules named after a scalar type are about its values. -/
theorem rulesName_scalar {s : Scalar} (named : rulesName rules = typeName (scalarType s)) :
    isScalarRules rules = true ∧ rules.valueType = s.valueType := by
  cases s <;> cases rules <;> first
    | exact ⟨rfl, rfl⟩
    | simp [rulesName, scalarType, typeName] at named

theorem rulesName_enum (named : rulesName rules = "enum") :
    isScalarRules rules = true ∧ rules.valueType = .enum := by
  cases rules <;> first
    | exact ⟨rfl, rfl⟩
    | simp [rulesName] at named

theorem rulesName_container {value : ValueType} {name : String}
    (container : (name = "repeated" ∧ value = .list) ∨ (name = "map" ∧ value = .map))
    (named : rulesName rules = name) : isScalarRules rules = false ∧ rules.valueType = value := by
  rcases container with ⟨rfl, rfl⟩ | ⟨rfl, rfl⟩ <;> cases rules <;> first
    | exact ⟨rfl, rfl⟩
    | simp [rulesName] at named

/-- The rules of a well-known type are about its messages, or it is a wrapper. -/
theorem wellKnownRules_cases {name : String}
    (known : wellKnownRules name = some (rulesName rules)) :
    (isScalarRules rules = false ∧ rules.valueType = .message) ∨
      wrapperRules name = some (rulesName rules) := by
  have messages : ∀ rulesField ∈ ["any", "duration", "field_mask", "timestamp"],
      some rulesField = some (rulesName rules) →
      isScalarRules rules = false ∧ rules.valueType = .message := by
    intro rulesField listed named
    cases rules <;> first
      | exact ⟨rfl, rfl⟩
      | simp_all [rulesName]
  unfold wellKnownRules at known
  split at known
  · exact .inl (messages _ (by simp) known)
  · split at known
    · exact .inl (messages _ (by simp) known)
    · split at known
      · exact .inl (messages _ (by simp) known)
      · split at known
        · exact .inl (messages _ (by simp) known)
        · exact .inr known

end Names

/-- The type of a made target whose value is an enum. -/
theorem Target.Made.enum {target : Target} (made : target.Made) {index : EnumIndex}
    (kind : target.kind = .singular (.enum index)) : target.type = .enum := by
  cases made with
  | field message field =>
    have held : field.kind = .singular (.enum index) := kind
    simp [Target.field, protoType, held]
  | item value name =>
    obtain rfl : value = .enum index := by simpa [Target.item] using kind
    rfl

theorem builds_mapM_option {α β : Type} {f : α → BuildM β} {value : Option α} {made : Option β}
    (done : Builds (value.mapM f) made) :
    (value = none ∧ made = none) ∨ ∃ a b, value = some a ∧ Builds (f a) b ∧ made = some b := by
  cases value with
  | none =>
    rw [Option.mapM_none, builds_pure] at done
    exact .inl ⟨rfl, done.symm⟩
  | some a =>
    rw [Option.mapM_some, ← bind_pure_comp, builds_bind] at done
    obtain ⟨b, built, done⟩ := done
    rw [builds_pure] at done
    exact .inr ⟨a, b, rfl, built, done.symm⟩

namespace Cel.Env

/-- There is an engine, which compiles some expressions. -/
def Compiles (env : Cel.Env) : Prop :=
  ∃ bound expressions program, env.compile bound expressions = .ok program

/-- An engine blames its argument for a message that it cannot parse. -/
def Parses (env : Cel.Env) : Prop :=
  env.Compiles → ∀ name bytes error, env.frame name bytes = .error error →
    ∃ message, error = .argument message

end Cel.Env

variable {R : Runtime}

/-- A validator for values of a kind. -/
structure ValueSound (env : Cel.Env) (pool : DescriptorPool) (kind : DescriptorKind)
    (validator : ValueValidator R) : Prop where
  fits : Fits pool kind validator.checks validator.wrapper
  compiles : validator.custom.isSome ∨ validator.predefined.isSome → env.Compiles
  nested : ∀ index, validator.nested = some index ↔ kind = .singular (.message index)

/-- A validator for fields of a kind, and for their items. -/
structure FieldSound (env : Cel.Env) (pool : DescriptorPool) (kind : DescriptorKind)
    (rules : FieldValidator R) : Prop where
  value : ValueSound env pool kind rules.value
  items : ∀ items, rules.kind = .list (some items) → ∃ element,
    kind = .list element ∧ ValueSound env pool (.singular element) items.value
  keys : ∀ element keys values, rules.kind = .map element (some keys) values → ∃ key value,
    kind = .map key value ∧ ValueSound env pool (.singular (.scalar key)) keys.value
  values : ∀ element keys values, rules.kind = .map element keys (some values) → ∃ key value,
    kind = .map key value ∧ ValueSound env pool (.singular value) values.value

namespace Builder
variable {self : Builder R}

/-- The rules that are taken for a target check values of its kind. -/
theorem StandardBuilt.fits {target : Target} {standard : RulesType} {built : StandardRules R}
    (made : target.Made) (wrappers : self.pool.StandardWrappers)
    (done : StandardBuilt self target standard built) :
    Fits self.pool target.kind built.checks built.wrapper := by
  obtain ⟨enum, path, through, native⟩ := done.checked
  have type : built.checks.valueType = some standard.valueType := checks_valueType native
  have expected := done.expected
  generalize built.wrapper = wrapper at through ⊢
  -- Rules that are not a scalar's read the value itself, or its wrapper elements.
  have container : isScalarRules standard = false → standard.valueType = target.kind.valueType →
      Fits self.pool target.kind built.checks wrapper := by
    intro container same
    cases through with
    | scalar scalar => rw [container] at scalar; cases scalar
    | unique repeated list _ _ _ _ =>
      subst repeated
      exact .unique list type
    | direct => exact .direct (same ▸ type)
  -- A scalar's rules go through the first field of a message.
  have scalar : isScalarRules standard = true →
      Builds (((self.message target).bind (·.field 1)).mapM self.field) wrapper := by
    intro scalar
    cases through with
    | scalar _ _ built => exact built
    | unique repeated => rw [repeated] at scalar; cases scalar
    | direct own => rw [own] at scalar; cases scalar
  unfold expectedRules at expected
  cases kind : target.kind with
  | list element =>
    simp only [kind, Option.some.injEq] at expected container
    obtain ⟨own, same⟩ := rulesName_container (.inl ⟨rfl, rfl⟩) expected.symm
    exact container own same
  | map key value =>
    simp only [kind, Option.some.injEq] at expected container
    obtain ⟨own, same⟩ := rulesName_container (.inr ⟨rfl, rfl⟩) expected.symm
    exact container own same
  | singular value =>
    cases value with
    | scalar s =>
      simp only [kind, Option.some.injEq, made.scalar kind] at expected
      obtain ⟨own, same⟩ := rulesName_scalar expected.symm
      have read := scalar own
      simp only [Builder.message, Target.value, kind, Option.bind_none, Option.mapM_none,
        builds_pure] at read
      subst read
      exact .direct (type.trans (congrArg some same))
    | enum index =>
      simp only [kind, Option.some.injEq, made.enum kind] at expected
      obtain ⟨own, same⟩ := rulesName_enum expected.symm
      have read := scalar own
      simp only [Builder.message, Target.value, kind, Option.bind_none, Option.mapM_none,
        builds_pure] at read
      subst read
      exact .direct (type.trans (congrArg some same))
    | message index =>
      simp only [kind] at expected container
      rcases wellKnownRules_cases expected with ⟨own, same⟩ | wraps
      · exact container own same
      · obtain ⟨value, s, first, held, named⟩ := wrappers index _ wraps
        obtain ⟨own, same⟩ := rulesName_scalar named.symm
        have read := scalar own
        simp only [Builder.message, Target.value, kind, Option.bind_some, first] at read
        rcases builds_mapM_option read with ⟨absent, -⟩ | ⟨_, described, same', built, rfl⟩
        · cases absent
        · cases same'
          obtain ⟨type', rfl, -⟩ := builds_field built
          have member : value ∈ (self.pool.message index).fields := List.mem_of_find?_eq_some first
          exact .wrapper rfl member held (same ▸ type)

theorem builds_compile {expressions : CelExpressions} {programs : Option CelPrograms}
    (done : Builds (self.compile expressions) programs) (some : programs.isSome) :
    self.env.Compiles := by
  unfold Builder.compile at done
  split at done
  · rw [builds_pure] at done
    rw [← done] at some
    cases some
  · dsimp only at done
    split at done
    · rename_i program compiled
      exact ⟨_, _, program, compiled⟩
    · split at done <;> exact absurd done builds_throw

theorem nested_iff (target : Target) (index : MessageIndex) :
    target.nested = some index ↔ target.kind = .singular (.message index) := by
  unfold Target.nested
  split
  · rename_i nested kind
    simp [kind]
  · rename_i other
    simp only [reduceCtorEq, false_iff]
    exact other index

theorem buildValue_sound {target : Target} {rules : FieldRules}
    {rulePrefix : List FieldPathElement} {value : ValueValidator R} {remaining : Option RulesType}
    (made : target.Made) (wrappers : self.pool.StandardWrappers)
    (done : Builds (self.buildValue target rules rulePrefix) (value, remaining)) :
    ValueSound self.env self.pool target.kind value := by
  have built := builds_buildValue done
  constructor
  · rcases built.2 with ⟨-, checks, wrapper, -⟩ | ⟨standard, taken, -, built, checks, wrapper, -⟩
    · rw [checks, wrapper]
      exact .none
    · rw [checks, wrapper]
      exact built.fits made wrappers
  · simp only [buildValue, builds_bind] at done
    obtain ⟨custom, compiled, done⟩ := done
    have customs : custom.isSome → self.env.Compiles := builds_compile compiled
    split at done
    · simp only [builds_bind, builds_pure, Prod.mk.injEq] at done
      obtain ⟨standard, -, predefined, compiled', rfl, -⟩ := done
      rintro (some | some)
      · exact customs some
      · exact builds_compile compiled' some
    · simp only [builds_pure, Prod.mk.injEq] at done
      obtain ⟨rfl, -⟩ := done
      rintro (some | some)
      · exact customs some
      · cases some
  · intro index
    rw [built.1]
    exact nested_iff target index

theorem ItemBuilt.sound {kind : SingularKind} {name : TargetName}
    {rulePrefix : List FieldPathElement} {rules : Option FieldRules}
    {built : Option (ItemValidator R)} (wrappers : self.pool.StandardWrappers)
    (done : ItemBuilt self (.item kind name) rulePrefix rules built) {item : ItemValidator R}
    (made : built = some item) : ValueSound self.env self.pool (.singular kind) item.value := by
  cases done with
  | unset =>
    obtain ⟨index, nested, rfl⟩ := Option.map_eq_some_iff.mp made
    refine ⟨.none, ?_, fun type => ?_⟩
    · rintro (some | some) <;> cases some
    · have held : (Target.item kind name).kind = .singular (.message index) :=
        (nested_iff _ _).mp nested
      have same : kind = .message index := by simpa [Target.item] using held
      simp [same]
  | ignored => cases made
  | set kept value =>
    cases made
    exact buildValue_sound (.item kind name) wrappers value

theorem FieldBuilt.sound {message : MessageDescriptor} {field : FieldDescriptor}
    {rules : FieldRules} {built : FieldValidator R} (wrappers : self.pool.StandardWrappers)
    (done : FieldBuilt self message field rules built) :
    FieldSound self.env self.pool field.kind built := by
  obtain ⟨remaining, value⟩ := done.value
  have kind := done.kind
  refine ⟨buildValue_sound (.field message field) wrappers value, ?_, ?_, ?_⟩
  · intro items same
    rw [same] at kind
    generalize field.kind = held at kind
    cases kind with
    | list built => exact ⟨_, rfl, built.sound wrappers rfl⟩
  · intro element keys values same
    rw [same] at kind
    generalize field.kind = held at kind
    cases kind with
    | map built _ => exact ⟨_, _, rfl, built.sound wrappers rfl⟩
  · intro element keys values same
    rw [same] at kind
    generalize field.kind = held at kind
    cases kind with
    | map _ built => exact ⟨_, _, rfl, built.sound wrappers rfl⟩

theorem buildMessage_compiles {index : MessageIndex} {built : MessageValidator R}
    (done : Builds (self.buildMessage index) built) (some : built.cel.isSome) :
    self.env.Compiles := by
  simp only [buildMessage, builds_bind, builds_pure] at done
  obtain ⟨level, -, cel, compiled, entries, -, type, -, oneofs, -, rfl⟩ := done
  unfold messageCel at compiled
  split at compiled
  · exact builds_compile compiled some
  · rw [builds_pure] at compiled
    rw [← compiled] at some
    cases some

end Builder

end Protovalidate
