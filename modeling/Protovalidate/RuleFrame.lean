import Protovalidate.RuleFields
import Protovalidate.BuildSpec

/-!
# No rule is dropped, and none is enforced twice

Over every rules message: the checks built are of the fields that are removed
from it, and what is left of it is queued to be evaluated with CEL.
-/

namespace Protovalidate

/-- A rule field as it is set in a rules message. -/
structure FieldState where
  number : Nat
  name : String
  content : Option Content
  /-- Whether its rules let every value through. -/
  accepts : Prop

def RuleField.state {ρ ν : Type} (rules : ρ) (field : RuleField ρ ν) : FieldState :=
  ⟨field.number, field.name, field.content rules, field.AcceptsAll rules⟩

/-- The fields of a rules message, in the order they are declared. -/
def ruleFields (B : Backend) (kind : String) : RulesType → List FieldState
  | .float r => (floatFields B kind).map (RuleField.state r)
  | .double r => (floatFields B kind).map (RuleField.state r)
  | .int32 r => (intFields kind 8).map (RuleField.state r)
  | .int64 r => (intFields kind 9).map (RuleField.state r)
  | .uint32 r => (intFields kind 8).map (RuleField.state r)
  | .uint64 r => (intFields kind 8).map (RuleField.state r)
  | .sint32 r => (intFields kind 8).map (RuleField.state r)
  | .sint64 r => (intFields kind 8).map (RuleField.state r)
  | .fixed32 r => (intFields kind 8).map (RuleField.state r)
  | .fixed64 r => (intFields kind 8).map (RuleField.state r)
  | .sfixed32 r => (intFields kind 8).map (RuleField.state r)
  | .sfixed64 r => (intFields kind 8).map (RuleField.state r)
  | .bool r => (boolFields kind).map (RuleField.state r)
  | .string r => (stringFields B kind).map (RuleField.state r)
  | .bytes r => (bytesFields B kind).map (RuleField.state r)
  | .enum r => (enumFields kind).map (RuleField.state r)
  | .repeated r => (repeatedFields kind).map (RuleField.state r)
  | .map r => (mapFields kind).map (RuleField.state r)
  | .any r => anyFields.map (RuleField.state r)
  | .duration r => (durationFields kind).map (RuleField.state r)
  | .fieldMask r => (fieldMaskFields kind).map (RuleField.state r)
  | .timestamp r => (timestampFields B kind).map (RuleField.state r)

def unknownFields : RulesType → List UnknownField
  | .float r | .double r => r.unknown
  | .int32 r | .int64 r | .uint32 r | .uint64 r | .sint32 r | .sint64 r | .fixed32 r
  | .fixed64 r | .sfixed32 r | .sfixed64 r => r.unknown
  | .bool r => r.unknown
  | .string r => r.unknown
  | .bytes r => r.unknown
  | .enum r => r.unknown
  | .repeated r => r.unknown
  | .map r => r.unknown
  | .any r => r.unknown
  | .duration r => r.unknown
  | .fieldMask r => r.unknown
  | .timestamp r => r.unknown

/-- The ids of checks. -/
def Checks.ruleIds : Checks → List String
  | .none => []
  | .bool checks => checks.map Check.id
  | .int checks | .uint checks | .duration checks => checks.map Check.id
  | .double checks => checks.map Check.id
  | .string checks => checks.map Check.id
  | .bytes checks => checks.map Check.id
  | .enum checks => checks.map Check.id
  | .list checks => checks.map Check.id
  | .map checks => checks.map Check.id
  | .timestamp checks => checks.map Check.id
  | .fieldMask checks => checks.map Check.id
  | .any checks => checks.map Check.id

theorem place_rulePaths {τ : Type} (path : Nat → List FieldPathElement) (checks : Unplaced τ) :
    (checks.place path).map Check.rulePath = (List.map Prod.fst checks).map path := by
  simp [Unplaced.place]

theorem place_keys {τ : Type} (path : Nat → List FieldPathElement) (checks : Unplaced τ) :
    (List.map Prod.fst checks).zip ((checks.place path).map Check.id) = checks.keys := by
  rw [Unplaced.place, List.map_map, List.zip_map']
  rfl

/-- The fields that are set, and the checks on the fields of these numbers,
account for each other. -/
structure Settled (fields : List FieldState) (numbers : List Nat) : Prop where
  covers : ∀ field ∈ fields, ∀ content, field.content = some content →
    isKept field.name = true ∨ field.number ∈ numbers ∨
      Unchecked field.name content ∧ field.accepts
  sound : ∀ number ∈ numbers, ∃ field ∈ fields, field.number = number ∧
    field.content.isSome ∧ isKept field.name = false

theorem Accounts.settled {ρ ν τ : Type} {rules : ρ} {checks : Unplaced τ}
    {fields : List (RuleField ρ ν)} (accounts : Accounts rules checks fields) :
    Settled (fields.map (RuleField.state rules)) (List.map Prod.fst checks) := by
  constructor
  · intro state member content set
    obtain ⟨field, present, rfl⟩ := List.mem_map.mp member
    rcases accounts.covers field present content set with kept | ⟨check, of, placed⟩ | unchecked
    · exact .inl kept
    · exact .inr (.inl (List.mem_map.mpr ⟨check, of, placed⟩))
    · exact .inr (.inr unchecked)
  · intro number member
    obtain ⟨check, of, rfl⟩ := List.mem_map.mp member
    obtain ⟨field, present, found⟩ := accounts.sound check of
    exact ⟨_, List.mem_map_of_mem present, found⟩

/-- What a field holds once its check is taken. -/
def FieldState.left (field : FieldState) : Option Content :=
  if isKept field.name then field.content else none

/-- What is left of rules: the kept fields, and those the native code does not
know. -/
structure Remains (B : Backend) (kind : String) (rules rest : RulesType) : Prop where
  name : rulesName rest = rulesName rules
  fields : (ruleFields B kind rest).map (fun field => (field.number, field.content)) =
    (ruleFields B kind rules).map fun field => (field.number, field.left)
  unknown : unknownFields rest = unknownFields rules

/-- Taking the checks out of a rules message leaves the kept fields. -/
def Strips {ρ ν : Type} (rules rest : ρ) (fields : List (RuleField ρ ν)) : Prop :=
  ∀ field ∈ fields, field.content rest = if isKept field.name then field.content rules else none

theorem Strips.states {ρ ν : Type} {rules rest : ρ} {fields : List (RuleField ρ ν)}
    (strips : Strips rules rest fields) :
    (fields.map (RuleField.state rest)).map (fun field => (field.number, field.content)) =
      (fields.map (RuleField.state rules)).map fun field => (field.number, field.left) := by
  rw [List.map_map, List.map_map]
  refine List.map_congr_left fun field member => ?_
  simp only [Function.comp, RuleField.state, FieldState.left, strips field member]
  rfl

section Strips
variable (B : Backend) (kind : String)

/-- The comparison fields are all taken. -/
theorem strips_comparison {ρ α β κ : Type} [LinearOrder κ] [NanOrder α κ] {display : α → String}
    {floating : Bool} {raw : ρ → OrderedRules β} {convert : β → α} {wrap : β → Content}
    {wrapList : List β → Content} {first : Nat} {rules rest : ρ}
    (taken : raw rest = ⟨none, none, none, [], []⟩) :
    Strips rules rest (comparisonFields display kind floating raw convert wrap wrapList first) := by
  simp [Strips, comparisonFields, constField, upperFields, lowerFields, inField, notInField,
    breaksField, breaksListField, taken, OrderedRules.lt, OrderedRules.lte, OrderedRules.gt,
    OrderedRules.gte, listContent, isKept]

theorem Strips.append {ρ ν : Type} {rules rest : ρ} {f g : List (RuleField ρ ν)}
    (first : Strips rules rest f) (second : Strips rules rest g) : Strips rules rest (f ++ g) :=
  List.forall_mem_append.mpr ⟨first, second⟩

theorem strips_int (example_ : Nat) (r : IntRules) :
    Strips r (integerChecks kind r).2 (intFields kind example_) :=
  .append (strips_comparison kind rfl) (by simp [Strips, exampleField, integerChecks, isKept])

theorem strips_duration (r : DurationRules) :
    Strips r (durationChecks kind r).2 (durationFields kind) :=
  .append (strips_comparison kind rfl) (by simp [Strips, exampleField, durationChecks, isKept])

theorem strips_float (r : FloatRules) : Strips r (floating B kind r).2 (floatFields B kind) :=
  .append (strips_comparison kind rfl)
    (by simp [Strips, breaksFlag, flagField, exampleField, floating, isKept])

theorem strips_timestamp {r rest : TimestampRules} {checks : Unplaced TimestampTest}
    (built : timestampChecks B kind r = .ok (checks, rest)) :
    Strips r rest (timestampFields B kind) ∧ rest.unknown = r.unknown := by
  simp only [timestampChecks, bind, Except.bind] at built
  split at built
  · contradiction
  · simp only [pure, Except.pure, Except.ok.injEq, Prod.mk.injEq] at built
    obtain ⟨-, rfl⟩ := built
    refine ⟨?_, rfl⟩
    simp [Strips, timestampFields, constField, upperFields, lowerFields, breaksField, breaksFlag,
      flagField, exampleField, TimestampRules.ordered, TimestampRules.ltNow, TimestampRules.gtNow,
      OrderedRules.lt, OrderedRules.lte, OrderedRules.gt, OrderedRules.gte, isKept]

theorem strips_bool (r : BoolRules) : Strips r (boolChecks kind r).2 (boolFields kind) := by
  simp [Strips, boolFields, boolChecks, breaksField, exampleField, isKept]

theorem strips_enum (r : EnumRules) (enum : Option EnumIndex) :
    Strips r (enumChecks kind r enum).2 (enumFields kind) := by
  simp [Strips, enumFields, enumChecks, breaksField, breaksListField, flagField, exampleField,
    listContent, isKept]

theorem strips_repeated (r : RepeatedRules FieldRules) :
    Strips r (repeatedChecks kind r).2 (repeatedFields kind) := by
  simp [Strips, repeatedFields, repeatedChecks, breaksField, flagField, isKept]

theorem strips_map (r : MapRules FieldRules) :
    Strips r (mapChecks kind r).2 (mapFields kind) := by
  simp [Strips, mapFields, mapChecks, breaksField, isKept]

theorem strips_fieldMask (r : FieldMaskRules) :
    Strips r (fieldMaskChecks kind r).2 (fieldMaskFields kind) := by
  simp [Strips, fieldMaskFields, fieldMaskChecks, breaksField, breaksListField, exampleField,
    listContent, isKept]

theorem strips_any (r : AnyRules) : Strips r (anyChecks kind r).2 anyFields := by
  simp [Strips, anyFields, anyChecks, listContent, isKept]

theorem strips_string {r rest : StringRules} {checks : Unplaced StrTest}
    (built : stringChecks B kind r = .ok (checks, rest)) :
    Strips r rest (stringFields B kind) ∧ rest.unknown = r.unknown := by
  simp only [stringChecks, bind, Except.bind] at built
  split at built
  · contradiction
  · simp only [pure, Except.pure, Except.ok.injEq, Prod.mk.injEq] at built
    obtain ⟨-, rfl⟩ := built
    refine ⟨?_, rfl⟩
    simp [Strips, stringFields, stringLengthFields, substringFields, patternField, wellKnownFields,
      stringFormatField, formatField, flagField, wellKnownRegexField, StringRules.wellKnownRegex,
      StringRules.uriRef, breaksField, breaksListField, exampleField, listContent, isKept]

theorem strips_bytes {r rest : BytesRules} {checks : Unplaced BytesTest}
    (built : bytesChecks B kind r = .ok (checks, rest)) :
    Strips r rest (bytesFields B kind) ∧ rest.unknown = r.unknown := by
  simp only [bytesChecks, bind, Except.bind] at built
  split at built
  · contradiction
  · simp only [pure, Except.pure, Except.ok.injEq, Prod.mk.injEq] at built
    obtain ⟨-, rfl⟩ := built
    refine ⟨?_, rfl⟩
    simp [Strips, bytesFields, bytesFormatFields, bytesFormatField, patternField, formatField,
      flagField, breaksField, breaksListField, exampleField, listContent, isKept]

end Strips

/-- The rules whose checks do not come in the order of their fields. -/
def nowAfterLower : RulesType → Bool
  | .timestamp r => r.nowAfterLower
  | _ => false

/-- The numbers of the fields of a rules message, as `validate.proto` declares
them. -/
def declaredNumbers : RulesType → List Nat
  | .float _ | .double _ => [1, 2, 3, 4, 5, 6, 7, 8, 9]
  | .int64 _ => [1, 2, 3, 4, 5, 6, 7, 9]
  | .int32 _ | .uint32 _ | .uint64 _ | .sint32 _ | .sint64 _ | .fixed32 _ | .fixed64 _
  | .sfixed32 _ | .sfixed64 _ => [1, 2, 3, 4, 5, 6, 7, 8]
  | .bool _ => [1, 2]
  | .string _ => [1, 19, 2, 3, 20, 4, 5, 6, 7, 8, 9, 23, 10, 11, 12, 13, 14, 15, 16, 17, 18, 21,
    22, 33, 26, 27, 28, 29, 30, 31, 32, 35, 37, 38, 24, 25, 34]
  | .bytes _ => [1, 13, 2, 3, 4, 5, 6, 7, 8, 9, 10, 11, 12, 15, 14]
  | .enum _ => [1, 2, 3, 4, 5]
  | .repeated _ => [1, 2, 3, 4]
  | .map _ => [1, 2, 4, 5]
  | .any _ => [2, 3]
  | .duration _ => [2, 3, 4, 5, 6, 7, 8, 9]
  | .fieldMask _ => [1, 2, 3, 4]
  | .timestamp _ => [2, 3, 4, 7, 5, 6, 8, 9, 10]

theorem ruleFields_numbers (B : Backend) (kind : String) (rules : RulesType) :
    (ruleFields B kind rules).map FieldState.number = declaredNumbers rules := by
  cases rules <;> rfl

theorem declaredNumbers_nodup (rules : RulesType) : (declaredNumbers rules).Nodup := by
  cases rules <;> simp [declaredNumbers]

/-- An enum rules message is checked against an enum when it needs one. -/
def EnumGiven (rules : RulesType) (enum : Option EnumIndex) : Prop :=
  ∀ r, rules = .enum r → r.definedOnly = some true → enum.isSome

/-- The native checks of a rules message, on the fields of these numbers, which
are placed by any `path`. -/
structure NativeBuilt (B : Backend) (kind : String) (rules : RulesType)
    (enum : Option EnumIndex) (rest : RulesType) (numbers : List Nat) : Prop where
  placed : ∀ path, ∃ built, checks B kind rules path enum = .ok (built, rest) ∧
    built.rulePaths = numbers.map path
  settled : EnumGiven rules enum → Settled (ruleFields B kind rules) numbers
  ordered : nowAfterLower rules = false →
    Follows ((ruleFields B kind rules).map FieldState.number) numbers
  once : EnumGiven rules enum → ∀ path built, checks B kind rules path enum = .ok (built, rest) →
    (numbers.zip built.ruleIds).Nodup
  declared : ∀ number ∈ numbers, number ∈ declaredNumbers rules
  remains : Remains B kind rules rest

section Checks
variable {B : Backend} {kind : String}

/-- From what is known of the checks of one rules message. -/
theorem NativeBuilt.intro {ρ ν τ : Type} {r left : ρ} {fields : List (RuleField ρ ν)}
    {taken : Unplaced τ} {rules rest : RulesType} {enum : Option EnumIndex}
    {wrap : List (Check τ) → Checks}
    (paths : ∀ checks, (wrap checks).rulePaths = checks.map Check.rulePath)
    (ids : ∀ checks, (wrap checks).ruleIds = checks.map Check.id)
    (made : ∀ path, checks B kind rules path enum = .ok (wrap (taken.place path), rest))
    (declared : ruleFields B kind rules = fields.map (RuleField.state r))
    (remaining : ruleFields B kind rest = fields.map (RuleField.state left))
    (name : rulesName rest = rulesName rules) (unknown : unknownFields rest = unknownFields rules)
    (strips : Strips r left fields) (accounts : EnumGiven rules enum → Accounts r taken fields)
    (order : nowAfterLower rules = false →
      Follows (fields.map RuleField.number) (List.map Prod.fst taken)) :
    NativeBuilt B kind rules enum rest (List.map Prod.fst taken) where
  placed path := ⟨_, made path, by rw [paths, place_rulePaths]⟩
  settled given := declared ▸ (accounts given).settled
  ordered inOrder := by
    rw [declared, List.map_map]
    exact order inOrder
  once given path built done := by
    obtain rfl : wrap (taken.place path) = built :=
      congrArg Prod.fst (Except.ok.inj ((made path).symm.trans done))
    have distinct := declaredNumbers_nodup rules
    rw [← ruleFields_numbers B kind, declared, List.map_map] at distinct
    rw [ids, place_keys]
    exact (accounts given).once distinct
  declared number member := by
    rw [← ruleFields_numbers B kind, declared, List.map_map]
    by_cases inOrder : nowAfterLower rules = false
    · exact (order inOrder).mem member
    · have given : EnumGiven rules enum := by
        rintro r rfl
        exact absurd rfl inOrder
      obtain ⟨check, of, rfl⟩ := List.mem_map.mp member
      obtain ⟨field, present, same, -⟩ := (accounts given).sound check of
      exact List.mem_map.mpr ⟨field, present, same⟩
  remains := ⟨name, by rw [declared, remaining, strips.states], unknown⟩

theorem NativeBuilt.of_places {ρ ν τ : Type} {r left : ρ} {fields : List (RuleField ρ ν)}
    {taken : Unplaced τ} {rules rest : RulesType} {enum : Option EnumIndex}
    {wrap : List (Check τ) → Checks} (strips : Strips r left fields)
    (places : Places r taken fields)
    (paths : ∀ checks, (wrap checks).rulePaths = checks.map Check.rulePath)
    (ids : ∀ checks, (wrap checks).ruleIds = checks.map Check.id)
    (made : ∀ path, checks B kind rules path enum = .ok (wrap (taken.place path), rest))
    (declared : ruleFields B kind rules = fields.map (RuleField.state r))
    (remaining : ruleFields B kind rest = fields.map (RuleField.state left))
    (name : rulesName rest = rulesName rules)
    (unknown : unknownFields rest = unknownFields rules) :
    NativeBuilt B kind rules enum rest (List.map Prod.fst taken) :=
  .intro paths ids made declared remaining name unknown strips (fun _ => places.toAccounts)
    (fun _ => places.order)

/-- Without an enum there is no check of `defined_only`, and there is one less. -/
theorem enumChecks_none (kind : String) (r : EnumRules) (enum : EnumIndex) :
    (List.map Prod.fst (enumChecks kind r none).1).Sublist
      (List.map Prod.fst (enumChecks kind r (some enum)).1) := by
  refine List.Sublist.map _ ((((List.Sublist.refl _).append ?_).append (.refl _)).append (.refl _))
  unfold whenTrue
  split
  · exact List.nil_sublist _
  · exact .refl _

theorem accounts_enum (kind : String) (r : EnumRules) (enum : Option EnumIndex)
    (given : EnumGiven (.enum r) enum) :
    Accounts r (enumChecks kind r enum).1 (enumFields kind) := by
  cases enum with
  | some enum => exact (places_enum kind r enum).toAccounts
  | none =>
    have unset : r.definedOnly ≠ some true := fun set => by simpa using given r rfl set
    have same : (enumChecks kind r none).1 = (enumChecks kind r (some 0)).1 := by
      simp [enumChecks, whenTrue, unset]
    rw [same]
    exact (places_enum kind r 0).toAccounts

theorem checks_built {rules rest : RulesType} {path : Nat → List FieldPathElement}
    {enum : Option EnumIndex} {built : Checks}
    (done : checks B kind rules path enum = .ok (built, rest)) :
    ∃ numbers, NativeBuilt B kind rules enum rest numbers := by
  cases rules with
  | float r | double r =>
    obtain ⟨-, rfl⟩ := Prod.mk.inj (Except.ok.inj done)
    exact ⟨_, .of_places (strips_float B kind r) (places_float B kind r) (fun _ => rfl)
      (fun _ => rfl) (fun _ => rfl) rfl rfl rfl rfl⟩
  | duration r =>
    obtain ⟨-, rfl⟩ := Prod.mk.inj (Except.ok.inj done)
    exact ⟨_, .of_places (strips_duration kind r) (places_duration kind r) (fun _ => rfl)
      (fun _ => rfl) (fun _ => rfl) rfl rfl rfl rfl⟩
  | bool r =>
    obtain ⟨-, rfl⟩ := Prod.mk.inj (Except.ok.inj done)
    exact ⟨_, .of_places (strips_bool kind r) (places_bool kind r) (fun _ => rfl)
      (fun _ => rfl) (fun _ => rfl) rfl rfl rfl rfl⟩
  | repeated r =>
    obtain ⟨-, rfl⟩ := Prod.mk.inj (Except.ok.inj done)
    exact ⟨_, .of_places (strips_repeated kind r) (places_repeated kind r) (fun _ => rfl)
      (fun _ => rfl) (fun _ => rfl) rfl rfl rfl rfl⟩
  | map r =>
    obtain ⟨-, rfl⟩ := Prod.mk.inj (Except.ok.inj done)
    exact ⟨_, .of_places (strips_map kind r) (places_map kind r) (fun _ => rfl)
      (fun _ => rfl) (fun _ => rfl) rfl rfl rfl rfl⟩
  | fieldMask r =>
    obtain ⟨-, rfl⟩ := Prod.mk.inj (Except.ok.inj done)
    exact ⟨_, .of_places (strips_fieldMask kind r) (places_fieldMask kind r) (fun _ => rfl)
      (fun _ => rfl) (fun _ => rfl) rfl rfl rfl rfl⟩
  | any r =>
    obtain ⟨-, rfl⟩ := Prod.mk.inj (Except.ok.inj done)
    exact ⟨_, .of_places (strips_any kind r) (places_any kind r) (fun _ => rfl)
      (fun _ => rfl) (fun _ => rfl) rfl rfl rfl rfl⟩
  | enum r =>
    obtain ⟨-, rfl⟩ := Prod.mk.inj (Except.ok.inj done)
    refine ⟨_, .intro (fun _ => rfl) (fun _ => rfl) (fun _ => rfl) rfl rfl rfl rfl
      (strips_enum kind r enum) (accounts_enum kind r enum) fun _ => ?_⟩
    cases enum with
    | some enum => exact (places_enum kind r enum).order
    | none => exact (places_enum kind r 0).order.sublist (enumChecks_none kind r 0)
  | string r =>
    simp only [checks] at done
    cases made : stringChecks B kind r with
    | error error => simp [made, Except.map] at done
    | ok taken =>
      obtain ⟨-, rfl⟩ := Prod.mk.inj (Except.ok.inj (made ▸ done))
      exact ⟨_, .of_places (strips_string B kind made).1 (places_string B kind made) (fun _ => rfl)
        (fun _ => rfl) (fun _ => by simp only [checks, made]; rfl) rfl rfl rfl
        (strips_string B kind made).2⟩
  | bytes r =>
    simp only [checks] at done
    cases made : bytesChecks B kind r with
    | error error => simp [made, Except.map] at done
    | ok taken =>
      obtain ⟨-, rfl⟩ := Prod.mk.inj (Except.ok.inj (made ▸ done))
      exact ⟨_, .of_places (strips_bytes B kind made).1 (places_bytes B kind made) (fun _ => rfl)
        (fun _ => rfl) (fun _ => by simp only [checks, made]; rfl) rfl rfl rfl
        (strips_bytes B kind made).2⟩
  | timestamp r =>
    simp only [checks] at done
    cases made : timestampChecks B kind r with
    | error error => simp [made, Except.map] at done
    | ok taken =>
      obtain ⟨-, rfl⟩ := Prod.mk.inj (Except.ok.inj (made ▸ done))
      have stripped := strips_timestamp B kind made
      exact ⟨_, .intro (fun _ => rfl) (fun _ => rfl) (fun _ => by simp only [checks, made]; rfl)
        rfl rfl rfl stripped.2 stripped.1 (fun _ => accounts_timestamp B kind made)
        (fun inOrder => (places_timestamp B kind made inOrder).order)⟩
  | int64 r =>
    obtain ⟨-, rfl⟩ := Prod.mk.inj (Except.ok.inj done)
    exact ⟨_, .of_places (strips_int kind 9 r) (places_int kind 9 r) (fun _ => rfl)
      (fun _ => rfl) (fun _ => rfl) rfl rfl rfl rfl⟩
  | _ r =>
    obtain ⟨-, rfl⟩ := Prod.mk.inj (Except.ok.inj done)
    exact ⟨_, .of_places (strips_int kind 8 r) (places_int kind 8 r) (fun _ => rfl)
      (fun _ => rfl) (fun _ => rfl) rfl rfl rfl rfl⟩

theorem NativeBuilt.placedNumbers_eq {rules rest : RulesType} {enum : Option EnumIndex}
    {numbers : List Nat} (whole : NativeBuilt B kind rules enum rest numbers) :
    placedNumbers B kind rules enum = numbers := by
  obtain ⟨built, made, paths⟩ := whole.placed fun number => List.replicate number {}
  rw [placedNumbers, made]
  simp [paths, Function.comp_def]

/-- Checks are placed at fields that the rules message is declared with. -/
theorem placedNumbers_declared {rules : RulesType} {enum : Option EnumIndex} :
    ∀ number ∈ placedNumbers B kind rules enum, number ∈ declaredNumbers rules := by
  intro number member
  cases made : checks B kind rules (fun number => List.replicate number {}) enum with
  | error error => simp [placedNumbers, made] at member
  | ok built =>
    obtain ⟨numbers, whole⟩ := checks_built made
    rw [whole.placedNumbers_eq] at member
    exact whole.declared number member

end Checks

/-- The targets that rules are built for: a field, or one item of a container. -/
inductive Target.Made : Target → Prop
  | field (message : MessageDescriptor) (field : FieldDescriptor) : Made (.field message field)
  | item (kind : SingularKind) (name : TargetName) : Made (.item kind name)

theorem typeName_scalar (s : Scalar) : typeName (scalarType s) ≠ "enum" := by
  cases s <;> decide

theorem ite_ne {α : Type} {c : Prop} [Decidable c] {a b x : α} (first : a ≠ x) (second : b ≠ x) :
    (if c then a else b) ≠ x := by
  split
  · exact first
  · exact second

theorem wellKnownRules_enum (name : String) : wellKnownRules name ≠ some "enum" := by
  unfold wellKnownRules wrapperRules
  repeat' apply ite_ne
  all_goals decide

/-- The type of a made target whose value is a scalar. -/
theorem Target.Made.scalar {target : Target} (made : target.Made) {s : Scalar}
    (kind : target.kind = .singular (.scalar s)) : target.type = scalarType s := by
  cases made with
  | field message field =>
    have held : field.kind = .singular (.scalar s) := kind
    simp [Target.field, protoType, held]
  | item value name =>
    obtain rfl : value = .scalar s := by simpa [Target.item] using kind
    rfl

namespace Builder

open BuildM

variable {R : Runtime} {self : Builder R}

/-- Enum rules are only taken by a value of an enum type. -/
theorem expectedRules_enum {target : Target} (made : target.Made)
    (expected : self.expectedRules target = some "enum") :
    ∃ index, target.kind = .singular (.enum index) := by
  unfold expectedRules at expected
  cases kind : target.kind with
  | list element => simp [kind] at expected
  | map key value => simp [kind] at expected
  | singular value =>
    cases value with
    | enum index => exact ⟨index, rfl⟩
    | message index =>
      simp only [kind] at expected
      exact absurd expected (wellKnownRules_enum _)
    | scalar s =>
      simp only [kind, Option.some.injEq, made.scalar kind] at expected
      exact absurd expected (typeName_scalar s)

/-- The enum that enum rules need is the value's. -/
theorem CheckedThrough.enumGiven {target : Target} {standard : RulesType}
    {wrapper : Option (Field R)} {enum : Option EnumIndex} (made : target.Made)
    (expected : self.expectedRules target = some (rulesName standard))
    (through : CheckedThrough self target standard wrapper enum) : EnumGiven standard enum := by
  rintro r rfl -
  obtain ⟨index, kind⟩ := expectedRules_enum made expected
  cases through with
  | scalar _ taken _ => rw [taken, kind]; rfl
  | unique same => cases same
  | direct container => cases container

end Builder

/-- The numbers of the fields that are set. -/
def setNumbers (B : Backend) (rules : RulesType) : List Nat :=
  (ruleFields B (rulesName rules) rules).filterMap
      (fun field => field.content.map fun _ => field.number) ++
    (unknownFields rules).map UnknownField.number

/-- The numbers of the fields that are set and have no native check. -/
def leftNumbers (B : Backend) (rules : RulesType) : List Nat :=
  (ruleFields B (rulesName rules) rules).filterMap
      (fun field => field.left.map fun _ => field.number) ++
    (unknownFields rules).map UnknownField.number

theorem Remains.setNumbers {B : Backend} {rules rest : RulesType}
    (remains : Remains B (rulesName rules) rules rest) :
    setNumbers B rest = leftNumbers B rules := by
  have numbers : ∀ states : List FieldState, ∀ held : FieldState → Option Content,
      states.filterMap (fun field => (held field).map fun _ => field.number) =
        (states.map fun field => (field.number, held field)).filterMap
          fun entry => entry.2.map fun _ => entry.1 := by
    intro states held
    rw [List.filterMap_map]
    rfl
  unfold Protovalidate.setNumbers leftNumbers
  rw [remains.name, remains.unknown, numbers, numbers, remains.fields]

/-- The fields that a pool gives a message, and its extensions. -/
def declaredFields (pool : DescriptorPool) (index : MessageIndex) : List FieldDescriptor :=
  (pool.message index).fields ++
    (pool.extensions.filter fun ext => ext.extendee == index).map ExtensionDescriptor.field

namespace Builder

open BuildM

variable {R : Runtime}

/-- The fields a rules message shows as set are those of the pool that are. It says
nothing of `hasUnknown`: rules with an unknown field are refused before their set fields
are read. -/
def Reflects (builder : Builder R) : Prop :=
  ∀ rules index, builder.rulesMessage (rulesName rules) = some index →
    (builder.reflection.setFields builder.pool rules).Perm
      ((declaredFields builder.pool index).filter fun field =>
        (setNumbers builder.backend rules).contains field.number)

/-- The path element of a rule field: an extension is named in brackets. -/
def ruleElement (builder : Builder R) (index : MessageIndex) (field : FieldDescriptor) :
    FieldPathElement :=
  match builder.pool.extensionFor index field.number with
  | some ext =>
    if ((builder.pool.message index).field field.number).isNone then extensionPathElement ext
    else pathElement field
  | none => pathElement field

/-- The CEL rules of rule fields that have a predefined option. `example`
documents the field. -/
def queued (builder : Builder R) (index : MessageIndex)
    (rulePath : FieldPathElement → List FieldPathElement) (fields : List FieldDescriptor) :
    List CelRule :=
  (fields.filter fun field => field.name != "example").flatMap fun field =>
    (field.predefinedRules.elim [] (·.cel)).map fun rule =>
      celRule rule (fieldNumber field.number) (rulePath (builder.ruleElement index field))

variable {self : Builder R}

theorem predefinedRules_queued (index : MessageIndex)
    (rulePath : FieldPathElement → List FieldPathElement) (fields : List FieldDescriptor) :
    fields.flatMap (self.predefinedRules index rulePath) = self.queued index rulePath fields := by
  induction fields with
  | nil => rfl
  | cons field fields ih =>
    rw [List.flatMap_cons, ih, queued, queued]
    by_cases example_ : field.name = "example"
    · simp [predefinedRules, example_]
    · have visited : (field.name != "example") = true := by simpa using example_
      simp only [List.filter_cons, visited, if_true, List.flatMap_cons]
      congr 1
      unfold predefinedRules ruleElement
      rw [if_neg example_]
      cases field.predefinedRules <;> rfl

/-- For the rules set in a `FieldRules`, what is left of them once the native
checks are built is the fields that have none, as they were. Every field that
was taken has a check at its rule path or lets every value through, every check
is of a field that was taken and that the message has, none is made twice for one field,
and predefined CEL is queued for the fields that are left. -/
theorem rules_accounted {target : Target} {standard : RulesType}
    {rulePrefix : List FieldPathElement} {built : StandardRules R} (made : target.Made)
    (reflects : self.Reflects)
    (done : Builds (self.standardRules target standard rulePrefix) built) :
    ∃ index typeElement numbers,
      self.rulesMessage (rulesName standard) = some index ∧
      self.schema.typeElement self.pool (rulesName standard) = some typeElement ∧
      built.checks.rulePaths = numbers.map (self.ruleFieldPath index rulePrefix typeElement) ∧
      Settled (ruleFields self.backend (rulesName standard) standard) numbers ∧
      (numbers.zip built.checks.ruleIds).Nodup ∧
      (∀ number ∈ numbers, ((self.pool.message index).field number).isSome) ∧
      ((ruleFields self.backend (rulesName standard) standard).map FieldState.number).Nodup ∧
      Remains self.backend (rulesName standard) standard built.remaining ∧
      built.predefined.rules.Perm
        (self.queued index (fun element => rulePrefix ++ [typeElement, element])
          ((declaredFields self.pool index).filter fun field =>
            (leftNumbers self.backend standard).contains field.number)) := by
  simp only [standardRules, builds_bind, builds_pure] at done
  obtain ⟨_, expected, ⟨wrapper, enum⟩, through, ⟨taken, predefined, remaining⟩, native, rfl⟩ :=
    done
  have given := (builds_checkedThrough through).enumGiven made (builds_expectRules expected)
  obtain ⟨index, typeElement, message, element, native, placed, rules⟩ :=
    builds_standardChecks native
  obtain ⟨numbers, whole⟩ := checks_built native
  obtain ⟨taken', again, paths⟩ := whole.placed (self.ruleFieldPath index rulePrefix typeElement)
  obtain rfl : taken' = taken := congrArg Prod.fst (Except.ok.inj (again.symm.trans native))
  refine ⟨index, typeElement, numbers, message, element, paths, whole.settled given,
    whole.once given _ _ native, whole.placedNumbers_eq ▸ placed, ?_, whole.remains, ?_⟩
  · rw [ruleFields_numbers]
    exact declaredNumbers_nodup standard
  · have visited := reflects remaining index (by rw [whole.remains.name]; exact message)
    rw [whole.remains.setNumbers] at visited
    show predefined.rules.Perm _
    rw [rules, ← predefinedRules_queued]
    exact visited.flatMap_right _

end Builder

/-- A reflection over the schema's own fields and extensions. -/
def schemaReflection (B : Backend) (schema : Schema) : Reflection where
  hasUnknown _ _ := false
  setFields pool rules :=
    match ((pool.message schema.fieldRules).fieldByName (rulesName rules)).bind messageType with
    | some index =>
      (declaredFields pool index).filter fun field => (setNumbers B rules).contains field.number
    | none => []
  encode _ := []

theorem reflects_schema {R : Runtime} (builder : Builder R)
    (reflection : builder.reflection = schemaReflection builder.backend builder.schema) :
    builder.Reflects := by
  intro rules index message
  have found : ((builder.pool.message builder.schema.fieldRules).fieldByName
      (rulesName rules)).bind messageType = some index := message
  rw [reflection]
  simp [schemaReflection, found]

def schemaField (number : Nat) (name : String) (kind : DescriptorKind)
    (predefined : Option PredefinedRules) (allowed : number ≤ maxFieldNumber) :
    FieldDescriptor where
  number := number
  name := name
  kind := kind
  presence := .explicit
  isDelimited := false
  fieldRules := none
  predefinedRules := predefined
  numberAllowed := allowed
  messagePresence _ _ := by simp

/-- `BoolRules`, with an extension. -/
def boolSchema : DescriptorPool where
  messages := [
    { fullName := FIELD_RULES
      fields := [schemaField 13 "bool" (.singular (.message 1)) none (by decide)]
      oneofs := []
      messageRules := none
      numbersDistinct := by simp
      namesDistinct := by simp },
    { fullName := "buf.validate.BoolRules"
      fields := [
        schemaField 1 "const" (.singular (.scalar .bool)) (some ⟨[⟨"bool.const", none, none⟩]⟩)
          (by decide),
        schemaField 2 "example" (.list (.scalar .bool)) (some ⟨[⟨"bool.example", none, none⟩]⟩)
          (by decide)]
      oneofs := []
      messageRules := none
      numbersDistinct := by simp [schemaField]
      namesDistinct := by simp [schemaField] }]
  enums := []
  extensions := [⟨1, "ext", schemaField 1000 "ext" (.singular (.scalar .bool))
    (some ⟨[⟨"ext", none, none⟩]⟩) (by decide)⟩]
  linked := by simp [schemaField, messageType]

def boolSchemaBuilder : Builder ⟨Empty, Unit⟩ where
  descriptors := ⟨boolSchema, ⟨0, {}, {}, {}, {}, {}, {}, {}, {}⟩⟩
  env := ⟨fun _ _ => .error (.unexpected ""), fun name bytes => .ok ⟨name, bytes⟩⟩
  backend := Backend.bare
  reflection := schemaReflection Backend.bare ⟨0, {}, {}, {}, {}, {}, {}, {}, {}⟩
  types _ := some ()

/-- A constant, an example and an extension set in `BoolRules`. -/
def boolRulesSet : RulesType := .bool ⟨some true, [true], [⟨1000, []⟩]⟩

theorem rules_accounted_bool : ∃ built index typeElement numbers,
    BuildM.Builds (boolSchemaBuilder.standardRules
      (.item (.scalar .bool) ⟨DescriptorPool.emptyMessage, schemaField 1 "flag"
        (.singular (.scalar .bool)) none (by decide), none⟩) boolRulesSet []) built ∧
    built.checks.rulePaths =
      numbers.map (boolSchemaBuilder.ruleFieldPath index [] typeElement) ∧
    Settled (ruleFields Backend.bare "bool" boolRulesSet) numbers ∧
    (numbers.zip built.checks.ruleIds).Nodup ∧
    built.predefined.rules.Perm
      (boolSchemaBuilder.queued index (fun element => [] ++ [typeElement, element])
        ((declaredFields boolSchema index).filter fun field =>
          (leftNumbers Backend.bare boolRulesSet).contains field.number)) := by
  obtain ⟨built, done⟩ : ∃ built, BuildM.Builds (boolSchemaBuilder.standardRules
      (.item (.scalar .bool) ⟨DescriptorPool.emptyMessage, schemaField 1 "flag"
        (.singular (.scalar .bool)) none (by decide), none⟩) boolRulesSet []) built := ⟨_, rfl⟩
  obtain ⟨index, typeElement, numbers, -, -, paths, settled, once, -, -, -, queue⟩ :=
    Builder.rules_accounted (.item _ _) (reflects_schema boolSchemaBuilder rfl) done
  exact ⟨built, index, typeElement, numbers, done, paths, settled, once, queue⟩

end Protovalidate
