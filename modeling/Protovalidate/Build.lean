import Protovalidate.Lib.Worklist
import Protovalidate.Native
import Mathlib.Data.List.ReduceOption
import Protovalidate.Rules

/-!
# Building validators from a message type's `buf.validate` options

Standard rules are checked natively where possible, with custom rules or
unknown predefined rules compiled as CEL programs. The structural rules are
checked by the validator directly. A message or field whose rules do not
compile is kept as the error, reported when validation reaches it.
-/

namespace Protovalidate

/-- Why a build panics: a type that was not resolved, or an incomplete
`buf.validate` schema. -/
inductive Panic
  | unresolved (fullName : String)
  | missing (what : String)
  deriving DecidableEq, Repr

/-- A step of the builder, which fails with the message of a rule that does not
compile, or panics. -/
abbrev BuildM := ExceptT String (Except Panic)

namespace BuildM
variable {α : Type}

def mapErr (f : String → String) (x : BuildM α) : BuildM α :=
  ExceptT.mk (x.run.map (Except.mapError f))

def orPanic (value : Option α) (panic : Panic) : BuildM α :=
  ExceptT.mk (match value with
    | some value => .ok (.ok value)
    | none => .error panic)

def ofExcept (x : Except String α) : BuildM α := ExceptT.mk (.ok x)

/-- Catches the message of a rule that does not compile. -/
def caught (x : BuildM α) : BuildM (Except String α) := ExceptT.mk (x.run.map Except.ok)

end BuildM

/-- How a dynamic rules message shows its fields, which depends on the fields
the pool gives the message and its extensions. -/
structure Reflection where
  /-- Whether a field is set that the pool does not know. -/
  hasUnknown : DescriptorPool → RulesType → Bool
  /-- The fields that are set, in the order they are visited. -/
  setFields : DescriptorPool → RulesType → List FieldDescriptor
  encode : RulesType → Bytes

/-- Compiles the rules of message types. -/
structure Builder (R : Runtime) where
  descriptors : Descriptors
  env : Cel.Env
  backend : Backend
  reflection : Reflection
  /-- The resolved type of every message these rules refer to. -/
  types : MessageIndex → Option R.MessageType

/-- The message types the fields of a message type hold. -/
def referenced (pool : DescriptorPool) (index : MessageIndex) : List MessageIndex :=
  (pool.message index).fields.filterMap messageType

/-- The message types of a pool, with an edge for each message-typed field. -/
def typeGraph (pool : DescriptorPool) : FiniteGraph MessageIndex where
  successors := referenced pool
  nodes := Finset.range pool.messages.length
  outside index absent := by
    have beyond : pool.messages[index]? = none := by simpa using absent
    simp [referenced, DescriptorPool.message, List.getD, beyond, DescriptorPool.emptyMessage]

/-- Every message type reachable from `root`, including `root` itself, that has
no rules in `known` yet. -/
def closure {R : Runtime} (pool : DescriptorPool) (root : MessageIndex)
    (known : ValidatorCache R) : List MessageIndex :=
  (typeGraph pool).search (fun index => (known index).isSome) [] [root]

/-- A message type with a field of another one: a singular field, the elements of
a list, or the values of a map. -/
def HasField (pool : DescriptorPool) (holder held : MessageIndex) : Prop :=
  ∃ field ∈ (pool.message holder).fields,
    field.kind = .singular (.message held) ∨ field.kind = .list (.message held) ∨
      ∃ key, field.kind = .map key (.message held)

theorem messageType_some {field : FieldDescriptor} {index : MessageIndex} :
    messageType field = some index ↔
      field.kind = .singular (.message index) ∨ field.kind = .list (.message index) ∨
        ∃ key, field.kind = .map key (.message index) := by
  unfold messageType
  split <;> simp_all

theorem mem_referenced {pool : DescriptorPool} {holder held : MessageIndex} :
    held ∈ referenced pool holder ↔ HasField pool holder held := by
  simp only [referenced, List.mem_filterMap, messageType_some, HasField]

/-- The search for the closure ends with each type once, and with exactly the types
that fields lead to from the root through types without rules in `known`. -/
theorem closure_exact {R : Runtime} (pool : DescriptorPool) (root : MessageIndex)
    (known : ValidatorCache R) :
    (closure pool root known).Nodup ∧ ∀ index, index ∈ closure pool root known ↔
      ∃ path : List MessageIndex, path.head? = some root ∧ path.getLast? = some index ∧
        path.IsChain (HasField pool) ∧ ∀ type ∈ path, known type = none := by
  refine ⟨FiniteGraph.search_nodup _ _ List.nodup_nil, fun index => ?_⟩
  have unknown : ∀ type, (known type).isSome = false ↔ known type = none := fun type => by
    cases known type <;> simp
  have edge : ∀ holder held,
      held ∈ (typeGraph pool).successors holder ↔ HasField pool holder held :=
    fun _ _ => mem_referenced
  rw [closure, FiniteGraph.mem_search, FiniteGraph.reached_iff_path]
  simp only [edge, unknown]

/-- Resolves every message type that the rules of `root`, or of a type
reachable from it, refer to. Types that `known` already has are copied from
there; the rest are looked up through `reader`. -/
def resolve {R : Runtime} (pool : DescriptorPool) (root : MessageIndex)
    (known : ValidatorCache R) (reader : String → Except R.Error R.MessageType) :
    Except R.Error (MessageIndex → Option R.MessageType) := do
  let referred := (closure pool root known).flatMap fun index => index :: referenced pool index
  let types ← referred.foldlM (fun (types : List (MessageIndex × R.MessageType)) index =>
    if (types.lookup index).isSome then
      return types
    else do
      let type ← (match known index with
        | some (.ok validator) => .ok validator.messageType
        | _ => reader (pool.message index).fullName : Except R.Error R.MessageType)
      return (index, type) :: types) []
  return fun index => types.lookup index

/-- How compile errors name a target: a field by its full name, and a map's
keys and values as the `key` and `value` fields of its entry type. -/
structure TargetName where
  message : MessageDescriptor
  field : FieldDescriptor
  /-- For a map's keys or values, `key` or `value`. -/
  entry : Option String

/-- A name in upper camel case. Field names are ASCII. -/
def upperCamel (upper : Bool) : List Char → List Char
  | [] => []
  | c :: rest =>
    if c = '_' then upperCamel true rest
    else if upper then c.toUpper :: upperCamel false rest
    else c :: upperCamel false rest

/-- The name of a map field's synthesized entry message, as the Protobuf
compiler forms it. -/
def mapEntryName (field : String) : String :=
  String.ofList (upperCamel true field.toList) ++ "Entry"

def TargetName.display (self : TargetName) : String :=
  self.message.fullName ++ "." ++
    match self.entry with
    | none => self.field.name
    | some part => mapEntryName self.field.name ++ "." ++ part

/-- The value a set of rules applies to. -/
structure Target where
  /-- The field's kind. An item of a container is singular. -/
  kind : DescriptorKind
  type : ProtoType
  presence : FieldPresence
  name : TargetName

def singularType : SingularKind → ProtoType
  | .scalar s => scalarType s
  | .enum _ => .enum
  | .message _ => .message

namespace Target

def field (message : MessageDescriptor) (field : FieldDescriptor) : Target where
  kind := field.kind
  type := protoType field
  presence := field.presence
  name := ⟨message, field, none⟩

/-- One list element or map key or value. -/
def item (kind : SingularKind) (name : TargetName) : Target where
  kind := .singular kind
  type := singularType kind
  presence := .implicit
  name := name

variable (self : Target)

/-- What one value is. -/
def value : SingularKind :=
  match self.kind with
  | .singular kind => kind
  | .list kind => kind
  | .map _ value => value

def isSingular : Bool :=
  match self.kind with
  | .singular _ => true
  | _ => false

/-- The message type of a singular message field, whose rules are evaluated
after the parent's. -/
def nested : Option MessageIndex :=
  match self.kind with
  | .singular (.message nested) => some nested
  | _ => none

/-- Whether rules with the given `ignore` skip an unset value. -/
def ignoreEmpty (ignore : Option Ignore) : Bool :=
  ignore == some .ifZeroValue || (self.isSingular && self.presence != .implicit)

end Target

/-- The CEL rules of one field or message, before compilation. -/
structure CelExpressions where
  rules : List CelRule
  /-- The rules message that `rules` is bound to while predefined rules run, as
  its full name and serialized bytes. -/
  bound : Option (String × Bytes)

def celRule (rule : Rule) (ruleFieldNumber : Int) (rulePath : List FieldPathElement) :
    CelRule where
  id := rule.id.getD ""
  message := rule.message.getD ""
  expression := rule.expression.getD ""
  ruleFieldNumber := ruleFieldNumber
  rulePath := rulePath

/-- The custom rules of a field or message. A bare expression is its own id,
and has no message. -/
def customRules (celExpression : List String) (cel : List Rule)
    (expressionPath rulePath : Nat → List FieldPathElement) : CelExpressions where
  rules :=
    celExpression.zipIdx.map (fun (expression, index) =>
      ⟨expression, "", expression, 0, expressionPath index⟩) ++
    cel.zipIdx.map (fun (rule, index) => celRule rule 0 (rulePath index))
  bound := none

def indexed (element : FieldPathElement) (index : Nat) : FieldPathElement :=
  { element with subscript := some (.index index) }

/-- The path element for a map field's entries, which carries the key and value
types alongside the field. -/
def entryElement (field : FieldDescriptor) : FieldPathElement :=
  match field.kind with
  | .map key value =>
    { pathElement field with
      keyType := some (scalarType key), valueType := some (singularType value) }
  | _ => pathElement field

/-- The message type of a field's values, whether the field holds them directly
or in its items. -/
def nestedType {R : Runtime} (field : FieldValidator R) : Option MessageIndex :=
  let items :=
    match field.kind with
    | .list items => items
    | .map _ _ values => values
    | .singular => none
  field.value.nested <|> items.bind (fun items => items.value.nested)

/-- Whether the rules are a scalar type's, which also apply to the type's
wrapper message. -/
def isScalarRules : RulesType → Bool
  | .repeated _ | .map _ | .any _ | .duration _ | .fieldMask _ | .timestamp _ => false
  | _ => true

/-- The `FieldRules` field for the scalar a wrapper message holds, or `none`
for a message that is not a wrapper. -/
def wrapperRules (typeName : String) : Option String :=
  if typeName = "google.protobuf.BoolValue" then some "bool"
  else if typeName = "google.protobuf.BytesValue" then some "bytes"
  else if typeName = "google.protobuf.DoubleValue" then some "double"
  else if typeName = "google.protobuf.FloatValue" then some "float"
  else if typeName = "google.protobuf.Int32Value" then some "int32"
  else if typeName = "google.protobuf.Int64Value" then some "int64"
  else if typeName = "google.protobuf.StringValue" then some "string"
  else if typeName = "google.protobuf.UInt32Value" then some "uint32"
  else if typeName = "google.protobuf.UInt64Value" then some "uint64"
  else none

/-- The `FieldRules` field whose rules apply to values of a well-known message
type: its own, or the wrapped scalar's for a wrapper. `none` for any other
message type, which takes no standard rules. -/
def wellKnownRules (typeName : String) : Option String :=
  if typeName = ANY then some "any"
  else if typeName = DURATION then some "duration"
  else if typeName = FIELD_MASK then some "field_mask"
  else if typeName = TIMESTAMP then some "timestamp"
  else wrapperRules typeName

/-- The name of the `FieldRules` field holding the rules, for messages. -/
def rulesName : RulesType → String
  | .float _ => "float"
  | .double _ => "double"
  | .int32 _ => "int32"
  | .int64 _ => "int64"
  | .uint32 _ => "uint32"
  | .uint64 _ => "uint64"
  | .sint32 _ => "sint32"
  | .sint64 _ => "sint64"
  | .fixed32 _ => "fixed32"
  | .fixed64 _ => "fixed64"
  | .sfixed32 _ => "sfixed32"
  | .sfixed64 _ => "sfixed64"
  | .bool _ => "bool"
  | .string _ => "string"
  | .bytes _ => "bytes"
  | .enum _ => "enum"
  | .repeated _ => "repeated"
  | .map _ => "map"
  | .any _ => "any"
  | .duration _ => "duration"
  | .fieldMask _ => "field_mask"
  | .timestamp _ => "timestamp"

/-- What the standard rules of a value build to. `remaining` is what is left of
them once the native checks took their fields. -/
structure StandardRules (R : Runtime) where
  checks : Checks
  wrapper : Option (Field R)
  predefined : CelExpressions
  remaining : RulesType

/-- A message's oneof rules, and the fields they name. -/
structure MessageLevel (R : Runtime) where
  oneofs : List (MessageOneof R)
  members : List String

/-- The rules of a field. A member of a message oneof is only validated when
set, unless it says otherwise. -/
def fieldRules (members : List String) (field : FieldDescriptor) : FieldRules :=
  let rules := field.fieldRules.getD ⟨[], [], none, none, none⟩
  if rules.ignore.isNone && members.contains field.name then
    { rules with ignore := some .ifZeroValue }
  else rules

namespace Builder
variable {R : Runtime} (self : Builder R)

def pool : DescriptorPool := self.descriptors.pool

def schema : Schema := self.descriptors.schema

/-- The resolved type of a message, found before any rules were built. -/
def resolved (index : MessageIndex) : BuildM R.MessageType :=
  .orPanic (self.types index) (.unresolved (self.pool.message index).fullName)

/-- Describes a field for the runtime, including the resolved type of the
messages it holds. -/
def field (field : FieldDescriptor) : BuildM (Field R) :=
  match messageType field with
  | some index => do return .fromDescriptor field (some (← self.resolved index))
  | none => return .fromDescriptor field none

/-- The expressions compiled together. The engine names none of them in its
error, so the one at fault is found by compiling each alone. -/
def compile (expressions : CelExpressions) : BuildM (Option CelPrograms) :=
  if expressions.rules.isEmpty then
    return none
  else
    let expression := fun (rule : CelRule) =>
      (⟨rule.expression, rule.ruleFieldNumber⟩ : Cel.Expression)
    match self.env.compile expressions.bound (expressions.rules.map expression) with
    | .ok program => return some ⟨program, expressions.rules⟩
    | .error error =>
      let culprit := expressions.rules.findSome? fun rule =>
        match self.env.compile expressions.bound [expression rule] with
        | .ok _ => none
        | .error error => some (rule.id, error)
      match culprit with
      | some (id, error) =>
        throw ("failed to compile expression " ++ id ++ ": " ++ error.message)
      | none => throw error.message

/-- The message type of a target's values, if they are messages. -/
def message (target : Target) : Option MessageDescriptor :=
  match target.value with
  | .message index => some (self.pool.message index)
  | _ => none

/-- The `FieldRules` field whose rules apply to the target: `repeated` and
`map` for the containers, whose elements' rules go under `items`, `keys` and
`values`; the scalar type's for a scalar, an enum or a wrapper; the well-known
type's for the others that have one. -/
def expectedRules (target : Target) : Option String :=
  match target.kind with
  | .list _ => some "repeated"
  | .map _ _ => some "map"
  | .singular (.message index) => wellKnownRules (self.pool.message index).fullName
  | .singular _ => some (typeName target.type)

/-- The rules message that the `FieldRules` field `typeField` holds. -/
def rulesMessage (typeField : String) : Option MessageIndex :=
  ((self.pool.message self.schema.fieldRules).fieldByName typeField).bind messageType

/-- The predefined CEL rules of a rule field that is set and has no native
check. `rulePath` places the field's path element. -/
def predefinedRules (index : MessageIndex) (rulePath : FieldPathElement → List FieldPathElement)
    (field : FieldDescriptor) : List CelRule :=
  -- `example` documents the field; its rule is `true`.
  if field.name = "example" then []
  else
    let element :=
      match self.pool.extensionFor index field.number with
      | some ext =>
        if ((self.pool.message index).field field.number).isNone then extensionPathElement ext
        else pathElement field
      | none => pathElement field
    match field.predefinedRules with
    | none => []
    | some option =>
      option.cel.map fun rule => celRule rule (fieldNumber field.number) (rulePath element)

/-- The checks of every rule field set in the rules message. Any rule field
still set afterwards, which is an extension or a field without a native check,
is evaluated with its predefined CEL expression instead. -/
def standardChecks (typeField : String) (standard : RulesType)
    (rulePrefix : List FieldPathElement) (enum : Option EnumIndex) :
    BuildM (Checks × CelExpressions × RulesType) := do
  let index ← .orPanic (self.rulesMessage typeField) (.missing ("FieldRules." ++ typeField))
  let message := self.pool.message index
  if self.reflection.hasUnknown self.pool standard then
    throw ("unknown rules in " ++ message.fullName)
  let typeElement ← .orPanic (self.schema.typeElement self.pool typeField)
    (.missing ("FieldRules." ++ typeField))
  let rulePath := fun (element : FieldPathElement) => rulePrefix ++ [typeElement, element]
  let ruleFieldPath := fun (number : Nat) =>
    rulePath (((message.field number).map pathElement).getD {})
  let (checks, remaining) ←
    .ofExcept (checks self.backend typeField standard ruleFieldPath enum)
  -- A check that is placed at a number without a field panics.
  let _ ← (placedNumbers self.backend typeField standard enum).mapM fun number =>
    .orPanic (message.field number)
      (.missing (message.fullName ++ " has a field " ++ toString number))
  let predefined :=
    (self.reflection.setFields self.pool remaining).flatMap (self.predefinedRules index rulePath)
  return (checks, ⟨predefined, some (message.fullName, self.reflection.encode standard)⟩,
    remaining)

/-- Fails unless `got` names the rules for the value's type. -/
def expectRules (target : Target) (got : String) : BuildM Unit :=
  match self.expectedRules target with
  | some expected =>
    if expected = got then pure ()
    else throw ("expected rule \"buf.validate.FieldRules." ++ expected ++
      "\", got \"buf.validate.FieldRules." ++ got ++ "\" on field \"" ++
      target.name.display ++ "\"")
  | none => throw ("mismatched message rules, \"buf.validate.FieldRules." ++ got ++
      "\" is not a valid rule for field \"" ++ target.name.display ++ "\"")

/-- The field a wrapper message, or a list's wrapper items, are checked through,
and the enum of a value of one. `unique()` compares scalars: wrapper elements
stand for the scalars they hold, and any other message element would fail every
validation. -/
def checkedThrough (target : Target) (standard : RulesType) :
    BuildM (Option (Field R) × Option EnumIndex) :=
  if isScalarRules standard then do
    let wrapper ← ((self.message target).bind (·.field 1)).mapM self.field
    return (wrapper,
      match target.kind with
      | .singular (.enum index) => some index
      | _ => none)
  else
    match standard, target.kind with
    | .repeated rules, .list (.message _) =>
      if rules.unique = some true then
        let wrapper := ((self.message target).filter
          (fun message => (wrapperRules message.fullName).isSome)).bind (·.field 1)
        match wrapper with
        | some wrapper => do return (some (← self.field wrapper), none)
        | none => throw "repeated.unique is not supported for message items"
      else return (none, none)
    | _, _ => return (none, none)

/-- The standard rules set in a `FieldRules`, after checking that they are the
rules for the value's type. -/
def standardRules (target : Target) (standard : RulesType)
    (rulePrefix : List FieldPathElement) : BuildM (StandardRules R) := do
  let got := rulesName standard
  self.expectRules target got
  let (wrapper, enum) ← self.checkedThrough target standard
  let (checks, predefined, remaining) ← self.standardChecks got standard rulePrefix enum
  return ⟨checks, wrapper, predefined, remaining⟩

/-- The rules of one value. `rulePrefix` is prepended to their rule paths. Also
returns what is left of the standard rules message once the native checks took
their fields from it. -/
def buildValue (target : Target) (rules : FieldRules) (rulePrefix : List FieldPathElement) :
    BuildM (ValueValidator R × Option RulesType) := do
  let custom ← self.compile (customRules rules.celExpression rules.cel
    (fun index => rulePrefix ++ [indexed self.schema.celExpression index])
    (fun index => rulePrefix ++ [indexed self.schema.cel index]))
  match rules.type with
  | some standard => do
    let standard ← self.standardRules target standard rulePrefix
    let predefined ← self.compile standard.predefined
    -- A message value's own type is validated after its rules. A container
    -- field's messages are its items', validated there.
    return (⟨custom, standard.checks, standard.wrapper, predefined, target.nested⟩,
      some standard.remaining)
  | none => return (⟨custom, .none, none, none, target.nested⟩, none)

/-- The validator of a container's items. -/
def buildItem (target : Target) (rules : Option FieldRules)
    (rulePrefix : List FieldPathElement) : BuildM (Option (ItemValidator R)) :=
  match rules with
  | none => return target.nested.map fun nested => ⟨false, { nested := some nested }⟩
  | some rules =>
    if rules.ignore = some .always then
      return none
    else do
      -- An item is not a container, so nothing of its standard rules remains
      -- once its checks are taken.
      let (value, _) ← self.buildValue target rules rulePrefix
      return some ⟨target.ignoreEmpty rules.ignore, value⟩

/-- The validators of the items inside a container field. `remaining` is what
is left of the field's standard rules once its own checks were taken from them,
which for a container is the rules of its items. -/
def buildKind (field : FieldDescriptor) (target : Target) (remaining : Option RulesType) :
    BuildM (FieldKind R) :=
  match target.kind with
  | .singular _ => return .singular
  | .list element => do
    let items :=
      match remaining with
      | some (.repeated repeated) => repeated.items
      | _ => none
    let items ← BuildM.mapErr
      (fun error => "failed to compile items rules for repeated " ++ target.name.display ++
        ": " ++ error)
      (self.buildItem (.item element target.name) items
        [self.schema.repeated, self.schema.repeatedItems])
    return .list items
  | .map key value => do
    let (keys, values) :=
      match remaining with
      | some (.map map) => (map.keys, map.values)
      | _ => (none, none)
    let entry := fun (part : String) => { target.name with entry := some part }
    let keys ← BuildM.mapErr
      (fun error => "failed to compile key rules for map " ++ target.name.display ++ ": " ++ error)
      (self.buildItem (.item (.scalar key) (entry "key")) keys
        [self.schema.map, self.schema.mapKeys])
    let values ← BuildM.mapErr
      (fun error =>
        "failed to compile value rules for map " ++ target.name.display ++ ": " ++ error)
      (self.buildItem (.item value (entry "value")) values
        [self.schema.map, self.schema.mapValues])
    return .map (entryElement field) keys values

/-- The validator of a field, or `none` when its rules say to always ignore
it. -/
def buildField (message : MessageDescriptor) (field : FieldDescriptor) (rules : FieldRules) :
    BuildM (Option (FieldValidator R)) :=
  if rules.ignore = some .always then
    return none
  else do
    let target := Target.field message field
    let (value, remaining) ← self.buildValue target rules []
    let kind ← self.buildKind field target remaining
    return some {
      field := ← self.field field
      element := pathElement field
      required := rules.required.getD false
      ignoreEmpty := target.ignoreEmpty rules.ignore
      value := value
      kind := kind }

/-- The fields a oneof rule names, none of them twice. -/
def oneofFields (message : MessageDescriptor) (seen : List String) :
    List String → BuildM (List (Field R))
  | [] => return []
  | name :: rest =>
    if seen.contains name then
      throw ("duplicate " ++ name ++ " in oneof rule for the message " ++ message.fullName)
    else
      match message.fieldByName name with
      | none => throw ("field " ++ name ++ " not found in message " ++ message.fullName)
      | some field => do
        let field ← self.field field
        let fields ← oneofFields message (name :: seen) rest
        return field :: fields

def messageOneof (message : MessageDescriptor) (oneof : MessageOneofRule) :
    BuildM (MessageOneof R) :=
  if oneof.fields.isEmpty then
    throw ("at least one field must be specified in oneof rule for the message " ++
      message.fullName)
  else do
    let fields ← self.oneofFields message [] oneof.fields
    return ⟨fields, String.intercalate ", " oneof.fields, oneof.required.getD false⟩

/-- The `(buf.validate.message).oneof` rules, and the fields they name. -/
def messageOneofs (message : MessageDescriptor) (rules : List MessageOneofRule) :
    BuildM (MessageLevel R) := do
  let oneofs ← rules.mapM (self.messageOneof message)
  return ⟨oneofs, rules.flatMap (·.fields)⟩

/-- The oneof declarations marked `required`. -/
def requiredOneofs (message : MessageDescriptor) : BuildM (List (OneofRequired R)) :=
  let required := message.oneofs.filter fun oneof =>
    oneof.oneofRules.any fun rules => rules.required.getD false
  required.mapM fun oneof => do
    let members ← (oneof.fieldIndices.filterMap (message.fields[·]?)).mapM self.field
    return ⟨oneofPathElement oneof.name, members⟩

/-- The validator of a field of a message, or why its rules did not compile;
`none` for a field without rules that holds no messages, and for one that is
always ignored. -/
def fieldEntry (message : MessageDescriptor) (members : List String) (field : FieldDescriptor) :
    BuildM (Option (Except String (FieldValidator R))) :=
  if field.fieldRules.isNone && (messageType field).isNone then
    return none
  else do
    match ← (self.buildField message field (fieldRules members field)).caught with
    | .ok validator => return validator.map .ok
    | .error error => return some (.error error)

/-- The custom rules of a message. -/
def messageCel (message : MessageDescriptor) : BuildM (Option CelPrograms) :=
  match message.messageRules with
  | some rules =>
    self.compile (customRules rules.celExpression rules.cel (fun _ => []) (fun _ => []))
  | none => return none

def buildMessage (index : MessageIndex) : BuildM (MessageValidator R) := do
  let message := self.pool.message index
  let level ← self.messageOneofs message (message.messageRules.elim [] (·.oneof))
  let cel ← self.messageCel message
  let fields ← message.fields.mapM (self.fieldEntry message level.members)
  return {
    messageType := ← self.resolved index
    cel := cel
    messageOneofs := level.oneofs
    oneofs := ← self.requiredOneofs message
    fields := fields.reduceOption }

/-- The compile error of a field whose message type did not compile. `failure`
is why a message type did not compile. -/
def embeddedError (failure : MessageIndex → Option String) (index : MessageIndex)
    (field : FieldValidator R) : Option String := do
  let nested ← nestedType field
  let error ← failure nested
  return "failed to compile embedded type " ++ (self.pool.message nested).fullName ++ " for " ++
    (self.pool.message index).fullName ++ "." ++ field.field.name ++ ": " ++ error

/-- A field whose message type did not compile does not compile either. -/
def embed (failure : MessageIndex → Option String) (index : MessageIndex)
    (validator : MessageValidator R) : MessageValidator R :=
  { validator with
    fields := validator.fields.map fun field =>
      match field with
      | .error error => .error error
      | .ok compiled =>
        match self.embeddedError failure index compiled with
        | some error => .error error
        | none => .ok compiled }

end Builder

/-- Why a message type did not compile, looked up in `known` and then in what
was built. -/
def failureIn {R : Runtime} (known built : ValidatorCache R) (nested : MessageIndex) :
    Option String :=
  match (known nested).or (built nested) with
  | some (.error error) => some error
  | _ => none

/-- Compiles the rules of `root` and of every message type reachable from it.
Types already in `known` are skipped. -/
def Builder.buildClosure {R : Runtime} (self : Builder R) (root : MessageIndex)
    (known : ValidatorCache R) : Except Panic (ValidatorCache R) := do
  let built ← (closure self.pool root known).mapM fun index =>
    (self.buildMessage index).run.map (fun message => (index, message))
  return fun index => (built.lookup index).map fun message =>
    message.map (self.embed (failureIn known (List.lookup · built)) index)

end Protovalidate
